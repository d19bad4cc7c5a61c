import DataBridge.Websockets.Manager

namespace DataBridge

variable {ω μ : Type} [DecidableEq ω]

namespace ConnectionManager

/-- Without a broadcast in progress no key holds the empty set, and no key is left once all that
connected have disconnected. -/
def NoLeak (s : ConnectionManager ω μ) : Prop :=
  (∀ c ∈ s.broadcasts, c.phase = .returned) →
    s.connections.Pruned ∧ (s.sessions = ∅ → s.connections = Dict.empty)

/-- A clean-up that drops sockets finds another one still registered for its migration. -/
def LeavesSubscriber (s : ConnectionManager ω μ) : ManagerAction ω μ → Prop
  | .advance index .cleanUp => ∀ c ∈ s.broadcasts[index]?, c.stale ≠ [] →
      ∃ ws ∈ s.connections.members c.migrationId, ws ∉ c.stale
  | _ => True

instance (s : ConnectionManager ω μ) (a : ManagerAction ω μ) : Decidable (s.LeavesSubscriber a) := by
  unfold LeavesSubscriber
  split <;> infer_instance

/-- No key holds the empty set, and only connected sockets are registered. -/
structure Tidy (s : ConnectionManager ω μ) : Prop where
  pruned : s.connections.Pruned
  registered : ∀ migrationId, ∀ ws ∈ s.connections.members migrationId,
    (migrationId, ws) ∈ s.sessions

omit [DecidableEq ω] in
theorem Tidy.noLeak {s : ConnectionManager ω μ} (h : s.Tidy) : s.NoLeak := by
  intro _
  refine ⟨h.pruned, ?_⟩
  intro hnone
  apply h.pruned.eq_empty
  intro migrationId
  apply Finset.eq_empty_of_forall_notMem
  intro ws hws
  have hopen := h.registered migrationId ws hws
  rw [hnone] at hopen
  cases hopen

/-- A clean-up leaves no empty key just when it leaves a subscriber. -/
theorem pruned_registry_iff {c : Broadcast ω μ} {connections : SetDict String ω}
    (h : connections.Pruned) : (c.registry connections .cleanUp).Pruned ↔
      (c.stale ≠ [] → ∃ ws ∈ connections.members c.migrationId, ws ∉ c.stale) := by
  simp only [Broadcast.registry]
  split
  · rename_i hnone
    exact ⟨fun _ hstale => absurd hnone hstale, fun _ => h⟩
  · rename_i hstale
    rw [SetDict.pruned_discardAll_iff h _ hstale]
    exact ⟨fun hleft _ => hleft, fun hleft => hleft hstale⟩

/-- A broadcast registers no socket. -/
theorem mem_of_registry {c : Broadcast ω μ} {connections : SetDict String ω} {a : BroadcastStep ω}
    {migrationId : String} {ws : ω} (h : ws ∈ (c.registry connections a).members migrationId) :
    ws ∈ connections.members migrationId := by
  cases a with
  | cleanUp =>
    simp only [Broadcast.registry] at h
    split at h
    · exact h
    · exact ((SetDict.mem_discardAll _ _ _ _ _).mp h).1
  | _ => exact h

theorem Tidy.step {s t : ConnectionManager ω μ} {a : ManagerAction ω μ} (h : s.Tidy)
    (hleaves : s.LeavesSubscriber a) (hstep : s.step a = some t) : t.Tidy := by
  cases a with
  | clientState ws state => cases hstep; exact ⟨h.pruned, h.registered⟩
  | broadcast migrationId message => cases hstep; exact ⟨h.pruned, h.registered⟩
  | connect migrationId ws =>
    cases hstep
    refine ⟨h.pruned.add migrationId ws, ?_⟩
    intro id v hv
    rw [SetDict.members_add] at hv
    rw [Finset.mem_insert, Prod.mk.injEq]
    split at hv
    · rename_i hid
      subst hid
      exact (Finset.mem_insert.mp hv).imp (fun heq => ⟨rfl, heq⟩) (h.registered id v)
    · exact Or.inr (h.registered id v hv)
  | disconnect migrationId ws =>
    cases hstep
    refine ⟨h.pruned.discard_prune migrationId ws, ?_⟩
    intro id v hv
    rw [SetDict.members_prune, SetDict.members_discard] at hv
    rw [Finset.mem_erase, ne_eq, Prod.mk.injEq]
    split at hv
    · rename_i hid
      subst hid
      obtain ⟨hne, hmem⟩ := Finset.mem_erase.mp hv
      exact ⟨fun heq => hne heq.2, h.registered id v hmem⟩
    · rename_i hid
      exact ⟨fun heq => hid heq.1, h.registered id v hv⟩
  | advance index a =>
    obtain ⟨c, c', hc, -, ht⟩ := step_advance hstep
    subst ht
    refine ⟨?_, fun id v hv => h.registered id v (mem_of_registry hv)⟩
    cases a with
    | cleanUp => exact (pruned_registry_iff h.pruned).mpr (hleaves c (by rw [hc]; rfl))
    | _ => exact h.pruned

theorem tidy_of_reaches {clientState : ω → WebSocketState} {s : ConnectionManager ω μ}
    (h : (system ω μ).Reaches LeavesSubscriber (start clientState) s) : s.Tidy := by
  refine h.invariant (fun s a t hs hleaves hstep => hs.step hleaves hstep) ?_
  exact ⟨SetDict.Pruned.empty, fun _ ws hws => (by simp [start] at hws)⟩

/-- After the last clean-up in progress nothing has leaked just when it left a subscriber. -/
theorem Tidy.noLeak_cleanUp_iff {s t : ConnectionManager ω μ} {index : Nat} (h : s.Tidy)
    (hstep : s.step (.advance index .cleanUp) = some t)
    (hdone : ∀ c ∈ t.broadcasts, c.phase = .returned) :
    t.NoLeak ↔ s.LeavesSubscriber (.advance index .cleanUp) := by
  constructor
  · intro hlaw c hc
    obtain ⟨c₀, c', hc₀, -, ht⟩ := step_advance hstep
    rw [hc₀] at hc
    cases hc
    have hpruned := (hlaw hdone).1
    rw [ht] at hpruned
    exact (pruned_registry_iff h.pruned).mp hpruned
  · intro hleaves
    exact (h.step hleaves hstep).noLeak

/-- As long as every clean-up leaves a subscriber the registry does not leak, and the first that
leaves none leaks, if no other broadcast is in progress. -/
theorem registry_noLeak {clientState : ω → WebSocketState} {s : ConnectionManager ω μ}
    (h : (system ω μ).Reaches LeavesSubscriber (start clientState) s) :
    s.NoLeak ∧ ∀ index t, s.step (.advance index .cleanUp) = some t →
      (∀ c ∈ t.broadcasts, c.phase = .returned) →
        (t.NoLeak ↔ s.LeavesSubscriber (.advance index .cleanUp)) := by
  have htidy := tidy_of_reaches h
  exact ⟨htidy.noLeak, fun index t hstep hdone => htidy.noLeak_cleanUp_iff hstep hdone⟩

private def oneClient : ConnectionManager Nat String := start fun _ => .CONNECTED

private def twoClients : List (ManagerAction Nat String) :=
  [.connect "m" 0, .connect "m" 1, .broadcast "m" "hello", .advance 0 .snapshot,
    .advance 0 (.turn 0 .raised), .advance 0 (.turn 1 .sent), .advance 0 .cleanUp,
    .disconnect "m" 0, .disconnect "m" 1]

theorem registry_noLeak_twoClients : ∃ s, (system Nat String).run LeavesSubscriber oneClient
    twoClients = some s ∧ s.NoLeak := by
  have hrun : ∃ s, (system Nat String).run LeavesSubscriber oneClient twoClients = some s :=
    ⟨_, rfl⟩
  obtain ⟨s, hs⟩ := hrun
  exact ⟨s, hs, (registry_noLeak (Transition.reaches_of_run hs)).1⟩

private def closedWhileSending : List (ManagerAction Nat String) :=
  [.connect "m" 0, .broadcast "m" "hello", .advance 0 .snapshot, .advance 0 (.turn 0 .raised),
    .disconnect "m" 0, .advance 0 .cleanUp]

/-- A client that leaves while its send fails: the clean-up puts the key back, for good. -/
theorem cleanUp_leaks : ∃ s, (system Nat String).run Transition.anyAction oneClient
    closedWhileSending = some s ∧ s.sessions = ∅ ∧ s.connections.get? "m" = some ∅ ∧ ¬ s.NoLeak := by
  have hrun : ∃ s, (system Nat String).run Transition.anyAction oneClient closedWhileSending =
      some s ∧ s.sessions = ∅ ∧ s.connections.get? "m" = some ∅ ∧
        ∀ c ∈ s.broadcasts, c.phase = .returned :=
    ⟨_, rfl, by decide, by decide, by decide⟩
  obtain ⟨s, hs, hsessions, hkey, hdone⟩ := hrun
  refine ⟨s, hs, hsessions, hkey, ?_⟩
  intro hlaw
  exact Finset.not_nonempty_empty ((hlaw hdone).1 "m" ∅ hkey)

end ConnectionManager

end DataBridge

import DataBridge.Services.WebsocketService

namespace DataBridge

variable {ω μ : Type}

/-- After a change at one index every element is still there, but the one that stood there. -/
theorem mem_set_or {α : Type} {xs : List α} {i : Nat} {x : α} (h : xs[i]? = some x) (z : α)
    {w : α} (hw : w ∈ xs) : w ∈ xs.set i z ∨ w = x := by
  obtain ⟨j, hj, hy⟩ := List.getElem_of_mem hw
  by_cases hij : i = j
  · subst hij
    rw [List.getElem?_eq_getElem hj] at h
    exact Or.inr (hy ▸ Option.some.inj h)
  · refine Or.inl (List.mem_iff_getElem?.mpr ⟨j, ?_⟩)
    rw [List.getElem?_set_ne hij, List.getElem?_eq_getElem hj, hy]

/-- The same for a list that has every key once, when the key at that index stays. -/
theorem mem_set_iff {α κ : Type} {key : α → κ} {xs : List α} (hn : (xs.map key).Nodup) {i : Nat}
    {x z : α} (h : xs[i]? = some x) (hz : key z = key x) {w : α} :
    w ∈ xs.set i z ↔ w = z ∨ w ∈ xs ∧ key w ≠ key x := by
  obtain ⟨hi, hx⟩ := List.getElem?_eq_some_iff.mp h
  constructor
  · intro hw
    obtain ⟨j, hj, hy⟩ := List.getElem_of_mem hw
    rw [List.length_set] at hj
    by_cases hij : i = j
    · subst hij
      exact Or.inl (by rw [← hy, List.getElem_set_self])
    · rw [List.getElem_set_ne hij] at hy
      refine Or.inr ⟨List.mem_of_getElem hy, ?_⟩
      intro hkey
      have hi' : i < (xs.map key).length := by simpa using hi
      have hj' : j < (xs.map key).length := by simpa using hj
      have hmap : (xs.map key)[j] = (xs.map key)[i] := by simp [hy, hx, hkey]
      exact hij ((hn.getElem_inj_iff.mp hmap).symm)
  · intro hw
    rcases hw with rfl | ⟨hw, hkey⟩
    · exact List.mem_set hi w
    · exact (mem_set_or h z hw).resolve_right fun hsame => hkey (by rw [hsame])

namespace Broadcast

variable [DecidableEq ω] {c c' : Broadcast ω μ} {connections : SetDict String ω}
  {clientState : ω → WebSocketState} {a : BroadcastStep ω}

/-- The broadcast has copied the socket. -/
def Heard (c : Broadcast ω μ) (ws : ω) : Prop := ws ∈ c.left ∨ ws ∈ c.visited

/-- A broadcast copies what is registered, and nothing else. -/
theorem next_heard (h : c.next connections clientState a = some c') {ws : ω} (hws : c'.Heard ws) :
    c.Heard ws ∨ ws ∈ connections.members c.migrationId := by
  rcases next_cases h with ⟨-, -, rfl⟩ | ⟨v, result, sockets, -, hphase, hv, rfl⟩ | ⟨-, hphase, rfl⟩
  · exact hws.elim Or.inr fun hvisited => Or.inl (Or.inr hvisited)
  · have hleft : c.left = sockets := by rw [left, hphase]
    rcases hws with hws | hws
    · rw [left_send] at hws
      exact Or.inl (Or.inl (hleft ▸ Finset.mem_of_mem_erase hws))
    · rw [visited_send, List.mem_append, List.mem_singleton] at hws
      rcases hws with hold | rfl
      · exact Or.inl (Or.inr hold)
      · exact Or.inl (Or.inl (hleft ▸ hv))
  · rcases hws with hws | hws
    · cases hws
    · exact Or.inl (Or.inr hws)

omit [DecidableEq ω] in
theorem RaisedAt.heard {ws : ω} (h : c.RaisedAt ws) : ws ∈ c.visited := by
  obtain ⟨turn, hturn, rfl, -⟩ := h
  exact List.mem_map_of_mem hturn

/-- A clean-up takes the stale sockets out of the registry, and no other step changes it. -/
theorem mem_registry (c : Broadcast ω μ) (connections : SetDict String ω) (a : BroadcastStep ω)
    (migrationId : String) (ws : ω) :
    ws ∈ (c.registry connections a).members migrationId ↔
      ws ∈ connections.members migrationId ∧
        ¬ (a = .cleanUp ∧ migrationId = c.migrationId ∧ ws ∈ c.stale) := by
  cases a with
  | cleanUp =>
    simp only [registry]
    split
    · rename_i hnone
      simp [hnone]
    · simp [SetDict.mem_discardAll]
  | _ => simp [registry]

/-- The end of a broadcast is its clean-up. -/
theorem next_returned (h : c.next connections clientState a = some c') :
    c.phase ≠ .returned ∧ (c'.phase = .returned ↔ a = .cleanUp) ∧
      (a = .cleanUp → c'.stale = c.stale) := by
  rcases next_cases h with ⟨rfl, hphase, rfl⟩ | ⟨_, _, _, rfl, hphase, -, rfl⟩ | ⟨rfl, hphase, rfl⟩
  · simp [hphase]
  · simp [hphase, send_phase]
  · simp [hphase]

/-- The sockets whose send raised are the stale ones. -/
def Faithful (c : Broadcast ω μ) : Prop := ∀ ws, ws ∈ c.stale ↔ c.RaisedAt ws

theorem Faithful.next (hc : c.Faithful) (h : c.next connections clientState a = some c') :
    c'.Faithful := by
  rcases next_cases h with ⟨-, -, rfl⟩ | ⟨v, result, sockets, -, -, -, rfl⟩ | ⟨-, -, rfl⟩
  · exact hc
  · intro ws
    have hold := hc ws
    unfold RaisedAt at hold ⊢
    unfold send
    by_cases hstate : clientState v = .CONNECTED
    · cases result <;> simp [hstate, hold, or_and_right, exists_or, eq_comm]
    · simp [hstate, hold, or_and_right, exists_or]
  · exact hc

end Broadcast

namespace WebsocketService

variable [DecidableEq ω] {s t : WebsocketService ω}

/-- The handler of a socket for a migration. -/
def Serves (c : Handler ω) (migrationId : String) (ws : ω) : Prop :=
  c.migrationId = migrationId ∧ c.socket = ws

/-- What holds between the handlers, the registry and the broadcasts. -/
structure Attached (s : WebsocketService ω) : Prop where
  unique : (s.handlers.map Handler.socket).Nodup
  faithful : ∀ b ∈ s.manager.broadcasts, b.Faithful
  registered : ∀ migrationId, ∀ ws ∈ s.manager.connections.members migrationId,
    ∃ c ∈ s.handlers, Serves c migrationId ws ∧ c.Active
  heard : ∀ b ∈ s.manager.broadcasts, ∀ ws, b.Heard ws →
    ∃ c ∈ s.handlers, Serves c b.migrationId ws ∧ ¬ c.Arriving
  kept : ∀ c ∈ s.handlers, c.Active →
    c.socket ∈ s.manager.connections.members c.migrationId ∨
      ∃ b ∈ s.manager.broadcasts, b.migrationId = c.migrationId ∧ b.phase = .returned ∧
        c.socket ∈ b.stale
  dropped : ∀ b ∈ s.manager.broadcasts, b.phase = .returned → ∀ ws ∈ b.stale,
    ws ∉ s.manager.connections.members b.migrationId

omit [DecidableEq ω] in
/-- Two handlers of one socket are the same. -/
theorem Attached.same (h : s.Attached) {c c' : Handler ω} (hc : c ∈ s.handlers)
    (hc' : c' ∈ s.handlers) (hsocket : c.socket = c'.socket) : c = c' :=
  List.inj_on_of_nodup_map h.unique hc hc' hsocket

theorem Attached.called (h : s.Attached) {migrationId : String} {ws : ω}
    (hstep : s.step (.called migrationId ws) = some t) : t.Attached := by
  obtain ⟨hfresh, ht⟩ := Option.ite_none_left_eq_some.mp hstep
  obtain rfl := Option.some.inj ht
  constructor
  · rw [List.map_append]
    exact h.unique.append (List.nodup_singleton ws) (by simpa [List.disjoint_singleton] using hfresh)
  · exact h.faithful
  · intro id v hv
    obtain ⟨c, hc, hserves⟩ := h.registered id v hv
    exact ⟨c, List.mem_append_left _ hc, hserves⟩
  · intro b hb v hv
    obtain ⟨c, hc, hserves⟩ := h.heard b hb v hv
    exact ⟨c, List.mem_append_left _ hc, hserves⟩
  · intro c hc hactive
    rcases List.mem_append.mp hc with hold | hnew
    · exact h.kept c hold hactive
    · rw [List.mem_singleton.mp hnew] at hactive
      exact absurd hactive (by simp [Handler.Active])
  · exact h.dropped

theorem Attached.handle (h : s.Attached) {index : Nat} {a : HandlerStep}
    (hstep : s.step (.handle index a) = some t) : t.Attached := by
  obtain ⟨c, c', hc, hnext, hhandlers, hbroadcasts, hmembers⟩ := step_handle hstep
  obtain ⟨hid, hsocket⟩ := Handler.next_channel hnext
  have hmem : c ∈ s.handlers := List.mem_of_getElem? hc
  have hmoved : ∀ d, d ∈ t.handlers ↔ d = c' ∨ d ∈ s.handlers ∧ d.socket ≠ c.socket := by
    intro d
    rw [hhandlers]
    exact mem_set_iff h.unique hc hsocket
  have hkeep : ∀ d ∈ s.handlers, d ∈ t.handlers ∨ d = c := by
    intro d hd
    by_cases hs : d.socket = c.socket
    · exact Or.inr (h.same hd hmem hs)
    · exact Or.inl ((hmoved d).mpr (Or.inr ⟨hd, hs⟩))
  have hnew : c' ∈ t.handlers := (hmoved c').mpr (Or.inl rfl)
  constructor
  · have hsame : t.handlers.map Handler.socket = s.handlers.map Handler.socket := by
      obtain ⟨hi, hx⟩ := List.getElem?_eq_some_iff.mp hc
      have hi' : index < (s.handlers.map Handler.socket).length := by simpa using hi
      have hat : c'.socket = (s.handlers.map Handler.socket)[index] := by simp [hx, hsocket]
      rw [hhandlers, List.map_set, hat, List.set_getElem_self]
    rw [hsame]
    exact h.unique
  · rw [hbroadcasts]
    exact h.faithful
  · intro id v hv
    rcases (hmembers id v).mp hv with ⟨hregister, rfl, rfl⟩ | ⟨hold, hnot⟩
    · exact ⟨c', hnew, ⟨hid, hsocket⟩, (Handler.next_active hnext).mpr (Or.inl hregister)⟩
    · obtain ⟨d, hd, hserves, hactive⟩ := h.registered id v hold
      rcases hkeep d hd with hin | rfl
      · exact ⟨d, hin, hserves, hactive⟩
      · have hstays : a ≠ .leave := fun hleave =>
          hnot ⟨hleave, hserves.1.symm, hserves.2.symm⟩
        exact ⟨c', hnew, ⟨hid.trans hserves.1, hsocket.trans hserves.2⟩,
          (Handler.next_active hnext).mpr (Or.inr ⟨hactive, hstays⟩)⟩
  · intro b hb v hv
    rw [hbroadcasts] at hb
    obtain ⟨d, hd, hserves, hhere⟩ := h.heard b hb v hv
    rcases hkeep d hd with hin | rfl
    · exact ⟨d, hin, hserves, hhere⟩
    · exact ⟨c', hnew, ⟨hid.trans hserves.1, hsocket.trans hserves.2⟩,
        fun harriving => hhere (Handler.next_arriving hnext harriving)⟩
  · intro d hd hactive
    rw [hbroadcasts]
    rcases (hmoved d).mp hd with rfl | ⟨hold, hother⟩
    · rw [hid, hsocket]
      rcases (Handler.next_active hnext).mp hactive with hregister | ⟨hbefore, hstays⟩
      · exact Or.inl ((hmembers _ _).mpr (Or.inl ⟨hregister, rfl, rfl⟩))
      · refine (h.kept c hmem hbefore).imp_left fun hin => ?_
        exact (hmembers _ _).mpr (Or.inr ⟨hin, fun hleave => hstays hleave.1⟩)
    · refine (h.kept d hold hactive).imp_left fun hin => ?_
      exact (hmembers _ _).mpr (Or.inr ⟨hin, fun hleave => hother hleave.2.2⟩)
  · intro b hb hdone v hv hin
    rw [hbroadcasts] at hb
    rcases (hmembers _ _).mp hin with ⟨hregister, -, rfl⟩ | ⟨hold, -⟩
    · -- a socket that was copied has a handler past its `connect`
      have hvisited := ((h.faithful b hb c.socket).mp hv).heard
      obtain ⟨d, hd, hserves, hhere⟩ := h.heard b hb c.socket (Or.inr hvisited)
      obtain rfl := h.same hd hmem hserves.2
      subst hregister
      obtain ⟨hphase, -⟩ := Option.ite_none_right_eq_some.mp hnext
      exact hhere (Or.inr hphase)
    · exact h.dropped b hb hdone v hv hold

theorem manage_eq {a : ManagerAction ω String} (h : s.manage a = some t) :
    ∃ manager, s.manager.step a = some manager ∧ t = { s with manager := manager } := by
  obtain ⟨manager, hmanager, ht⟩ := Option.map_eq_some_iff.mp h
  exact ⟨manager, hmanager, ht.symm⟩

theorem Attached.broadcast (h : s.Attached) {migrationId message : String}
    (hstep : s.manage (.broadcast migrationId message) = some t) : t.Attached := by
  obtain ⟨manager, hmanager, rfl⟩ := manage_eq hstep
  obtain rfl := Option.some.inj hmanager
  have hnew : ∀ b, b ∈ s.manager.broadcasts ++ [{ migrationId := migrationId, message := message }] →
      b ∈ s.manager.broadcasts ∨ b = { migrationId := migrationId, message := message } := by
    intro b hb
    exact (List.mem_append.mp hb).imp_right List.mem_singleton.mp
  constructor
  · exact h.unique
  · intro b hb
    rcases hnew b hb with hold | rfl
    · exact h.faithful b hold
    · intro ws
      simp [Broadcast.RaisedAt]
  · exact h.registered
  · intro b hb ws hws
    rcases hnew b hb with hold | rfl
    · exact h.heard b hold ws hws
    · rcases hws with hleft | hvisited
      · cases hleft
      · cases hvisited
  · intro c hc hactive
    refine (h.kept c hc hactive).imp_right fun hdropped => ?_
    obtain ⟨b, hb, hstale⟩ := hdropped
    exact ⟨b, List.mem_append_left _ hb, hstale⟩
  · intro b hb hdone
    rcases hnew b hb with hold | rfl
    · exact h.dropped b hold hdone
    · cases hdone

theorem Attached.advance (h : s.Attached) {index : Nat} {a : BroadcastStep ω}
    (hstep : s.manage (.advance index a) = some t) : t.Attached := by
  obtain ⟨manager, hmanager, rfl⟩ := manage_eq hstep
  obtain ⟨b, b', hb, hnext, rfl⟩ := ConnectionManager.step_advance hmanager
  have hmem : b ∈ s.manager.broadcasts := List.mem_of_getElem? hb
  have hid := Broadcast.next_migrationId hnext
  obtain ⟨hunfinished, hend, hstale⟩ := Broadcast.next_returned hnext
  have hfaithful := (h.faithful b hmem).next hnext
  have hmembers := Broadcast.mem_registry b s.manager.connections a
  constructor
  · exact h.unique
  · intro c hc
    rcases List.mem_or_eq_of_mem_set hc with hold | rfl
    · exact h.faithful c hold
    · exact hfaithful
  · intro id ws hws
    exact h.registered id ws ((hmembers id ws).mp hws).1
  · intro c hc ws hws
    rcases List.mem_or_eq_of_mem_set hc with hold | rfl
    · exact h.heard c hold ws hws
    · rw [hid]
      rcases Broadcast.next_heard hnext hws with hheard | hin
      · exact h.heard b hmem ws hheard
      · obtain ⟨c, hc, hserves, hactive⟩ := h.registered b.migrationId ws hin
        refine ⟨c, hc, hserves, ?_⟩
        rcases hactive with hphase | hphase | hphase <;> simp [Handler.Arriving, hphase]
  · intro c hc hactive
    rcases h.kept c hc hactive with hin | ⟨d, hd, hdropped⟩
    · by_cases htaken : a = .cleanUp ∧ c.migrationId = b.migrationId ∧ c.socket ∈ b.stale
      · obtain ⟨hclean, hchannel, hin⟩ := htaken
        refine Or.inr ⟨b', List.mem_set (List.getElem?_eq_some_iff.mp hb).1 b', ?_⟩
        exact ⟨hid.trans hchannel.symm, hend.mpr hclean, by rw [hstale hclean]; exact hin⟩
      · exact Or.inl ((hmembers _ _).mpr ⟨hin, htaken⟩)
    · right
      rcases mem_set_or hb b' hd with hstill | rfl
      · exact ⟨d, hstill, hdropped⟩
      · exact absurd hdropped.2.1 hunfinished
  · intro c hc hdone ws hws hin
    obtain ⟨hbefore, hnot⟩ := (hmembers _ _).mp hin
    rcases List.mem_or_eq_of_mem_set hc with hold | rfl
    · exact h.dropped c hold hdone ws hws hbefore
    · have hclean := hend.mp hdone
      rw [hstale hclean] at hws
      exact hnot ⟨hclean, hid, hws⟩

theorem Attached.step (h : s.Attached) {a : WebsocketAction ω} (hstep : s.step a = some t) :
    t.Attached := by
  cases a with
  | called migrationId ws => exact h.called hstep
  | handle index a => exact h.handle hstep
  | clientState ws state =>
    cases hstep
    exact ⟨h.unique, h.faithful, h.registered, h.heard, h.kept, h.dropped⟩
  | broadcast migrationId event => exact h.broadcast hstep
  | advance index a => exact h.advance hstep

theorem attached_of_reaches {clientState : ω → WebSocketState}
    (h : (system ω).Reaches Transition.anyAction (start clientState) s) : s.Attached := by
  refine h.invariant (fun s a t hs _ hstep => hs.step hstep) ?_
  exact ⟨List.nodup_nil, by simp [start, ConnectionManager.start],
    by simp [start, ConnectionManager.start], by simp [start, ConnectionManager.start],
    by simp [start], by simp [start, ConnectionManager.start]⟩

/-- A completed broadcast for the migration has failed to send to the socket. -/
def Dropped (s : WebsocketService ω) (migrationId : String) (ws : ω) : Prop :=
  ∃ b ∈ s.manager.broadcasts, b.migrationId = migrationId ∧ b.phase = .returned ∧ b.RaisedAt ws

/-- In any interleaving, the sockets registered for a migration are those of its handlers between
their `connect` and their `disconnect`, without those that a broadcast dropped. -/
theorem registered_iff (clientState : ω → WebSocketState)
    (h : (system ω).Reaches Transition.anyAction (start clientState) s) (migrationId : String)
    (ws : ω) :
    ws ∈ s.manager.connections.members migrationId ↔
      (∃ c ∈ s.handlers, c.migrationId = migrationId ∧ c.socket = ws ∧ c.Active) ∧
        ¬ s.Dropped migrationId ws := by
  have hs := attached_of_reaches h
  constructor
  · intro hin
    obtain ⟨c, hc, ⟨hid, hsocket⟩, hactive⟩ := hs.registered migrationId ws hin
    refine ⟨⟨c, hc, hid, hsocket, hactive⟩, ?_⟩
    rintro ⟨b, hb, rfl, hdone, hraised⟩
    exact hs.dropped b hb hdone ws ((hs.faithful b hb ws).mpr hraised) hin
  · rintro ⟨⟨c, hc, rfl, rfl, hactive⟩, hkept⟩
    refine (hs.kept c hc hactive).resolve_right ?_
    rintro ⟨b, hb, hid, hdone, hstale⟩
    exact hkept ⟨b, hb, hid, hdone, (hs.faithful b hb _).mp hstale⟩

private def clientsOnTwo : List (WebsocketAction Nat) :=
  [.called "m" 0, .called "n" 1, .handle 0 (.accept true), .handle 1 (.accept true),
    .handle 0 .register, .handle 1 .register, .broadcast "m" (.failed "lost"),
    .advance 0 .snapshot, .handle 1 (.receive (some "ping")), .advance 0 (.turn 0 .raised),
    .advance 0 .cleanUp, .handle 1 (.answer .sent), .handle 0 (.receive none)]

/-- A client of "m" whose send raised is dropped while its handler runs; one of "n" stays. -/
theorem registered_iff_clientsOnTwo : ∃ s, (system Nat).run Transition.anyAction
    (start fun _ => .CONNECTING) clientsOnTwo = some s ∧
      0 ∉ s.manager.connections.members "m" ∧ s.Dropped "m" 0 ∧
      1 ∈ s.manager.connections.members "n" := by
  have hrun : ∃ s, (system Nat).run Transition.anyAction (start fun _ => .CONNECTING)
      clientsOnTwo = some s ∧ 0 ∉ s.manager.connections.members "m" ∧
        (∃ c ∈ s.handlers, c.migrationId = "m" ∧ c.socket = 0 ∧ c.Active) ∧
        1 ∈ s.manager.connections.members "n" :=
    ⟨_, rfl, by decide, by decide, by decide⟩
  obtain ⟨s, hs, hout, hactive, hin⟩ := hrun
  have hiff := registered_iff _ (Transition.reaches_of_run hs) "m" 0
  refine ⟨s, hs, hout, ?_, hin⟩
  by_contra hkept
  exact hout (hiff.mpr ⟨hactive, hkept⟩)

/-- A step of the system is one of the manager, or leaves the manager as it was. -/
theorem manager_step {a : WebsocketAction ω} (h : s.step a = some t) :
    t.manager = s.manager ∨ ∃ action, s.manager.step action = some t.manager := by
  have hmanage : ∀ action, s.manage action = some t →
      ∃ action, s.manager.step action = some t.manager := by
    intro action h
    obtain ⟨manager, hmanager, rfl⟩ := manage_eq h
    exact ⟨action, hmanager⟩
  cases a with
  | called migrationId ws =>
    obtain ⟨-, ht⟩ := Option.ite_none_left_eq_some.mp h
    exact Or.inl (by rw [← Option.some.inj ht])
  | handle index a =>
    obtain ⟨c, -, hrest⟩ := Option.bind_eq_some_iff.mp h
    obtain ⟨c', -, hmanager⟩ := Option.bind_eq_some_iff.mp hrest
    obtain ⟨manager, hstep, rfl⟩ := Option.map_eq_some_iff.mp hmanager
    cases haction : c.managerAction a with
    | none =>
      rw [haction] at hstep
      exact Or.inl (Option.some.inj hstep).symm
    | some action =>
      rw [haction] at hstep
      exact Or.inr ⟨action, hstep⟩
  | clientState ws state => exact Or.inr (hmanage _ h)
  | broadcast migrationId event => exact Or.inr (hmanage _ h)
  | advance index a => exact Or.inr (hmanage _ h)

/-- What the manager goes through is a run of its own system. -/
theorem manager_reaches {clientState : ω → WebSocketState}
    (h : (system ω).Reaches Transition.anyAction (start clientState) s) :
    (ConnectionManager.system ω String).Reaches Transition.anyAction
      (ConnectionManager.start clientState) s.manager := by
  refine h.invariant (I := fun s => (ConnectionManager.system ω String).Reaches
    Transition.anyAction (ConnectionManager.start clientState) s.manager) ?_ (.refl _)
  intro s a t hs _ hstep
  rcases manager_step hstep with hsame | ⟨action, hmanager⟩
  · rw [hsame]
    exact hs
  · exact hs.trans (.head trivial hmanager (.refl _))

/-- Every broadcast's text is the payload of an event of its migration. -/
theorem message_of_reaches {clientState : ω → WebSocketState}
    (h : (system ω).Reaches Transition.anyAction (start clientState) s) :
    ∀ b ∈ s.manager.broadcasts, ∃ event : Event, b.message = event.message b.migrationId := by
  refine h.invariant (I := fun s => ∀ b ∈ s.manager.broadcasts,
    ∃ event : Event, b.message = event.message b.migrationId) ?_ (by simp [start,
      ConnectionManager.start])
  intro s a t hs _ hstep b hb
  cases a with
  | called migrationId ws =>
    obtain ⟨-, ht⟩ := Option.ite_none_left_eq_some.mp hstep
    obtain rfl := Option.some.inj ht
    exact hs b hb
  | handle index a =>
    obtain ⟨-, -, -, -, -, hbroadcasts, -⟩ := step_handle hstep
    exact hs b (hbroadcasts ▸ hb)
  | clientState ws state =>
    cases hstep
    exact hs b hb
  | broadcast migrationId event =>
    cases hstep
    rcases List.mem_append.mp hb with hold | hnew
    · exact hs b hold
    · exact ⟨event, by rw [List.mem_singleton.mp hnew]⟩
  | advance index a =>
    obtain ⟨manager, hmanager, rfl⟩ := manage_eq hstep
    obtain ⟨c, c', hc, hnext, rfl⟩ := ConnectionManager.step_advance hmanager
    rcases List.mem_or_eq_of_mem_set hb with hold | rfl
    · exact hs b hold
    · obtain ⟨event, hevent⟩ := hs c (List.mem_of_getElem? hc)
      refine ⟨event, ?_⟩
      rw [Broadcast.next_migrationId hnext, ← hevent]
      rcases Broadcast.next_cases hnext with ⟨-, -, rfl⟩ | ⟨_, _, _, -, -, -, rfl⟩ | ⟨-, -, rfl⟩
      · rfl
      · rw [Broadcast.send_message]
      · rfl

theorem answers_of_reaches {clientState : ω → WebSocketState}
    (h : (system ω).Reaches Transition.anyAction (start clientState) s) :
    ∀ c ∈ s.handlers, c.Answers := by
  refine h.invariant (I := fun s => ∀ c ∈ s.handlers, c.Answers) ?_ (by simp [start])
  intro s a t hs _ hstep c hc
  have hmanage : ∀ action, s.manage action = some t → c.Answers := by
    intro action h
    obtain ⟨manager, -, rfl⟩ := manage_eq h
    exact hs c hc
  cases a with
  | called migrationId ws =>
    obtain ⟨-, ht⟩ := Option.ite_none_left_eq_some.mp hstep
    obtain rfl := Option.some.inj ht
    rcases List.mem_append.mp hc with hold | hnew
    · exact hs c hold
    · rw [List.mem_singleton.mp hnew]
      exact ⟨rfl, by simp, by simp⟩
  | handle index a =>
    obtain ⟨c₀, c', hc₀, hnext, hhandlers, -⟩ := step_handle hstep
    rw [hhandlers] at hc
    rcases List.mem_or_eq_of_mem_set hc with hold | rfl
    · exact hs c hold
    · exact (hs c₀ (List.mem_of_getElem? hc₀)).next hnext
  | clientState ws state => exact hmanage (.clientState ws state) hstep
  | broadcast migrationId event =>
    exact hmanage (.broadcast migrationId (event.message migrationId)) hstep
  | advance index a => exact hmanage (.advance index a) hstep

/-- In any interleaving, a client is sent one "pong" for each "ping" its handler received, and else
only the messages of broadcasts for its own migration; each of them was made of one event, and reads
back as the payload of that event. -/
theorem client_texts (clientState : ω → WebSocketState)
    (h : (system ω).Reaches Transition.anyAction (start clientState) s) :
    ∀ c ∈ s.handlers, c.Answers ∧ ∀ b ∈ s.manager.broadcasts, ∀ turn ∈ b.turns,
      turn.socket = c.socket → ∀ text result, turn.attempt = some (text, result) →
        b.migrationId = c.migrationId ∧ text = b.message ∧ ∃ event : Event,
          b.message = event.message c.migrationId ∧
            Json.loads text = some (event.payload c.migrationId) := by
  intro c hc
  refine ⟨answers_of_reaches h c hc, ?_⟩
  intro b hb turn hturn hsocket text result hattempt
  have hs := attached_of_reaches h
  obtain ⟨index, hindex⟩ := List.mem_iff_getElem?.mp hb
  have hsound := ConnectionManager.sound_broadcasts (manager_reaches h) hindex
  have hmessage := hsound.message turn hturn text result hattempt
  obtain ⟨event, hevent⟩ := message_of_reaches h b hb
  have hvisited : turn.socket ∈ b.visited := List.mem_map_of_mem hturn
  obtain ⟨d, hd, hserves, -⟩ := hs.heard b hb turn.socket (Or.inr hvisited)
  obtain rfl := hs.same hd hc (hserves.2.trans hsocket)
  refine ⟨hserves.1.symm, hmessage, event, by rw [hevent, hserves.1], ?_⟩
  rw [hmessage, hevent, hserves.1]
  exact event.loads_message b.migrationId

/-- The client of "n" is told of a failure after its pong. -/
private def clientsTold : List (WebsocketAction Nat) :=
  clientsOnTwo ++ [.broadcast "n" (.failed "disk full"), .advance 1 .snapshot,
    .advance 1 (.turn 1 .sent)]

theorem client_texts_clientsTold : ∃ s, (system Nat).run Transition.anyAction
    (start fun _ => .CONNECTING) clientsTold = some s ∧
      ∃ c ∈ s.handlers, c.received = ["ping"] ∧ c.pongs = [.sent] ∧ c.Answers ∧
        ∃ b ∈ s.manager.broadcasts, ∃ turn ∈ b.turns, ∃ event : Event,
          turn.attempt = some (event.message "n", .sent) ∧
            Json.loads (event.message "n") = some (event.payload "n") := by
  have hrun : ∃ s, (system Nat).run Transition.anyAction (start fun _ => .CONNECTING)
      clientsTold = some s ∧ ∃ c ∈ s.handlers, (c.received = ["ping"] ∧ c.pongs = [.sent] ∧
        c.migrationId = "n") ∧ ∃ b ∈ s.manager.broadcasts, ∃ turn ∈ b.turns,
          turn.socket = c.socket ∧ turn.attempt = some (b.message, .sent) :=
    ⟨_, rfl, by decide⟩
  obtain ⟨s, hs, c, hc, ⟨hreceived, hpongs, hid⟩, b, hb, turn, hturn, hsocket, hattempt⟩ := hrun
  obtain ⟨hanswers, htexts⟩ := client_texts _ (Transition.reaches_of_run hs) c hc
  obtain ⟨-, -, event, hmessage, hloads⟩ := htexts b hb turn hturn hsocket _ _ hattempt
  rw [hid] at hmessage hloads
  rw [hmessage] at hattempt hloads
  exact ⟨s, hs, c, hc, hreceived, hpongs, hanswers, b, hb, turn, hturn, event, hattempt, hloads⟩

end WebsocketService

end DataBridge

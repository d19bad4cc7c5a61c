import DataBridge.Websockets.Manager

namespace DataBridge

variable {ω μ : Type}

namespace Broadcast

/-- The sockets that had their turn. -/
def visited (c : Broadcast ω μ) : List ω := c.turns.map (·.socket)

/-- The copied sockets without a turn yet. -/
def left (c : Broadcast ω μ) : Finset ω :=
  match c.phase with
  | .sending sockets => sockets
  | _ => ∅

variable [DecidableEq ω]

/-- How often the broadcast has called `ws.send_text`. -/
def attempts (c : Broadcast ω μ) (ws : ω) : Nat :=
  c.turns.countP fun turn => turn.socket = ws ∧ turn.attempt.isSome

/-- The law of a completed broadcast whose copy was made when `registered` were registered. -/
structure Delivered (registered : Finset ω) (c : Broadcast ω μ) : Prop where
  atMostOnce : ∀ ws, c.attempts ws ≤ 1
  onlyRegistered : ∀ ws, 0 < c.attempts ws → ws ∈ registered
  oneTurn : ∀ ws ∈ registered, ∃! turn, turn ∈ c.turns ∧ turn.socket = ws
  connected : ∀ turn ∈ c.turns,
    c.attempts turn.socket = if turn.clientState = .CONNECTED then 1 else 0
  itsMessage : ∀ turn ∈ c.turns, ∀ message result,
    turn.attempt = some (message, result) → message = c.message

/-- The send to `ws` raised. -/
def RaisedAt (c : Broadcast ω μ) (ws : ω) : Prop :=
  ∃ turn ∈ c.turns, turn.socket = ws ∧ turn.attempt = some (c.message, .raised)

/-- The loop over the copy of `registered`: a turn for each socket that is not left. -/
structure Copied (registered : Finset ω) (c : Broadcast ω μ) : Prop where
  begun : c.phase ≠ .called
  once : c.visited.Nodup
  covers : ∀ ws, ws ∈ registered ↔ ws ∈ c.left ∨ ws ∈ c.visited
  apart : ∀ ws ∈ c.left, ws ∉ c.visited

/-- What each turn did, and what the loop keeps of it. -/
structure Sound (c : Broadcast ω μ) : Prop where
  untouched : c.phase = .called → c.turns = []
  tries : ∀ turn ∈ c.turns, turn.attempt.isSome ↔ turn.clientState = .CONNECTED
  message : ∀ turn ∈ c.turns, ∀ message result,
    turn.attempt = some (message, result) → message = c.message
  stale : ∀ ws ∈ c.stale, c.RaisedAt ws

/-- The turn that a send adds. -/
def turnOf (c : Broadcast ω μ) (ws : ω) (clientState : WebSocketState) (result : SendResult) :
    Turn ω μ :=
  ⟨ws, clientState, if clientState = .CONNECTED then some (c.message, result) else none⟩

omit [DecidableEq ω] in
theorem send_turns (c : Broadcast ω μ) (ws : ω) (state : WebSocketState) (result : SendResult)
    (left : Finset ω) :
    (c.send ws state result left).turns = c.turns ++ [c.turnOf ws state result] := by
  unfold send turnOf
  split <;> rfl

omit [DecidableEq ω] in
theorem send_stale {c : Broadcast ω μ} {ws v : ω} {state : WebSocketState} {result : SendResult}
    {left : Finset ω} (h : v ∈ (c.send ws state result left).stale) :
    v ∈ c.stale ∨ v = ws ∧ state = .CONNECTED ∧ result = .raised := by
  unfold send at h
  by_cases hstate : state = .CONNECTED
  · rw [if_pos hstate] at h
    by_cases hresult : result = .raised
    · simp only [if_pos hresult, List.mem_append, List.mem_singleton] at h
      exact h.imp id fun hv => ⟨hv, hstate, hresult⟩
    · simp only [if_neg hresult] at h
      exact Or.inl h
  · rw [if_neg hstate] at h
    exact Or.inl h

omit [DecidableEq ω] in
theorem visited_send (c : Broadcast ω μ) (ws : ω) (state : WebSocketState) (result : SendResult)
    (left : Finset ω) : (c.send ws state result left).visited = c.visited ++ [ws] := by
  rw [visited, send_turns, List.map_append]
  rfl

omit [DecidableEq ω] in
theorem left_send (c : Broadcast ω μ) (ws : ω) (state : WebSocketState) (result : SendResult)
    (left : Finset ω) : (c.send ws state result left).left = left := by
  rw [Broadcast.left, send_phase]

section step

variable {c c' : Broadcast ω μ} {connections : SetDict String ω}
  {clientState : ω → WebSocketState} {a : BroadcastStep ω}

/-- The copy is what is registered at that moment. -/
theorem Sound.copied (hc : c.Sound) (h : c.next connections clientState .snapshot = some c') :
    c'.Copied (connections.members c.migrationId) := by
  rcases next_cases h with hsnapshot | hturn | hclean
  · obtain ⟨-, hphase, hc'⟩ := hsnapshot
    have hnone : c.visited = [] := by rw [visited, hc.untouched hphase]; rfl
    subst hc'
    have hvisited : ({ c with phase := .sending (connections.members c.migrationId) } :
        Broadcast ω μ).visited = [] := hnone
    constructor
    · intro hcalled
      cases hcalled
    · rw [hvisited]
      exact List.nodup_nil
    · intro ws
      rw [hvisited]
      simp [left]
    · intro ws _
      rw [hvisited]
      exact List.not_mem_nil
  · obtain ⟨_, _, _, hturn, -⟩ := hturn
    cases hturn
  · cases hclean.1

/-- A turn goes to a socket that is left, and to no other. -/
theorem Copied.next {registered : Finset ω} (hc : c.Copied registered)
    (h : c.next connections clientState a = some c') : c'.Copied registered := by
  rcases next_cases h with hsnapshot | hturn | hclean
  · exact absurd hsnapshot.2.1 hc.begun
  · obtain ⟨ws, result, sockets, -, hphase, hws, hc'⟩ := hturn
    have hleft : c.left = sockets := by rw [left, hphase]
    have hnew : ws ∉ c.visited := hc.apart ws (by rw [hleft]; exact hws)
    subst hc'
    constructor
    · rw [send_phase]
      intro hcalled
      cases hcalled
    · rw [visited_send]
      exact hc.once.append (List.nodup_singleton ws) (by simpa [List.disjoint_singleton] using hnew)
    · intro v
      rw [hc.covers, visited_send, left_send, hleft]
      by_cases hv : v = ws
      · simp [hv, hws]
      · simp [hv]
    · intro v hv
      rw [left_send, Finset.mem_erase] at hv
      rw [visited_send, List.mem_append, List.mem_singleton]
      intro hin
      rcases hin with hold | heq
      · exact hc.apart v (by rw [hleft]; exact hv.2) hold
      · exact hv.1 heq
  · obtain ⟨-, hphase, hc'⟩ := hclean
    have hleft : c.left = ∅ := by rw [left, hphase]
    subst hc'
    constructor
    · intro hcalled
      cases hcalled
    · exact hc.once
    · intro ws
      rw [hc.covers, hleft]
      rfl
    · intro ws hws
      cases hws

theorem Sound.next (hc : c.Sound) (h : c.next connections clientState a = some c') : c'.Sound := by
  rcases next_cases h with hsnapshot | hturn | hclean
  · obtain ⟨-, hphase, hc'⟩ := hsnapshot
    subst hc'
    exact ⟨fun hcalled => (by cases hcalled), hc.tries, hc.message, hc.stale⟩
  · obtain ⟨ws, result, sockets, -, -, -, hc'⟩ := hturn
    subst hc'
    constructor
    · rw [send_phase]
      intro hcalled
      cases hcalled
    · intro turn hturn
      rw [send_turns, List.mem_append, List.mem_singleton] at hturn
      rcases hturn with hold | hnew
      · exact hc.tries turn hold
      · subst hnew
        unfold turnOf
        by_cases hstate : clientState ws = .CONNECTED <;> simp [hstate]
    · intro turn hturn message result' hattempt
      rw [send_turns, List.mem_append, List.mem_singleton] at hturn
      rw [send_message]
      rcases hturn with hold | hnew
      · exact hc.message turn hold message result' hattempt
      · subst hnew
        unfold turnOf at hattempt
        by_cases hstate : clientState ws = .CONNECTED
        · rw [if_pos hstate] at hattempt
          cases hattempt
          rfl
        · rw [if_neg hstate] at hattempt
          cases hattempt
    · intro v hv
      unfold RaisedAt
      rw [send_turns, send_message]
      rcases send_stale hv with hold | hnew
      · obtain ⟨turn, hturn, hsocket, hraised⟩ := hc.stale v hold
        exact ⟨turn, List.mem_append_left _ hturn, hsocket, hraised⟩
      · obtain ⟨hv, hstate, hresult⟩ := hnew
        subst hv hresult
        refine ⟨c.turnOf v (clientState v) .raised, by simp, rfl, ?_⟩
        rw [turnOf, if_pos hstate]
  · obtain ⟨-, -, hc'⟩ := hclean
    subst hc'
    exact ⟨fun hcalled => (by cases hcalled), hc.tries, hc.message, hc.stale⟩

/-- Only the clean-up takes a socket out of the registry, and only one whose send raised. -/
theorem Sound.unregisters (hc : c.Sound) {migrationId : String} {ws : ω}
    (hbefore : ws ∈ connections.members migrationId)
    (hafter : ws ∉ (c.registry connections a).members migrationId) :
    c.migrationId = migrationId ∧ c.RaisedAt ws := by
  cases a with
  | cleanUp =>
    simp only [registry] at hafter
    split at hafter
    · exact absurd hbefore hafter
    · rw [SetDict.mem_discardAll] at hafter
      have hdropped : migrationId = c.migrationId ∧ ws ∈ c.stale := by
        by_contra hnot
        exact hafter ⟨hbefore, hnot⟩
      exact ⟨hdropped.1.symm, hc.stale ws hdropped.2⟩
  | _ => exact absurd hbefore hafter

end step

omit [DecidableEq ω] in
/-- Two turns of a loop that visits no socket twice are the same if their sockets are. -/
theorem turn_unique {c : Broadcast ω μ} (h : c.visited.Nodup) {turn turn' : Turn ω μ}
    (hturn : turn ∈ c.turns) (hturn' : turn' ∈ c.turns) (hsocket : turn.socket = turn'.socket) :
    turn = turn' :=
  List.inj_on_of_nodup_map h hturn hturn' hsocket

theorem attempts_le_one {c : Broadcast ω μ} (h : c.visited.Nodup) (ws : ω) : c.attempts ws ≤ 1 := by
  have hcount : c.turns.countP (fun turn => turn.socket = ws) ≤ 1 := by
    have hle := List.nodup_iff_count_le_one.mp h ws
    rw [visited, List.count_eq_countP, List.countP_map] at hle
    exact hle
  have hmono : c.attempts ws ≤ c.turns.countP (fun turn => turn.socket = ws) := by
    apply List.countP_mono_left
    intro turn _ hturn
    have hboth : turn.socket = ws ∧ turn.attempt.isSome := by simpa using hturn
    simpa using hboth.1
  omega

theorem Copied.delivered {registered : Finset ω} {c : Broadcast ω μ} (h : c.Copied registered)
    (hsound : c.Sound) (hdone : c.phase = .returned) : c.Delivered registered := by
  have hleft : c.left = ∅ := by rw [left, hdone]
  have hvisited : ∀ ws, ws ∈ registered ↔ ws ∈ c.visited := by
    intro ws
    rw [h.covers, hleft]
    simp
  have hsome : ∀ ws, 0 < c.attempts ws ↔ ∃ turn ∈ c.turns, turn.socket = ws ∧
      turn.attempt.isSome := by
    intro ws
    rw [attempts, List.countP_pos_iff]
    simp
  constructor
  · exact attempts_le_one h.once
  · intro ws hpos
    obtain ⟨turn, hturn, hsocket, -⟩ := (hsome ws).mp hpos
    exact (hvisited ws).mpr (List.mem_map.mpr ⟨turn, hturn, hsocket⟩)
  · intro ws hws
    obtain ⟨turn, hturn, hsocket⟩ := List.mem_map.mp ((hvisited ws).mp hws)
    refine ⟨turn, ⟨hturn, hsocket⟩, ?_⟩
    intro turn' h'
    exact turn_unique h.once h'.1 hturn (h'.2.trans hsocket.symm)
  · intro turn hturn
    have hle := attempts_le_one h.once turn.socket
    have htries := hsound.tries turn hturn
    split
    · rename_i hstate
      have hpos := (hsome turn.socket).mpr ⟨turn, hturn, rfl, htries.mpr hstate⟩
      omega
    · rename_i hstate
      by_contra hne
      obtain ⟨turn', hturn', hsocket, hattempt⟩ := (hsome turn.socket).mp (by omega)
      have hsame := turn_unique h.once hturn' hturn hsocket
      subst hsame
      exact hstate (htries.mp hattempt)
  · exact hsound.message

end Broadcast

namespace ConnectionManager

variable [DecidableEq ω] {clientState : ω → WebSocketState} {s : ConnectionManager ω μ}

/-- No step of a broadcast unregisters a socket whose send did not raise. -/
def UnregistersRaised (s : ConnectionManager ω μ) : Prop :=
  ∀ index a t, s.step (.advance index a) = some t → ∀ migrationId ws,
    ws ∈ s.connections.members migrationId → ws ∉ t.connections.members migrationId →
      ∃ c, s.broadcasts[index]? = some c ∧ c.migrationId = migrationId ∧ c.RaisedAt ws

theorem sound_broadcasts
    (h : (system ω μ).Reaches Transition.anyAction (start clientState) s) {index : Nat}
    {c : Broadcast ω μ} (hc : s.broadcasts[index]? = some c) : c.Sound := by
  refine forall_broadcasts ?_ (fun c _ _ a c' hc hnext => hc.next hnext) h index c hc
  intro migrationId message
  exact ⟨fun _ => rfl, fun _ h => (by cases h), fun _ h => (by cases h), fun _ h => (by cases h)⟩

/-- Between its copy and the end of the run, a broadcast stays the loop over that copy. -/
theorem copied_broadcast {s₁ : ConnectionManager ω μ} {registered : Finset ω} {migrationId : String}
    {index : Nat} {c₁ : Broadcast ω μ} (hid : c₁.migrationId = migrationId)
    (hcopied : c₁.Copied registered) (hc₁ : s₁.broadcasts[index]? = some c₁)
    (h : (system ω μ).Reaches Transition.anyAction s₁ s) :
    ∃ c, s.broadcasts[index]? = some c ∧ c.migrationId = migrationId ∧ c.Copied registered := by
  refine h.invariant (I := fun s => ∃ c, s.broadcasts[index]? = some c ∧
    c.migrationId = migrationId ∧ c.Copied registered) ?_ ⟨c₁, hc₁, hid, hcopied⟩
  intro s action t hs _ hstep
  obtain ⟨c, hc, hid, hcopied⟩ := hs
  rcases step_broadcast hstep hc with hkept | hmoved
  · exact ⟨c, hkept, hid, hcopied⟩
  · obtain ⟨a, c', -, hnext, hc'⟩ := hmoved
    exact ⟨c', hc', (Broadcast.next_migrationId hnext).trans hid, hcopied.next hnext⟩

/-- In any interleaving, a completed broadcast has tried each socket registered at its copy just
once if its turn found it connected, and no other, and unregisters only where a send raised. -/
theorem broadcast_isolated (clientState : ω → WebSocketState) (s : ConnectionManager ω μ)
    (h : (system ω μ).Reaches Transition.anyAction (start clientState) s) :
    s.UnregistersRaised ∧
    ∀ s₀ s₁ index c, (system ω μ).Reaches Transition.anyAction (start clientState) s₀ →
      s₀.step (.advance index .snapshot) = some s₁ →
      (system ω μ).Reaches Transition.anyAction s₁ s → s.broadcasts[index]? = some c →
      c.phase = .returned → c.Delivered (s₀.connections.members c.migrationId) := by
  constructor
  · intro index a t hstep migrationId ws hbefore hafter
    obtain ⟨c, c', hc, -, ht⟩ := step_advance hstep
    subst ht
    exact ⟨c, hc, (sound_broadcasts h hc).unregisters hbefore hafter⟩
  · intro s₀ s₁ index c h₀ hsnapshot h₁ hc hdone
    obtain ⟨c₀, c₁, hc₀, hnext, ht⟩ := step_advance hsnapshot
    have hlt : index < s₀.broadcasts.length := (List.getElem?_eq_some_iff.mp hc₀).1
    have hc₁ : s₁.broadcasts[index]? = some c₁ := by
      rw [ht]
      simp [hlt]
    have hcopied := (sound_broadcasts h₀ hc₀).copied hnext
    obtain ⟨c', hc', hid, hrest⟩ :=
      copied_broadcast (Broadcast.next_migrationId hnext) hcopied hc₁ h₁
    rw [hc] at hc'
    cases hc'
    rw [hid]
    exact hrest.delivered (sound_broadcasts h hc) hdone

private def subscribing : List (ManagerAction Nat String) :=
  [.connect "m" 0, .connect "m" 1, .broadcast "m" "hello"]

private def sending : List (ManagerAction Nat String) :=
  [.connect "m" 2, .advance 0 (.turn 0 .raised), .disconnect "m" 1, .advance 0 (.turn 1 .sent),
    .advance 0 .cleanUp]

private def allConnected : ConnectionManager Nat String := start fun _ => .CONNECTED

private theorem sending_ends : ∃ s₀ s₁ s c,
    (system Nat String).run Transition.anyAction allConnected subscribing = some s₀ ∧
    s₀.step (.advance 0 .snapshot) = some s₁ ∧
    (system Nat String).run Transition.anyAction s₁ sending = some s ∧
    s.broadcasts[0]? = some c ∧ c.phase = .returned ∧ c.migrationId = "m" ∧
    s₀.connections.members "m" = {0, 1} :=
  ⟨_, _, _, _, rfl, rfl, rfl, rfl, rfl, rfl, by decide⟩

theorem broadcast_isolated_raising : ∃ s c,
    (system Nat String).Reaches Transition.anyAction allConnected s ∧ s.UnregistersRaised ∧
    s.broadcasts[0]? = some c ∧ c.Delivered {0, 1} := by
  obtain ⟨s₀, s₁, s, c, h₀, hsnapshot, h₁, hc, hdone, hid, hmembers⟩ := sending_ends
  have hbefore := Transition.reaches_of_run h₀
  have hafter := Transition.reaches_of_run h₁
  have hreach : (system Nat String).Reaches Transition.anyAction allConnected s :=
    hbefore.trans (Transition.Reaches.head (m := system Nat String) (a := .advance 0 .snapshot)
      trivial hsnapshot hafter)
  have hlaw := broadcast_isolated _ s hreach
  have hdelivered := hlaw.2 s₀ s₁ 0 c hbefore hsnapshot hafter hc hdone
  rw [hid, hmembers] at hdelivered
  exact ⟨s, c, hreach, hlaw.1, hc, hdelivered⟩

end ConnectionManager

end DataBridge

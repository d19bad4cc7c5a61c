import DataBridge.Framework.SetDict
import DataBridge.Framework.Transition

namespace DataBridge

inductive WebSocketState where
  | CONNECTING | CONNECTED | DISCONNECTED
  deriving DecidableEq, Repr

/-- How `ws.send_text` ends. -/
inductive SendResult where
  | sent | raised
  deriving DecidableEq, Repr

/-- A pass of the loop over the copied sockets: the state that `client_state` has then, and the
message and the end of its send, if it makes one. -/
structure Turn (ω μ : Type) where
  socket : ω
  clientState : WebSocketState
  attempt : Option (μ × SendResult)
  deriving DecidableEq

/-- Where a call of `broadcast` stands; `sending` keeps the copied sockets without a turn yet. -/
inductive BroadcastPhase (ω : Type) where
  | called
  | sending (sockets : Finset ω)
  | returned
  deriving DecidableEq

/-- A call of `broadcast`, with the turns of its loop so far. -/
structure Broadcast (ω μ : Type) where
  migrationId : String
  message : μ
  phase : BroadcastPhase ω := .called
  stale : List ω := []
  turns : List (Turn ω μ) := []

/-- What a call of `broadcast` does between two suspensions: the section that copies the sockets,
one send, and the section that drops the stale ones. -/
inductive BroadcastStep (ω : Type) where
  | snapshot
  | turn (ws : ω) (result : SendResult)
  | cleanUp

variable {ω μ : Type} [DecidableEq ω]

namespace Broadcast

/-- `if ws.client_state == CONNECTED: await ws.send_text(message)`, and the handler of an
exception. -/
def send (c : Broadcast ω μ) (ws : ω) (clientState : WebSocketState) (result : SendResult)
    (left : Finset ω) : Broadcast ω μ :=
  if clientState = .CONNECTED then
    { c with
      phase := .sending left
      stale := if result = .raised then c.stale ++ [ws] else c.stale
      turns := c.turns ++ [⟨ws, clientState, some (c.message, result)⟩] }
  else
    { c with
      phase := .sending left
      turns := c.turns ++ [⟨ws, clientState, none⟩] }

/-- The loop takes the copied sockets in the order of the set, so in any order. -/
def next (c : Broadcast ω μ) (connections : SetDict String ω) (clientState : ω → WebSocketState) :
    BroadcastStep ω → Option (Broadcast ω μ)
  | .snapshot => match c.phase with
    | .called => some { c with phase := .sending (connections.members c.migrationId) }
    | _ => none
  | .turn ws result => match c.phase with
    | .sending sockets =>
      if ws ∈ sockets then some (c.send ws (clientState ws) result (sockets.erase ws)) else none
    | _ => none
  | .cleanUp => match c.phase with
    | .sending sockets => if sockets = ∅ then some { c with phase := .returned } else none
    | _ => none

/-- `if stale: for ws in stale: self._connections[migration_id].discard(ws)`. -/
def registry (c : Broadcast ω μ) (connections : SetDict String ω) :
    BroadcastStep ω → SetDict String ω
  | .cleanUp =>
    if c.stale = [] then connections else connections.discardAll c.migrationId c.stale
  | _ => connections

/-- What a step of a broadcast does, guards included. -/
theorem next_cases {c c' : Broadcast ω μ} {connections : SetDict String ω}
    {clientState : ω → WebSocketState} {a : BroadcastStep ω}
    (h : c.next connections clientState a = some c') :
    (a = .snapshot ∧ c.phase = .called ∧
      c' = { c with phase := .sending (connections.members c.migrationId) }) ∨
    (∃ ws result sockets, a = .turn ws result ∧ c.phase = .sending sockets ∧ ws ∈ sockets ∧
      c' = c.send ws (clientState ws) result (sockets.erase ws)) ∨
    (a = .cleanUp ∧ c.phase = .sending ∅ ∧ c' = { c with phase := .returned }) := by
  cases a with
  | snapshot =>
    cases hphase : c.phase <;> simp only [next, hphase] at h <;> cases h
    exact Or.inl ⟨rfl, rfl, rfl⟩
  | turn ws result =>
    cases hphase : c.phase with
    | sending sockets =>
      simp only [next, hphase] at h
      obtain ⟨hws, hc'⟩ := Option.ite_none_right_eq_some.mp h
      exact Or.inr (Or.inl ⟨ws, result, sockets, rfl, rfl, hws, (Option.some.inj hc').symm⟩)
    | _ => simp only [next, hphase] at h; cases h
  | cleanUp =>
    cases hphase : c.phase with
    | sending sockets =>
      simp only [next, hphase] at h
      obtain ⟨hnone, hc'⟩ := Option.ite_none_right_eq_some.mp h
      exact Or.inr (Or.inr ⟨rfl, by rw [hnone], (Option.some.inj hc').symm⟩)
    | _ => simp only [next, hphase] at h; cases h

omit [DecidableEq ω] in
@[simp] theorem send_migrationId (c : Broadcast ω μ) (ws : ω) (state : WebSocketState)
    (result : SendResult) (left : Finset ω) :
    (c.send ws state result left).migrationId = c.migrationId := by
  unfold send
  split <;> rfl

omit [DecidableEq ω] in
@[simp] theorem send_message (c : Broadcast ω μ) (ws : ω) (state : WebSocketState)
    (result : SendResult) (left : Finset ω) :
    (c.send ws state result left).message = c.message := by
  unfold send
  split <;> rfl

omit [DecidableEq ω] in
@[simp] theorem send_phase (c : Broadcast ω μ) (ws : ω) (state : WebSocketState)
    (result : SendResult) (left : Finset ω) :
    (c.send ws state result left).phase = .sending left := by
  unfold send
  split <;> rfl

theorem next_migrationId {c c' : Broadcast ω μ} {connections : SetDict String ω}
    {clientState : ω → WebSocketState} {a : BroadcastStep ω}
    (h : c.next connections clientState a = some c') : c'.migrationId = c.migrationId := by
  rcases next_cases h with hsnapshot | hturn | hclean
  · rw [hsnapshot.2.2]
  · obtain ⟨ws, result, sockets, -, -, -, hc'⟩ := hturn
    rw [hc', send_migrationId]
  · rw [hclean.2.2]

end Broadcast

/-- A process's manager, the sockets' states, its calls of `broadcast`, and the pairs that were
connected and not disconnected since. -/
structure ConnectionManager (ω μ : Type) where
  connections : SetDict String ω := Dict.empty
  clientState : ω → WebSocketState
  broadcasts : List (Broadcast ω μ) := []
  sessions : Finset (String × ω) := ∅

/-- `connect` and `disconnect` are their sections under the lock; the `accept` before the former is
a change of the socket's state. -/
inductive ManagerAction (ω μ : Type) where
  | clientState (ws : ω) (state : WebSocketState)
  | connect (migrationId : String) (ws : ω)
  | disconnect (migrationId : String) (ws : ω)
  | broadcast (migrationId : String) (message : μ)
  | advance (index : Nat) (step : BroadcastStep ω)

namespace ConnectionManager

/-- A new manager, in a world where the sockets have these states. -/
def start (clientState : ω → WebSocketState) : ConnectionManager ω μ := { clientState := clientState }

def step (s : ConnectionManager ω μ) : ManagerAction ω μ → Option (ConnectionManager ω μ)
  | .clientState ws state => some { s with clientState := Function.update s.clientState ws state }
  | .connect migrationId ws => some { s with
      connections := s.connections.add migrationId ws
      sessions := insert (migrationId, ws) s.sessions }
  | .disconnect migrationId ws => some { s with
      connections := (s.connections.discard migrationId ws).prune migrationId
      sessions := s.sessions.erase (migrationId, ws) }
  | .broadcast migrationId message => some { s with
      broadcasts := s.broadcasts ++ [{ migrationId := migrationId, message := message }] }
  | .advance index a =>
    s.broadcasts[index]?.bind fun c => (c.next s.connections s.clientState a).map fun c' =>
      { s with
        connections := c.registry s.connections a
        broadcasts := s.broadcasts.set index c' }

/-- Any interleaving of the manager's methods, a section under the lock or a send at a time. -/
def system (ω μ : Type) [DecidableEq ω] : Transition (ConnectionManager ω μ) (ManagerAction ω μ) :=
  ⟨step⟩

/-- What a broadcast's step does, and to what. -/
theorem step_advance {s t : ConnectionManager ω μ} {index : Nat} {a : BroadcastStep ω}
    (h : s.step (.advance index a) = some t) :
    ∃ c c', s.broadcasts[index]? = some c ∧ c.next s.connections s.clientState a = some c' ∧
      t = { s with
        connections := c.registry s.connections a
        broadcasts := s.broadcasts.set index c' } := by
  obtain ⟨c, hc, hrest⟩ := Option.bind_eq_some_iff.mp h
  obtain ⟨c', hnext, ht⟩ := Option.map_eq_some_iff.mp hrest
  exact ⟨c, c', hc, hnext, ht.symm⟩

/-- A call of `broadcast` only moves by its own steps. -/
theorem step_broadcast {s t : ConnectionManager ω μ} {action : ManagerAction ω μ} {index : Nat}
    {c : Broadcast ω μ} (h : s.step action = some t) (hc : s.broadcasts[index]? = some c) :
    t.broadcasts[index]? = some c ∨
      ∃ a c', action = .advance index a ∧ c.next s.connections s.clientState a = some c' ∧
        t.broadcasts[index]? = some c' := by
  have hlt : index < s.broadcasts.length := (List.getElem?_eq_some_iff.mp hc).1
  cases action with
  | advance i a =>
    obtain ⟨c₀, c', hc₀, hnext, ht⟩ := step_advance h
    subst ht
    by_cases hi : i = index
    · subst hi
      rw [hc] at hc₀
      cases hc₀
      exact Or.inr ⟨a, c', rfl, hnext, by simp [hlt]⟩
    · exact Or.inl (by rw [← hc]; exact List.getElem?_set_ne hi)
  | broadcast migrationId message =>
    cases h
    exact Or.inl (by rw [← hc]; exact List.getElem?_append_left hlt)
  | _ => cases h; exact Or.inl hc

/-- A call of `broadcast` after a step is a new one, or was there before it. -/
theorem broadcast_source {s t : ConnectionManager ω μ} {action : ManagerAction ω μ} {index : Nat}
    {c : Broadcast ω μ} (h : s.step action = some t) (hc : t.broadcasts[index]? = some c) :
    (∃ migrationId message, c = { migrationId := migrationId, message := message }) ∨
      ∃ c₀, s.broadcasts[index]? = some c₀ := by
  by_cases hlt : index < s.broadcasts.length
  · exact Or.inr ⟨_, List.getElem?_eq_getElem hlt⟩
  · have hge : s.broadcasts.length ≤ index := Nat.le_of_not_lt hlt
    cases action with
    | broadcast migrationId message =>
      cases h
      rw [List.getElem?_append_right hge, List.getElem?_singleton] at hc
      split at hc
      · cases hc
        exact Or.inl ⟨migrationId, message, rfl⟩
      · cases hc
    | advance i a =>
      obtain ⟨c₀, c', -, -, ht⟩ := step_advance h
      subst ht
      have hin : index < (s.broadcasts.set i c').length := (List.getElem?_eq_some_iff.mp hc).1
      rw [List.length_set] at hin
      exact absurd hin hlt
    | _ => cases h; exact Or.inr ⟨c, hc⟩

/-- What a new broadcast has, and its steps keep, all broadcasts have. -/
theorem forall_broadcasts {J : Broadcast ω μ → Prop}
    (hnew : ∀ migrationId message, J { migrationId := migrationId, message := message })
    (hnext : ∀ c connections clientState a c', J c → c.next connections clientState a = some c' →
      J c') {clientState : ω → WebSocketState} {ok : ConnectionManager ω μ → ManagerAction ω μ → Prop}
    {s : ConnectionManager ω μ} (h : (system ω μ).Reaches ok (start clientState) s) :
    ∀ (index : Nat) c, s.broadcasts[index]? = some c → J c := by
  refine h.invariant (I := fun s : ConnectionManager ω μ =>
    ∀ (index : Nat) c, s.broadcasts[index]? = some c → J c) ?_ ?_
  · intro s action t hs _ hstep index c hc
    rcases broadcast_source hstep hc with hfresh | hold
    · obtain ⟨migrationId, message, hfresh⟩ := hfresh
      rw [hfresh]
      exact hnew migrationId message
    · obtain ⟨c₀, hc₀⟩ := hold
      rcases step_broadcast hstep hc₀ with hkept | hmoved
      · rw [hkept] at hc
        cases hc
        exact hs index _ hc₀
      · obtain ⟨a, c', -, hmove, hc'⟩ := hmoved
        rw [hc'] at hc
        cases hc
        exact hnext _ _ _ _ _ (hs index c₀ hc₀) hmove
  · intro index c hc
    cases hc

end ConnectionManager

end DataBridge

import DataBridge.Websockets.Delivery
import DataBridge.Websockets.Payloads

namespace DataBridge

/-- Where a call of `handle_migration_ws` stands: in `ws.accept()`, before the section of `connect`,
in `receive_text`, in the send of "pong", before the section of `disconnect`, or at its end. -/
inductive HandlerPhase where
  | accepting | accepted | receiving | answering | leaving | ended
  deriving DecidableEq, Repr

/-- A call of `handle_migration_ws`, with the texts it has received and the ends of its sends. -/
structure Handler (ω : Type) where
  migrationId : String
  socket : ω
  phase : HandlerPhase := .accepting
  received : List String := []
  pongs : List SendResult := []
  deriving DecidableEq

/-- What a handler does between two suspensions. `accept false` and `receive none` are an `accept`
and a `receive_text` that raise. -/
inductive HandlerStep where
  | accept (accepted : Bool)
  | register
  | receive (data : Option String)
  | answer (result : SendResult)
  | leave
  deriving DecidableEq, Repr

variable {ω : Type}

namespace Handler

/-- An exception of `accept` is the caller's; one inside the loop ends it. -/
def next (c : Handler ω) : HandlerStep → Option (Handler ω)
  | .accept accepted =>
    if c.phase = .accepting then some { c with phase := if accepted then .accepted else .ended }
    else none
  | .register => if c.phase = .accepted then some { c with phase := .receiving } else none
  | .receive data =>
    if c.phase = .receiving then match data with
      | some text => some { c with
          phase := if text = "ping" then .answering else .receiving
          received := c.received ++ [text] }
      | none => some { c with phase := .leaving }
    else none
  | .answer result =>
    if c.phase = .answering then some { c with
      phase := if result = .sent then .receiving else .leaving
      pongs := c.pongs ++ [result] }
    else none
  | .leave => if c.phase = .leaving then some { c with phase := .ended } else none

/-- What a step of the handler does to the manager. -/
def managerAction (c : Handler ω) : HandlerStep → Option (ManagerAction ω String)
  | .accept true => some (.clientState c.socket .CONNECTED)
  | .register => some (.connect c.migrationId c.socket)
  | .leave => some (.disconnect c.migrationId c.socket)
  | _ => none

/-- Its `connect` is done and its `disconnect` is not. -/
def Active (c : Handler ω) : Prop :=
  c.phase = .receiving ∨ c.phase = .answering ∨ c.phase = .leaving

/-- Its `connect` is not done and may still be. -/
def Arriving (c : Handler ω) : Prop := c.phase = .accepting ∨ c.phase = .accepted

instance (c : Handler ω) : Decidable c.Active :=
  inferInstanceAs (Decidable (c.phase = .receiving ∨ c.phase = .answering ∨ c.phase = .leaving))

instance (c : Handler ω) : Decidable c.Arriving :=
  inferInstanceAs (Decidable (c.phase = .accepting ∨ c.phase = .accepted))

/-- What a step of a handler does, guards included. -/
theorem next_cases {c c' : Handler ω} {a : HandlerStep} (h : c.next a = some c') :
    (∃ accepted, a = .accept accepted ∧ c.phase = .accepting ∧
      c' = { c with phase := if accepted then .accepted else .ended }) ∨
    (a = .register ∧ c.phase = .accepted ∧ c' = { c with phase := .receiving }) ∨
    (∃ text, a = .receive (some text) ∧ c.phase = .receiving ∧ c' = { c with
      phase := if text = "ping" then .answering else .receiving
      received := c.received ++ [text] }) ∨
    (a = .receive none ∧ c.phase = .receiving ∧ c' = { c with phase := .leaving }) ∨
    (∃ result, a = .answer result ∧ c.phase = .answering ∧ c' = { c with
      phase := if result = .sent then .receiving else .leaving
      pongs := c.pongs ++ [result] }) ∨
    (a = .leave ∧ c.phase = .leaving ∧ c' = { c with phase := .ended }) := by
  cases a with
  | accept accepted =>
    obtain ⟨hphase, hc'⟩ := Option.ite_none_right_eq_some.mp h
    exact Or.inl ⟨accepted, rfl, hphase, (Option.some.inj hc').symm⟩
  | register =>
    obtain ⟨hphase, hc'⟩ := Option.ite_none_right_eq_some.mp h
    exact Or.inr (Or.inl ⟨rfl, hphase, (Option.some.inj hc').symm⟩)
  | receive data =>
    obtain ⟨hphase, hc'⟩ := Option.ite_none_right_eq_some.mp h
    cases data with
    | some text => exact Or.inr (Or.inr (Or.inl ⟨text, rfl, hphase, (Option.some.inj hc').symm⟩))
    | none => exact Or.inr (Or.inr (Or.inr (Or.inl ⟨rfl, hphase, (Option.some.inj hc').symm⟩)))
  | answer result =>
    obtain ⟨hphase, hc'⟩ := Option.ite_none_right_eq_some.mp h
    exact Or.inr (Or.inr (Or.inr (Or.inr (Or.inl ⟨result, rfl, hphase,
      (Option.some.inj hc').symm⟩))))
  | leave =>
    obtain ⟨hphase, hc'⟩ := Option.ite_none_right_eq_some.mp h
    exact Or.inr (Or.inr (Or.inr (Or.inr (Or.inr ⟨rfl, hphase, (Option.some.inj hc').symm⟩))))

theorem next_channel {c c' : Handler ω} {a : HandlerStep} (h : c.next a = some c') :
    c'.migrationId = c.migrationId ∧ c'.socket = c.socket := by
  rcases next_cases h with ⟨_, -, -, hc'⟩ | ⟨-, -, hc'⟩ | ⟨_, -, -, hc'⟩ | ⟨-, -, hc'⟩ |
    ⟨_, -, -, hc'⟩ | ⟨-, -, hc'⟩ <;> rw [hc'] <;> exact ⟨rfl, rfl⟩

theorem next_active {c c' : Handler ω} {a : HandlerStep} (h : c.next a = some c') :
    c'.Active ↔ a = .register ∨ c.Active ∧ a ≠ .leave := by
  unfold Active
  rcases next_cases h with ⟨accepted, rfl, hphase, rfl⟩ | ⟨rfl, hphase, rfl⟩ |
    ⟨text, rfl, hphase, rfl⟩ | ⟨rfl, hphase, rfl⟩ | ⟨result, rfl, hphase, rfl⟩ | ⟨rfl, hphase, rfl⟩
  · cases accepted <;> simp [hphase]
  · simp
  · by_cases hping : text = "ping" <;> simp [hphase, hping]
  · simp [hphase]
  · cases result <;> simp [hphase]
  · simp

theorem next_arriving {c c' : Handler ω} {a : HandlerStep} (h : c.next a = some c')
    (hc' : c'.Arriving) : c.Arriving := by
  unfold Arriving at hc' ⊢
  rcases next_cases h with ⟨accepted, rfl, hphase, rfl⟩ | ⟨rfl, hphase, rfl⟩ |
    ⟨text, rfl, hphase, rfl⟩ | ⟨rfl, hphase, rfl⟩ | ⟨result, rfl, hphase, rfl⟩ | ⟨rfl, hphase, rfl⟩
  · exact Or.inl hphase
  · exact Or.inr hphase
  · by_cases hping : text = "ping" <;> simp [hping] at hc'
  · simp at hc'
  · cases result <;> simp at hc'
  · simp at hc'

/-- A handler answers every "ping" with one "pong", before it receives the next text, and leaves
when a send raises. -/
structure Answers (c : Handler ω) : Prop where
  count : c.received.count "ping" = c.pongs.length + if c.phase = .answering then 1 else 0
  sent : ∀ result ∈ c.pongs.dropLast, result = .sent
  raised : .raised ∈ c.pongs → c.phase = .leaving ∨ c.phase = .ended

theorem Answers.next {c c' : Handler ω} {a : HandlerStep} (hc : c.Answers) (h : c.next a = some c') :
    c'.Answers := by
  have hcount := hc.count
  have hquiet : ∀ phase, c.phase = phase → phase ≠ .leaving → phase ≠ .ended →
      .raised ∉ c.pongs := by
    intro phase hphase hleaving hended hraised
    subst hphase
    exact (hc.raised hraised).elim hleaving hended
  rcases next_cases h with ⟨accepted, -, hphase, hc'⟩ | ⟨-, hphase, hc'⟩ | ⟨text, -, hphase, hc'⟩ |
    ⟨-, hphase, hc'⟩ | ⟨result, -, hphase, hc'⟩ | ⟨-, hphase, hc'⟩ <;> subst hc'
  all_goals rw [hphase] at hcount
  · refine ⟨?_, hc.sent, fun hraised => absurd hraised (hquiet _ hphase (by decide) (by decide))⟩
    cases accepted <;> simpa using hcount
  · exact ⟨by simpa using hcount, hc.sent,
      fun hraised => absurd hraised (hquiet _ hphase (by decide) (by decide))⟩
  · refine ⟨?_, hc.sent, fun hraised => absurd hraised (hquiet _ hphase (by decide) (by decide))⟩
    by_cases hping : text = "ping"
    · simpa [hping] using hcount
    · simpa [hping, List.count_append, List.count_singleton] using hcount
  · exact ⟨by simpa using hcount, hc.sent, fun _ => Or.inl rfl⟩
  · have hnone := hquiet _ hphase (by decide) (by decide)
    constructor
    · cases result <;> simpa using hcount
    · rw [List.dropLast_concat]
      intro r hr
      cases r with
      | sent => rfl
      | raised => exact absurd hr hnone
    · intro hraised
      cases result with
      | sent => simp [hnone] at hraised
      | raised => exact Or.inl rfl
  · exact ⟨by simpa using hcount, hc.sent, fun _ => Or.inr rfl⟩

end Handler

/-- The manager of the API process and its calls of `handle_migration_ws`. -/
structure WebsocketService (ω : Type) where
  manager : ConnectionManager ω String
  handlers : List (Handler ω) := []

/-- The route is called with a new socket; a handler moves; a socket's state changes by itself; the
manager broadcasts an event. -/
inductive WebsocketAction (ω : Type) where
  | called (migrationId : String) (ws : ω)
  | handle (index : Nat) (step : HandlerStep)
  | clientState (ws : ω) (state : WebSocketState)
  | broadcast (migrationId : String) (event : Event)
  | advance (index : Nat) (step : BroadcastStep ω)

namespace WebsocketService

variable [DecidableEq ω]

def start (clientState : ω → WebSocketState) : WebsocketService ω :=
  ⟨ConnectionManager.start clientState, []⟩

def manage (s : WebsocketService ω) (a : ManagerAction ω String) : Option (WebsocketService ω) :=
  (s.manager.step a).map fun manager => { s with manager := manager }

def step (s : WebsocketService ω) : WebsocketAction ω → Option (WebsocketService ω)
  | .called migrationId ws =>
    if ws ∈ s.handlers.map Handler.socket then none
    else some { s with handlers := s.handlers ++ [{ migrationId := migrationId, socket := ws }] }
  | .handle index a =>
    s.handlers[index]?.bind fun c => (c.next a).bind fun c' =>
      ((c.managerAction a).elim (some s.manager) s.manager.step).map fun manager =>
        ⟨manager, s.handlers.set index c'⟩
  | .clientState ws state => s.manage (.clientState ws state)
  | .broadcast migrationId event => s.manage (.broadcast migrationId (event.message migrationId))
  | .advance index a => s.manage (.advance index a)

/-- Any interleaving of the handlers with the broadcasts. -/
def system (ω : Type) [DecidableEq ω] : Transition (WebsocketService ω) (WebsocketAction ω) := ⟨step⟩

/-- A step of a handler: what it does to the handler, and to the registry. -/
theorem step_handle {s t : WebsocketService ω} {index : Nat} {a : HandlerStep}
    (h : s.step (.handle index a) = some t) :
    ∃ c c', s.handlers[index]? = some c ∧ c.next a = some c' ∧
      t.handlers = s.handlers.set index c' ∧ t.manager.broadcasts = s.manager.broadcasts ∧
      ∀ migrationId ws, ws ∈ t.manager.connections.members migrationId ↔
        (a = .register ∧ migrationId = c.migrationId ∧ ws = c.socket) ∨
          ws ∈ s.manager.connections.members migrationId ∧
            ¬ (a = .leave ∧ migrationId = c.migrationId ∧ ws = c.socket) := by
  obtain ⟨c, hc, hrest⟩ := Option.bind_eq_some_iff.mp h
  obtain ⟨c', hnext, hmanager⟩ := Option.bind_eq_some_iff.mp hrest
  obtain ⟨manager, hstep, ht⟩ := Option.map_eq_some_iff.mp hmanager
  subst ht
  refine ⟨c, c', hc, hnext, rfl, ?_⟩
  cases a with
  | accept accepted => cases accepted <;> (cases hstep; simp)
  | register =>
    cases hstep
    refine ⟨rfl, ?_⟩
    intro migrationId ws
    rw [SetDict.members_add]
    by_cases hid : migrationId = c.migrationId <;> simp [hid]
  | receive data => cases hstep; simp
  | answer result => cases hstep; simp
  | leave =>
    cases hstep
    refine ⟨rfl, ?_⟩
    intro migrationId ws
    rw [SetDict.members_prune, SetDict.members_discard]
    by_cases hid : migrationId = c.migrationId <;> simp [hid, and_comm]

end WebsocketService

end DataBridge

import DataBridge.Websockets.Delivery
import DataBridge.Workers.MigrationTasks

namespace DataBridge

/-- The API process and the Celery worker, which `start.sh` starts apart: each has the
`ws_manager` of its own import. -/
structure LiveSystem (ω : Type) where
  api : ConnectionManager ω Event
  worker : ConnectionManager ω Event

/-- Clients reach the API process; the task broadcasts in the worker. -/
inductive LiveAction (ω : Type) where
  | clientState (ws : ω) (state : WebSocketState)
  | connect (migrationId : String) (ws : ω)
  | disconnect (migrationId : String) (ws : ω)
  | broadcast (migrationId : String) (event : Event)
  | advance (index : Nat) (step : BroadcastStep ω)

variable {ω : Type} [DecidableEq ω]

namespace LiveSystem

def start (clientState : ω → WebSocketState) : LiveSystem ω :=
  ⟨ConnectionManager.start clientState, ConnectionManager.start clientState⟩

def apiStep (s : LiveSystem ω) (a : ManagerAction ω Event) : Option (LiveSystem ω) :=
  (s.api.step a).map fun api => { s with api := api }

def workerStep (s : LiveSystem ω) (a : ManagerAction ω Event) : Option (LiveSystem ω) :=
  (s.worker.step a).map fun worker => { s with worker := worker }

def step (s : LiveSystem ω) : LiveAction ω → Option (LiveSystem ω)
  | .clientState ws state => s.apiStep (.clientState ws state)
  | .connect migrationId ws => s.apiStep (.connect migrationId ws)
  | .disconnect migrationId ws => s.apiStep (.disconnect migrationId ws)
  | .broadcast migrationId event => s.workerStep (.broadcast migrationId event)
  | .advance index a => s.workerStep (.advance index a)

/-- Any interleaving of the clients with the broadcasts of the worker. -/
def system (ω : Type) [DecidableEq ω] : Transition (LiveSystem ω) (LiveAction ω) := ⟨step⟩

/-- The client is subscribed to the migration. -/
def Subscribed (migrationId : String) (ws : ω) (s : LiveSystem ω) : Prop :=
  ws ∈ s.api.connections.members migrationId

end LiveSystem

/-- A broadcast that has copied no socket. -/
structure Broadcast.Unheard (c : Broadcast ω Event) : Prop where
  turns : c.turns = []
  stale : c.stale = []
  left : c.left = ∅

/-- A manager that no client has reached. -/
structure ConnectionManager.Unreached (s : ConnectionManager ω Event) : Prop where
  connections : s.connections = Dict.empty
  broadcasts : ∀ (index : Nat) c, s.broadcasts[index]? = some c → c.Unheard

section unreached

variable {c c' : Broadcast ω Event} {clientState : ω → WebSocketState} {a : BroadcastStep ω}

/-- A copy of an empty registry has no sockets, so no turns. -/
theorem Broadcast.Unheard.next (hc : c.Unheard) (h : c.next Dict.empty clientState a = some c') :
    c'.Unheard := by
  rcases next_cases h with hsnapshot | hturn | hclean
  · obtain ⟨-, -, hc'⟩ := hsnapshot
    subst hc'
    exact ⟨hc.turns, hc.stale, rfl⟩
  · obtain ⟨ws, result, sockets, -, hphase, hws, -⟩ := hturn
    have hleft : c.left = sockets := by rw [Broadcast.left, hphase]
    rw [← hleft, hc.left] at hws
    cases hws
  · obtain ⟨-, -, hc'⟩ := hclean
    subst hc'
    exact ⟨hc.turns, hc.stale, rfl⟩

theorem ConnectionManager.Unreached.broadcasts_step {s t : ConnectionManager ω Event}
    {action : ManagerAction ω Event} (h : s.Unreached) (hstep : s.step action = some t)
    (index : Nat) (c : Broadcast ω Event) (hc : t.broadcasts[index]? = some c) : c.Unheard := by
  rcases broadcast_source hstep hc with hfresh | hold
  · obtain ⟨migrationId, message, hfresh⟩ := hfresh
    rw [hfresh]
    exact ⟨rfl, rfl, rfl⟩
  · obtain ⟨c₀, hc₀⟩ := hold
    have hbefore := h.broadcasts index c₀ hc₀
    rcases step_broadcast hstep hc₀ with hkept | hmoved
    · rw [hkept] at hc
      cases hc
      exact hbefore
    · obtain ⟨a, c', -, hnext, hc'⟩ := hmoved
      rw [hc'] at hc
      cases hc
      rw [h.connections] at hnext
      exact hbefore.next hnext

/-- A broadcast neither reaches anyone nor registers anyone. -/
theorem ConnectionManager.Unreached.advance {s t : ConnectionManager ω Event} {index : Nat}
    {a : BroadcastStep ω} (h : s.Unreached) (hstep : s.step (.advance index a) = some t) :
    t.Unreached := by
  refine ⟨?_, h.broadcasts_step hstep⟩
  obtain ⟨c, c', hc, -, ht⟩ := step_advance hstep
  have hstale := (h.broadcasts index c hc).stale
  have hregistry : c.registry s.connections a = s.connections := by
    cases a with
    | cleanUp => simp only [Broadcast.registry, if_pos hstale]
    | _ => rfl
  rw [ht, hregistry]
  exact h.connections

end unreached

namespace LiveSystem

theorem apiStep_worker {s t : LiveSystem ω} {a : ManagerAction ω Event}
    (h : s.apiStep a = some t) : t.worker = s.worker := by
  obtain ⟨api, -, ht⟩ := Option.map_eq_some_iff.mp h
  rw [← ht]

theorem workerStep_worker {s t : LiveSystem ω} {a : ManagerAction ω Event}
    (h : s.workerStep a = some t) : s.worker.step a = some t.worker := by
  obtain ⟨worker, hworker, ht⟩ := Option.map_eq_some_iff.mp h
  rw [← ht]
  exact hworker

/-- The worker's registry stays empty: only the API process connects clients. -/
theorem worker_unreached {ok : LiveSystem ω → LiveAction ω → Prop}
    {clientState : ω → WebSocketState} {s : LiveSystem ω}
    (h : (system ω).Reaches ok (start clientState) s) : s.worker.Unreached := by
  refine h.invariant (I := fun s : LiveSystem ω => s.worker.Unreached) ?_ ?_
  · intro s a t hs _ hstep
    have hapi : ∀ a, s.apiStep a = some t → t.worker.Unreached := by
      intro a h
      rw [apiStep_worker h]
      exact hs
    cases a with
    | broadcast migrationId event =>
      have hworker := workerStep_worker (a := .broadcast migrationId event) hstep
      refine ⟨?_, hs.broadcasts_step hworker⟩
      have hkept := hs.connections
      cases hstep
      exact hkept
    | advance index a => exact hs.advance (workerStep_worker (a := .advance index a) hstep)
    | clientState ws state => exact hapi (.clientState ws state) hstep
    | connect migrationId ws => exact hapi (.connect migrationId ws) hstep
    | disconnect migrationId ws => exact hapi (.disconnect migrationId ws) hstep
  · exact ⟨rfl, fun index c hc => (by cases hc)⟩

/-- A broadcast of the worker is sent to all clients that are subscribed throughout just when
there are none. -/
theorem live_event_sent_iff {clientState : ω → WebSocketState} {s₀ s₁ s : LiveSystem ω}
    {migrationId : String} {event : Event} {during : List (LiveAction ω)} {c : Broadcast ω Event}
    (hbefore : (system ω).Reaches Transition.anyAction (start clientState) s₀)
    (hcall : s₀.step (.broadcast migrationId event) = some s₁)
    (hduring : (system ω).run Transition.anyAction s₁
      (during ++ [.advance s₀.worker.broadcasts.length .cleanUp]) = some s)
    (hc : s.worker.broadcasts[s₀.worker.broadcasts.length]? = some c) :
    (∀ ws, (system ω).Throughout (Subscribed migrationId ws) s₁
        (during ++ [.advance s₀.worker.broadcasts.length .cleanUp]) → 0 < c.attempts ws) ↔
      ∀ ws, ¬ (system ω).Throughout (Subscribed migrationId ws) s₁
        (during ++ [.advance s₀.worker.broadcasts.length .cleanUp]) := by
  have hreach : (system ω).Reaches Transition.anyAction (start clientState) s :=
    hbefore.trans (Transition.Reaches.head (m := system ω) (a := .broadcast migrationId event)
      trivial hcall (Transition.reaches_of_run hduring))
  have hnone : ∀ ws, c.attempts ws = 0 := by
    intro ws
    rw [Broadcast.attempts, ((worker_unreached hreach).broadcasts _ c hc).turns]
    rfl
  constructor
  · intro hsent ws hws
    have hpos := hsent ws hws
    rw [hnone] at hpos
    omega
  · intro habsent ws hws
    exact absurd hws (habsent ws)

private def watched : List (LiveAction Nat) := [.clientState 0 .CONNECTED, .connect "m" 0]

private def logged : List (LiveAction Nat) := [.advance 0 .snapshot]

private def unwatched : LiveSystem Nat := start fun _ => .CONNECTING

private theorem logged_runs : ∃ s₀ s₁ s c,
    (system Nat).run Transition.anyAction unwatched watched = some s₀ ∧
    s₀.step (.broadcast "m" (.log "INFO" "Starting" none)) = some s₁ ∧
    (system Nat).run Transition.anyAction s₁
      (logged ++ [.advance s₀.worker.broadcasts.length .cleanUp]) = some s ∧
    s.worker.broadcasts[s₀.worker.broadcasts.length]? = some c ∧ c.turns = [] ∧
    (system Nat).Throughout (Subscribed "m" 0) s₁
      (logged ++ [.advance s₀.worker.broadcasts.length .cleanUp]) := by
  refine ⟨_, _, _, _, rfl, rfl, rfl, rfl, rfl, ?_⟩
  have hsubscribed : 0 ∈ ({0} : Finset Nat) := Finset.mem_singleton_self 0
  refine ⟨hsubscribed, ?_⟩
  intro s hs
  cases hs
  refine ⟨hsubscribed, ?_⟩
  intro s hs
  cases hs
  exact hsubscribed

theorem live_event_sent_iff_watched : ∃ s₀ s₁ s c,
    (system Nat).run Transition.anyAction unwatched watched = some s₀ ∧
    s₀.step (.broadcast "m" (.log "INFO" "Starting" none)) = some s₁ ∧
    (system Nat).run Transition.anyAction s₁
      (logged ++ [.advance s₀.worker.broadcasts.length .cleanUp]) = some s ∧
    s.worker.broadcasts[s₀.worker.broadcasts.length]? = some c ∧
    ((∀ ws, (system Nat).Throughout (Subscribed "m" ws) s₁
        (logged ++ [.advance s₀.worker.broadcasts.length .cleanUp]) → 0 < c.attempts ws) ↔
      ∀ ws, ¬ (system Nat).Throughout (Subscribed "m" ws) s₁
        (logged ++ [.advance s₀.worker.broadcasts.length .cleanUp])) := by
  obtain ⟨s₀, s₁, s, c, hbefore, hcall, hduring, hc, -, -⟩ := logged_runs
  exact ⟨s₀, s₁, s, c, hbefore, hcall, hduring, hc,
    live_event_sent_iff (Transition.reaches_of_run hbefore) hcall hduring hc⟩

/-- A log line that its migration's one subscriber is never sent. -/
theorem live_event_not_sent : ∃ s₀ s₁ s c,
    (system Nat).run Transition.anyAction unwatched watched = some s₀ ∧
    s₀.step (.broadcast "m" (.log "INFO" "Starting" none)) = some s₁ ∧
    (system Nat).run Transition.anyAction s₁
      (logged ++ [.advance s₀.worker.broadcasts.length .cleanUp]) = some s ∧
    s.worker.broadcasts[s₀.worker.broadcasts.length]? = some c ∧
    (system Nat).Throughout (Subscribed "m" 0) s₁
      (logged ++ [.advance s₀.worker.broadcasts.length .cleanUp]) ∧ c.attempts 0 = 0 := by
  obtain ⟨s₀, s₁, s, c, hbefore, hcall, hduring, hc, hturns, hthroughout⟩ := logged_runs
  refine ⟨s₀, s₁, s, c, hbefore, hcall, hduring, hc, hthroughout, ?_⟩
  rw [Broadcast.attempts, hturns]
  rfl

end LiveSystem

end DataBridge

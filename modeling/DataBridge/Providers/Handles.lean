import DataBridge.Framework.Bracket
import DataBridge.Providers.BaseProvider
import DataBridge.Utils.Helpers
import Mathlib.Algebra.BigOperators.Group.List.Basic

namespace DataBridge

/-- What happens to a connection or a pool that a driver has opened, known by its number. -/
inductive HandleEvent where
  | opened (handle : Nat)
  | statementFailed (handle : Nat)
  | closed (handle : Nat)
  | closeFailed (handle : Nat)
  deriving DecidableEq, Repr

/-- The world, what happened to the handles of the drivers, and the attribute `_conn` or `_pool` of
the provider objects in use, that of the innermost `async with` first. -/
structure Opened (W : Type) where
  world : W
  events : List HandleEvent := []
  conns : List (Option Nat) := []

/-- A driver of a database: aiosqlite, asyncpg or aiomysql. -/
structure Driver (W : Type) where
  connect : Call Exc W Nat
  execute : Nat → String → Call Exc W Unit
  close : Nat → Call Exc W Unit

/-- A provider with the driver calls of its `connect`, `disconnect` and `test_connection`. -/
structure ProviderObject (W : Type) extends BaseDatabaseProvider W where
  getTables : Call Exc W (List String)
  getRowCount : String → Call Exc W Nat
  driver : Driver W
  probe : Driver W := driver
  setup : List String := []
  monotonic : W → ℚ

variable {W α : Type}

namespace Opened

/-- A call that opens and closes nothing. -/
def inside (c : Call Exc W α) : Call Exc (Opened W) α :=
  Call.zoom world (fun w s => { s with world := w }) c

/-- A driver call, with what it means for the handles when it returns and when it raises. -/
def observed (c : Call Exc W α) (onReturn : α → List HandleEvent) (onRaise : List HandleEvent) :
    Call Exc (Opened W) α := fun s =>
  match c s.world with
  | (.returned a, w) => (.returned a, { s with world := w, events := s.events ++ onReturn a })
  | (.raised exc, w) => (.raised exc, { s with world := w, events := s.events ++ onRaise })
  | (.exhausted, w) => (.exhausted, { s with world := w })

/-- `self._conn = conn`, of the innermost object. -/
def setConn (conn : Option Nat) : Call Exc (Opened W) Unit :=
  Call.modify fun s => { s with conns := conn :: s.conns.tail }

/-- A provider object that is made for an `async with`, and one that is no longer used. -/
def enter : Call Exc (Opened W) Unit := Call.modify fun s => { s with conns := none :: s.conns }

def leave : Call Exc (Opened W) Unit := Call.modify fun s => { s with conns := s.conns.tail }

end Opened

namespace Driver

open Opened (observed)

variable (d : Driver W)

def openHandle : Call Exc (Opened W) Nat := observed d.connect (fun conn => [.opened conn]) []

/-- A statement after whose failure nothing refers to the handle any more. -/
def run (conn : Nat) (sql : String) : Call Exc (Opened W) Unit :=
  observed (d.execute conn sql) (fun _ => []) [.statementFailed conn]

def runAll (conn : Nat) : List String → Call Exc (Opened W) Unit
  | [] => pure ()
  | sql :: rest => do
    d.run conn sql
    runAll conn rest

def closeHandle (conn : Nat) : Call Exc (Opened W) Unit :=
  observed (d.close conn) (fun _ => [.closed conn]) [.closeFailed conn]

end Driver

namespace ProviderObject

open Opened (inside setConn enter leave)

variable (p : ProviderObject W)

def connect : Call Exc (Opened W) Unit := do
  let conn ← p.driver.openHandle
  setConn (some conn)
  p.driver.runAll conn p.setup

def disconnect : Call Exc (Opened W) Unit := do
  match ← Call.read fun s => s.conns.head?.join with
  | some conn => do
    p.driver.closeHandle conn
    setConn none
  | none => pure ()

/-- `round(latency, 2)` of the milliseconds. -/
def latencyMs (start stop : ℚ) : ℚ := roundHalfEven ((stop - start) * 1000 * 100) / 100

def testConnection : Call Exc (Opened W) (Bool × String × ℚ) := do
  let start ← Call.read fun s => p.monotonic s.world
  Call.tryExcept
    (do
      let conn ← p.probe.openHandle
      p.probe.run conn "SELECT 1"
      p.probe.closeHandle conn
      let stop ← Call.read fun s => p.monotonic s.world
      pure (true, "Connection successful", latencyMs start stop))
    (fun exc => pure (false, exc.text, 0))

/-- `__aenter__` of a new object. One whose `connect` raises is not used again. -/
def aenter : Call Exc (Opened W) Unit := do
  enter
  Call.tryExcept p.connect fun exc => do
    leave
    Call.raise exc

/-- `__aexit__`, the last use of the object. -/
def aexit : Call Exc (Opened W) Unit := Call.tryFinally p.disconnect leave

/-- `async with p: body`. -/
def asyncWith (body : Call Exc (Opened W) α) : Call Exc (Opened W) α :=
  p.aenter >>= fun _ => Call.tryFinally body p.aexit

def managed : ManagedProvider (Opened W) where
  toBaseDatabaseProvider :=
    p.toBaseDatabaseProvider.within Opened.world fun w s => { s with world := w }
  connect := p.aenter
  disconnect := p.aexit

end ProviderObject

section objects

variable (operations : BaseDatabaseProvider W) (getTables : Call Exc W (List String))
  (getRowCount : String → Call Exc W Nat) (monotonic : W → ℚ)

/-- The statements of its `connect` come after the connection is open. -/
def SQLiteProvider.object (aiosqlite : Driver W) : ProviderObject W :=
  { operations with
    getTables, getRowCount, monotonic
    driver := aiosqlite
    setup := ["PRAGMA journal_mode=WAL", "PRAGMA foreign_keys=ON"] }

/-- It uses a pool, but tests a connection. -/
def PostgresProvider.object (asyncpg asyncpgPool : Driver W) : ProviderObject W :=
  { operations with getTables, getRowCount, monotonic, driver := asyncpgPool, probe := asyncpg }

def MySQLProvider.object (aiomysql aiomysqlPool : Driver W) : ProviderObject W :=
  { operations with getTables, getRowCount, monotonic, driver := aiomysqlPool, probe := aiomysql }

end objects

/-! ## The balance of the handles -/

/-- One more handle with this number is open, or one fewer. -/
def HandleEvent.delta (handle : Nat) : HandleEvent → Int
  | .opened conn => if conn = handle then 1 else 0
  | .statementFailed conn | .closed conn | .closeFailed conn => if conn = handle then -1 else 0

def net (handle : Nat) (events : List HandleEvent) : Int :=
  (events.map (HandleEvent.delta handle)).sum

@[simp] theorem net_append (handle : Nat) (xs ys : List HandleEvent) :
    net handle (xs ++ ys) = net handle xs + net handle ys := by
  simp [net]

/-- Of every handle that was opened it is known how it ended, but of those that are held, and no
handle ended that was not open. -/
structure Accounted (held : List Nat) (events : List HandleEvent) : Prop where
  never : ∀ handle p, p <+: events → 0 ≤ net handle p
  rest : ∀ handle, net handle events = held.count handle

/-- The handle ends with this event. -/
def HandleEvent.Ends (conn : Nat) (e : HandleEvent) : Prop :=
  e = .statementFailed conn ∨ e = .closed conn ∨ e = .closeFailed conn

theorem HandleEvent.Ends.delta {conn : Nat} {e : HandleEvent} (h : e.Ends conn) (handle : Nat) :
    e.delta handle = if conn = handle then -1 else 0 := by
  rcases h with rfl | rfl | rfl <;> rfl

namespace Accounted

variable {held : List Nat} {events : List HandleEvent} {conn : Nat} {e : HandleEvent}

theorem nil : Accounted [] [] where
  never handle p hp := by
    rw [List.prefix_nil.mp hp]
    simp [net]
  rest handle := by simp [net]

/-- What holds before an event and of the whole list holds of every beginning. -/
theorem snoc {held' : List Nat} (h : Accounted held events)
    (hrest : ∀ handle, (held.count handle : Int) + e.delta handle = held'.count handle) :
    Accounted held' (events ++ [e]) := by
  have hnet : ∀ handle, net handle (events ++ [e]) = held'.count handle := by
    intro handle
    have hone : net handle [e] = e.delta handle := by simp [net]
    rw [net_append, hone, h.rest handle]
    exact hrest handle
  refine ⟨?_, hnet⟩
  intro handle p hp
  rcases List.prefix_concat_iff.mp hp with rfl | hbefore
  · rw [hnet handle]
    omega
  · exact h.never handle p hbefore

theorem opened (h : Accounted held events) :
    Accounted (conn :: held) (events ++ [.opened conn]) := by
  apply h.snoc
  intro handle
  by_cases hc : conn = handle <;> simp [HandleEvent.delta, hc]

theorem ended (h : Accounted (conn :: held) events) (he : e.Ends conn) :
    Accounted held (events ++ [e]) := by
  apply h.snoc
  intro handle
  rw [he.delta]
  by_cases hc : conn = handle <;> simp [hc]

end Accounted

/-- Since `start` the handles are accounted for, and these objects are in use. -/
structure Opened.Holds (start : List HandleEvent) (held : List Nat) (conns : List (Option Nat))
    (s : Opened W) : Prop where
  events : ∃ new, s.events = start ++ new ∧ Accounted held new
  conns : s.conns = conns

namespace Opened

variable {start : List HandleEvent} {held : List Nat} {conns : List (Option Nat)} {s : Opened W}
  {conn : Nat}

theorem Holds.opened (h : Holds start held conns s) {s' : Opened W}
    (hevents : s'.events = s.events ++ [.opened conn]) (hconns : s'.conns = s.conns) :
    Holds start (conn :: held) conns s' := by
  obtain ⟨new, hnew, haccounted⟩ := h.events
  refine ⟨⟨new ++ [.opened conn], ?_, haccounted.opened⟩, hconns.trans h.conns⟩
  rw [hevents, hnew, List.append_assoc]

theorem Holds.ended (h : Holds start (conn :: held) conns s) {s' : Opened W} {e : HandleEvent}
    (he : e.Ends conn) (hevents : s'.events = s.events ++ [e]) (hconns : s'.conns = s.conns) :
    Holds start held conns s' := by
  obtain ⟨new, hnew, haccounted⟩ := h.events
  refine ⟨⟨new ++ [e], ?_, haccounted.ended he⟩, hconns.trans h.conns⟩
  rw [hevents, hnew, List.append_assoc]

theorem Holds.same (h : Holds start held conns s) {s' : Opened W} (hevents : s'.events = s.events)
    (hconns : s'.conns = s.conns) : Holds start held conns s' := by
  obtain ⟨new, hnew, haccounted⟩ := h.events
  exact ⟨⟨new, hevents.trans hnew, haccounted⟩, hconns.trans h.conns⟩

theorem Holds.conned (h : Holds start held conns s) {conns' : List (Option Nat)} :
    Holds start held conns' { s with conns := conns' } := ⟨h.events, rfl⟩

/-- What is inside opens and closes nothing. -/
theorem inside_keeps (c : Call Exc W α) : Call.Keeps (Holds start held conns) (inside c) := by
  apply Call.keeps_of_snd
  exact fun s h => ⟨h.events, h.conns⟩

theorem wp_observed {c : Call Exc W α} {onReturn : α → List HandleEvent}
    {onRaise : List HandleEvent} {Q : Post Exc (Opened W) α} (hreturn : ∀ a w, Q.returned a
      { s with world := w, events := s.events ++ onReturn a })
    (hraise : ∀ exc w, Q.raised exc { s with world := w, events := s.events ++ onRaise })
    (hexhaust : ∀ w, Q.exhausted { s with world := w }) :
    Call.wp (observed c onReturn onRaise) Q s := by
  rw [Call.wp, observed]
  rcases c s.world with ⟨a | exc | _, w⟩
  · exact hreturn a w
  · exact hraise exc w
  · exact hexhaust w

end Opened

namespace Driver

open Opened (Holds wp_observed)

variable {d : Driver W} {start : List HandleEvent} {held : List Nat} {conns : List (Option Nat)}
  {s : Opened W} {conn : Nat}

theorem wp_openHandle (h : Holds start held conns s) : Call.wp d.openHandle
    ⟨fun conn s' => Holds start (conn :: held) conns s', fun _ s' => Holds start held conns s',
      fun _ => True⟩ s :=
  wp_observed (fun _ _ => h.opened rfl rfl) (fun _ _ => h.same (List.append_nil _) rfl)
    (fun _ => trivial)

theorem wp_run (sql : String) (h : Holds start (conn :: held) conns s) :
    Call.wp (d.run conn sql)
      ⟨fun _ s' => Holds start (conn :: held) conns s', fun _ s' => Holds start held conns s',
        fun _ => True⟩ s :=
  wp_observed (fun _ _ => h.same (List.append_nil _) rfl)
    (fun _ _ => h.ended (Or.inl rfl) rfl rfl) (fun _ => trivial)

theorem wp_runAll (statements : List String) (h : Holds start (conn :: held) conns s) :
    Call.wp (d.runAll conn statements)
      ⟨fun _ s' => Holds start (conn :: held) conns s', fun _ s' => Holds start held conns s',
        fun _ => True⟩ s := by
  induction statements generalizing s with
  | nil => exact h
  | cons sql rest ih =>
    rw [runAll, Call.wp_bind]
    exact Call.wp_mono (wp_run sql h) (fun _ _ h' => ih h') (fun _ _ h' => h') (fun _ h' => h')

theorem wp_closeHandle (h : Holds start (conn :: held) conns s) :
    Call.wp (d.closeHandle conn) (Post.atEnd (Holds start held conns)) s :=
  wp_observed (fun _ _ => h.ended (Or.inr (Or.inl rfl)) rfl rfl)
    (fun _ _ => h.ended (Or.inr (Or.inr rfl)) rfl rfl) (fun _ => trivial)

end Driver

namespace ProviderObject

open Opened (Holds)

variable {p : ProviderObject W} {start : List HandleEvent} {held : List Nat}
  {conns : List (Option Nat)} {s : Opened W} {conn : Nat}

/-- A connection is opened and held by the object, or nothing is left open. -/
theorem wp_aenter (h : Holds start held conns s) : Call.wp p.aenter
    ⟨fun _ s' => ∃ conn, Holds start (conn :: held) (some conn :: conns) s',
      fun _ s' => Holds start held conns s', fun _ => True⟩ s := by
  have hconns := h.conns
  subst hconns
  have hconnect : Call.wp p.connect
      ⟨fun _ s' => ∃ conn, Holds start (conn :: held) (some conn :: s.conns) s',
        fun _ s' => ∃ conn, Holds start held (conn :: s.conns) s', fun _ => True⟩
      { s with conns := none :: s.conns } := by
    rw [connect, Call.wp_bind]
    refine Call.wp_mono (Driver.wp_openHandle h.conned) ?_ (fun _ _ h' => ⟨none, h'⟩)
      (fun _ _ => trivial)
    intro conn s₁ h₁
    have hset : Holds start (conn :: held) (some conn :: s.conns)
        { s₁ with conns := some conn :: s₁.conns.tail } := by
      rw [h₁.conns]
      exact h₁.conned
    exact Call.wp_mono (Driver.wp_runAll p.setup hset) (fun _ _ h' => ⟨conn, h'⟩)
      (fun _ _ h' => ⟨some conn, h'⟩) (fun _ _ => trivial)
  rw [aenter, Call.wp_bind]
  change Call.wp (Call.tryExcept p.connect _) _ { s with conns := none :: s.conns }
  rw [Call.wp_tryExcept]
  refine Call.wp_mono hconnect (fun _ _ h' => h') ?_ (fun _ h' => h')
  intro exc s₁ h₁
  obtain ⟨conn, h₁⟩ := h₁
  have hleft : s₁.conns.tail = s.conns := by rw [h₁.conns, List.tail_cons]
  exact ⟨h₁.events, hleft⟩

/-- The connection that the object holds ends, however that goes. -/
theorem wp_aexit (h : Holds start (conn :: held) (some conn :: conns) s) :
    Call.wp p.aexit (Post.atEnd (Holds start held conns)) s := by
  have hleave : ∀ s' : Opened W, (∃ c, Holds start held (c :: conns) s') →
      Holds start held conns { s' with conns := s'.conns.tail } := by
    intro s' h'
    obtain ⟨c, h'⟩ := h'
    have hleft : s'.conns.tail = conns := by rw [h'.conns, List.tail_cons]
    exact ⟨h'.events, hleft⟩
  have hdisconnect : Call.wp p.disconnect
      (Post.atEnd fun s' => ∃ c, Holds start held (c :: conns) s') s := by
    rw [disconnect, Call.wp_bind]
    change Call.wp (match s.conns.head?.join with | some conn => _ | none => _) _ s
    rw [h.conns]
    change Call.wp (p.driver.closeHandle conn >>= fun _ => Opened.setConn none) _ s
    rw [Call.wp_bind]
    refine Call.wp_mono (Driver.wp_closeHandle h) ?_ (fun _ _ h' => ⟨some conn, h'⟩)
      (fun _ _ => trivial)
    intro _ s₁ h₁
    refine ⟨none, ?_⟩
    have htail : s₁.conns.tail = conns := by rw [h₁.conns, List.tail_cons]
    rw [← htail]
    exact h₁.conned
  rw [aexit, Call.wp_tryFinally]
  exact Call.wp_mono hdisconnect (fun _ s' h' => hleave s' h') (fun _ s' h' => hleave s' h')
    (fun _ _ => trivial)

/-- Whatever the body does with the handles it restores, `async with` closes its own. -/
theorem restores_asyncWith {body : Call Exc (Opened W) α} (hbody : ∀ conn,
      Call.Restores (Holds start (conn :: held) (some conn :: conns)) body) :
    Call.Restores (Holds start held conns) (p.asyncWith body) :=
  Call.Restores.bracket (fun _ h => wp_aenter h) hbody (fun _ _ h => wp_aexit h)

/-- What a test says: that a connection was opened, answered and was closed, or why not. -/
def Reported (s : Opened W) (result : Bool × String × ℚ) (s' : Opened W) : Prop :=
  s'.conns = s.conns ∧
    ((∃ conn latency, result = (true, "Connection successful", latency) ∧
        s'.events = s.events ++ [.opened conn, .closed conn]) ∨
      ∃ exc : Exc, result = (false, exc.text, 0) ∧ (s'.events = s.events ∨
        ∃ conn, s'.events = s.events ++ [.opened conn, .statementFailed conn] ∨
          s'.events = s.events ++ [.opened conn, .closeFailed conn]))

/-- A test does not raise, and it succeeds just when it has closed the connection that it opened. -/
theorem wp_testConnection (s : Opened W) : Call.wp p.testConnection
    ⟨fun result s' => Reported s result s', fun _ _ => False, fun _ => True⟩ s := by
  rw [testConnection, Call.wp_bind]
  change Call.wp (Call.tryExcept _ _) _ s
  rw [Call.wp_tryExcept, Call.wp_bind]
  apply Opened.wp_observed
  · intro conn w
    dsimp only
    rw [Call.wp_bind]
    apply Opened.wp_observed
    · intro _ w₁
      dsimp only
      rw [Call.wp_bind]
      apply Opened.wp_observed
      · intro _ w₂
        exact ⟨rfl, Or.inl ⟨conn, _, rfl, by simp⟩⟩
      · intro exc w₂
        exact ⟨rfl, Or.inr ⟨exc, rfl, Or.inr ⟨conn, Or.inr (by simp)⟩⟩⟩
      · exact fun _ => trivial
    · intro exc w₁
      exact ⟨rfl, Or.inr ⟨exc, rfl, Or.inr ⟨conn, Or.inl (by simp)⟩⟩⟩
    · exact fun _ => trivial
  · intro exc w
    exact ⟨rfl, Or.inr ⟨exc, rfl, Or.inl (by simp)⟩⟩
  · exact fun _ => trivial

/-- A test leaves no handle whose end is unknown. -/
theorem Reported.holds {result : Bool × String × ℚ} {s' : Opened W} (h : Reported s result s')
    (hs : Holds start held conns s) : Holds start held conns s' := by
  obtain ⟨hconns, hresult⟩ := h
  have htwo : ∀ (conn : Nat) (e : HandleEvent), e.Ends conn →
      s'.events = s.events ++ [.opened conn, e] → Holds start held conns s' := by
    intro conn e he hevents
    have hopened : Holds start (conn :: held) conns
        { s with events := s.events ++ [.opened conn] } := hs.opened rfl rfl
    apply hopened.ended he _ hconns
    rw [hevents]
    simp
  rcases hresult with ⟨conn, latency, -, hevents⟩ | ⟨exc, -, hevents⟩
  · exact htwo conn (.closed conn) (Or.inr (Or.inl rfl)) hevents
  · rcases hevents with hsame | ⟨conn, hfailed | hfailed⟩
    · exact hs.same hsame hconns
    · exact htwo conn (.statementFailed conn) (Or.inl rfl) hfailed
    · exact htwo conn (.closeFailed conn) (Or.inr (Or.inr rfl)) hfailed

theorem restores_testConnection : Call.Restores (Holds start held conns) p.testConnection :=
  fun s h => Call.wp_mono (wp_testConnection s) (fun _ _ h' => h'.holds h) (fun _ _ h' => h'.elim)
    (fun _ h' => h')

end ProviderObject

end DataBridge

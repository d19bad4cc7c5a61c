import DataBridge.Framework.Keeps
import DataBridge.Providers.BaseProvider

namespace DataBridge

/-- A connection of asyncpg works only in the event loop that made it. -/
structure Connection where
  loop : Nat
  deriving DecidableEq, Repr

/-- A connection handed to a session, and the event loop that was running then. -/
structure ConnectionUse where
  connection : Connection
  loop : Nat
  deriving DecidableEq, Repr

def ConnectionUse.InOwnLoop (use : ConnectionUse) : Prop := use.connection.loop = use.loop

/-- What a process keeps at module level: the running event loop, numbered by the `asyncio.run`
that made it, and `_engine` with the released connections its pool keeps. -/
structure Process (W : Type) where
  loop : Nat := 0
  idle : List Connection := []
  uses : List ConnectionUse := []
  world : W

/-- What the pool does at a checkout: open a connection, hand out one that it keeps, or fail. -/
inductive Handout where
  | opened
  | kept (i : Nat)
  | refused (exc : Exc)

namespace Process

variable {W α : Type}

/-- A choice of the pool at every checkout, whatever the process has done so far. -/
abbrev PoolPolicy (W : Type) := Process W → Handout

def ofWorld (c : Call Exc W α) : Call Exc (Process W) α :=
  Call.zoom Process.world (fun w p => { p with world := w }) c

/-- The connection of a checkout, and those that stay in the pool. Where nothing is kept at the
place the pool chooses, it opens one. -/
def checkout (p : Process W) : Handout → Except Exc (Connection × List Connection)
  | .opened => .ok (⟨p.loop⟩, p.idle)
  | .kept i =>
    match p.idle[i]? with
    | some connection => .ok (connection, p.idle.eraseIdx i)
    | none => .ok (⟨p.loop⟩, p.idle)
  | .refused exc => .error exc

def foreignLoop : Exc := ⟨.other, "got Future attached to a different loop"⟩

/-- A statement on a connection. -/
def runStatement (connection : Connection) (statement : Call Exc W α) :
    Call Exc (Process W) α := fun p =>
  if connection.loop = p.loop then ofWorld statement p else Call.raise foreignLoop p

/-- However the call ends, the connection goes back to the pool, which keeps it. -/
def releasing (connection : Connection) (c : Call Exc (Process W) α) :
    Call Exc (Process W) α := fun p =>
  let ended := c p
  (ended.1, { ended.2 with idle := connection :: ended.2.idle })

/-- A session asks the pool for a connection, runs a statement on it and releases it. Two
statements of one session are two uses: a pool that hands the released connection back at once
gives the session the same one. -/
def useConnection (pool : PoolPolicy W) (statement : Call Exc W α) :
    Call Exc (Process W) α := fun p =>
  match p.checkout (pool p) with
  | .error exc => Call.raise exc p
  | .ok (connection, rest) =>
    releasing connection (runStatement connection statement)
      { p with idle := rest, uses := p.uses ++ [⟨connection, p.loop⟩] }

/-- The pool that always hands out the connection released last. -/
def lifo : PoolPolicy W := fun _ => .kept 0

/-- The pool of `run_async_migrations`: every checkout opens a connection. -/
def nullPool : PoolPolicy W := fun _ => .opened

/-- The process after a use of a connection. -/
def used (p : Process W) (connection : Connection) (rest : List Connection) (w : W) : Process W :=
  { p with
    idle := connection :: rest
    uses := p.uses ++ [⟨connection, p.loop⟩]
    world := w }

theorem runStatement_snd (connection : Connection) (statement : Call Exc W α) (p : Process W) :
    ∃ w, (runStatement connection statement p).2 = { p with world := w } := by
  unfold runStatement
  split
  · exact ⟨(statement p.world).2, rfl⟩
  · exact ⟨p.world, rfl⟩

/-- What a use does: nothing where the checkout fails; else the connection it got is on record and
back in the pool. -/
theorem useConnection_snd (pool : PoolPolicy W) (statement : Call Exc W α) (p : Process W) :
    (∃ exc, p.checkout (pool p) = .error exc ∧ (useConnection pool statement p).2 = p) ∨
      ∃ connection rest w, p.checkout (pool p) = .ok (connection, rest) ∧
        (useConnection pool statement p).2 = p.used connection rest w := by
  unfold useConnection
  cases hcheckout : p.checkout (pool p) with
  | error exc => exact Or.inl ⟨exc, rfl, rfl⟩
  | ok handed =>
    obtain ⟨connection, rest⟩ := handed
    obtain ⟨w, hw⟩ := runStatement_snd connection statement
      { p with idle := rest, uses := p.uses ++ [⟨connection, p.loop⟩] }
    refine Or.inr ⟨connection, rest, w, rfl, ?_⟩
    simp only [releasing, hw]
    rfl

theorem keeps_useConnection {J : Process W → Prop} {pool : PoolPolicy W}
    {statement : Call Exc W α}
    (h : ∀ p connection rest w, J p → p.checkout (pool p) = .ok (connection, rest) →
      J (p.used connection rest w)) : Call.Keeps J (useConnection pool statement) := by
  apply Call.keeps_of_snd
  intro p hp
  rcases useConnection_snd pool statement p with
    ⟨_, _, heq⟩ | ⟨connection, rest, w, hcheckout, heq⟩
  · rw [heq]
    exact hp
  · rw [heq]
    exact h p connection rest w hp hcheckout

/-- A connection that is handed out was opened now, or was kept; what stays was kept. -/
theorem checkout_ok {p : Process W} {handout : Handout} {connection : Connection} {rest : List Connection}
    (h : p.checkout handout = .ok (connection, rest)) :
    (connection = ⟨p.loop⟩ ∨ connection ∈ p.idle) ∧ ∀ c ∈ rest, c ∈ p.idle := by
  cases handout with
  | opened =>
    cases h
    exact ⟨Or.inl rfl, fun c hc => hc⟩
  | kept i =>
    rw [checkout] at h
    split at h
    · rename_i kept hkept
      cases h
      exact ⟨Or.inr (List.mem_of_getElem? hkept), fun c hc => List.mem_of_mem_eraseIdx hc⟩
    · cases h
      exact ⟨Or.inl rfl, fun c hc => hc⟩
  | refused exc => cases h

end Process

end DataBridge

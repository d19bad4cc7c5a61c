import DataBridge.Migration.Related

namespace DataBridge

variable {W V α : Type}

/-- Two executor states with the same counter, the first in a world around that of the second. -/
structure SameInner (inner : V → W) (s : ExecState V) (t : ExecState W) : Prop where
  world : inner s.world = t.world
  total : s.totalRowsProcessed = t.totalRowsProcessed

namespace MigrationExecutor

open Call (Respects)
open ExecState (await)

/-- The executor `y` is `x` with a record of its calls: in the world that `inner` leaves of its own,
each call of `y` does what that of `x` does, and both end alike. -/
structure Instruments (inner : V → W) (y : MigrationExecutor V) (x : MigrationExecutor W) : Prop where
  plan : y.plan = x.plan := by rfl
  batchSize : y.batchSize = x.batchSize := by rfl
  includeSchema : y.includeSchema = x.includeSchema := by rfl
  includeData : y.includeData = x.includeData := by rfl
  truncate : y.truncate = x.truncate := by rfl
  maxRetries : y.maxRetries = x.maxRetries := by rfl
  continueOnError : y.continueOnError = x.continueOnError := by rfl
  fetchBatch : ∀ t offset limit cols, Respects (inner · = ·)
    (y.source.fetchBatch t offset limit cols) (x.source.fetchBatch t offset limit cols)
  createTable : ∀ schema, Respects (inner · = ·) (y.destination.createTable schema)
    (x.destination.createTable schema)
  insertBatch : ∀ t rows cols, Respects (inner · = ·) (y.destination.insertBatch t rows cols)
    (x.destination.insertBatch t rows cols)
  truncateTable : ∀ t, Respects (inner · = ·) (y.destination.truncateTable t)
    (x.destination.truncateTable t)
  onProgress : Option.Rel (fun g f => ∀ t rows total error,
    Respects (inner · = ·) (g t rows total error) (f t rows total error)) y.onProgress x.onProgress
  onLog : Option.Rel (fun g f => ∀ level message table,
    Respects (inner · = ·) (g level message table) (f level message table)) y.onLog x.onLog
  sleep : ∀ seconds, Respects (inner · = ·) (y.sleep seconds) (x.sleep seconds)

variable {inner : V → W} {y : MigrationExecutor V} {x : MigrationExecutor W}

theorem respects_await {c' : Call Exc V α} {c : Call Exc W α} (h : Respects (inner · = ·) c' c) :
    Respects (SameInner inner) (await c') (await c) :=
  h.zoom (fun _ _ hs => hs.world) fun _ _ _ _ hs hw => ⟨hw, hs.total⟩

theorem Instruments.log (h : y.Instruments inner x) (level message : String)
    (table : Option String) :
    Respects (SameInner inner) (y.log level message table) (x.log level message table) := by
  have hlog := h.onLog
  rw [MigrationExecutor.log, MigrationExecutor.log]
  generalize y.onLog = g at hlog
  generalize x.onLog = f at hlog
  cases hlog with
  | none => exact Call.respects_pure ()
  | some hcall => exact respects_await (hcall level message table)

theorem Instruments.reportProgress (h : y.Instruments inner x) (table : String) (rows : Nat) :
    Respects (SameInner inner) (y.reportProgress table rows) (x.reportProgress table rows) := by
  have hprogress := h.onProgress
  rw [MigrationExecutor.reportProgress, MigrationExecutor.reportProgress]
  generalize y.onProgress = g at hprogress
  generalize x.onProgress = f at hprogress
  cases hprogress with
  | none => exact Call.respects_pure ()
  | some hcall =>
    refine (Call.respects_read fun _ _ hs => hs.total).bind fun total => ?_
    exact respects_await (hcall table rows total none)

theorem Instruments.related (h : y.Instruments inner x) (tp : MigrationTablePlan) :
    Related (SameInner inner) y x tp where
  includeSchema := h.includeSchema
  includeData := h.includeData
  truncate := h.truncate
  maxRetries := h.maxRetries
  createTable := respects_await (h.createTable _)
  truncateTable := respects_await (h.truncateTable _)
  fetchBatch offset cols := by
    rw [h.batchSize]
    exact respects_await (h.fetchBatch _ _ _ _)
  insertBatch rows := respects_await (h.insertBatch _ _ _)
  log := h.log
  reportProgress := h.reportProgress tp.tableName
  sleep seconds := respects_await (h.sleep seconds)
  addRows count _ _ hs := ⟨hs.world, congrArg (· + count) hs.total⟩

/-- A record of the calls changes nothing: the run ends as it does without, in the same world. -/
theorem Instruments.run (h : y.Instruments inner x) (fuel : Nat) {v : V} {w : W} (hw : inner v = w)
    (n : Nat) : (y.run fuel ⟨v, n⟩).1 = (x.run fuel ⟨w, n⟩).1 ∧
      SameInner inner (y.run fuel ⟨v, n⟩).2 (x.run fuel ⟨w, n⟩).2 := by
  have hrun : Respects (SameInner inner) (y.run fuel) (x.run fuel) :=
    respects_run (congrArg _ h.plan) h.continueOnError (fun tp _ => h.related tp) h.log
      (fun _ _ hs => hs.total) fuel
  exact hrun _ _ ⟨hw, rfl⟩

end MigrationExecutor

end DataBridge

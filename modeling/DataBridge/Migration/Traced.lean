import DataBridge.Migration.Instrumented

namespace DataBridge

/-- A call that the executor makes of a provider. -/
inductive ProviderCall where
  | createTable (schema : TableSchema)
  | truncateTable (table : String)
  | fetchBatch (table : String) (offset limit : Nat) (columns : Option (List String))
  | insertBatch (table : String) (rows : List Row)
  deriving DecidableEq

/-- How a call ended, without the value it returned. -/
def Outcome.ending {ε α : Type} : Outcome ε α → Outcome ε Unit
  | .returned _ => .returned ()
  | .raised e => .raised e
  | .exhausted => .exhausted

/-- A world, the provider calls made in it and how each ended, and the totals that `on_progress`
was given. -/
structure Traced (W : Type) where
  inner : W
  calls : List (ProviderCall × Outcome Exc Unit) := []
  totals : List Nat := []

variable {W α : Type}

namespace Traced

/-- A call that is not recorded. -/
def inside (c : Call Exc W α) : Call Exc (Traced W) α :=
  Call.zoom inner (fun w s => { s with inner := w }) c

def record (call : ProviderCall) (c : Call Exc W α) : Call Exc (Traced W) α := fun s =>
  let r := c s.inner
  (r.1, { s with inner := r.2, calls := s.calls ++ [(call, r.1.ending)] })

def provider (p : BaseDatabaseProvider W) : BaseDatabaseProvider (Traced W) where
  getTableSchema t := inside (p.getTableSchema t)
  tableExists t := inside (p.tableExists t)
  fetchBatch t offset limit cols := record (.fetchBatch t offset limit cols) (p.fetchBatch t offset limit cols)
  createTable schema := record (.createTable schema) (p.createTable schema)
  insertBatch t rows cols := record (.insertBatch t rows) (p.insertBatch t rows cols)
  truncateTable t := record (.truncateTable t) (p.truncateTable t)

end Traced

/-- The same executor, with its provider calls and its reports recorded. -/
def MigrationExecutor.traced (x : MigrationExecutor W) : MigrationExecutor (Traced W) where
  source := Traced.provider x.source
  destination := Traced.provider x.destination
  plan := x.plan
  batchSize := x.batchSize
  includeSchema := x.includeSchema
  includeData := x.includeData
  truncate := x.truncate
  maxRetries := x.maxRetries
  continueOnError := x.continueOnError
  onProgress := x.onProgress.map fun f table inTable total error => do
    Call.modify fun s => { s with totals := s.totals ++ [total] }
    Traced.inside (f table inTable total error)
  onLog := x.onLog.map fun f level message table => Traced.inside (f level message table)
  sleep seconds := Traced.inside (x.sleep seconds)

namespace Traced

open Call (Respects)

theorem respects_inside (c : Call Exc W α) : Respects (inner · = ·) (inside c) c :=
  Call.respects_zoom (fun _ _ => rfl) c

theorem respects_record (call : ProviderCall) (c : Call Exc W α) :
    Respects (inner · = ·) (record call c) c := by
  intro s w hs
  subst hs
  exact ⟨rfl, rfl⟩

end Traced

namespace MigrationExecutor

theorem traced_instruments (x : MigrationExecutor W) : x.traced.Instruments Traced.inner x where
  fetchBatch _ _ _ _ := Traced.respects_record _ _
  createTable _ := Traced.respects_record _ _
  insertBatch _ _ _ := Traced.respects_record _ _
  truncateTable _ := Traced.respects_record _ _
  onProgress := by
    rw [traced]
    cases x.onProgress with
    | none => exact Option.Rel.none
    | some f =>
      refine Option.Rel.some fun t rows total error s w hs => ?_
      subst hs
      exact ⟨rfl, rfl⟩
  onLog := by
    rw [traced]
    cases x.onLog with
    | none => exact Option.Rel.none
    | some f => exact Option.Rel.some fun level message t => Traced.respects_inside _
  sleep _ := Traced.respects_inside _

/-- The recording changes nothing: the traced run ends as the run does, in the same world. -/
theorem run_traced (x : MigrationExecutor W) (fuel : Nat) (w : W) (n : Nat) :
    (x.traced.run fuel ⟨{ inner := w }, n⟩).1 = (x.run fuel ⟨w, n⟩).1 ∧
      SameInner Traced.inner (x.traced.run fuel ⟨{ inner := w }, n⟩).2 (x.run fuel ⟨w, n⟩).2 :=
  x.traced_instruments.run fuel rfl n

end MigrationExecutor

end DataBridge

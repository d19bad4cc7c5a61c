import DataBridge.Framework.Batches
import DataBridge.Migration.StaticSource

namespace DataBridge

variable {W σ : Type}

/-- The body of an `async for` over batches; `.done` is `break` or `return`. -/
abbrev BatchBody (σ W : Type) := σ → List Row → Call Exc W (Pass σ σ)

/-- `async for batch in stream: body`, where the stream asks for the next batch at an offset that
grows by the batch size. -/
def BaseDatabaseProvider.streamBatches (p : BaseDatabaseProvider W) (tableName : String)
    (batchSize : Nat) (columns : Option (List String)) (fuel : Nat) (body : BatchBody σ W) (s : σ) :
    Call Exc W σ :=
  Batches.fetchLoop (fun offset => p.fetchBatch tableName offset batchSize columns)
    (fun _ => batchSize) body fuel 0 s

def MySQLProvider.streamTable (p : BaseDatabaseProvider W) (tableName : String) (batchSize : Nat)
    (columns : Option (List String)) (fuel : Nat) (body : BatchBody σ W) (s : σ) : Call Exc W σ :=
  p.streamBatches tableName batchSize columns fuel body s

def SQLiteProvider.streamTable (p : BaseDatabaseProvider W) (tableName : String) (batchSize : Nat)
    (columns : Option (List String)) (fuel : Nat) (body : BatchBody σ W) (s : σ) : Call Exc W σ :=
  p.streamBatches tableName batchSize columns fuel body s

/-- The PostgreSQL provider asserts first that it has a pool. -/
def PostgresProvider.streamTable (pool : Bool) (p : BaseDatabaseProvider W) (tableName : String)
    (batchSize : Nat) (columns : Option (List String)) (fuel : Nat) (body : BatchBody σ W) (s : σ) :
    Call Exc W σ :=
  if pool then p.streamBatches tableName batchSize columns fuel body s
  else Call.raise ⟨.other, "Not connected"⟩

/-- `[batch async for batch in stream]`. -/
def collect : BatchBody (List (List Row)) W := fun batches batch =>
  pure (.again (batches ++ [batch]))

theorem forEach_collect (batches yielded : List (List Row)) :
    Call.forEach (collect : BatchBody _ W) batches yielded = pure (yielded ++ batches) := by
  induction batches generalizing yielded with
  | nil => rw [List.append_nil]; rfl
  | cons batch batches ih =>
    change Call.forEach collect batches (yielded ++ [batch]) = _
    rw [ih, List.append_assoc]
    rfl

namespace MigrationExecutor

open ExecState (await addRows)

variable (x : MigrationExecutor W) (tp : MigrationTablePlan)

/-- What a pass of the copy loop does with the batch it has fetched. The variables are the rows of
the table so far, and whether the copy goes on. -/
def copyBatch : BatchBody (Nat × Bool) (ExecState W) := fun v batch => do
  let transformed ← Call.ofExcept (transform tp.columnMappings batch)
  let insertOk ← x.insertWithRetry tp.tableName transformed
  if insertOk then do
    Call.modify (addRows batch.length)
    x.reportProgress tp.tableName (v.1 + batch.length)
    pure (.again (v.1 + batch.length, true))
  else pure (.done (v.1, false))

/-- What follows the last batch. -/
def finishCopy (v : Nat × Bool) : Call Exc (ExecState W) Bool :=
  if v.2 then do
    x.log "INFO" s!"Completed '{tp.tableName}': {v.1} rows migrated" tp.tableName
    pure true
  else pure false

/-- The copy of a table whose batches come from `stream`. -/
def copyFrom (stream : BatchBody (Nat × Bool) (ExecState W) → Nat × Bool →
    Call Exc (ExecState W) (Nat × Bool)) (rowsForTable : Nat) : Call Exc (ExecState W) Bool := do
  let v ← stream (x.copyBatch tp) (rowsForTable, true)
  x.finishCopy tp v

/-- The source, asked from within the executor. -/
def awaitedSource : BaseDatabaseProvider (ExecState W) :=
  x.source.within ExecState.world fun w s => { s with world := w }

variable {x tp} {rows : List Row}

/-- A source that holds `rows` for the columns the copy of this table selects. -/
def Holds (x : MigrationExecutor W) (tp : MigrationTablePlan) (rows : List Row) : Prop :=
  ∀ offset limit, x.source.fetchBatch tp.tableName offset limit
    (selectedColumns tp.columnMappings) = pure (window rows offset limit)

theorem Holds.fetchAttempt (h : x.Holds tp rows) (v : CopyVars) :
    x.fetchAttempt tp v = pure (some (window rows v.offset x.batchSize)) := by
  rw [MigrationExecutor.fetchAttempt, h]
  rfl

theorem Holds.awaited (h : x.Holds tp rows) (offset limit : Nat) :
    x.awaitedSource.fetchBatch tp.tableName offset limit (selectedColumns tp.columnMappings) =
      pure (window rows offset limit) := by
  change await (x.source.fetchBatch tp.tableName offset limit _) = _
  rw [h]
  rfl

/-- The copy loop hands its batches to the body of the pass, and advances by their lengths. -/
theorem Holds.copyLoop (h : x.Holds tp rows) (fuel : Nat) (v : CopyVars) :
    Call.loop (x.copyPass tp) fuel v = x.copyFrom tp (fun body =>
      Batches.fetchLoop (fun offset => x.awaitedSource.fetchBatch tp.tableName offset x.batchSize
        (selectedColumns tp.columnMappings)) List.length body fuel v.offset) v.rowsForTable := by
  induction fuel generalizing v with
  | zero => rfl
  | succ fuel ih =>
    change x.copyPass tp v >>= _ = _
    rw [copyPass, h.fetchAttempt, window, copyFrom]
    by_cases hbatch : (rows.drop v.offset).take x.batchSize = []
    · rw [Batches.fetchLoop_end (fun offset => h.awaited offset x.batchSize) hbatch, hbatch]
      simp only [Call.pure_bind, Call.bind_assoc, finishCopy, if_true]
    · rw [Batches.fetchLoop_batch (fun offset => h.awaited offset x.batchSize) hbatch]
      obtain ⟨row, rest, hcons⟩ := List.exists_cons_of_ne_nil hbatch
      rw [hcons]
      simp only [Call.pure_bind, copyBatch, Call.bind_assoc]
      apply Call.bind_congr
      intro transformed
      apply Call.bind_congr
      intro insertOk
      cases insertOk with
      | false => rfl
      | true =>
        simp only [if_true, Call.bind_assoc, Call.pure_bind]
        apply Call.bind_congr
        intro _
        apply Call.bind_congr
        intro _
        exact ih _

/-- The batches of the table at the executor's batch size. -/
def batchesOf (x : MigrationExecutor W) (rows : List Row) : List (List Row) :=
  Batches.ofList x.batchSize rows

/-- Streaming the table: its batches, one after the other, and the end. -/
theorem streamBatches_eq {V : Type} {p : BaseDatabaseProvider V} (hbatch : 1 ≤ x.batchSize)
    (hfetch : ∀ offset, p.fetchBatch tp.tableName offset x.batchSize
      (selectedColumns tp.columnMappings) = pure (window rows offset x.batchSize))
    {fuel : Nat} (hfuel : (x.batchesOf rows).length < fuel) (body : BatchBody σ V) (s : σ) :
    p.streamBatches tp.tableName x.batchSize (selectedColumns tp.columnMappings) fuel body s =
      Call.forEach body (x.batchesOf rows) s :=
  Batches.fetchLoop_eq_forEach hbatch hfetch Batches.advances_size
    (Nat.le_refl _ : (rows.drop 0).length ≤ rows.length) hfuel

/-- The copy loop goes through the same batches. -/
theorem Holds.copyLoop_eq (h : x.Holds tp rows) (hbatch : 1 ≤ x.batchSize) {fuel : Nat}
    (hfuel : (x.batchesOf rows).length < fuel) :
    Call.loop (x.copyPass tp) fuel {} =
      x.copyFrom tp (fun body => Call.forEach body (x.batchesOf rows)) 0 := by
  rw [h.copyLoop, copyFrom, copyFrom]
  apply congrArg (· >>= x.finishCopy tp)
  exact Batches.fetchLoop_eq_forEach hbatch (fun offset => h.awaited offset x.batchSize)
    Batches.advances_length (Nat.le_refl _ : (rows.drop 0).length ≤ rows.length) hfuel

/-- The three streams and the copy loop read the table in the same batches: these are the table,
none is empty, and all but the last are full. The copy loop could read from the stream instead. -/
theorem stream_reads_as_copyLoop (x : MigrationExecutor W) (tp : MigrationTablePlan)
    (rows : List Row) (h : x.Holds tp rows) (hbatch : 1 ≤ x.batchSize) :
    ((x.batchesOf rows).flatten = rows ∧ (∀ batch ∈ x.batchesOf rows, batch ≠ []) ∧
      ∀ batch ∈ (x.batchesOf rows).dropLast, batch.length = x.batchSize) ∧
    ∀ fuel, (x.batchesOf rows).length < fuel →
      (∀ (σ : Type) (body : BatchBody σ W) (s : σ),
        PostgresProvider.streamTable true x.source tp.tableName x.batchSize
            (selectedColumns tp.columnMappings) fuel body s =
          Call.forEach body (x.batchesOf rows) s ∧
        MySQLProvider.streamTable x.source tp.tableName x.batchSize
            (selectedColumns tp.columnMappings) fuel body s =
          Call.forEach body (x.batchesOf rows) s ∧
        SQLiteProvider.streamTable x.source tp.tableName x.batchSize
            (selectedColumns tp.columnMappings) fuel body s =
          Call.forEach body (x.batchesOf rows) s) ∧
      x.source.streamBatches tp.tableName x.batchSize (selectedColumns tp.columnMappings) fuel
          collect [] = pure (x.batchesOf rows) ∧
      Call.loop (x.copyPass tp) fuel {} =
        x.copyFrom tp (fun body => Call.forEach body (x.batchesOf rows)) 0 ∧
      Call.loop (x.copyPass tp) fuel {} =
        x.copyFrom tp (x.awaitedSource.streamBatches tp.tableName x.batchSize
          (selectedColumns tp.columnMappings) fuel) 0 := by
  refine ⟨⟨Batches.flatten_upTo hbatch (Nat.le_refl _),
    fun batch hmem => Batches.ne_nil_of_mem_upTo hbatch hmem,
    fun batch hmem => Batches.length_of_mem_dropLast_upTo hmem⟩, ?_⟩
  intro fuel hfuel
  have hstream : ∀ (σ : Type) (body : BatchBody σ W) (s : σ),
      x.source.streamBatches tp.tableName x.batchSize (selectedColumns tp.columnMappings) fuel
        body s = Call.forEach body (x.batchesOf rows) s :=
    fun σ body s => streamBatches_eq hbatch (fun offset => h offset x.batchSize) hfuel body s
  have hcopy := h.copyLoop_eq hbatch hfuel
  refine ⟨fun σ body s => ⟨hstream σ body s, hstream σ body s, hstream σ body s⟩, ?_, hcopy, ?_⟩
  · rw [hstream, forEach_collect, List.nil_append]
  · rw [hcopy]
    congr 1
    funext body v
    exact (streamBatches_eq hbatch (fun offset => h.awaited offset x.batchSize) hfuel body v).symm

private def threeItems : List Row :=
  [Dict.ofList [("id", .int 1)], Dict.ofList [("id", .int 2)], Dict.ofList [("id", .int 3)]]

private def itemsByTwo : MigrationExecutor Unit where
  source := staticSource threeItems
  destination := staticSource []
  plan := { tables := [], totalRows := 0 }
  batchSize := 2

private def itemsTable : MigrationTablePlan where
  tableName := "items"
  sourceSchema := { name := "items", columns := [] }

/-- Three rows in batches of two. -/
theorem stream_reads_as_copyLoop_items :
    itemsByTwo.source.streamBatches "items" 2 none 3 collect [] =
      pure [[Dict.ofList [("id", .int 1)], Dict.ofList [("id", .int 2)]],
        [Dict.ofList [("id", .int 3)]]] := by
  have h : itemsByTwo.Holds itemsTable threeItems := by
    intro offset limit
    exact congrArg pure (map_pickColumns_none (window threeItems offset limit))
  exact ((stream_reads_as_copyLoop itemsByTwo itemsTable threeItems h (by decide)).2 3
    (by decide)).2.1

end MigrationExecutor

end DataBridge

import DataBridge.Framework.Yields
import DataBridge.Migration.Frame

namespace DataBridge

open Call (Keeps Yields)
open MigrationExecutor (transform selectedColumns)

variable {W S : Type} {I : W → Prop}

/-- The tables of a job, and what is known of the schemas and rows that its calls carry. -/
structure JobCalls where
  names : List String
  source : String → TableSchema → Prop
  destination : String → TableSchema → Prop
  fetched : String → Option (List String) → List Row → Prop
  inserted : String → List Row → Prop

namespace JobCalls

variable (c : JobCalls)

/-- A batch that is fetched by these mappings is transformed to rows that may be inserted. -/
def Passes (t : String) (mappings : List ColumnMapping) : Prop :=
  ∀ batch rows, c.fetched t (selectedColumns mappings) batch →
    transform mappings batch = .ok rows → c.inserted t rows

/-- The mappings that are planned from these schemas pass rows that may be inserted. -/
def Consistent : Prop :=
  ∀ t ∈ c.names, ∀ src dest, c.source t src → (∀ d, dest = some d → c.destination t d) →
    c.Passes t (buildColumnMappings src dest)

/-- The two providers keep `I` in every call that the job makes, and answer what is known. -/
structure Serves (I : W → Prop) (src dst : BaseDatabaseProvider W) : Prop where
  readSource : ∀ t ∈ c.names, Yields I (c.source t) (src.getTableSchema t)
  tableExists : ∀ t ∈ c.names, Keeps I (dst.tableExists t)
  readDestination : ∀ t ∈ c.names, Yields I (c.destination t) (dst.getTableSchema t)
  fetchBatch : ∀ t ∈ c.names, ∀ offset limit cols,
    Yields I (c.fetched t cols) (src.fetchBatch t offset limit cols)
  createTable : ∀ t ∈ c.names, ∀ schema, c.source t schema → Keeps I (dst.createTable schema)
  truncateTable : ∀ t ∈ c.names, Keeps I (dst.truncateTable t)
  insertBatch : ∀ t ∈ c.names, ∀ rows, c.inserted t rows → Keeps I (dst.insertBatch t rows none)

/-- An entry that the plan of the job may have. -/
structure Entry (tp : MigrationTablePlan) : Prop where
  name : tp.tableName ∈ c.names
  schema : c.source tp.tableName tp.sourceSchema
  passes : tp.status ≠ .skipped → c.Passes tp.tableName tp.columnMappings

variable {c} {src dst : BaseDatabaseProvider W}

theorem Serves.within {get : S → W} {put : W → S → S} {J : S → Prop} (h : c.Serves I src dst)
    (hget : ∀ s, J s → I (get s)) (hput : ∀ s w, J s → I w → J (put w s)) :
    c.Serves J (src.within get put) (dst.within get put) where
  readSource t ht := (h.readSource t ht).zoom hget hput
  tableExists t ht := (h.tableExists t ht).zoom hget hput
  readDestination t ht := (h.readDestination t ht).zoom hget hput
  fetchBatch t ht offset limit cols := (h.fetchBatch t ht offset limit cols).zoom hget hput
  createTable t ht schema hs := (h.createTable t ht schema hs).zoom hget hput
  truncateTable t ht := (h.truncateTable t ht).zoom hget hput
  insertBatch t ht rows hr := (h.insertBatch t ht rows hr).zoom hget hput

/-! ## Planning -/

variable {p : MigrationPlanner W}

theorem entry_planTable (hc : c.Consistent) {t : String} (ht : t ∈ c.names) {s : TableSchema}
    (hs : c.source t s) {dest : Option TableSchema} (hd : ∀ d, dest = some d → c.destination t d)
    {plan : MigrationPlan} (hplan : ∀ tp ∈ plan.tables, c.Entry tp) :
    ∀ tp ∈ (MigrationPlanner.planTable t s dest plan).tables, c.Entry tp := by
  intro tp htp
  rw [MigrationPlanner.planTable] at htp
  cases hvalid : validateSchemaCompatibility s dest with
  | ok warnings =>
    rw [hvalid] at htp
    rcases List.mem_append.mp htp with hold | hnew
    · exact hplan tp hold
    · rw [List.mem_singleton.mp hnew]
      exact ⟨ht, hs, fun _ => hc t ht s dest hs hd⟩
  | error exc =>
    rw [hvalid] at htp
    rcases List.mem_append.mp htp with hold | hnew
    · exact hplan tp hold
    · rw [List.mem_singleton.mp hnew]
      exact ⟨ht, hs, fun hkeep => absurd rfl hkeep⟩

theorem yields_readDestination (h : c.Serves I p.source p.destination) {t : String}
    (ht : t ∈ c.names) {plan : MigrationPlan} (hplan : ∀ tp ∈ plan.tables, c.Entry tp) :
    Yields I (fun r => (∀ d, r.1 = some d → c.destination t d) ∧ ∀ tp ∈ r.2.tables, c.Entry tp)
      (p.readDestination t plan) := by
  have habsent : ∀ q : MigrationPlan, q.tables = plan.tables →
      (∀ d, (none : Option TableSchema) = some d → c.destination t d) ∧
        ∀ tp ∈ q.tables, c.Entry tp := by
    intro q hq
    constructor
    · intro d hd
      cases hd
    · rw [hq]
      exact hplan
  refine (h.tableExists t ht).yields.bind ?_
  intro destExists _
  cases destExists with
  | false => exact Call.yields_pure (habsent plan rfl)
  | true =>
    refine ((h.readDestination t ht).bind ?_).tryExcept fun exc => Call.yields_pure (habsent _ rfl)
    intro d hd
    refine Call.yields_pure ⟨?_, hplan⟩
    intro d' heq
    cases heq
    exact hd

/-- Whatever the providers answer or raise, the plan has entries of the job only. -/
theorem yields_buildPlan (h : c.Serves I p.source p.destination) (hc : c.Consistent)
    (hnames : ∀ t ∈ p.tableNames, t ∈ c.names) :
    Yields I (fun plan => ∀ tp ∈ plan.tables, c.Entry tp) p.buildPlan := by
  refine Yields.forEach ?_ ?_
  · intro plan t hmem hplan
    have ht := hnames t hmem
    have hread : Yields I (fun r => ∀ s, r = Except.ok s → c.source t s)
        (Call.tryExcept (do
          let s ← p.source.getTableSchema t
          pure (Except.ok s)) (fun exc => pure (Except.error exc))) := by
      refine ((h.readSource t ht).bind ?_).tryExcept fun exc => Call.yields_pure ?_
      · intro s hs
        refine Call.yields_pure ?_
        intro s' heq
        cases heq
        exact hs
      · intro s heq
        cases heq
    refine hread.bind ?_
    intro srcSchema hsrc
    cases srcSchema with
    | error exc => exact Call.yields_pure hplan
    | ok s =>
      refine (yields_readDestination h ht hplan).bind ?_
      intro r hr
      exact Call.yields_pure (entry_planTable hc ht (hsrc s rfl) hr.1 hr.2)
  · intro tp htp
    cases htp

/-! ## Execution -/

/-- The executor of a job: its providers serve it, and its callbacks keep `I`. -/
structure Runs (c : JobCalls) (I : W → Prop) (x : MigrationExecutor W) : Prop where
  serves : c.Serves I x.source x.destination
  onProgress : ∀ f, x.onProgress = some f → ∀ t rows total error, Keeps I (f t rows total error)
  onLog : ∀ f, x.onLog = some f → ∀ level message t, Keeps I (f level message t)
  sleep : ∀ seconds, Keeps I (x.sleep seconds)

/-- A condition on the world, as one on the state of the executor. -/
abbrev OfExec (I : W → Prop) (s : ExecState W) : Prop := I s.world

variable {x : MigrationExecutor W} {tp : MigrationTablePlan}

theorem yields_await {α : Type} {P : α → Prop} {call : Call Exc W α} (hcall : Yields I P call) :
    Yields (OfExec I) P (ExecState.await call) := hcall.zoom (fun _ h => h) (fun _ _ _ h => h)

namespace Runs

variable (h : c.Runs I x)
include h

theorem keeps_log (level message : String) (t : Option String) :
    Keeps (OfExec I) (x.log level message t) := by
  rw [MigrationExecutor.log]
  cases hlog : x.onLog with
  | none => exact Call.keeps_pure ()
  | some f => exact MigrationExecutor.keeps_await (h.onLog f hlog level message t)

theorem keeps_sleep (seconds : Nat) : Keeps (OfExec I) (ExecState.await (x.sleep seconds)) :=
  MigrationExecutor.keeps_await (h.sleep seconds)

theorem keeps_backOff (again : Bool) (seconds : Nat) :
    Keeps (OfExec I) (x.backOff again seconds) :=
  MigrationExecutor.keeps_backOff h.keeps_sleep again seconds

theorem keeps_reportProgress (t : String) (n : Nat) : Keeps (OfExec I) (x.reportProgress t n) := by
  rw [MigrationExecutor.reportProgress]
  cases hprogress : x.onProgress with
  | none => exact Call.keeps_pure ()
  | some f =>
    refine (Call.keeps_read _).bind fun total => ?_
    exact MigrationExecutor.keeps_await (h.onProgress f hprogress t n total none)

theorem yields_fetchAttempt (htp : c.Entry tp) (v : CopyVars) :
    Yields (OfExec I) (fun r => ∀ batch, r = some batch →
      c.fetched tp.tableName (selectedColumns tp.columnMappings) batch) (x.fetchAttempt tp v) := by
  have hfetch := h.serves.fetchBatch tp.tableName htp.name v.offset x.batchSize
    (selectedColumns tp.columnMappings)
  refine ((yields_await hfetch).bind ?_).tryExcept ?_
  · intro batch hbatch
    refine Call.yields_pure ?_
    intro batch' heq
    cases heq
    exact hbatch
  · intro exc
    refine (h.keeps_log _ _ _).yields.bind fun _ _ => ?_
    refine (h.keeps_backOff _ _).yields.bind fun _ _ => Call.yields_pure ?_
    intro batch heq
    cases heq

theorem keeps_copyPass (htp : c.Entry tp) (hkeep : tp.status ≠ .skipped) (v : CopyVars) :
    Keeps (OfExec I) (x.copyPass tp v) := by
  refine Keeps.bind_of (h.yields_fetchAttempt htp v) ?_
  intro r hr
  cases r with
  | none =>
    dsimp only
    split
    · exact Call.keeps_pure _
    · exact Call.keeps_pure _
  | some batch =>
    cases batch with
    | nil => exact (h.keeps_log _ _ _).bind fun _ => Call.keeps_pure _
    | cons row rest =>
      have hfetched := hr (row :: rest) rfl
      intro s hs
      apply Call.wp_bind_ofExcept _ fun _ _ => hs
      intro rows hrows
      have hinserted : c.inserted tp.tableName rows := htp.passes hkeep _ rows hfetched hrows
      have hinsert := MigrationExecutor.keeps_insertWithRetry h.keeps_log h.keeps_sleep
        (MigrationExecutor.keeps_await (h.serves.insertBatch tp.tableName htp.name rows hinserted))
      refine hinsert.bind (fun ok => ?_) s hs
      cases ok with
      | false => exact Call.keeps_pure _
      | true =>
        have hcount : Keeps (OfExec I)
            (Call.modify (ExecState.addRows (row :: rest).length) : Call Exc (ExecState W) Unit) :=
          Call.keeps_modify fun _ hi => hi
        exact hcount.bind fun _ => (h.keeps_reportProgress _ _).bind fun _ => Call.keeps_pure _

theorem keeps_ensureTable (htp : c.Entry tp) : Keeps (OfExec I) (x.ensureTable tp) := by
  rw [MigrationExecutor.ensureTable]
  split
  · have hcreate := MigrationExecutor.keeps_await
      (h.serves.createTable tp.tableName htp.name tp.sourceSchema htp.schema)
    refine (hcreate.bind fun _ => ?_).tryExcept fun exc => ?_
    · exact (h.keeps_log _ _ _).bind fun _ => Call.keeps_pure _
    · exact (h.keeps_log _ _ _).bind fun _ => Call.keeps_pure _
  · exact Call.keeps_pure _

theorem keeps_clearTable (htp : c.Entry tp) : Keeps (OfExec I) (x.clearTable tp) := by
  rw [MigrationExecutor.clearTable]
  split
  · have htruncate := MigrationExecutor.keeps_await (h.serves.truncateTable tp.tableName htp.name)
    exact (htruncate.bind fun _ => h.keeps_log _ _ _).tryExcept fun exc => h.keeps_log _ _ _
  · exact Call.keeps_pure _

theorem keeps_migrateTable (htp : c.Entry tp) (hkeep : tp.status ≠ .skipped) (fuel : Nat) :
    Keeps (OfExec I) (x.migrateTable fuel tp) := by
  refine (h.keeps_log _ _ _).bind fun _ => (h.keeps_ensureTable htp).bind fun created => ?_
  cases created with
  | false => exact Call.keeps_pure _
  | true =>
    refine (h.keeps_clearTable htp).bind fun _ => ?_
    split
    · exact Keeps.loop (h.keeps_copyPass htp hkeep) fuel {}
    · exact (h.keeps_log _ _ _).bind fun _ => Call.keeps_pure _

theorem keeps_runTable (htp : c.Entry tp) (fuel : Nat) (results : ExecResult) :
    Keeps (OfExec I) (x.runTable fuel results tp) := by
  rw [MigrationExecutor.runTable]
  split
  · exact (h.keeps_log _ _ _).bind fun _ => Call.keeps_pure _
  · exact (h.keeps_migrateTable htp ‹_› fuel).bind fun _ => Call.keeps_pure _

/-- A run whose plan has entries of the job only keeps what the calls of the job keep. -/
theorem keeps_run (hplan : ∀ tp ∈ x.plan.tables, c.Entry tp) (fuel : Nat) :
    Keeps (OfExec I) (x.run fuel) := by
  have htables : Yields (OfExec I) (fun _ => True)
      (Call.forEach (x.runTable fuel) x.plan.tables {}) := by
    refine Yields.forEach ?_ trivial
    intro results tp htp _
    refine (h.keeps_runTable (hplan tp htp) fuel results).yields.mono ?_
    intro r _
    cases r with
    | again _ => trivial
    | done _ => trivial
  exact htables.keeps.bind fun _ => (Call.keeps_read _).bind fun _ => Call.keeps_pure _

end Runs

end JobCalls

end DataBridge

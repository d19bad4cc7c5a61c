import DataBridge.Migration.CountedRows
import DataBridge.Services.MigrationService
import DataBridge.Workers.CompletedAccounts

namespace DataBridge

/-- A report of progress as it is broadcast: the percentage, and the two counts it is of. -/
structure ProgressReport where
  progress : Int
  processedRows : Nat
  totalRows : Nat
  deriving DecidableEq, Repr

/-- The report in an event of this migration, if it is one of progress. -/
def progressReport (migrationId : String) : String × Event → Option ProgressReport
  | (id, .progress _ progress _ processedRows totalRows _ _) =>
    if id = migrationId then some ⟨progress, processedRows, totalRows⟩ else none
  | _ => none

def progressReports (migrationId : String) (events : List (String × Event)) : List ProgressReport :=
  events.filterMap (progressReport migrationId)

/-- What `on_progress` tells when `processed` rows of the plan are done. -/
def reportOf (plan : MigrationPlan) (processed : Nat) : ProgressReport :=
  ⟨calculateProgress processed plan.totalRows, processed, plan.totalRows⟩

/-- After the reports `before`, the progress of an increasing number of rows was told, of at most
`n`. -/
def Reported (migrationId : String) (before : List ProgressReport) (plan : MigrationPlan) (n : Nat)
    (events : List (String × Event)) : Prop :=
  ∃ counts : List Nat,
    progressReports migrationId events = before ++ counts.map (reportOf plan) ∧
    counts.Pairwise (· < ·) ∧ ∀ count ∈ counts, 0 < count ∧ count ≤ n

section reported

variable {migrationId : String} {before : List ProgressReport} {plan : MigrationPlan} {n : Nat}
  {events : List (String × Event)}

theorem Reported.mono (h : Reported migrationId before plan n events) {m : Nat} (hle : n ≤ m) :
    Reported migrationId before plan m events := by
  obtain ⟨counts, hreports, hincreasing, hbounds⟩ := h
  exact ⟨counts, hreports, hincreasing,
    fun count hmem => ⟨(hbounds count hmem).1, (hbounds count hmem).2.trans hle⟩⟩

/-- An event that is no report of progress. -/
theorem Reported.other (h : Reported migrationId before plan n events) {event : String × Event}
    (hevent : progressReport migrationId event = none) :
    Reported migrationId before plan n (events ++ [event]) := by
  obtain ⟨counts, hreports, hincreasing, hbounds⟩ := h
  refine ⟨counts, ?_, hincreasing, hbounds⟩
  rw [← hreports, progressReports, List.filterMap_append]
  simp [progressReports, hevent]

/-- The report of a larger number of rows. -/
theorem Reported.tell (h : Reported migrationId before plan n events) {m : Nat} (hlt : n < m)
    {event : String × Event}
    (hevent : progressReport migrationId event = some (reportOf plan m)) :
    Reported migrationId before plan m (events ++ [event]) := by
  obtain ⟨counts, hreports, hincreasing, hbounds⟩ := h
  refine ⟨counts ++ [m], ?_, ?_, ?_⟩
  · rw [List.map_append, ← List.append_assoc, ← hreports, progressReports, List.filterMap_append]
    simp [progressReports, hevent]
  · rw [List.pairwise_append]
    refine ⟨hincreasing, List.pairwise_singleton _ _, ?_⟩
    intro count hmem last hlast
    rw [List.mem_singleton.mp hlast]
    exact (hbounds count hmem).2.trans_lt hlt
  · intro count hmem
    rcases List.mem_append.mp hmem with hold | hnew
    · exact ⟨(hbounds count hold).1, (hbounds count hold).2.trans hlt.le⟩
    · rw [List.mem_singleton.mp hnew]
      exact ⟨Nat.zero_lt_of_lt hlt, le_rfl⟩

end reported

namespace TaskContext

variable {Cr W : Type} (x : TaskContext Cr W) {migrationId : String}
  {before : List ProgressReport} {plan : MigrationPlan}

section events

variable {P : List (String × Event) → Prop}

theorem keepsEvents_outside {α : Type} (c : Call Exc W α) :
    Call.Keeps (fun s : TaskState W => P s.events) (outside c) := by
  intro s h
  rw [outside, Call.wp_zoom]
  exact Call.wp_of_forall (fun _ _ => h) (fun _ _ => h) (fun _ => h)

theorem keepsEvents_selectOne :
    Call.Keeps (fun s : TaskState W => P s.events) (x.selectOne migrationId) := by
  refine ((keepsEvents_outside x.appDb).bind fun _ => Call.keeps_read _).bind fun found => ?_
  cases found with
  | none => exact fun _ h => h
  | some record => exact Call.keeps_pure record

theorem keepsEvents_commit (record : Migration) :
    Call.Keeps (fun s : TaskState W => P s.events) (x.commitMigration migrationId record) :=
  (keepsEvents_outside x.appDb).bind fun _ => Call.keeps_modify fun _ h => h

end events

/-- A log entry is no report of progress. -/
theorem reported_onLog (n : Nat) (level message : String) (tableName : Option String) :
    Call.Keeps (fun s : TaskState W => Reported migrationId before plan n s.events)
      (x.onLog migrationId level message tableName) := by
  refine (keepsEvents_outside x.newUuid).bind fun id => ?_
  refine (keepsEvents_outside x.appDb).bind fun _ => ?_
  refine (keepsEvents_outside x.now).bind fun createdAt => ?_
  refine Call.Keeps.bind (Call.keeps_modify fun _ h => h) fun _ => ?_
  refine (keepsEvents_outside x.sockets).bind fun _ => Call.keeps_modify ?_
  exact fun s h => h.other rfl

/-- A report of progress is told once, or not at all if it raises. -/
theorem wp_onProgress_reported (tableName : String) (rows : Nat) (error : Option String)
    {n m : Nat} (hlt : n < m) {s : TaskState W}
    (hs : Reported migrationId before plan n s.events) :
    Call.wp (x.onProgress migrationId plan tableName rows m error)
      ⟨fun _ s' => Reported migrationId before plan m s'.events,
        fun _ s' => Reported migrationId before plan m s'.events,
        fun s' => Reported migrationId before plan m s'.events⟩ s := by
  have hafter : ∀ s' : TaskState W, Reported migrationId before plan n s'.events →
      Reported migrationId before plan m s'.events := fun _ h => h.mono hlt.le
  have hstep : ∀ {α : Type} {c : Call Exc (TaskState W) α} {s' : TaskState W},
      Call.Keeps (fun s : TaskState W => Reported migrationId before plan n s.events) c →
      Reported migrationId before plan n s'.events →
      Call.wp c ⟨fun _ s'' => Reported migrationId before plan n s''.events,
        fun _ s'' => Reported migrationId before plan m s''.events,
        fun s'' => Reported migrationId before plan m s''.events⟩ s' := by
    intro α c s' hc h
    exact Call.wp_mono (hc s' h) (fun _ _ h => h) (fun _ s'' h => hafter s'' h)
      (fun s'' h => hafter s'' h)
  refine Call.wp_seq (hstep (keepsEvents_outside x.elapsed) hs) fun elapsed s₁ h₁ => ?_
  refine Call.wp_seq (hstep x.keepsEvents_selectOne h₁) fun record s₂ h₂ => ?_
  refine Call.wp_seq (hstep (x.keepsEvents_commit _) h₂) fun _ s₃ h₃ => ?_
  refine Call.wp_seq (hstep (keepsEvents_outside x.sockets) h₃) fun _ s₄ h₄ => ?_
  exact h₄.tell hlt (by simp [progressReport, reportOf])

/-- The reports so far are of what the executor has counted. -/
abbrev Tells (migrationId : String) (before : List ProgressReport) (plan : MigrationPlan)
    (s : ExecState (TaskState W)) : Prop :=
  Reported migrationId before plan s.totalRowsProcessed s.world.events

/-- The parts of a run tell the progress of what they have counted. -/
theorem maintains_tells (src dst : ManagedProvider W) (migSettings : MigrationSettings) :
    (x.executor migrationId src dst migSettings plan).Maintains
      (Tells migrationId before plan) := by
  have hawait : ∀ {α : Type} {c : Call Exc (TaskState W) α}, (∀ n, Call.Keeps
      (fun s : TaskState W => Reported migrationId before plan n s.events) c) →
      Call.Keeps (Tells migrationId before plan) (ExecState.await c) := by
    intro α c hc s hs
    rw [ExecState.await, Call.wp_zoom]
    exact hc s.totalRowsProcessed s.world hs
  have houtside : ∀ {α : Type} (c : Call Exc W α),
      Call.Keeps (Tells migrationId before plan) (ExecState.await (outside c)) :=
    fun c => hawait fun _ => keepsEvents_outside c
  have hlog : ∀ level message t, Call.Keeps (Tells migrationId before plan)
      ((x.executor migrationId src dst migSettings plan).log level message t) :=
    fun level message t => hawait fun n => x.reported_onLog n level message t
  refine ⟨fun _ => houtside _, fun _ => houtside _, fun _ _ _ _ => houtside _, hlog,
    fun _ => houtside _, ?_⟩
  intro mappings batch rows hbatch _ t v s hs
  have hinsert : Call.Keeps (Tells migrationId before plan)
      ((x.executor migrationId src dst migSettings plan).insertWithRetry t rows) :=
    MigrationExecutor.keeps_insertWithRetry hlog (fun _ => houtside _) (houtside _)
  refine Call.wp_seq (hinsert s hs) fun insertOk s₁ h₁ => ?_
  cases insertOk with
  | false => exact h₁
  | true =>
    have hmore : s₁.totalRowsProcessed < s₁.totalRowsProcessed + batch.length :=
      Nat.lt_add_of_pos_right (List.length_pos_iff.mpr hbatch)
    refine Call.wp_seq (R := fun _ s₂ => s₂ = ExecState.addRows batch.length s₁) rfl
      fun _ s₂ h₂ => ?_
    subst h₂
    have htold := x.wp_onProgress_reported t (v.rowsForTable + batch.length) none hmore h₁
    have hreport : Call.wp ((x.executor migrationId src dst migSettings plan).reportProgress t
        (v.rowsForTable + batch.length)) ⟨fun _ => Tells migrationId before plan,
          fun _ => Tells migrationId before plan, Tells migrationId before plan⟩
        (ExecState.addRows batch.length s₁) := by
      change Call.wp (ExecState.await _) _ _
      rw [ExecState.await, Call.wp_zoom]
      exact htold
    exact Call.wp_seq hreport fun _ _ h => h

/-- What a run with no failed table has told and counted. -/
theorem wp_runExecutor_told {src dst : ManagedProvider W} {migSettings : MigrationSettings}
    {rows : String → List Row} (hstatic : src.Static rows) (hbatch : 0 < migSettings.batchSize)
    (fuel : Nat) (s : TaskState W) :
    Call.wp (runExecutor fuel (x.executor migrationId src dst migSettings plan))
      (Post.onReturn fun result t => result.failedTables = [] →
        result.totalRowsMigrated =
          (if migSettings.includeData then pendingRows rows plan.tables else 0) ∧
        Reported migrationId (progressReports migrationId s.events) plan result.totalRowsMigrated
          t.events) s := by
  have hsource : (x.executor migrationId src dst migSettings plan).source.Static rows := by
    intro table offset limit cols w
    change Call.wp (outside (src.fetchBatch table offset limit cols)) _ w
    rw [outside, Call.wp_zoom]
    exact hstatic table offset limit cols w.world
  have hcounted := MigrationExecutor.wp_run_counted hsource hbatch fuel
    (s := ⟨s, 0⟩) rfl
  have hnone : Reported migrationId (progressReports migrationId s.events) plan 0 s.events :=
    ⟨[], (List.append_nil _).symm, List.Pairwise.nil, fun _ hmem => (by cases hmem)⟩
  have hmaintains : (x.executor migrationId src dst migSettings plan).Maintains
      (Tells migrationId (progressReports migrationId s.events) plan) :=
    x.maintains_tells src dst migSettings
  have htold := hmaintains.run fuel ⟨s, 0⟩ hnone
  rw [runExecutor, Call.wp_zoom]
  refine Call.wp_mono (Call.wp_and hcounted htold) ?_ (fun _ _ _ => trivial) (fun _ _ => trivial)
  intro result t hparts hfailed
  obtain ⟨hcount, htells⟩ := hparts
  obtain ⟨htotal, hrows⟩ := hcount hfailed
  rw [htotal]
  exact ⟨hrows, htells⟩

/-- The progress that a run tells of a static source: between 0 and 100, never less than before, and
100 when at most half a percent of the rows is left. The record it completes shows 100 if the rows
it has copied are all but half a percent of those in the record, and there are any. -/
theorem progress_told {src dst : ManagedProvider W} {migSettings : MigrationSettings}
    {rows : String → List Row} (hstatic : src.Static rows) (hbatch : 0 < migSettings.batchSize)
    (htotal : plan.totalRows = pendingRows rows plan.tables) {fuel : Nat} {s t : TaskState W}
    {result : ExecResult}
    (hrun : runExecutor fuel (x.executor migrationId src dst migSettings plan) s =
      (.returned result, t)) (hfaultless : result.failedTables = []) :
    (∃ told, progressReports migrationId t.events = progressReports migrationId s.events ++ told ∧
      (told.map (·.progress)).Pairwise (· ≤ ·) ∧
      ∀ r ∈ told, 0 ≤ r.progress ∧ r.progress ≤ 100 ∧ r.processedRows ≤ plan.totalRows ∧
        (r.progress = 100 ↔ 200 * (plan.totalRows - r.processedRows) ≤ plan.totalRows)) ∧
    ∀ u v, x.finalise migrationId result u = (.returned (), v) →
      ∃ record, v.app.migrations.get? migrationId = some record ∧ record.status = .COMPLETED ∧
        ∀ now, (getStatus migrationId record now).progress = 100 ↔
          migSettings.includeData = true ∧ 0 < record.totalRows ∧
            200 * (record.totalRows - plan.totalRows) ≤ record.totalRows := by
  obtain ⟨hcount, counts, hreports, hincreasing, hbounds⟩ :=
    Call.wp_of_returned (x.wp_runExecutor_told hstatic hbatch fuel s) hrun hfaultless
  have hmost : result.totalRowsMigrated ≤ plan.totalRows := by
    rw [hcount, htotal]
    split <;> omega
  refine ⟨⟨counts.map (reportOf plan), hreports, ?_, ?_⟩, ?_⟩
  · rw [List.map_map, List.pairwise_map]
    exact hincreasing.imp fun hlt => calculateProgress_mono hlt.le plan.totalRows
  · intro r hr
    obtain ⟨count, hmem, rfl⟩ := List.mem_map.mp hr
    obtain ⟨hpos, hle⟩ := hbounds count hmem
    have hhundred := calculateProgress_eq_hundred_iff count plan.totalRows
    have hsome : 0 < plan.totalRows := by omega
    refine ⟨calculateProgress_nonneg _ _, calculateProgress_le _ _, hle.trans hmost, ?_⟩
    exact hhundred.trans (and_iff_right hsome)
  · intro u v hfinal
    obtain ⟨record, now, hrow⟩ := Call.wp_of_returned (x.wp_finalise migrationId result u) hfinal
    refine ⟨_, hrow, if_pos hfaultless, fun later => ?_⟩
    change calculateProgress result.totalRowsMigrated record.totalRows = 100 ↔ _
    rw [calculateProgress_eq_hundred_iff, hcount, ← htotal]
    change _ ↔ _ ∧ 0 < record.totalRows ∧ 200 * (record.totalRows - plan.totalRows) ≤ record.totalRows
    cases migSettings.includeData with
    | true => simp
    | false =>
      simp only [Bool.false_eq_true, if_false, false_and, iff_false]
      omega

private def halfPercent : List Row := List.replicate 200 (Dict.ofList [("c", .str "x")])

private def halfPercentSource : ManagedProvider Unit where
  toBaseDatabaseProvider := staticSource halfPercent

private def acceptingDestination : ManagedProvider Unit where
  getTableSchema name := pure { name := name, columns := [] }
  tableExists _ := pure false
  fetchBatch _ _ _ _ := pure []
  createTable _ := pure ()
  insertBatch _ rows _ := pure rows.length
  truncateTable _ := pure ()

private def quietTask : TaskContext Unit Unit where
  loadsTables _ := .ok ["t"]
  loadsSettings _ := .ok {}
  decryptCredentials _ := .ok ()
  databaseType _ := some "sqlite"
  getProvider _ _ := .ok halfPercentSource
  now := pure 7
  elapsed := pure 1
  newUuid := pure "id"

private def halfPercentPlan : MigrationPlan where
  tables := [{
    tableName := "t"
    sourceSchema := { name := "t", columns := [], rowCount := 200 }
    rowCount := 200 }]
  totalRows := 200

private def recorded (totalRows : Nat) : TaskState Unit where
  app := { migrations := Dict.ofList [("m", {
    sourceConnection := ""
    destinationConnection := ""
    status := .RUNNING
    totalRows := totalRows })] }
  world := ()

private def halfPercentRun : Outcome Exc ExecResult × TaskState Unit :=
  runExecutor 3 (quietTask.executor "m" halfPercentSource acceptingDestination
    { batchSize := 199 } halfPercentPlan) (recorded 200)

private theorem halfPercent_static : halfPercentSource.Static fun _ => halfPercent :=
  fun _ _ _ _ _ => rfl

private theorem halfPercentRun_result :
    halfPercentRun.1 = .returned { completedTables := ["t"], totalRowsMigrated := 200 } := by
  decide +kernel

private theorem halfPercentRun_returned : halfPercentRun =
    (.returned { completedTables := ["t"], totalRowsMigrated := 200 }, halfPercentRun.2) := by
  rw [← halfPercentRun_result]

private theorem halfPercentPlan_rows :
    halfPercentPlan.totalRows = pendingRows (fun _ => halfPercent) halfPercentPlan.tables := by
  decide +kernel

theorem progress_told_halfPercent : ∃ told,
    progressReports "m" halfPercentRun.2.events = progressReports "m" (recorded 200).events ++ told ∧
      (told.map (·.progress)).Pairwise (· ≤ ·) := by
  obtain ⟨⟨told, hreports, hincreasing, -⟩, -⟩ := quietTask.progress_told halfPercent_static
    (by decide) halfPercentPlan_rows halfPercentRun_returned rfl
  exact ⟨told, hreports, hincreasing⟩

private def emptyPlan : MigrationPlan where
  tables := [{ tableName := "t", sourceSchema := { name := "t", columns := [] } }]
  totalRows := 0

private def emptySource : ManagedProvider Unit where
  toBaseDatabaseProvider := staticSource []

private def emptyRun : Outcome Exc ExecResult × TaskState Unit :=
  runExecutor 1 (quietTask.executor "m" emptySource acceptingDestination {} emptyPlan) (recorded 0)

private def schemaOnlyRun : Outcome Exc ExecResult × TaskState Unit :=
  runExecutor 1 (quietTask.executor "m" halfPercentSource acceptingDestination
    { includeData := false } halfPercentPlan) (recorded 200)

/-- With one of 200 rows left the report shows 100; the completed migration of an empty table shows
0, and so does that of 200 rows whose data is not copied. -/
theorem progress_dishonest :
    (halfPercentSource.Static (fun _ => halfPercent) ∧
      halfPercentPlan.totalRows = pendingRows (fun _ => halfPercent) halfPercentPlan.tables ∧
      halfPercentRun.1 =
        .returned { completedTables := ["t"], totalRowsMigrated := 200 } ∧
      ⟨100, 199, 200⟩ ∈ progressReports "m" halfPercentRun.2.events) ∧
    (emptySource.Static (fun _ => []) ∧
      emptyPlan.totalRows = pendingRows (fun _ => []) emptyPlan.tables ∧
      ∃ result record v, emptyRun.1 = .returned result ∧ result.failedTables = [] ∧
        quietTask.finalise "m" result emptyRun.2 = (.returned (), v) ∧
        v.app.migrations.get? "m" = some record ∧ record.status = .COMPLETED ∧
        ∀ now, (getStatus "m" record now).progress = 0) ∧
    ∃ result record v, schemaOnlyRun.1 = .returned result ∧ result.failedTables = [] ∧
      quietTask.finalise "m" result schemaOnlyRun.2 = (.returned (), v) ∧
      v.app.migrations.get? "m" = some record ∧ record.status = .COMPLETED ∧
      ∀ now, (getStatus "m" record now).progress = 0 := by
  have hreports : progressReports "m" halfPercentRun.2.events =
      [reportOf halfPercentPlan 199, reportOf halfPercentPlan 200] := by decide +kernel
  have hhundred : reportOf halfPercentPlan 199 = ⟨100, 199, 200⟩ := by decide +kernel
  refine ⟨⟨halfPercent_static, halfPercentPlan_rows, halfPercentRun_result, ?_⟩,
    ⟨fun _ _ _ _ _ => rfl, rfl, ?_⟩, ?_⟩
  · rw [hreports, hhundred]
    exact List.mem_cons_self
  · exact ⟨_, _, _, rfl, rfl, rfl, rfl, rfl, fun _ => rfl⟩
  · exact ⟨_, _, _, rfl, rfl, rfl, rfl, rfl, fun _ => calculateProgress_zero 200⟩

end TaskContext

end DataBridge

import DataBridge.Migration.Frame
import DataBridge.Migration.StaticSource
import DataBridge.Migration.Traced

namespace DataBridge

variable {W : Type}

namespace MigrationPlanner

/-- The plan so far holds the names that were read, warns of the others, and adds up the rows of
the tables that are not skipped. -/
structure PlanAccounts (reads : List SchemaRead) (plan : MigrationPlan) : Prop where
  names : plan.tables.map (·.tableName) = (reads.filter (·.failed.isNone)).map (·.tableName)
  warnings : (reads.filterMap fun r => r.failed.map (sourceReadWarning r.tableName)).Sublist
    plan.warnings
  totalRows : plan.totalRows =
    ((plan.tables.filter fun tp => tp.status ≠ .skipped).map (·.rowCount)).sum

theorem planAccounts_empty : PlanAccounts [] .empty :=
  ⟨rfl, List.nil_sublist _, rfl⟩

theorem PlanAccounts.warn {reads : List SchemaRead} {plan : MigrationPlan}
    (h : PlanAccounts reads plan) (warning : String) : PlanAccounts reads (plan.warn warning) :=
  ⟨h.names, h.warnings.trans (List.sublist_append_left _ _), h.totalRows⟩

theorem PlanAccounts.unread {reads : List SchemaRead} {plan : MigrationPlan}
    (h : PlanAccounts reads plan) (tableName : String) (exc : Exc) :
    PlanAccounts (reads ++ [⟨tableName, some exc⟩])
      (plan.warn (sourceReadWarning tableName exc)) := by
  refine ⟨?_, ?_, h.totalRows⟩
  · simpa [MigrationPlan.warn] using h.names
  · have hwarnings := h.warnings.append (List.Sublist.refl [sourceReadWarning tableName exc])
    simpa [MigrationPlan.warn] using hwarnings

/-- Every way in which a table that was read enters the plan keeps the accounts. -/
theorem PlanAccounts.planTable {reads : List SchemaRead} {plan : MigrationPlan}
    (h : PlanAccounts reads plan) (tableName : String) (src : TableSchema)
    (dest : Option TableSchema) :
    PlanAccounts (reads ++ [⟨tableName, none⟩])
      (MigrationPlanner.planTable tableName src dest plan) := by
  obtain ⟨hnames, hwarnings, htotal⟩ := h
  rw [MigrationPlanner.planTable]
  split
  · refine ⟨by simp [hnames], ?_, by simp [htotal]⟩
    simpa using hwarnings.trans (List.sublist_append_left plan.warnings _)
  · refine ⟨by simp [hnames], ?_, by simp [htotal]⟩
    simpa using hwarnings.trans (List.sublist_append_left plan.warnings _)

/-- `build_plan` accounts for every requested name. -/
theorem wp_buildPlan_accounts (p : MigrationPlanner W) (w : W) :
    Call.wp p.buildPlan (Post.onReturn fun plan _ =>
      ∃ reads, reads.map SchemaRead.tableName = p.tableNames ∧ PlanAccounts reads plan) w :=
  wp_buildPlan_reads ⟨planAccounts_empty, PlanAccounts.warn, PlanAccounts.unread,
    PlanAccounts.planTable⟩ p w

end MigrationPlanner

/-- What became of a table of the plan. -/
inductive Verdict where
  | skipped
  | completed
  | failed
  deriving DecidableEq, Repr

/-- The names of the tables with this verdict, in the plan's order. -/
def namesWith (v : Verdict) (done : List (MigrationTablePlan × Verdict)) : List String :=
  (done.filter (·.2 = v)).map (·.1.tableName)

/-- The lists of the result are those of the tables done so far, where the skipped ones are those
the planner marked. -/
structure ListAccounts (done : List (MigrationTablePlan × Verdict)) (results : ExecResult) :
    Prop where
  marked : ∀ d ∈ done, d.2 = .skipped ↔ d.1.status = .skipped
  skipped : results.skippedTables = namesWith .skipped done
  completed : results.completedTables = namesWith .completed done
  failed : results.failedTables = namesWith .failed done

theorem namesWith_snoc (v : Verdict) (done : List (MigrationTablePlan × Verdict))
    (tp : MigrationTablePlan) (v' : Verdict) :
    namesWith v (done ++ [(tp, v')]) = namesWith v done ++ if v' = v then [tp.tableName] else [] := by
  rw [namesWith, List.filter_append, List.map_append, namesWith]
  by_cases h : v' = v <;> simp [h]

private theorem marked_snoc {done : List (MigrationTablePlan × Verdict)} {tp : MigrationTablePlan}
    {v : Verdict} (h : ∀ d ∈ done, d.2 = .skipped ↔ d.1.status = .skipped)
    (hv : v = .skipped ↔ tp.status = .skipped) :
    ∀ d ∈ done ++ [(tp, v)], d.2 = .skipped ↔ d.1.status = .skipped := by
  intro d hd
  rcases List.mem_append.mp hd with hold | hnew
  · exact h d hold
  · rw [List.mem_singleton.mp hnew]
    exact hv

theorem ListAccounts.skip {done : List (MigrationTablePlan × Verdict)} {results : ExecResult}
    (h : ListAccounts done results) {tp : MigrationTablePlan} (hs : tp.status = .skipped) :
    ListAccounts (done ++ [(tp, .skipped)])
      { results with skippedTables := results.skippedTables ++ [tp.tableName] } := by
  refine ⟨marked_snoc h.marked (iff_of_true rfl hs), ?_, ?_, ?_⟩
  · rw [namesWith_snoc, h.skipped]
    rfl
  · rw [namesWith_snoc, h.completed]
    simp
  · rw [namesWith_snoc, h.failed]
    simp

theorem ListAccounts.complete {done : List (MigrationTablePlan × Verdict)} {results : ExecResult}
    (h : ListAccounts done results) {tp : MigrationTablePlan} (hs : tp.status ≠ .skipped) :
    ListAccounts (done ++ [(tp, .completed)])
      { results with completedTables := results.completedTables ++ [tp.tableName] } := by
  refine ⟨marked_snoc h.marked (iff_of_false (by decide) hs), ?_, ?_, ?_⟩
  · rw [namesWith_snoc, h.skipped]
    simp
  · rw [namesWith_snoc, h.completed]
    rfl
  · rw [namesWith_snoc, h.failed]
    simp

theorem ListAccounts.fail {done : List (MigrationTablePlan × Verdict)} {results : ExecResult}
    (h : ListAccounts done results) {tp : MigrationTablePlan} (hs : tp.status ≠ .skipped) :
    ListAccounts (done ++ [(tp, .failed)])
      { results with failedTables := results.failedTables ++ [tp.tableName] } := by
  refine ⟨marked_snoc h.marked (iff_of_false (by decide) hs), ?_, ?_, ?_⟩
  · rw [namesWith_snoc, h.skipped]
    simp
  · rw [namesWith_snoc, h.completed]
    simp
  · rw [namesWith_snoc, h.failed]
    rfl

/-- How a run that returned has dealt with the plan: with all of it, or up to the first failure. -/
structure RunLists (x : MigrationExecutor W) (done : List (MigrationTablePlan × Verdict))
    (results : ExecResult) : Prop where
  lists : ListAccounts done results
  order : done.map Prod.fst <+: x.plan.tables
  whole : x.continueOnError = true ∨ results.failedTables = [] → done.map Prod.fst = x.plan.tables
  first : x.continueOnError = false → results.failedTables ≠ [] → ∃ earlier last,
    done = earlier ++ [last] ∧ last.2 = .failed ∧ results.failedTables = [last.1.tableName]

/-- Only names of the plan's tables are listed. -/
theorem RunLists.planned {x : MigrationExecutor W} {done : List (MigrationTablePlan × Verdict)}
    {results : ExecResult} (h : RunLists x done results) (v : Verdict) {name : String}
    (hname : name ∈ namesWith v done) : ∃ tp ∈ x.plan.tables, tp.tableName = name := by
  obtain ⟨d, hd, heq⟩ := List.mem_map.mp hname
  have hdone : d.1 ∈ done.map Prod.fst := List.mem_map_of_mem (List.mem_of_mem_filter hd)
  exact ⟨d.1, h.order.subset hdone, heq⟩

theorem wp_run_lists (x : MigrationExecutor W) (fuel : Nat) (s : ExecState W) :
    Call.wp (x.run fuel) (Post.onReturn fun results _ => ∃ done, RunLists x done results) s := by
  have htotal : ∀ (results : ExecResult) (s : ExecState W), (∃ done, RunLists x done results) →
      Call.wp (do
        let total ← Call.read ExecState.totalRowsProcessed
        pure { results with totalRowsMigrated := total } : Call Exc (ExecState W) ExecResult)
        (Post.onReturn fun results _ => ∃ done, RunLists x done results) s := by
    intro results s hparts
    obtain ⟨done, h⟩ := hparts
    exact ⟨done, ⟨h.lists.marked, h.lists.skipped, h.lists.completed, h.lists.failed⟩, h.order,
      h.whole, h.first⟩
  refine Call.wp_seq (R := fun results _ => ∃ done, RunLists x done results) ?_
    (fun results s h => htotal results s h)
  refine Call.wp_forEach (fun pre results _ => ∃ done : List (MigrationTablePlan × Verdict),
      done.map Prod.fst = pre ∧ ListAccounts done results ∧
      (x.continueOnError = false → results.failedTables = [])) x.plan.tables ?_ ?_ [] _ _ _ rfl
    ⟨[], rfl, ⟨by simp, rfl, rfl, rfl⟩, fun _ => rfl⟩
  · intro pre tp post results s hall hfound
    obtain ⟨done, hdone, hlists, hfail⟩ := hfound
    have hsnoc : ∀ v : Verdict, (done ++ [(tp, v)]).map Prod.fst = pre ++ [tp] := by
      intro v
      rw [List.map_append, hdone]
      rfl
    apply x.wp_runTable
    · intro hs
      refine Call.wp_of_forall ?_ (fun _ _ => trivial) (fun _ => trivial)
      exact fun _ _ => ⟨_, hsnoc .skipped, hlists.skip hs, hfail⟩
    · intro hs
      refine Call.wp_of_forall ?_ (fun _ _ => trivial) (fun _ => trivial)
      intro success _
      cases success with
      | true => exact ⟨_, hsnoc .completed, hlists.complete hs, hfail⟩
      | false =>
        have hnext := hlists.fail hs
        dsimp only
        cases hc : x.continueOnError with
        | true =>
          have hafter : x.afterTable results tp false = .again
              { results with failedTables := results.failedTables ++ [tp.tableName] } := by
            rw [MigrationExecutor.afterTable, if_neg (by decide), if_pos hc]
          rw [hafter]
          exact ⟨_, hsnoc .failed, hnext, fun h => absurd h (by decide)⟩
        | false =>
          have hafter : x.afterTable results tp false = .done
              { results with failedTables := results.failedTables ++ [tp.tableName] } := by
            rw [MigrationExecutor.afterTable, if_neg (by decide), if_neg (by simp [hc])]
          rw [hafter]
          refine ⟨done ++ [(tp, .failed)], hnext, ?_, ?_, ?_⟩
          · rw [hsnoc, hall]
            exact ⟨post, by simp⟩
          · intro hcases
            rcases hcases with hcontinue | hempty
            · exact absurd (hc.symm.trans hcontinue) (by decide)
            · exact absurd hempty (by simp)
          · intro _ _
            refine ⟨done, (tp, .failed), rfl, rfl, ?_⟩
            change results.failedTables ++ [tp.tableName] = [tp.tableName]
            rw [hfail hc, List.nil_append]
  · intro results s hfound
    obtain ⟨done, hdone, hlists, hfail⟩ := hfound
    refine ⟨done, hlists, hdone ▸ List.prefix_rfl, fun _ => hdone, ?_⟩
    exact fun hstop hne => absurd (hfail hstop) hne

/-- The size of the batch, where the call is an insert that returned. -/
def insertedRows (call : ProviderCall × Outcome Exc Unit) : Nat :=
  match call with
  | (.insertBatch _ rows, .returned ()) => rows.length
  | _ => 0

/-- The rows inserted are those counted and `uncounted` more, and the totals reported have
increased up to the counter. -/
structure RowAccounts (uncounted : Nat) (s : ExecState (Traced W)) : Prop where
  counter : s.totalRowsProcessed + uncounted = (s.world.calls.map insertedRows).sum
  increasing : s.world.totals.Pairwise (· < ·)
  reported : ∀ total ∈ s.world.totals, total ≤ s.totalRowsProcessed

theorem rowAccounts_start (w : W) : RowAccounts 0 (⟨{ inner := w }, 0⟩ : ExecState (Traced W)) := by
  constructor <;> simp

theorem keeps_inside {α : Type} (c : Call Exc W α) :
    Call.Keeps (RowAccounts 0) (ExecState.await (Traced.inside c)) := by
  intro s hs
  have hkept : ∀ w : W, RowAccounts 0
      (⟨{ s.world with inner := w }, s.totalRowsProcessed⟩ : ExecState (Traced W)) :=
    fun _ => ⟨hs.counter, hs.increasing, hs.reported⟩
  rw [ExecState.await, Call.wp_zoom, Traced.inside, Call.wp_zoom]
  exact Call.wp_of_forall (fun _ w => hkept w) (fun _ w => hkept w) hkept

/-- A recorded call adds the rows it inserted to those not yet counted. -/
theorem wp_record {α : Type} (call : ProviderCall) (c : Call Exc W α)
    {s : ExecState (Traced W)} (hs : RowAccounts 0 s) :
    Call.wp (ExecState.await (Traced.record call c))
      ⟨fun _ => RowAccounts (insertedRows (call, .returned ())),
        fun e => RowAccounts (insertedRows (call, .raised e)),
        RowAccounts (insertedRows (call, .exhausted))⟩ s := by
  have hadded : ∀ (w : W) (ending : Outcome Exc Unit), RowAccounts (insertedRows (call, ending))
      (⟨{ s.world with inner := w, calls := s.world.calls ++ [(call, ending)] },
        s.totalRowsProcessed⟩ : ExecState (Traced W)) := by
    intro w ending
    refine ⟨?_, hs.increasing, hs.reported⟩
    have hcounter := hs.counter
    rw [Nat.add_zero] at hcounter
    simp [hcounter]
  rw [ExecState.await, Call.wp_zoom, Call.wp, Traced.record]
  rcases hc : c s.world.inner with ⟨a | e | _, w⟩
  · exact hadded w (.returned ())
  · exact hadded w (.raised e)
  · exact hadded w .exhausted

/-- A recorded call that inserts nothing. -/
theorem keeps_record {α : Type} {call : ProviderCall} (c : Call Exc W α)
    (h : ∀ ending, insertedRows (call, ending) = 0) :
    Call.Keeps (RowAccounts 0) (ExecState.await (Traced.record call c)) := by
  intro s hs
  refine Call.wp_mono (wp_record call c hs) ?_ ?_ ?_
  · exact fun _ w hw => h (.returned ()) ▸ hw
  · exact fun e w hw => h (.raised e) ▸ hw
  · exact fun w hw => h .exhausted ▸ hw

namespace MigrationExecutor

theorem keeps_traced_log (x : MigrationExecutor W) (level message : String)
    (table : Option String) : Call.Keeps (RowAccounts 0) (x.traced.log level message table) := by
  rw [log]
  cases honLog : x.onLog with
  | none =>
    rw [traced, honLog]
    exact Call.keeps_pure ()
  | some f =>
    rw [traced, honLog]
    exact keeps_inside (f level message table)

theorem wp_traced_reportProgress (x : MigrationExecutor W) (table : String) (rowsForTable : Nat)
    {s : ExecState (Traced W)} (hs : RowAccounts 0 s)
    (hnew : ∀ total ∈ s.world.totals, total < s.totalRowsProcessed) :
    Call.wp (x.traced.reportProgress table rowsForTable)
      ⟨fun _ => RowAccounts 0, fun _ => RowAccounts 0, RowAccounts 0⟩ s := by
  rw [reportProgress]
  cases hprogress : x.onProgress with
  | none =>
    rw [traced, hprogress]
    exact hs
  | some f =>
    rw [traced, hprogress]
    have hkept : ∀ w : W, RowAccounts 0
        (⟨{ s.world with inner := w, totals := s.world.totals ++ [s.totalRowsProcessed] },
          s.totalRowsProcessed⟩ : ExecState (Traced W)) := by
      refine fun w => ⟨hs.counter, ?_, ?_⟩
      · rw [List.pairwise_append]
        exact ⟨hs.increasing, List.pairwise_singleton _ _, by simpa using hnew⟩
      · intro total htotal
        rcases List.mem_append.mp htotal with hold | hlast
        · exact hs.reported total hold
        · exact (List.mem_singleton.mp hlast).le
    change Call.wp (ExecState.await (Traced.inside
      (f table rowsForTable s.totalRowsProcessed none))) _
      (⟨{ s.world with totals := s.world.totals ++ [s.totalRowsProcessed] },
        s.totalRowsProcessed⟩ : ExecState (Traced W))
    rw [ExecState.await, Call.wp_zoom, Traced.inside, Call.wp_zoom]
    exact Call.wp_of_forall (fun _ w => hkept w) (fun _ w => hkept w) hkept

/-- The batch counted is the batch inserted, so a run keeps its accounts. -/
theorem maintains_rowAccounts (x : MigrationExecutor W) :
    x.traced.Maintains (RowAccounts 0) := by
  have hlog := x.keeps_traced_log
  have hsleep : ∀ seconds, Call.Keeps (RowAccounts 0) (ExecState.await (x.traced.sleep seconds)) :=
    fun seconds => keeps_inside _
  refine ⟨fun schema => keeps_record _ fun ending => ?_, fun t => keeps_record _ fun ending => ?_,
    fun t offset limit cols => keeps_record _ fun ending => ?_, hlog, hsleep, ?_⟩
  · rfl
  · rfl
  · rfl
  intro mappings batch rows hbatch hrows t v s hs
  have hins : ∀ s, RowAccounts 0 s →
      Call.wp (ExecState.await (x.traced.destination.insertBatch t rows none))
        ⟨fun _ => RowAccounts rows.length, fun _ => RowAccounts 0, RowAccounts 0⟩ s :=
    fun s hs => wp_record (.insertBatch t rows) _ hs
  refine Call.wp_seq (wp_insertWithRetry hlog hsleep hins hs) ?_
  intro ok s' hok
  cases ok with
  | false => exact hok
  | true =>
    have hlength := transform_length hrows
    have hpos := List.length_pos_iff.mpr hbatch
    have hcounted : RowAccounts 0 (ExecState.addRows batch.length s') := by
      refine ⟨?_, hok.increasing, fun total h => ?_⟩
      · rw [← hlength]
        exact hok.counter
      · exact (hok.reported total h).trans (Nat.le_add_right _ _)
    have hnew : ∀ total ∈ s'.world.totals, total < s'.totalRowsProcessed + batch.length :=
      fun total h => Nat.lt_of_le_of_lt (hok.reported total h) (by omega)
    have hreport := x.wp_traced_reportProgress t (v.rowsForTable + batch.length) hcounted hnew
    exact Call.wp_seq (R := fun _ s₁ => s₁ = ExecState.addRows batch.length s') rfl
      fun _ s₁ h₁ => h₁ ▸ Call.wp_seq hreport fun _ _ h => h

/-- The total of the result is the executor's counter. -/
theorem wp_run_total (x : MigrationExecutor W) (fuel : Nat) (s : ExecState W) :
    Call.wp (x.run fuel)
      (Post.onReturn fun results s' => results.totalRowsMigrated = s'.totalRowsProcessed) s := by
  apply Call.wp_bind_any
  exact fun _ _ => rfl

end MigrationExecutor

/-- A migration that was planned and run accounts for every requested table, and for every row. -/
theorem planned_run_accounts (p : MigrationPlanner W) (x : MigrationExecutor W) (fuel : Nat)
    {w w' u : W} {results : ExecResult} {s : ExecState W}
    (hplan : p.buildPlan w = (.returned x.plan, w'))
    (hrun : x.run fuel ⟨u, 0⟩ = (.returned results, s)) :
    (∃ reads, reads.map MigrationPlanner.SchemaRead.tableName = p.tableNames ∧
      MigrationPlanner.PlanAccounts reads x.plan) ∧
    (∃ done, RunLists x done results) ∧
    ∃ trace, x.traced.run fuel ⟨{ inner := u }, 0⟩ = (.returned results, trace) ∧
      trace.world.totals.Pairwise (· < ·) ∧
      results.totalRowsMigrated = (trace.world.calls.map insertedRows).sum := by
  refine ⟨Call.wp_of_returned (p.wp_buildPlan_accounts w) hplan,
    Call.wp_of_returned (wp_run_lists x fuel _) hrun, ?_⟩
  have htraced := x.run_traced fuel u 0
  rw [hrun] at htraced
  have hreturned : x.traced.run fuel ⟨{ inner := u }, 0⟩ =
      (.returned results, (x.traced.run fuel ⟨{ inner := u }, 0⟩).2) := Prod.ext htraced.1 rfl
  have haccounts := Call.wp_of_returned
    (x.maintains_rowAccounts.run fuel _ (rowAccounts_start u)) hreturned
  have htotal := Call.wp_of_returned (MigrationExecutor.wp_run_total x.traced fuel _) hreturned
  refine ⟨_, hreturned, haccounts.increasing, ?_⟩
  rw [htotal]
  exact haccounts.counter

private def tableA : TableSchema :=
  { name := "a", columns := [{ name := "id", dataType := "INTEGER" }], rowCount := 1 }

private def tableC : TableSchema := { name := "c", columns := [] }

/-- A source with a table `a`, and a table `c` without columns. -/
private def someDatabase : BaseDatabaseProvider Unit where
  getTableSchema t :=
    if t = "a" then pure tableA
    else if t = "c" then pure tableC
    else Call.raise ⟨.other, "no such table"⟩
  tableExists _ := pure false
  fetchBatch _ offset _ _ := pure (if offset = 0 then [Dict.ofList [("id", .int 1)]] else [])
  createTable _ := pure ()
  insertBatch _ rows _ := pure rows.length
  truncateTable _ := pure ()

private def somePlanner : MigrationPlanner Unit where
  source := someDatabase
  destination := someDatabase
  tableNames := ["a", "b", "c", "a"]

private def plannedA : MigrationTablePlan where
  tableName := "a"
  sourceSchema := tableA
  columnMappings := buildColumnMappings tableA none
  rowCount := 1

private def someExecutor : MigrationExecutor Unit where
  source := someDatabase
  destination := someDatabase
  plan := {
    tables := [plannedA, { tableName := "c", sourceSchema := tableC, status := .skipped }, plannedA]
    totalRows := 2
    warnings := ["Could not read schema for table 'b': no such table",
      MigrationPlanner.fatalWarning "c" (noColumnsError tableC)] }

theorem planned_run_accounts_repeated :
    somePlanner.buildPlan () = (.returned someExecutor.plan, ()) ∧ ∃ results trace,
      results.completedTables = ["a", "a"] ∧ results.skippedTables = ["c"] ∧
      someExecutor.traced.run 3 ⟨{ inner := () }, 0⟩ = (.returned results, trace) ∧
      results.totalRowsMigrated = (trace.world.calls.map insertedRows).sum := by
  obtain ⟨-, -, trace, htrace, -, htotal⟩ :=
    planned_run_accounts somePlanner someExecutor 3 (w := ()) (u := ()) rfl rfl
  exact ⟨rfl, _, trace, rfl, rfl, htrace, htotal⟩

end DataBridge

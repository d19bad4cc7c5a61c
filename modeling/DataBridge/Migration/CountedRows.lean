import DataBridge.Migration.Frame
import DataBridge.Migration.StaticSource

namespace DataBridge

variable {W : Type}

/-- Every page that the source returns is that of the same rows, whatever else happens. -/
def BaseDatabaseProvider.Static (source : BaseDatabaseProvider W) (rows : String → List Row) :
    Prop :=
  ∀ table offset limit cols w, Call.wp (source.fetchBatch table offset limit cols)
    (Post.onReturn fun batch _ => batch = selectRows (rows table) ⟨cols, table, limit, offset⟩) w

theorem selectRows_length (rows : List Row) (q : Select) :
    (selectRows rows q).length = min q.limit (rows.length - q.offset) := by
  rw [selectRows, List.length_map, List.length_take, List.length_drop]

/-- The tables that a run of the plan goes into. -/
def pendingTables (tables : List MigrationTablePlan) : List MigrationTablePlan :=
  tables.filter (·.status ≠ .skipped)

/-- The rows of the pending tables, a table counting as often as it is planned. -/
def pendingRows (rows : String → List Row) (tables : List MigrationTablePlan) : Nat :=
  ((pendingTables tables).map fun tp => (rows tp.tableName).length).sum

namespace MigrationExecutor

/-- Only the counting of a batch changes the counter. -/
abbrev Counts (n : Nat) (s : ExecState W) : Prop := s.totalRowsProcessed = n

section counter

variable {x : MigrationExecutor W} {n : Nat}

theorem counts_await {α : Type} (c : Call Exc W α) :
    Call.Keeps (Counts n) (ExecState.await c) := by
  intro s hs
  rw [ExecState.await, Call.wp_zoom]
  exact Call.wp_of_forall (fun _ _ => hs) (fun _ _ => hs) (fun _ => hs)

theorem counts_log (level message : String) (table : Option String) :
    Call.Keeps (Counts n) (x.log level message table) := by
  rw [log]
  cases x.onLog with
  | none => exact Call.keeps_pure ()
  | some onLog => exact counts_await _

theorem counts_reportProgress (table : String) (rowsForTable : Nat) :
    Call.Keeps (Counts n) (x.reportProgress table rowsForTable) := by
  rw [reportProgress]
  cases x.onProgress with
  | none => exact Call.keeps_pure ()
  | some onProgress => exact (Call.keeps_read _).bind fun total => counts_await _

theorem counts_insertWithRetry (table : String) (batch : List Row) :
    Call.Keeps (Counts n) (x.insertWithRetry table batch) :=
  keeps_insertWithRetry counts_log (fun _ => counts_await _) (counts_await _)

end counter

section static

variable {x : MigrationExecutor W} {rows : String → List Row} {n : Nat}

/-- The fetch of a pass, if it returns a batch. -/
theorem wp_fetchAttempt_static (hstatic : x.source.Static rows) (tp : MigrationTablePlan)
    (v : CopyVars) {s : ExecState W} (hs : Counts n s) :
    Call.wp (x.fetchAttempt tp v) (Post.onReturn fun r s' => Counts n s' ∧
      ∀ batch, r = some batch → batch = selectRows (rows tp.tableName)
        ⟨selectedColumns tp.columnMappings, tp.tableName, x.batchSize, v.offset⟩) s := by
  have hkept : Call.Keeps (Counts n) (x.fetchAttempt tp v) :=
    keeps_fetchAttempt counts_log (fun _ => counts_await _) (fun _ _ _ _ => counts_await _)
  have hpage : Call.wp (x.fetchAttempt tp v) (Post.onReturn fun r _ =>
      ∀ batch, r = some batch → batch = selectRows (rows tp.tableName)
        ⟨selectedColumns tp.columnMappings, tp.tableName, x.batchSize, v.offset⟩) s := by
    rw [fetchAttempt, Call.wp_tryExcept, Call.wp_bind, ExecState.await, Call.wp_zoom]
    refine Call.wp_mono (hstatic _ _ _ _ _) ?_ ?_ (fun _ h => h)
    · intro batch w hbatch page heq
      exact (Option.some.inj heq).symm.trans hbatch
    · intro exc w _
      apply Call.wp_bind_any
      intro _ s₁
      apply Call.wp_bind_any
      intro _ s₂ page heq
      cases heq
  exact Call.wp_onReturn (Call.wp_and (hkept s hs) hpage)

/-- Between two passes the counter is as far as the offset. -/
structure Counted (count n : Nat) (v : CopyVars) (s : ExecState W) : Prop where
  offset : v.offset ≤ count
  counter : s.totalRowsProcessed = n + v.offset

/-- A pass that does not end the copy counts the rows it passes, and one that completes it has
counted all of them. -/
theorem wp_copyPass_counted (hstatic : x.source.Static rows) (hbatch : 0 < x.batchSize)
    (tp : MigrationTablePlan) {v : CopyVars} {s : ExecState W}
    (hv : Counted (rows tp.tableName).length n v s) :
    Call.wp (x.copyPass tp v) (Post.onReturn fun p s' => match p with
      | .again v' => Counted (rows tp.tableName).length n v' s'
      | .done ok => ok = true → s'.totalRowsProcessed = n + (rows tp.tableName).length) s := by
  obtain ⟨hoffset, hcounter⟩ := hv
  refine Call.wp_seq (wp_fetchAttempt_static hstatic tp v hcounter) fun r s₁ h₁ => ?_
  obtain ⟨hcounter₁, hpage⟩ := h₁
  cases r with
  | none =>
    dsimp only
    split
    · exact ⟨hoffset, hcounter₁⟩
    · intro hok
      cases hok
  | some batch =>
    have hlength := selectRows_length (rows tp.tableName)
      ⟨selectedColumns tp.columnMappings, tp.tableName, x.batchSize, v.offset⟩
    rw [← hpage batch rfl] at hlength
    dsimp only at hlength
    cases batch with
    | nil =>
      have hend : v.offset = (rows tp.tableName).length := by
        rw [List.length_nil] at hlength
        omega
      refine Call.wp_seq (Call.wp_onReturn (counts_log _ _ _ s₁ hcounter₁)) fun _ s₂ h₂ _ => ?_
      rw [← hend]
      exact h₂
    | cons row rest =>
      refine Call.wp_bind_ofExcept (fun transformed _ => ?_) (fun _ _ => trivial)
      refine Call.wp_seq (Call.wp_onReturn (counts_insertWithRetry _ _ s₁ hcounter₁))
        fun insertOk s₂ h₂ => ?_
      cases insertOk with
      | false =>
        intro hok
        cases hok
      | true =>
        have hcounted : Counts (n + (v.offset + (row :: rest).length))
            (ExecState.addRows (row :: rest).length s₂) := by
          change s₂.totalRowsProcessed + _ = _
          rw [h₂, Nat.add_assoc]
        have hnext : v.offset + (row :: rest).length ≤ (rows tp.tableName).length := by omega
        refine Call.wp_seq (R := fun _ s₃ =>
          s₃ = ExecState.addRows (row :: rest).length s₂) rfl fun _ s₃ h₃ => ?_
        subst h₃
        refine Call.wp_seq (Call.wp_onReturn (counts_reportProgress _ _ _ hcounted))
          fun _ s₄ h₄ => ?_
        exact ⟨hnext, h₄⟩

/-- A completed table has been counted row by row, if its data was to be copied. -/
theorem wp_migrateTable_counted (hstatic : x.source.Static rows) (hbatch : 0 < x.batchSize)
    (fuel : Nat) (tp : MigrationTablePlan) {s : ExecState W} (hs : Counts n s) :
    Call.wp (x.migrateTable fuel tp) (Post.onReturn fun ok s' => ok = true →
      s'.totalRowsProcessed = n + if x.includeData then (rows tp.tableName).length else 0) s := by
  have hensure : Call.Keeps (Counts n) (x.ensureTable tp) :=
    keeps_ensureTable counts_log fun _ => counts_await _
  have hclear : Call.Keeps (Counts n) (x.clearTable tp) :=
    keeps_clearTable counts_log fun _ => counts_await _
  refine Call.wp_seq (Call.wp_onReturn (counts_log _ _ _ s hs)) fun _ s₁ h₁ => ?_
  refine Call.wp_seq (Call.wp_onReturn (hensure s₁ h₁)) fun created s₂ h₂ => ?_
  cases created with
  | false =>
    intro hok
    cases hok
  | true =>
    refine Call.wp_seq (Call.wp_onReturn (hclear s₂ h₂)) fun _ s₃ h₃ => ?_
    cases hdata : x.includeData with
    | false =>
      refine Call.wp_seq (Call.wp_onReturn (counts_log _ _ _ s₃ h₃)) fun _ s₄ h₄ _ => ?_
      exact h₄
    | true =>
      refine Call.wp_loop_weak (Counted (rows tp.tableName).length n) ?_ (fun _ _ _ => trivial)
        fuel {} s₃ ⟨Nat.zero_le _, h₃⟩
      intro v s' hv
      refine Call.wp_mono (wp_copyPass_counted hstatic hbatch tp hv) ?_ (fun _ _ h => h)
        (fun _ h => h)
      intro p s'' hp
      cases p with
      | again v' => exact hp
      | done ok => exact hp

/-- While no table has failed, the counter is the number of rows of the pending tables done. -/
theorem wp_run_counted (hstatic : x.source.Static rows) (hbatch : 0 < x.batchSize) (fuel : Nat)
    {s : ExecState W} (hs : Counts 0 s) :
    Call.wp (x.run fuel) (Post.onReturn fun results s' => results.failedTables = [] →
      results.totalRowsMigrated = s'.totalRowsProcessed ∧ s'.totalRowsProcessed =
        if x.includeData then pendingRows rows x.plan.tables else 0) s := by
  let done (pre : List MigrationTablePlan) (results : ExecResult) (s : ExecState W) : Prop :=
    results.failedTables = [] → s.totalRowsProcessed = if x.includeData then pendingRows rows pre else 0
  refine Call.wp_seq (R := fun results s' => done x.plan.tables results s') ?_
    fun results s' h hfailed => ⟨rfl, h hfailed⟩
  refine Call.wp_forEach done x.plan.tables ?_ (fun _ _ h => h) [] _ _ _ rfl ?_
  · intro pre tp post results s' _ hdone
    apply x.wp_runTable
    · intro hskip
      have hsame : pendingRows rows (pre ++ [tp]) = pendingRows rows pre := by
        simp [pendingRows, pendingTables, hskip]
      have hkept := counts_log (x := x) "WARNING"
        s!"Skipping table '{tp.tableName}' (incompatible schema)" none s' rfl
      refine Call.wp_mono (Call.wp_onReturn hkept) ?_ (fun _ _ h => h) (fun _ h => h)
      intro _ s'' hcounter hfailed
      rw [hsame]
      exact hcounter.trans (hdone hfailed)
    · intro hpending
      have hnext : pendingRows rows (pre ++ [tp]) =
          pendingRows rows pre + (rows tp.tableName).length := by
        simp [pendingRows, pendingTables, hpending]
      have htable := wp_migrateTable_counted hstatic hbatch fuel tp (s := s') rfl
      refine Call.wp_mono htable ?_ (fun _ _ h => h) (fun _ h => h)
      intro success s'' hcounter
      have hfails : results.failedTables ++ [tp.tableName] ≠ [] := by simp
      cases success with
      | true =>
        intro hfailed
        have hbefore := hdone hfailed
        rw [hcounter rfl, hbefore, hnext]
        split <;> rfl
      | false =>
        dsimp only
        rw [afterTable, if_neg Bool.false_ne_true]
        by_cases hcontinue : x.continueOnError = true
        · rw [if_pos hcontinue]
          exact fun hfailed => absurd hfailed hfails
        · rw [if_neg hcontinue]
          exact fun hfailed => absurd hfailed hfails
  · intro _
    rw [hs]
    split <;> rfl

end static

end MigrationExecutor

end DataBridge

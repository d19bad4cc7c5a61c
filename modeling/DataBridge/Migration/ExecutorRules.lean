import DataBridge.Migration.Site

namespace DataBridge

variable {D X : Type} (site : Site D X)

section rules

variable {d : D} {n : Nat}

theorem dwp_log {P : DataPost D Unit} (level message : String) (table : Option String)
    (hr : P.returned () d n) (he : site.CallbacksRaise → P.raised d n) :
    dwp (site.executor.log level message table) P d n := by
  rw [MigrationExecutor.log, Site.executor]
  cases hlog : site.onLog with
  | none => exact dwp_pure hr
  | some f =>
    apply dwp_await_mayRaise (f level message table) hr
    intro hf
    exact he (Or.inl ⟨f, hlog, level, message, table, hf⟩)

theorem dwp_backOff {P : DataPost D Unit} (again : Bool) (seconds : Nat)
    (hr : P.returned () d n) (he : site.CallbacksRaise → P.raised d n) :
    dwp (site.executor.backOff again seconds) P d n := by
  rw [MigrationExecutor.backOff]
  split
  · apply dwp_await_mayRaise (site.sleep seconds) hr
    intro hf
    exact he (Or.inr (Or.inr ⟨seconds, hf⟩))
  · exact dwp_pure hr

theorem dwp_reportProgress {P : DataPost D Unit} (table : String) (rowsForTable : Nat)
    (hr : P.returned () d n) (he : site.CallbacksRaise → P.raised d n) :
    dwp (site.executor.reportProgress table rowsForTable) P d n := by
  rw [MigrationExecutor.reportProgress, Site.executor]
  cases hprogress : site.onProgress with
  | none => exact dwp_pure hr
  | some f =>
    apply dwp_bind
    apply dwp_read_total
    apply dwp_await_mayRaise (f table rowsForTable n none) hr
    intro hf
    exact he (Or.inr (Or.inl ⟨f, hprogress, table, rowsForTable, n, none, hf⟩))

/-- What follows a failed call: a log entry, the wait, and no value. -/
private theorem dwp_logAndBackOff {α : Type} {P : DataPost D (Option α)} (level message : String)
    (table : Option String) (again : Bool) (seconds : Nat)
    (h : P.returned none d n ∧ (site.CallbacksRaise → P.raised d n)) :
    dwp (do
      site.executor.log level message table
      site.executor.backOff again seconds
      pure none) P d n := by
  apply dwp_bind
  refine dwp_log site _ _ _ ?_ h.2
  apply dwp_bind
  exact dwp_backOff site _ _ (dwp_pure h.1) h.2

/-- One attempt at an insert: `T` holds after an accepted one and `F` after a raising one. -/
theorem dwp_insertAttempt {P : DataPost D (Option Bool)} (table : String) (rows : List Row)
    (attempt : Nat) (T F : D → Prop)
    (hins : Call.wp (site.destination.insertBatch table rows none)
      ⟨fun _ d' => T d', fun _ d' => F d', fun _ => False⟩ (site.notes.given rows d))
    (hkept : ∀ k, site.MayKeep k → F (site.notes.kept (site.notes.given rows d)
      (site.destination.insertBatch table (rows.take k) none (site.notes.given rows d)).2))
    (hT : ∀ d', T d' → P.returned (some true) d' n)
    (hF : ∀ d', F d' → P.returned none d' n ∧ (site.CallbacksRaise → P.raised d' n)) :
    dwp (site.executor.insertAttempt table rows attempt) P d n := by
  apply dwp_tryExcept
  apply dwp_bind
  refine dwp_await_insert site table rows ?_ ?_
  · refine Call.wp_mono hins (fun _ d' h => dwp_pure (hT d' h)) ?_ (fun _ hx => hx.elim)
    exact fun _ d' h exc => dwp_logAndBackOff site _ _ _ _ _ (hF d' h)
  · exact fun k hk exc => dwp_logAndBackOff site _ _ _ _ _ (hF _ (hkept k hk))

/-- The insert of one batch, retried: `I` holds before an attempt, `T` after an accepted one and
`F` after a raising one. -/
theorem dwp_insertWithRetry {P : DataPost D Bool} (table : String) (rows : List Row)
    (I T F : D → Prop)
    (hins : ∀ d, I d → Call.wp (site.destination.insertBatch table rows none)
      ⟨fun _ d' => T d', fun _ d' => F d', fun _ => False⟩ (site.notes.given rows d))
    (hkept : ∀ d k, site.MayKeep k → I d → F (site.notes.kept (site.notes.given rows d)
      (site.destination.insertBatch table (rows.take k) none (site.notes.given rows d)).2))
    (hagain : ∀ d', F d' → I d')
    (hT : ∀ d', T d' → P.returned true d' n)
    (hF : ∀ d', F d' → P.returned false d' n ∧ (site.CallbacksRaise → P.raised d' n))
    (hi : I d) : dwp (site.executor.insertWithRetry table rows) P d n := by
  apply dwp_bind
  refine dwp_forRange (fun i d' n' => I d' ∧ (0 < i → F d') ∧ n' = n) ?_ ?_
    ⟨hi, by omega, rfl⟩
  · intro i d' n' _ h
    obtain ⟨hd, -, hn⟩ := h
    subst hn
    refine dwp_insertAttempt site table rows i T F (hins d' hd) (fun k hk => hkept d' k hk hd) ?_ ?_
    · exact fun d'' ht => dwp_pure (hT d'' ht)
    · intro d'' hf
      exact ⟨⟨hagain d'' hf, fun _ => hf, rfl⟩, (hF d'' hf).2⟩
  · intro d' n' h
    obtain ⟨-, hf, hn⟩ := h
    subst hn
    have hf' := hF d' (hf (Nat.succ_pos _))
    apply dwp_bind
    exact dwp_log site _ _ _ (dwp_pure hf'.1) hf'.2

/-- The fetch of a pass. `B` describes what it returns, `F` what a failed one leaves. -/
theorem dwp_fetchAttempt {P : DataPost D (Option (List Row))} (tp : MigrationTablePlan)
    (v : CopyVars) (B : List Row → D → Prop) (F : D → Prop)
    (hfetch : Call.wp (site.source.fetchBatch tp.tableName v.offset site.settings.batchSize
        (MigrationExecutor.selectedColumns tp.columnMappings))
      ⟨B, fun _ d' => F d', fun _ => P.exhausted⟩ d)
    (hfault : site.sourceFaults.fetchBatch.MayRaise → F d)
    (hB : ∀ batch d', B batch d' → P.returned (some batch) d' n)
    (hF : ∀ d', F d' → P.returned none d' n ∧ (site.CallbacksRaise → P.raised d' n)) :
    dwp (site.executor.fetchAttempt tp v) P d n := by
  apply dwp_tryExcept
  apply dwp_bind
  refine dwp_await_faulty site.sourceFaults.fetchBatch ?_ ?_
  · exact fun hf exc => dwp_logAndBackOff site _ _ _ _ _ (hF d (hfault hf))
  · refine Call.wp_mono hfetch (fun _ d' h => dwp_pure (hB _ d' h)) ?_ (fun _ hx => hx)
    exact fun _ d' h exc => dwp_logAndBackOff site _ _ _ _ _ (hF d' h)

/-- One pass of the copy loop. `B` describes what a fetch returns, `F` what a failed one leaves. -/
theorem dwp_copyPass {P : DataPost D (Pass CopyVars Bool)} (tp : MigrationTablePlan)
    (v : CopyVars) (B : List Row → D → Prop) (F : D → Prop)
    (hfetch : Call.wp (site.source.fetchBatch tp.tableName v.offset site.settings.batchSize
        (MigrationExecutor.selectedColumns tp.columnMappings))
      ⟨B, fun _ d' => F d', fun _ => P.exhausted⟩ d)
    (hF : site.sourceFaults.fetchBatch.MayRaise → F d)
    (hfail : ∀ d', F d' → (site.CallbacksRaise → P.raised d' n) ∧
      (v.retryCount < site.settings.maxRetries →
        P.returned (.again { v with retryCount := v.retryCount + 1 }) d' n) ∧
      (site.settings.maxRetries ≤ v.retryCount → P.returned (.done false) d' n))
    (hend : ∀ d', B [] d' → P.returned (.done true) d' n ∧ (site.CallbacksRaise → P.raised d' n))
    (hbatch : ∀ batch d', batch ≠ [] → B batch d' →
      (∀ exc, MigrationExecutor.transform tp.columnMappings batch = .error exc → P.raised d' n) ∧
      ∀ rows, MigrationExecutor.transform tp.columnMappings batch = .ok rows →
        dwp (site.executor.insertWithRetry tp.tableName rows)
          ⟨fun ok d'' n'' => match ok with
            | true => P.returned (.again {
                offset := v.offset + batch.length
                rowsForTable := v.rowsForTable + batch.length
                retryCount := 0 }) d'' (n'' + batch.length) ∧
              (site.CallbacksRaise → P.raised d'' (n'' + batch.length))
            | false => P.returned (.done false) d'' n'', P.raised, P.exhausted⟩ d' n) :
    dwp (site.executor.copyPass tp v) P d n := by
  apply dwp_bind
  refine dwp_fetchAttempt site tp v B F hfetch hF ?_ ?_
  · intro batch d' hd
    cases batch with
    | nil =>
      have he := hend d' hd
      apply dwp_bind
      exact dwp_log site _ _ _ (dwp_pure he.1) he.2
    | cons row rest =>
      have hb := hbatch (row :: rest) d' (by simp) hd
      apply dwp_bind
      refine dwp_ofExcept ?_ hb.1
      intro rows hrows
      apply dwp_bind
      refine dwp_mono (hb.2 rows hrows) ?_ (fun _ _ h => h)
      intro ok d'' n'' hok
      cases ok with
      | false => exact dwp_pure hok
      | true =>
        apply dwp_bind
        apply dwp_addRows
        apply dwp_bind
        exact dwp_reportProgress site _ _ (dwp_pure hok.1) hok.2
  · intro d' hd
    have hf := hfail d' hd
    refine ⟨?_, hf.1⟩
    dsimp only
    split
    · exact dwp_pure (hf.2.1 ‹_›)
    · exact dwp_pure (hf.2.2 (Nat.le_of_not_lt ‹_›))

/-- `CREATE TABLE`, if it is wanted: `C` holds once the table is ensured, `E` if it is not. -/
theorem dwp_ensureTable {P : DataPost D Bool} (tp : MigrationTablePlan) (C E : D → Prop)
    (hskip : site.settings.includeSchema = false → C d)
    (hcreate : site.settings.includeSchema = true →
      (site.destinationFaults.createTable.MayRaise → E d) ∧
      Call.wp (site.destination.createTable tp.sourceSchema)
        ⟨fun _ d' => C d', fun _ d' => E d', fun _ => False⟩ d)
    (hlog : ∀ d', C d' → site.CallbacksRaise → E d')
    (hC : ∀ d', C d' → P.returned true d' n)
    (hE : ∀ d', E d' → P.returned false d' n ∧ (site.CallbacksRaise → P.raised d' n)) :
    dwp (site.executor.ensureTable tp) P d n := by
  rw [MigrationExecutor.ensureTable]
  split
  · rename_i hs
    obtain ⟨hfault, hrun⟩ := hcreate hs
    apply dwp_tryExcept
    apply dwp_bind
    have hfailed : ∀ d', E d' → ∀ exc : Exc,
        dwp (do
          site.executor.log "ERROR"
            s!"Failed to create table '{tp.tableName}': {exc.text}" tp.tableName
          pure false) P d' n := by
      intro d' h exc
      apply dwp_bind
      exact dwp_log site _ _ _ (dwp_pure (hE d' h).1) (hE d' h).2
    refine dwp_await_faulty site.destinationFaults.createTable
      (fun hf => hfailed d (hfault hf)) ?_
    refine Call.wp_mono hrun ?_ (fun _ d' h => hfailed d' h) (fun _ hx => hx.elim)
    intro _ d' hd
    apply dwp_bind
    exact dwp_log site _ _ _ (dwp_pure (hC d' hd)) (fun hc => hfailed d' (hlog d' hd hc))
  · rename_i hs
    exact dwp_pure (hC d (hskip (by simpa [Site.executor] using hs)))

/-- `TRUNCATE`, if it is wanted; the code goes on when it raises. -/
theorem dwp_clearTable {P : DataPost D Unit} (tp : MigrationTablePlan) (K : D → Prop)
    (hkeep : site.settings.truncateDestination = false → K d)
    (hclear : site.settings.truncateDestination = true →
      (site.destinationFaults.truncateTable.MayRaise → K d) ∧
      Call.wp (site.destination.truncateTable tp.tableName)
        ⟨fun _ d' => K d', fun _ d' => K d', fun _ => False⟩ d)
    (hK : ∀ d', K d' → P.returned () d' n ∧ (site.CallbacksRaise → P.raised d' n)) :
    dwp (site.executor.clearTable tp) P d n := by
  rw [MigrationExecutor.clearTable]
  split
  · rename_i ht
    obtain ⟨hfault, hrun⟩ := hclear ht
    apply dwp_tryExcept
    apply dwp_bind
    have hwarn : ∀ d', K d' → ∀ exc : Exc, dwp (site.executor.log "WARNING"
        s!"Could not truncate '{tp.tableName}': {exc.text}" tp.tableName) P d' n :=
      fun d' h exc => dwp_log site _ _ _ (hK d' h).1 (hK d' h).2
    refine dwp_await_faulty site.destinationFaults.truncateTable
      (fun hf => hwarn d (hfault hf)) ?_
    refine Call.wp_mono hrun ?_ (fun _ d' h => hwarn d' h) (fun _ hx => hx.elim)
    exact fun _ d' h => dwp_log site _ _ _ (hK d' h).1 (fun _ => hwarn d' h)
  · rename_i ht
    exact dwp_pure (hK d (hkeep (by simpa [Site.executor] using ht))).1

/-- A whole table: `C` holds once the table is ensured, `E` if it could not be, `K` once it is
cleared. -/
theorem dwp_migrateTable {P : DataPost D Bool} (fuel : Nat) (tp : MigrationTablePlan)
    (C E K : D → Prop) (hstart : site.CallbacksRaise → P.raised d n)
    (hskip : site.settings.includeSchema = false → C d)
    (hcreate : site.settings.includeSchema = true →
      (site.destinationFaults.createTable.MayRaise → E d) ∧
      Call.wp (site.destination.createTable tp.sourceSchema)
        ⟨fun _ d' => C d', fun _ d' => E d', fun _ => False⟩ d)
    (hlog : ∀ d', C d' → site.CallbacksRaise → E d')
    (hE : ∀ d', E d' → P.returned false d' n ∧ (site.CallbacksRaise → P.raised d' n))
    (hkeep : ∀ d', C d' → site.settings.truncateDestination = false → K d')
    (hclear : ∀ d', C d' → site.settings.truncateDestination = true →
      (site.destinationFaults.truncateTable.MayRaise → K d') ∧
      Call.wp (site.destination.truncateTable tp.tableName)
        ⟨fun _ d'' => K d'', fun _ d'' => K d'', fun _ => False⟩ d')
    (hK : ∀ d', K d' → site.CallbacksRaise → P.raised d' n)
    (hschema : ∀ d', K d' → site.settings.includeData = false → P.returned true d' n)
    (hdata : ∀ d', K d' → site.settings.includeData = true →
      dwp (Call.loop (site.executor.copyPass tp) fuel {}) P d' n) :
    dwp (site.executor.migrateTable fuel tp) P d n := by
  have hensure : dwp (site.executor.ensureTable tp)
      ⟨fun ok d' n' => match ok with
        | true => C d' ∧ n' = n
        | false => P.returned false d' n', P.raised, P.exhausted⟩ d n :=
    dwp_ensureTable site tp C E hskip hcreate hlog (fun _ h => ⟨h, rfl⟩) hE
  have hcleared : ∀ d', C d' → dwp (site.executor.clearTable tp)
      ⟨fun _ d'' n'' => K d'' ∧ n'' = n, P.raised, P.exhausted⟩ d' n := fun d' hd =>
    dwp_clearTable site tp K (hkeep d' hd) (hclear d' hd) fun d'' hk => ⟨⟨hk, rfl⟩, hK d'' hk⟩
  apply dwp_bind
  refine dwp_log site _ _ _ ?_ hstart
  apply dwp_bind
  refine dwp_mono hensure ?_ (fun _ _ h => h)
  intro ok d' n' h
  cases ok with
  | false => exact dwp_pure h
  | true =>
    obtain ⟨hd, hn⟩ := h
    subst hn
    dsimp only
    rw [if_pos rfl]
    apply dwp_bind
    refine dwp_mono (hcleared d' hd) ?_ (fun _ _ h => h)
    intro _ d'' n'' h
    obtain ⟨hk, hn⟩ := h
    subst hn
    split
    · exact hdata d'' hk ‹_›
    · rename_i hi
      have hfalse : site.settings.includeData = false := by simpa [Site.executor] using hi
      apply dwp_bind
      exact dwp_log site _ _ _ (dwp_pure (hschema d'' hk hfalse)) (hK d'' hk)

/-- A table that is only copied: nothing is truncated, and ensuring it changes no data. -/
theorem dwp_migrateTable_copy {P : DataPost D Bool} (fuel : Nat) (tp : MigrationTablePlan)
    (hdata : site.settings.includeData = true)
    (htruncate : site.settings.truncateDestination = false)
    (hcreate : Call.wp (site.destination.createTable tp.sourceSchema)
      ⟨fun _ d' => d' = d, fun _ d' => d' = d, fun _ => False⟩ d)
    (hstart : P.returned false d n ∧ (site.CallbacksRaise → P.raised d n))
    (hloop : dwp (Call.loop (site.executor.copyPass tp) fuel {}) P d n) :
    dwp (site.executor.migrateTable fuel tp) P d n := by
  refine dwp_migrateTable site fuel tp (fun d' => d' = d) (fun d' => d' = d) (fun d' => d' = d)
    hstart.2 (fun _ => rfl) (fun _ => ⟨fun _ => rfl, hcreate⟩) (fun _ h _ => h) ?_
    (fun _ h _ => h) ?_ ?_ ?_ ?_
  · exact fun d' h => h ▸ hstart
  · intro d' _ ht
    exact absurd (htruncate.symm.trans ht) (by decide)
  · exact fun d' h => h ▸ hstart.2
  · intro d' _ hi
    exact absurd (hdata.symm.trans hi) (by decide)
  · exact fun d' h _ => h ▸ hloop

/-- A whole run: `I` relates the tables done so far to the lists of the result. -/
theorem dwp_run {P : DataPost D ExecResult} (fuel : Nat)
    (I : List MigrationTablePlan → ExecResult → D → Nat → Prop)
    (hskip : ∀ pre tp post results d n, site.plan.tables = pre ++ tp :: post →
      tp.status = .skipped → I pre results d n →
      I (pre ++ [tp]) { results with skippedTables := results.skippedTables ++ [tp.tableName] } d n ∧
        (site.CallbacksRaise → P.raised d n))
    (htable : ∀ pre tp post results d n, site.plan.tables = pre ++ tp :: post →
      tp.status ≠ .skipped → I pre results d n →
      dwp (site.executor.migrateTable fuel tp)
        ⟨fun ok d' n' => match site.executor.afterTable results tp ok with
          | .again results => I (pre ++ [tp]) results d' n'
          | .done results => P.returned { results with totalRowsMigrated := n' } d' n',
          P.raised, P.exhausted⟩ d n)
    (hend : ∀ results d n, I site.plan.tables results d n →
      P.returned { results with totalRowsMigrated := n } d n)
    (hi : I [] {} d n) : dwp (site.executor.run fuel) P d n := by
  apply dwp_bind
  have hpure : ∀ (results : ExecResult) (d : D) (n : Nat),
      P.returned { results with totalRowsMigrated := n } d n →
      dwp (do
        let total ← Call.read ExecState.totalRowsProcessed
        pure { results with totalRowsMigrated := total } :
          Call Exc (SiteState D X) ExecResult) P d n := by
    intro results d n h
    apply dwp_bind
    apply dwp_read_total
    exact dwp_pure h
  refine dwp_forEach I site.plan.tables ?_ (fun s d n h => hpure s d n (hend s d n h)) hi
  intro pre tp post results d n hall hI e
  apply MigrationExecutor.wp_runTable
  · intro hs
    obtain ⟨hnext, hraise⟩ := hskip pre tp post results d n hall hs hI
    have hlog : dwp (site.executor.log "WARNING"
        s!"Skipping table '{tp.tableName}' (incompatible schema)")
        ⟨fun _ d' n' => I (pre ++ [tp])
          { results with skippedTables := results.skippedTables ++ [tp.tableName] } d' n',
          P.raised, P.exhausted⟩ d n := dwp_log site _ _ _ hnext hraise
    exact hlog e
  · intro hs
    refine Call.wp_mono (htable pre tp post results d n hall hs hI e) ?_ (fun _ _ h => h)
      (fun _ h => h)
    intro ok s' h
    change (match site.executor.afterTable results tp ok with
      | .again results => I (pre ++ [tp]) results s'.world.data s'.totalRowsProcessed
      | .done results => P.returned { results with totalRowsMigrated := s'.totalRowsProcessed }
          s'.world.data s'.totalRowsProcessed) at h
    dsimp only [DataPost.post]
    cases hafter : site.executor.afterTable results tp ok with
    | again results' =>
      rw [hafter] at h
      exact h
    | done results' =>
      rw [hafter] at h
      exact hpure results' s'.world.data s'.totalRowsProcessed h

end rules

end DataBridge

import DataBridge.Migration.Frame
import Mathlib.Algebra.BigOperators.Group.List.Basic
import Mathlib.Data.List.Forall2

namespace DataBridge

/-- What `on_log` is given. -/
structure LogLine where
  level : String
  message : String
  table : Option String
  deriving DecidableEq

namespace MigrationExecutor

variable {W α : Type}

/-- The log is kept: what is logged stays logged, whatever is called, and `on_log` has logged its
line where it returns. -/
structure Logs (Logged : LogLine → W → Prop) (x : MigrationExecutor W) : Prop where
  keeps : ∀ P : LogLine → Prop, x.Keeps fun w => ∀ line, P line → Logged line w
  onLog : ∃ f, x.onLog = some f ∧ ∀ level message table w,
    Call.wp (f level message table) (Post.onReturn fun _ => Logged ⟨level, message, table⟩) w

variable (x : MigrationExecutor W)

def completedLine (t : String) (n : Nat) : LogLine :=
  ⟨"INFO", s!"Completed '{t}': {n} rows migrated", t⟩

def noDataLine (t : String) : LogLine :=
  ⟨"INFO", s!"Skipping data copy for '{t}' (include_data=false)", t⟩

def skippedLine (t : String) : LogLine :=
  ⟨"WARNING", s!"Skipping table '{t}' (incompatible schema)", none⟩

/-- The log says that the table is complete, with so many rows. -/
def ClosedWith (Logged : LogLine → W → Prop) (w : W) (t : String) (n : Nat) : Prop :=
  Logged (completedLine t n) w ∨ n = 0 ∧ Logged (noDataLine t) w

/-- The log has an error of the table. -/
def Blamed (Logged : LogLine → W → Prop) (w : W) (t : String) : Prop :=
  ∃ message, Logged ⟨"ERROR", message, t⟩ w

variable {x} {Logged : LogLine → W → Prop} {t : String} {n total : Nat} {s : ExecState W}

/-- The line is logged, and the counter stands at `total`. -/
def Written (Logged : LogLine → W → Prop) (line : LogLine) (total : Nat) (s : ExecState W) : Prop :=
  Logged line s.world ∧ s.totalRowsProcessed = total

abbrev TotalIs (total : Nat) (s : ExecState W) : Prop := s.totalRowsProcessed = total

theorem keeps_total_await (c : Call Exc W α) : Call.Keeps (TotalIs total) (ExecState.await c) := by
  intro s hs
  rw [ExecState.await, Call.wp_zoom]
  exact Call.wp_of_forall (fun _ _ => hs) (fun _ _ => hs) (fun _ => hs)

theorem keeps_total_log (level message : String) (table : Option String) :
    Call.Keeps (TotalIs total) (x.log level message table) := by
  rw [log]
  cases x.onLog with
  | none => exact Call.keeps_pure ()
  | some f => exact keeps_total_await _

theorem keeps_total_reportProgress (t : String) (rows : Nat) :
    Call.Keeps (TotalIs total) (x.reportProgress t rows) := by
  rw [reportProgress]
  cases x.onProgress with
  | none => exact Call.keeps_pure ()
  | some f => exact (Call.keeps_read _).bind fun _ => keeps_total_await _

section logs

variable (h : x.Logs Logged)
include h

theorem Logs.wp_log (level message : String) (table : Option String) (hs : TotalIs total s) :
    Call.wp (x.log level message table)
      (Post.onReturn fun _ => Written Logged ⟨level, message, table⟩ total) s := by
  obtain ⟨f, hf, hlog⟩ := h.onLog
  rw [log, hf]
  dsimp only
  rw [ExecState.await, Call.wp_zoom]
  exact Call.wp_mono (hlog level message table s.world) (fun _ _ hw => ⟨hw, hs⟩)
    (fun _ _ _ => trivial) (fun _ _ => trivial)

/-- What was logged outlives a wait. -/
theorem Logs.keeps_sleep (line : LogLine) (seconds : Nat) :
    Call.Keeps (Written Logged line total) (ExecState.await (x.sleep seconds)) := by
  have hkeeps := (h.keeps (· = line)).maintains.sleep seconds
  intro s hs
  have hline : ∀ l, l = line → Logged l s.world := by
    intro l hl
    rw [hl]
    exact hs.1
  have hboth := Call.wp_and (hkeeps s hline) (keeps_total_await (x.sleep seconds) s hs.2)
  exact Call.wp_mono hboth (fun _ _ h' => ⟨h'.1 line rfl, h'.2⟩) (fun _ _ h' => ⟨h'.1 line rfl, h'.2⟩)
    (fun _ h' => ⟨h'.1 line rfl, h'.2⟩)

theorem Logs.wp_ensureTable (tp : MigrationTablePlan) (hs : TotalIs total s) :
    Call.wp (x.ensureTable tp) (Post.onReturn fun ok s' => TotalIs total s' ∧
      (ok = false → Blamed Logged s'.world tp.tableName)) s := by
  have hblame : ∀ (exc : String) s', TotalIs total s' → Call.wp (do
      x.log "ERROR" s!"Failed to create table '{tp.tableName}': {exc}" tp.tableName
      pure false : Call Exc (ExecState W) Bool)
      (Post.onReturn fun ok s' => TotalIs total s' ∧
        (ok = false → Blamed Logged s'.world tp.tableName)) s' := by
    intro exc s' hs'
    refine Call.wp_seq (Call.wp_onReturn (h.wp_log _ _ _ hs')) fun _ s₁ hline => ?_
    exact ⟨hline.2, fun _ => ⟨_, hline.1⟩⟩
  rw [ensureTable]
  split
  · rw [Call.wp_tryExcept, Call.wp_bind]
    have hcreate := keeps_total_await (x.destination.createTable tp.sourceSchema) s hs
    refine Call.wp_mono hcreate ?_ (fun exc s' hs' => hblame exc.text s' hs') (fun _ _ => trivial)
    intro _ s₁ h₁
    have hlog := keeps_total_log (x := x) "INFO"
      s!"Table '{tp.tableName}' ensured in destination" tp.tableName s₁ h₁
    dsimp only
    rw [Call.wp_bind]
    refine Call.wp_mono hlog ?_ (fun exc s' hs' => hblame exc.text s' hs') (fun _ _ => trivial)
    intro _ s₂ h₂
    exact ⟨h₂, fun hfalse => absurd hfalse (by decide)⟩
  · exact ⟨hs, fun hfalse => absurd hfalse (by decide)⟩

theorem Logs.wp_fetchAttempt (tp : MigrationTablePlan) (v : CopyVars) (hs : TotalIs total s) :
    Call.wp (x.fetchAttempt tp v) (Post.onReturn fun found s' => TotalIs total s' ∧
      (found = none → Blamed Logged s'.world tp.tableName)) s := by
  rw [fetchAttempt, Call.wp_tryExcept, Call.wp_bind]
  have hfetch := keeps_total_await (x.source.fetchBatch tp.tableName v.offset x.batchSize
    (selectedColumns tp.columnMappings)) s hs
  refine Call.wp_mono hfetch ?_ ?_ (fun _ _ => trivial)
  · exact fun batch s' hs' => ⟨hs', fun hnone => absurd hnone (by simp)⟩
  · intro exc s₁ h₁
    refine Call.wp_seq (Call.wp_onReturn (h.wp_log _ _ _ h₁)) fun _ s₂ h₂ => ?_
    have hwait := keeps_backOff (h.keeps_sleep _) (v.retryCount < x.maxRetries)
      (2 ^ (v.retryCount + 1)) s₂ h₂
    refine Call.wp_seq (Call.wp_onReturn hwait) fun _ s₃ h₃ => ?_
    exact ⟨h₃.2, fun _ => ⟨_, h₃.1⟩⟩

theorem Logs.wp_insertAttempt (t : String) (rows : List Row) (i : Nat) (hs : TotalIs total s) :
    Call.wp (x.insertAttempt t rows i)
      (Post.onReturn fun r s' => TotalIs total s' ∧ r ≠ some false) s := by
  rw [insertAttempt, Call.wp_tryExcept, Call.wp_bind]
  have hinsert := keeps_total_await (x.destination.insertBatch t rows none) s hs
  refine Call.wp_mono hinsert (fun _ _ hs' => ⟨hs', by simp⟩) ?_ (fun _ _ => trivial)
  intro exc s₁ h₁
  refine Call.wp_seq (Call.wp_onReturn (h.wp_log _ _ _ h₁)) fun _ s₂ h₂ => ?_
  have hwait := keeps_backOff (h.keeps_sleep _) (i < x.maxRetries) (2 ^ i) s₂ h₂
  refine Call.wp_seq (Call.wp_onReturn hwait) fun _ s₃ h₃ => ?_
  exact ⟨h₃.2, by simp⟩

/-- An insert is given up with an error in the log. -/
theorem Logs.wp_insertWithRetry (t : String) (rows : List Row) (hs : TotalIs total s) :
    Call.wp (x.insertWithRetry t rows) (Post.onReturn fun ok s' => TotalIs total s' ∧
      (ok = false → Blamed Logged s'.world t)) s := by
  have hattempts : Call.wp (Call.forRange (x.insertAttempt t rows) (x.maxRetries + 1) 0)
      (Post.onReturn fun r s' => TotalIs total s' ∧ r ≠ some false) s := by
    have hend : ∀ s' : ExecState W, TotalIs total s' → TotalIs total s' ∧ (none : Option Bool) ≠ some false :=
      fun s' hs' => ⟨hs', by simp⟩
    refine Call.wp_forRange (fun _ => TotalIs total) (x.maxRetries + 1) ?_ hend _ 0 s (by omega) hs
    intro i s' _ hs'
    refine Call.wp_mono (h.wp_insertAttempt t rows i hs') ?_ (fun _ _ _ => trivial)
      (fun _ _ => trivial)
    intro r s'' hr
    cases r with
    | none => exact hr.1
    | some ok => exact hr
  refine Call.wp_seq hattempts ?_
  intro r s₁ hr
  cases r with
  | none =>
    refine Call.wp_seq (Call.wp_onReturn (h.wp_log _ _ _ hr.1)) fun _ s₂ h₂ => ?_
    exact ⟨h₂.2, fun _ => ⟨_, h₂.1⟩⟩
  | some ok =>
    cases ok with
    | true => exact ⟨hr.1, fun hfalse => absurd hfalse (by decide)⟩
    | false => exact absurd rfl hr.2

/-- How the copy of a table ends: the log says so, and the counter counts what it says. -/
def CopyEnds (Logged : LogLine → W → Prop) (t : String) (start : Nat) (ok : Bool)
    (s : ExecState W) : Prop :=
  if ok then ∃ n, ClosedWith Logged s.world t n ∧ s.totalRowsProcessed = start + n
  else Blamed Logged s.world t ∧ start ≤ s.totalRowsProcessed

theorem Logs.wp_copyPass (tp : MigrationTablePlan) (v : CopyVars) {start : Nat}
    (hs : TotalIs (start + v.rowsForTable) s) :
    Call.wp (x.copyPass tp v) (Post.onReturn fun p s' => match p with
      | .again v' => TotalIs (start + v'.rowsForTable) s'
      | .done ok => CopyEnds Logged tp.tableName start ok s') s := by
  rw [copyPass]
  refine Call.wp_seq (h.wp_fetchAttempt tp v hs) ?_
  intro found s₁ h₁
  obtain ⟨htotal, hblamed⟩ := h₁
  cases found with
  | none =>
    dsimp only
    split
    · exact htotal
    · refine ⟨hblamed rfl, ?_⟩
      rw [htotal]
      omega
  | some batch =>
    cases batch with
    | nil =>
      refine Call.wp_seq (Call.wp_onReturn (h.wp_log _ _ _ htotal)) fun _ s₂ h₂ => ?_
      exact ⟨v.rowsForTable, Or.inl h₂.1, h₂.2⟩
    | cons row rest =>
      refine Call.wp_bind_ofExcept (fun rows _ => ?_) (fun _ _ => trivial)
      refine Call.wp_seq (h.wp_insertWithRetry tp.tableName rows htotal) ?_
      intro ok s₂ h₂
      obtain ⟨htotal', hblamed'⟩ := h₂
      cases ok with
      | false =>
        refine ⟨hblamed' rfl, ?_⟩
        rw [htotal']
        omega
      | true =>
        have hadded : TotalIs (start + (v.rowsForTable + (row :: rest).length))
            (ExecState.addRows (row :: rest).length s₂) := by
          change s₂.totalRowsProcessed + (row :: rest).length = _
          rw [htotal']
          omega
        have hreport := keeps_total_reportProgress (x := x) tp.tableName
          (v.rowsForTable + (row :: rest).length) _ hadded
        have hadd : Call.wp
            (Call.modify (ExecState.addRows (row :: rest).length) : Call Exc (ExecState W) Unit)
            (Post.onReturn fun _ s' => s' = ExecState.addRows (row :: rest).length s₂) s₂ := rfl
        refine Call.wp_seq hadd fun _ s₃ h₃ => ?_
        subst h₃
        exact Call.wp_seq (Call.wp_onReturn hreport) fun _ s₄ h₄ => h₄

theorem Logs.wp_migrateTable (fuel : Nat) (tp : MigrationTablePlan) (s : ExecState W) :
    Call.wp (x.migrateTable fuel tp) (Post.onReturn fun ok s' =>
      CopyEnds Logged tp.tableName s.totalRowsProcessed ok s') s := by
  rw [migrateTable]
  have hcount : TotalIs s.totalRowsProcessed s := rfl
  refine Call.wp_seq (Call.wp_onReturn (h.wp_log _ _ _ hcount)) ?_
  intro _ s₁ h₁
  refine Call.wp_seq (h.wp_ensureTable tp h₁.2) ?_
  intro created s₂ h₂
  cases created with
  | false => exact ⟨h₂.2 rfl, h₂.1.ge⟩
  | true =>
    have hkeeps : Call.Keeps (TotalIs s.totalRowsProcessed) (x.clearTable tp) :=
      keeps_clearTable (fun level message t => keeps_total_log level message t)
        (fun t => keeps_total_await (x.destination.truncateTable t))
    have hclear := hkeeps s₂ h₂.1
    refine Call.wp_seq (Call.wp_onReturn hclear) ?_
    intro _ s₃ h₃
    by_cases hdata : x.includeData = true
    · rw [if_pos hdata]
      refine Call.wp_loop_weak
        (fun (v : CopyVars) s' => TotalIs (s.totalRowsProcessed + v.rowsForTable) s') ?_
        (fun _ _ _ => trivial) fuel ({} : CopyVars) s₃ h₃
      intro v s₄ h₄
      refine Call.wp_mono (h.wp_copyPass tp v h₄) ?_ (fun _ _ _ => trivial) (fun _ _ => trivial)
      intro p s₅ h₅
      cases p with
      | again v' => exact h₅
      | done ok => exact h₅
    · rw [if_neg hdata]
      refine Call.wp_seq (Call.wp_onReturn (h.wp_log _ _ _ h₃)) fun _ s₄ h₄ => ?_
      exact ⟨0, Or.inr ⟨rfl, h₄.1⟩, h₄.2⟩

end logs

/-- The log accounts for a result: it closes every completed table with its rows, which the counter
counts, it names every skipped table, and it has an error of every failed one. -/
structure Accounts (Logged : LogLine → W → Prop) (results : ExecResult) (total : Nat) (w : W) :
    Prop where
  completed : ∃ counts, List.Forall₂ (ClosedWith Logged w) results.completedTables counts ∧
    counts.sum ≤ total ∧ (results.failedTables = [] → counts.sum = total)
  skipped : ∀ t ∈ results.skippedTables, Logged (skippedLine t) w
  failed : ∀ t ∈ results.failedTables, Blamed Logged w t

section accounts

variable {results : ExecResult} {w w' : W}

theorem ClosedWith.mono (hkept : ∀ line, Logged line w → Logged line w')
    (h : ClosedWith Logged w t n) : ClosedWith Logged w' t n := by
  rcases h with hline | ⟨hzero, hline⟩
  · exact Or.inl (hkept _ hline)
  · exact Or.inr ⟨hzero, hkept _ hline⟩

theorem Blamed.mono (hkept : ∀ line, Logged line w → Logged line w')
    (h : Blamed Logged w t) : Blamed Logged w' t := by
  obtain ⟨message, hline⟩ := h
  exact ⟨message, hkept _ hline⟩

theorem Accounts.mono (hkept : ∀ line, Logged line w → Logged line w')
    (h : Accounts Logged results total w) : Accounts Logged results total w' := by
  obtain ⟨counts, hclosed, hle, hall⟩ := h.completed
  have hclosed' : List.Forall₂ (ClosedWith Logged w') results.completedTables counts :=
    hclosed.imp fun _ _ hc => hc.mono hkept
  exact ⟨⟨counts, hclosed', hle, hall⟩, fun t ht => hkept _ (h.skipped t ht),
    fun t ht => (h.failed t ht).mono hkept⟩

theorem Accounts.skip (h : Accounts Logged results total w) (hline : Logged (skippedLine t) w) :
    Accounts Logged { results with skippedTables := results.skippedTables ++ [t] } total w := by
  refine ⟨h.completed, ?_, h.failed⟩
  intro u hu
  rcases List.mem_append.mp hu with hold | hnew
  · exact h.skipped u hold
  · rw [List.mem_singleton.mp hnew]
    exact hline

theorem Accounts.complete (h : Accounts Logged results total w) (hline : ClosedWith Logged w t n) :
    Accounts Logged { results with completedTables := results.completedTables ++ [t] }
      (total + n) w := by
  obtain ⟨counts, hclosed, hle, hall⟩ := h.completed
  refine ⟨⟨counts ++ [n], List.rel_append hclosed (.cons hline .nil), ?_, ?_⟩, h.skipped, h.failed⟩
  · rw [List.sum_append, List.sum_singleton]
    omega
  · intro hnone
    rw [List.sum_append, List.sum_singleton, hall hnone]

theorem Accounts.fail (h : Accounts Logged results total w) (hblamed : Blamed Logged w t)
    {total' : Nat} (hle : total ≤ total') :
    Accounts Logged { results with failedTables := results.failedTables ++ [t] } total' w := by
  obtain ⟨counts, hclosed, hsum, -⟩ := h.completed
  refine ⟨⟨counts, hclosed, by omega, fun hnone => absurd hnone (by simp)⟩, h.skipped, ?_⟩
  intro u hu
  rcases List.mem_append.mp hu with hold | hnew
  · exact h.failed u hold
  · rw [List.mem_singleton.mp hnew]
    exact hblamed

end accounts

/-- Whatever the databases do, the log of a run that returns accounts for its result. -/
theorem Logs.wp_run (h : x.Logs Logged) (fuel : Nat) {s : ExecState W}
    (hs : s.totalRowsProcessed = 0) :
    Call.wp (x.run fuel) (Post.onReturn fun results s' =>
      Accounts Logged results results.totalRowsMigrated s'.world) s := by
  have hkept : ∀ {β : Type} {c : Call Exc (ExecState W) β} (s : ExecState W),
      (∀ I : W → Prop, x.Keeps I → Call.Keeps (fun s : ExecState W => I s.world) c) →
      Call.wp c (Post.onReturn fun _ s' =>
        ∀ line, Logged line s.world → Logged line s'.world) s := by
    intro β c s hc
    exact Call.wp_onReturn (hc _ (h.keeps (Logged · s.world)) s fun _ hline => hline)
  have hloop : Call.wp (Call.forEach (x.runTable fuel) x.plan.tables {})
      (Post.onReturn fun results s' =>
        Accounts Logged results s'.totalRowsProcessed s'.world) s := by
    refine Call.wp_forEach (fun _ results s' =>
      Accounts Logged results s'.totalRowsProcessed s'.world) x.plan.tables ?_ (fun _ _ h' => h')
      [] _ {} s rfl ?_
    · intro done tp later results s₁ _ haccounts
      apply wp_runTable
      · intro _
        have hcount : TotalIs s₁.totalRowsProcessed s₁ := rfl
        have hlog := Call.wp_and (h.wp_log "WARNING"
          s!"Skipping table '{tp.tableName}' (incompatible schema)" none hcount)
          (hkept s₁ fun I hx => hx.maintains.log "WARNING"
            s!"Skipping table '{tp.tableName}' (incompatible schema)" none)
        refine Call.wp_mono hlog ?_ (fun _ _ _ => trivial) (fun _ _ => trivial)
        intro _ s₂ h₂
        obtain ⟨⟨hline, htotal⟩, hold⟩ := h₂
        have hnext := (haccounts.mono hold).skip hline
        rw [← htotal] at hnext
        exact hnext
      · intro _
        have htable := Call.wp_and (h.wp_migrateTable fuel tp s₁)
          (hkept s₁ fun I hx => hx.maintains.migrateTable fuel tp)
        refine Call.wp_mono htable ?_ (fun _ _ _ => trivial) (fun _ _ => trivial)
        intro ok s₂ h₂
        obtain ⟨hends, hold⟩ := h₂
        have hmoved := haccounts.mono hold
        cases ok with
        | true =>
          obtain ⟨n, hclosed, htotal⟩ := hends
          have hnext := hmoved.complete hclosed
          rw [← htotal] at hnext
          exact hnext
        | false =>
          obtain ⟨hblamed, htotal⟩ := hends
          have hnext := hmoved.fail hblamed htotal
          dsimp only [afterTable]
          cases x.continueOnError with
          | true => exact hnext
          | false => exact hnext
    · rw [hs]
      exact ⟨⟨[], .nil, le_refl _, fun _ => rfl⟩, fun _ ht => absurd ht List.not_mem_nil,
        fun _ ht => absurd ht List.not_mem_nil⟩
  rw [run]
  refine Call.wp_seq hloop ?_
  intro results s' haccounts
  exact ⟨haccounts.completed, haccounts.skipped, haccounts.failed⟩

end MigrationExecutor

end DataBridge

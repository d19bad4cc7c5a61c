import DataBridge.Framework.Retry
import DataBridge.Migration.IsolatedTables

namespace DataBridge

variable {W : Type}

abbrev CallLog := Retry.Log ProviderCall Exc

/-- The recorded calls of a state. -/
abbrev logOf (s : ExecState (Traced W)) : CallLog := s.world.calls

namespace MigrationExecutor

open Call (Ends Returns)
open ExecState (await)
open Retry

/-- The fetch of the batch at `offset`, as the copy loop calls it. -/
def fetchCall (x : MigrationExecutor W) (tp : MigrationTablePlan) (offset : Nat) : ProviderCall :=
  .fetchBatch tp.tableName offset x.batchSize (selectedColumns tp.columnMappings)

/-- The insert of the transformed batch at `offset`. -/
def insertCall (x : MigrationExecutor W) (tp : MigrationTablePlan) (target : List Row)
    (offset : Nat) : ProviderCall :=
  .insertBatch tp.tableName (window target offset x.batchSize)

/-- The offset after a batch at `offset` of a table of `n` rows. -/
def nextOffset (x : MigrationExecutor W) (n offset : Nat) : Nat :=
  offset + min x.batchSize (n - offset)

section calls

variable {α : Type} {P : α → Prop} {L : CallLog}

/-- A call that is not recorded returns in the recording world if it does without. -/
theorem wp_traced_inside {c : Call Exc W α} (h : Returns P (await c)) {s : ExecState (Traced W)}
    (hs : logOf s = L) : Call.wp (await (Traced.inside c))
      ⟨fun a s' => P a ∧ logOf s' = L, fun _ _ => False, fun _ => False⟩ s := by
  have hplain := h ⟨s.world.inner, s.totalRowsProcessed⟩
  rw [await, Call.wp_zoom] at hplain
  rw [await, Call.wp_zoom, Traced.inside, Call.wp_zoom]
  exact Call.wp_mono hplain (fun _ _ hp => ⟨hp, hs⟩) (fun _ _ hf => hf) (fun _ hf => hf)

/-- A recorded call adds itself and its ending to the log. -/
theorem wp_traced_record {call : ProviderCall} {c : Call Exc W α} (h : Ends P (await c))
    {s : ExecState (Traced W)} (hs : logOf s = L) : Call.wp (await (Traced.record call c))
      ⟨fun a s' => P a ∧ logOf s' = L ++ [(call, .returned ())],
        fun e s' => logOf s' = L ++ [(call, .raised e)], fun _ => False⟩ s := by
  subst hs
  have hplain := h ⟨s.world.inner, s.totalRowsProcessed⟩
  rw [await, Call.wp_zoom] at hplain
  rw [await, Call.wp_zoom]
  rw [Call.wp] at hplain ⊢
  rw [Traced.record]
  rcases hc : c s.world.inner with ⟨a | e | _, w⟩
  · rw [hc] at hplain
    exact ⟨hplain, rfl⟩
  · rfl
  · rw [hc] at hplain
    exact hplain

end calls

section steady

variable {x : MigrationExecutor W} {rows target : List Row} {tp : MigrationTablePlan}
  (h : x.Steady rows tp) {L : CallLog} {s : ExecState (Traced W)}
include h

theorem Steady.wp_log (hs : logOf s = L) (level message : String) (table : Option String) :
    Call.wp (x.traced.log level message table)
      ⟨fun _ s' => logOf s' = L, fun _ _ => False, fun _ => False⟩ s := by
  have hlog := h.log level message table
  rw [MigrationExecutor.log] at hlog ⊢
  cases honLog : x.onLog with
  | none =>
    rw [traced, honLog]
    exact hs
  | some f =>
    rw [honLog] at hlog
    rw [traced, honLog]
    exact Call.wp_mono (wp_traced_inside hlog hs) (fun _ _ hr => hr.2) (fun _ _ hf => hf)
      (fun _ hf => hf)

/-- What follows a log entry. -/
theorem Steady.wp_log_seq {α : Type} {f : Unit → Call Exc (ExecState (Traced W)) α}
    {Q : Post Exc (ExecState (Traced W)) α} (hs : logOf s = L) (level message : String)
    (table : Option String) (hf : ∀ s', logOf s' = L → Call.wp (f ()) Q s') :
    Call.wp (x.traced.log level message table >>= f) Q s := by
  rw [Call.wp_bind]
  exact Call.wp_mono (h.wp_log hs level message table) (fun _ s' h' => hf s' h')
    (fun _ _ hf => hf.elim) (fun _ hf => hf.elim)

theorem Steady.wp_backOff (hs : logOf s = L) (again : Bool) (seconds : Nat) :
    Call.wp (x.traced.backOff again seconds)
      ⟨fun _ s' => logOf s' = L, fun _ _ => False, fun _ => False⟩ s := by
  cases again with
  | false => exact hs
  | true =>
    exact Call.wp_mono (wp_traced_inside (h.sleep seconds) hs) (fun _ _ hr => hr.2)
      (fun _ _ hf => hf) (fun _ hf => hf)

theorem Steady.wp_reportProgress (hs : logOf s = L) (n : Nat) :
    Call.wp (x.traced.reportProgress tp.tableName n)
      ⟨fun _ s' => logOf s' = L, fun _ _ => False, fun _ => False⟩ s := by
  have hreport := h.reportProgress n
  rw [MigrationExecutor.reportProgress] at hreport ⊢
  cases hprogress : x.onProgress with
  | none =>
    rw [traced, hprogress]
    exact hs
  | some f =>
    rw [hprogress] at hreport
    rw [traced, hprogress]
    have hcall := hreport ⟨s.world.inner, s.totalRowsProcessed⟩
    change Call.wp (await (f tp.tableName n s.totalRowsProcessed none)) _ _ at hcall
    rw [await, Call.wp_zoom] at hcall
    change Call.wp (await (Traced.inside (f tp.tableName n s.totalRowsProcessed none))) _
      (⟨{ s.world with totals := s.world.totals ++ [s.totalRowsProcessed] },
        s.totalRowsProcessed⟩ : ExecState (Traced W))
    rw [await, Call.wp_zoom, Traced.inside, Call.wp_zoom]
    exact Call.wp_mono hcall (fun _ _ _ => hs) (fun _ _ hf => hf) (fun _ hf => hf)

/-- The log entry and the wait after a failed call. -/
theorem Steady.wp_logAndBackOff {α : Type} {Q : Option α → ExecState (Traced W) → Prop}
    (hs : logOf s = L) (hQ : ∀ s', logOf s' = L → Q none s') (level message : String)
    (table : Option String) (again : Bool) (seconds : Nat) :
    Call.wp (do
      x.traced.log level message table
      x.traced.backOff again seconds
      pure none) ⟨Q, fun _ _ => False, fun _ => False⟩ s := by
  refine h.wp_log_seq hs _ _ _ fun s₁ h₁ => ?_
  refine Call.wp_seq (h.wp_backOff h₁ _ _) fun _ s₂ h₂ => ?_
  exact hQ s₂ h₂

/-- The insert of one batch: tried until it is accepted, or given up. -/
theorem Steady.wp_insertWithRetry (hs : logOf s = L) (batch : List Row) :
    Call.wp (x.traced.insertWithRetry tp.tableName batch)
      ⟨fun ok s' => ∃ tries, logOf s' = L ++ tries ∧
        (ok = true → Tried x.maxRetries (.insertBatch tp.tableName batch) tries) ∧
        (ok = false → GaveUp x.maxRetries (.insertBatch tp.tableName batch) tries),
        fun _ _ => False, fun _ => False⟩ s := by
  have hattempts : Call.wp (Call.forRange (x.traced.insertAttempt tp.tableName batch)
      (x.maxRetries + 1) 0)
      ⟨fun r s' => ∃ tries, logOf s' = L ++ tries ∧
          (r = some true ∧ Tried x.maxRetries (.insertBatch tp.tableName batch) tries ∨
            r = none ∧ GaveUp x.maxRetries (.insertBatch tp.tableName batch) tries),
        fun _ _ => False, fun _ => False⟩ s := by
    refine Call.wp_forRange (fun i s' => ∃ failures, logOf s' = L ++ failures ∧
      Failed (.insertBatch tp.tableName batch) failures ∧ failures.length = i)
      (x.maxRetries + 1) ?_ ?_ _ 0 s (by omega) ⟨[], by rw [hs, List.append_nil], failed_nil, rfl⟩
    · intro i s' hi hfailures
      obtain ⟨failures, hlog, hfailed, hlength⟩ := hfailures
      rw [insertAttempt, Call.wp_tryExcept, Call.wp_bind]
      refine Call.wp_mono (wp_traced_record (h.insertBatch batch) hlog) ?_ ?_ (fun _ hf => hf)
      · intro _ s₁ h₁
        refine ⟨failures ++ [(.insertBatch tp.tableName batch, .returned ())], ?_,
          Or.inl ⟨rfl, failures, hfailed, by omega, rfl⟩⟩
        rw [h₁.2, List.append_assoc]
      · intro e s₁ h₁
        refine h.wp_logAndBackOff h₁ ?_ _ _ _ _ _
        intro s₂ h₂
        refine ⟨failures ++ [(.insertBatch tp.tableName batch, .raised e)], ?_, hfailed.snoc e, ?_⟩
        · rw [h₂, List.append_assoc]
        · rw [List.length_append, hlength, List.length_singleton]
    · intro s' hfailures
      obtain ⟨failures, hlog, hfailed, hlength⟩ := hfailures
      exact ⟨failures, hlog, Or.inr ⟨rfl, hfailed, hlength⟩⟩
  refine Call.wp_seq hattempts fun r s' hr => ?_
  obtain ⟨tries, hlog, htried | hgave⟩ := hr
  · obtain ⟨rfl, htried⟩ := htried
    exact ⟨tries, hlog, fun _ => htried, fun hfalse => (by cases hfalse)⟩
  · obtain ⟨rfl, hgave⟩ := hgave
    refine h.wp_log_seq rfl _ _ _ fun s₁ h₁ => ?_
    exact ⟨tries, h₁.trans hlog, fun htrue => (by cases htrue), fun _ => hgave⟩

/-- The fetch of a pass returns the page at its offset, or raises. -/
theorem Steady.wp_fetchAttempt (hs : logOf s = L) (v : CopyVars) :
    Call.wp (x.traced.fetchAttempt tp v)
      ⟨fun r s' => match r with
        | some batch => batch = selectRows rows
            ⟨selectedColumns tp.columnMappings, tp.tableName, x.batchSize, v.offset⟩ ∧
            logOf s' = L ++ [(x.fetchCall tp v.offset, .returned ())]
        | none => ∃ e, logOf s' = L ++ [(x.fetchCall tp v.offset, .raised e)],
        fun _ _ => False, fun _ => False⟩ s := by
  rw [MigrationExecutor.fetchAttempt, Call.wp_tryExcept, Call.wp_bind]
  refine Call.wp_mono (wp_traced_record (h.fetchBatch v.offset) hs) (fun _ _ hr => hr) ?_
    (fun _ hf => hf)
  intro e s₁ h₁
  exact h.wp_logAndBackOff h₁ (fun s₂ h₂ => ⟨e, h₂⟩) _ _ _ _ _

end steady

end MigrationExecutor

end DataBridge

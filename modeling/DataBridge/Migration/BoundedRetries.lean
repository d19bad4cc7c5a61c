import DataBridge.Migration.CallLog

namespace DataBridge

variable {W : Type}

/-- A `fetch_batch` at this offset. -/
def ProviderCall.fetchesAt (offset : Nat) : ProviderCall → Bool
  | .fetchBatch _ o _ _ => o = offset
  | _ => false

def ProviderCall.isFetch : ProviderCall → Bool
  | .fetchBatch _ _ _ _ => true
  | _ => false

def ProviderCall.isInsert : ProviderCall → Bool
  | .insertBatch _ _ => true
  | _ => false

theorem ProviderCall.isFetch_of_fetchesAt {call : ProviderCall} {offset : Nat}
    (h : call.fetchesAt offset = true) : call.isFetch = true := by
  cases call with
  | fetchBatch _ _ _ _ => rfl
  | _ => cases h

namespace MigrationExecutor

open Retry

/-- The rounds of the copy loop over a table that transforms to `target`. -/
abbrev CopyRounds (x : MigrationExecutor W) (tp : MigrationTablePlan) (target : List Row) :
    Nat → Nat → CallLog → Prop :=
  Rounds x.maxRetries target.length (x.fetchCall tp) (x.insertCall tp target)
    (x.nextOffset target.length)

/-- The calls of a copy loop that ended with this value. -/
inductive LoopCalls (x : MigrationExecutor W) (tp : MigrationTablePlan) (target : List Row) :
    Bool → CallLog → Prop where
  | completed {k : Nat} {log tries : CallLog}
      (h : x.CopyRounds tp target k target.length log)
      (htries : Tried x.maxRetries (x.fetchCall tp target.length) tries) :
      LoopCalls x tp target true (log ++ tries)
  | fetchFailed {k o : Nat} {log tries : CallLog} (h : x.CopyRounds tp target k o log)
      (ho : o ≤ target.length) (htries : GaveUp x.maxRetries (x.fetchCall tp o) tries) :
      LoopCalls x tp target false (log ++ tries)
  | insertFailed {k o : Nat} {log reads tries : CallLog} (h : x.CopyRounds tp target k o log)
      (ho : o < target.length) (hreads : Tried x.maxRetries (x.fetchCall tp o) reads)
      (htries : GaveUp x.maxRetries (x.insertCall tp target o) tries) :
      LoopCalls x tp target false (log ++ reads ++ tries)

/-- The calls before the copy: a table that was created, or is cleared or not. -/
def BeforeCopy (tp : MigrationTablePlan) (log : CallLog) : Prop :=
  ∀ c ∈ log, c = (.createTable tp.sourceSchema, .returned ()) ∨ c.1 = .truncateTable tp.tableName

/-- The calls of a `_migrate_table` that returned this value. -/
inductive TableCalls (x : MigrationExecutor W) (tp : MigrationTablePlan) (target : List Row) :
    Bool → CallLog → Prop where
  | refused (e : Exc) (hschema : x.includeSchema = true) :
      TableCalls x tp target false [(.createTable tp.sourceSchema, .raised e)]
  | schemaOnly {log : CallLog} (h : BeforeCopy tp log) : TableCalls x tp target true log
  | copied {ok : Bool} {before log : CallLog} (hbefore : BeforeCopy tp before)
      (h : LoopCalls x tp target ok log) : TableCalls x tp target ok (before ++ log)

section steady

variable {x : MigrationExecutor W} {rows target : List Row} {tp : MigrationTablePlan}

/-- Between two passes: the rounds so far, and the failures at the offset since. -/
structure CopyLogged (x : MigrationExecutor W) (tp : MigrationTablePlan) (target : List Row)
    (L : CallLog) (v : CopyVars) (s : ExecState (Traced W)) : Prop where
  logged : ∃ k log failures, logOf s = L ++ (log ++ failures) ∧ x.CopyRounds tp target k v.offset log ∧
    Failed (x.fetchCall tp v.offset) failures ∧ failures.length = v.retryCount
  offset : v.offset ≤ target.length
  retries : v.retryCount ≤ x.maxRetries

/-- A fetch that raises adds to the failures at this offset. -/
theorem CopyLogged.refused {L : CallLog} {v : CopyVars} {s s₁ : ExecState (Traced W)} {e : Exc}
    (hv : CopyLogged x tp target L v s)
    (h₁ : logOf s₁ = logOf s ++ [(x.fetchCall tp v.offset, .raised e)]) :
    ∃ k log failures, logOf s₁ = L ++ (log ++ failures) ∧
      x.CopyRounds tp target k v.offset log ∧ Failed (x.fetchCall tp v.offset) failures ∧
      failures.length = v.retryCount + 1 := by
  obtain ⟨k, log, failures, hlog, hrounds, hfailed, hlength⟩ := hv.logged
  refine ⟨k, log, _, ?_, hrounds, hfailed.snoc e, ?_⟩
  · rw [h₁, hlog]
    simp
  · rw [List.length_append, hlength, List.length_singleton]

/-- A fetch that returns ends them. -/
theorem CopyLogged.fetched {L : CallLog} {v : CopyVars} {s s₁ : ExecState (Traced W)}
    (hv : CopyLogged x tp target L v s)
    (h₁ : logOf s₁ = logOf s ++ [(x.fetchCall tp v.offset, .returned ())]) :
    ∃ k log reads, logOf s₁ = L ++ (log ++ reads) ∧ x.CopyRounds tp target k v.offset log ∧
      Tried x.maxRetries (x.fetchCall tp v.offset) reads := by
  obtain ⟨k, log, failures, hlog, hrounds, hfailed, hlength⟩ := hv.logged
  have hretries := hv.retries
  refine ⟨k, log, _, ?_, hrounds, failures, hfailed, by omega, rfl⟩
  rw [h₁, hlog]
  simp

variable (h : x.Steady rows tp)
include h

/-- One pass of the loop: a failed fetch is added, or a round, or the loop ends. -/
theorem Steady.wp_copyPass (htarget : transform tp.columnMappings rows = .ok target) {L : CallLog}
    {v : CopyVars} {s : ExecState (Traced W)} (hv : CopyLogged x tp target L v s) :
    Call.wp (x.traced.copyPass tp v)
      ⟨fun p s' => match p with
        | .again v' => CopyLogged x tp target L v' s' ∧
            v'.passesLeft target.length x.maxRetries < v.passesLeft target.length x.maxRetries
        | .done ok => ∃ log, logOf s' = L ++ log ∧ LoopCalls x tp target ok log,
        fun _ _ => False, fun _ => False⟩ s := by
  have hoffset := hv.offset
  refine Call.wp_seq (h.wp_fetchAttempt rfl v) fun r s₁ h₁ => ?_
  cases r with
  | none =>
    obtain ⟨e, h₁⟩ := h₁
    obtain ⟨k, log, failures, hlog, hrounds, hfailed, hlength⟩ := hv.refused h₁
    dsimp only
    split
    · rename_i hlt
      exact ⟨⟨⟨k, log, failures, hlog, hrounds, hfailed, hlength⟩, hoffset, hlt⟩,
        v.passesLeft_retry _ _ hlt⟩
    · rename_i hge
      have hlast : v.retryCount = x.maxRetries :=
        Nat.le_antisymm hv.retries (Nat.le_of_not_lt hge)
      rw [hlast] at hlength
      exact ⟨_, hlog, .fetchFailed hrounds hoffset ⟨hfailed, hlength⟩⟩
  | some batch =>
    obtain ⟨hbatch, h₁⟩ := h₁
    have hcount : batch.length = min x.batchSize (target.length - v.offset) := by
      have hrows := transform_length htarget
      rw [hbatch, hrows]
      simp [selectRows]
    obtain ⟨k, log, reads, hlog₁, hrounds, htried⟩ := hv.fetched h₁
    have hpos := h.batchSize
    cases batch with
    | nil =>
      have hend : v.offset = target.length := by
        rw [List.length_nil] at hcount
        omega
      refine h.wp_log_seq hlog₁ _ _ _ fun s₂ h₂ => ?_
      rw [hend] at hrounds htried
      exact ⟨_, h₂, .completed hrounds htried⟩
    | cons row rest =>
      have hlt : v.offset < target.length := by
        rw [List.length_cons] at hcount
        omega
      have hpage : transform tp.columnMappings (row :: rest) =
          .ok (window target v.offset x.batchSize) := by
        rw [hbatch]
        exact transform_selectRows htarget tp.tableName v.offset x.batchSize
      dsimp only
      rw [hpage]
      refine Call.wp_seq (R := fun rows' s' => rows' = window target v.offset x.batchSize ∧ s' = s₁)
        ⟨rfl, rfl⟩ fun rows' s' h' => ?_
      obtain ⟨hrows', hs'⟩ := h'
      subst hrows' hs'
      refine Call.wp_seq (h.wp_insertWithRetry hlog₁ _) fun ok s₂ h₂ => ?_
      obtain ⟨tries, hlog₂, hok, hno⟩ := h₂
      cases ok with
      | false =>
        refine ⟨_, ?_, .insertFailed hrounds hlt htried (hno rfl)⟩
        rw [hlog₂]
        simp
      | true =>
        have hnext : x.nextOffset target.length v.offset = v.offset + (row :: rest).length := by
          rw [nextOffset, hcount]
        have hround := hrounds.round hlt htried (hok rfl)
        rw [hnext] at hround
        refine Call.wp_seq (R := fun _ s' => logOf s' = logOf s₂) rfl fun _ s₃ h₃ => ?_
        refine Call.wp_seq (h.wp_reportProgress h₃ _) fun _ s₄ h₄ => ?_
        refine ⟨⟨⟨k + 1, _, [], ?_, hround, failed_nil, rfl⟩, ?_, Nat.zero_le _⟩, ?_⟩
        · rw [h₄, hlog₂]
          simp
        · have hwithin : (row :: rest).length ≤ target.length - v.offset := by omega
          exact Nat.add_le_of_le_sub' hoffset hwithin
        · exact v.passesLeft_advance _ _ _ _ hlt (by simp)

/-- The copy loop ends, with calls of one of the three kinds. -/
theorem Steady.wp_copyLoop (htarget : transform tp.columnMappings rows = .ok target) {L : CallLog}
    {s : ExecState (Traced W)} (hs : logOf s = L) {fuel : Nat}
    (hfuel : (rows.length + 1) * (x.maxRetries + 1) ≤ fuel) :
    Call.wp (Call.loop (x.traced.copyPass tp) fuel {})
      ⟨fun ok s' => ∃ log, logOf s' = L ++ log ∧ LoopCalls x tp target ok log,
        fun _ _ => False, fun _ => False⟩ s := by
  refine Call.wp_loop (fun v s => CopyLogged x tp target L v s)
    (fun v _ => v.passesLeft target.length x.maxRetries) ?_ fuel {} s ?_ ?_
  · intro v s' hv
    refine Call.wp_mono (h.wp_copyPass htarget hv) ?_ (fun _ _ hf => hf) (fun _ hf => hf)
    intro p s'' hp
    cases p with
    | again v' => exact hp
    | done ok => exact hp
  · refine ⟨⟨0, [], [], ?_, .start, failed_nil, rfl⟩, Nat.zero_le _, Nat.zero_le _⟩
    rw [hs]
    simp
  · rw [Nat.succ_mul] at hfuel
    rw [CopyVars.passesLeft, transform_length htarget, Nat.sub_zero, Nat.sub_zero]
    omega

/-- `CREATE TABLE`, if it is wanted, is the first call. -/
theorem Steady.wp_ensureTable {s : ExecState (Traced W)} (hs : logOf s = []) :
    Call.wp (x.traced.ensureTable tp)
      ⟨fun created s' => if created then BeforeCopy tp (logOf s') else
        ∃ e, x.includeSchema = true ∧ logOf s' = [(.createTable tp.sourceSchema, .raised e)],
        fun _ _ => False, fun _ => False⟩ s := by
  have hnone : BeforeCopy tp [] := fun _ hc => (by cases hc)
  rw [MigrationExecutor.ensureTable]
  split
  · rename_i hschema
    rw [Call.wp_tryExcept, Call.wp_bind]
    refine Call.wp_mono (wp_traced_record h.createTable hs) ?_ ?_ (fun _ hf => hf)
    · intro _ s₁ h₁
      refine h.wp_log_seq h₁.2 _ _ _ fun s₂ h₂ => ?_
      change BeforeCopy tp (logOf s₂)
      rw [h₂]
      intro c hc
      exact Or.inl (List.mem_singleton.mp hc)
    · intro e s₁ h₁
      refine h.wp_log_seq h₁ _ _ _ fun s₂ h₂ => ?_
      exact ⟨e, hschema, h₂⟩
  · change BeforeCopy tp (logOf s)
    rw [hs]
    exact hnone

/-- `TRUNCATE`, if it is wanted, comes next, however it ends. -/
theorem Steady.wp_clearTable {s : ExecState (Traced W)} (hs : BeforeCopy tp (logOf s)) :
    Call.wp (x.traced.clearTable tp)
      ⟨fun _ s' => BeforeCopy tp (logOf s'), fun _ _ => False, fun _ => False⟩ s := by
  have hmore : ∀ ending (s' : ExecState (Traced W)),
      logOf s' = logOf s ++ [(.truncateTable tp.tableName, ending)] → BeforeCopy tp (logOf s') := by
    intro ending s' hs' c hc
    rw [hs'] at hc
    rcases List.mem_append.mp hc with hold | hnew
    · exact hs c hold
    · rw [List.mem_singleton.mp hnew]
      exact Or.inr rfl
  rw [MigrationExecutor.clearTable]
  split
  · rw [Call.wp_tryExcept, Call.wp_bind]
    refine Call.wp_mono (wp_traced_record h.truncateTable rfl) ?_ ?_ (fun _ hf => hf)
    · intro _ s₁ h₁
      exact Call.wp_mono (h.wp_log h₁.2 _ _ _) (fun _ s₂ h₂ => hmore _ s₂ h₂)
        (fun _ _ hf => hf.elim) (fun _ hf => hf.elim)
    · intro e s₁ h₁
      exact Call.wp_mono (h.wp_log h₁ _ _ _) (fun _ s₂ h₂ => hmore _ s₂ h₂) (fun _ _ hf => hf)
        (fun _ hf => hf)
  · exact hs

/-- `_migrate_table` returns, with calls of one of the kinds. -/
theorem Steady.wp_migrateTable (htarget : transform tp.columnMappings rows = .ok target)
    {s : ExecState (Traced W)} (hs : logOf s = []) {fuel : Nat}
    (hfuel : (rows.length + 1) * (x.maxRetries + 1) ≤ fuel) :
    Call.wp (x.traced.migrateTable fuel tp)
      ⟨fun ok s' => TableCalls x tp target ok (logOf s'), fun _ _ => False, fun _ => False⟩ s := by
  refine h.wp_log_seq hs _ _ _ fun s₁ h₁ => ?_
  refine Call.wp_seq (h.wp_ensureTable h₁) fun created s₂ h₂ => ?_
  cases created with
  | false =>
    obtain ⟨e, hschema, hlog⟩ := h₂
    change TableCalls x tp target false (logOf s₂)
    rw [hlog]
    exact .refused e hschema
  | true =>
    refine Call.wp_seq (h.wp_clearTable h₂) fun _ s₃ h₃ => ?_
    split
    · refine Call.wp_mono (h.wp_copyLoop htarget rfl hfuel) ?_ (fun _ _ hf => hf) (fun _ hf => hf)
      intro ok s₄ h₄
      obtain ⟨log, hlog, hcalls⟩ := h₄
      change TableCalls x tp target ok (logOf s₄)
      rw [hlog]
      exact .copied h₃ hcalls
    · refine h.wp_log_seq rfl _ _ _ fun s₄ h₄ => ?_
      change TableCalls x tp target true (logOf s₄)
      rw [h₄]
      exact .schemaOnly h₃

end steady

section counts

variable {x : MigrationExecutor W} {tp : MigrationTablePlan} {target : List Row} {ok : Bool}
  {log : CallLog}

theorem nextOffset_gt (hbatch : 0 < x.batchSize) {n o : Nat} (ho : o < n) :
    o < x.nextOffset n o := by
  unfold nextOffset
  omega

/-- Every round but the last takes a full batch. -/
theorem CopyRounds.offset {k o : Nat} (h : x.CopyRounds tp target k o log) :
    o = min (k * x.batchSize) target.length ∧ (k - 1) * x.batchSize ≤ target.length - 1 := by
  induction h with
  | start => simp
  | @round k o log reads writes _ hlt _ _ ih =>
    obtain ⟨ho, -⟩ := ih
    have hstep : (k + 1) * x.batchSize = k * x.batchSize + x.batchSize := Nat.succ_mul _ _
    unfold nextOffset
    rw [Nat.add_sub_cancel]
    omega

/-- No more rounds than batches. -/
theorem CopyRounds.rounds_le {k o : Nat} (hbatch : 0 < x.batchSize)
    (h : x.CopyRounds tp target k o log) :
    k ≤ (target.length + x.batchSize - 1) / x.batchSize := by
  rw [Nat.le_div_iff_mul_le hbatch]
  obtain ⟨ho, hk⟩ := CopyRounds.offset h
  cases k with
  | zero => simp
  | succ k =>
    have hstep : (k + 1) * x.batchSize = k * x.batchSize + x.batchSize := Nat.succ_mul _ _
    rw [Nat.add_sub_cancel] at hk
    have hsome : 0 < target.length := by
      cases h with
      | round _ hlt => omega
    omega

/-- Rounds, then fetches at the offset where they stand, then inserts of its batch. -/
structure LoopShape (x : MigrationExecutor W) (tp : MigrationTablePlan) (target : List Row)
    (k o : Nat) (rounds reads writes : CallLog) : Prop where
  inRounds : x.CopyRounds tp target k o rounds
  readCalls : ∀ c ∈ reads, c.1 = x.fetchCall tp o
  reads_ne : reads ≠ []
  reads_le : reads.length ≤ x.maxRetries + 1
  writeCalls : ∀ c ∈ writes, c.1 = x.insertCall tp target o
  writes_le : writes.length ≤ x.maxRetries + 1

theorem LoopCalls.shape (h : LoopCalls x tp target ok log) :
    ∃ k o rounds reads writes, log = rounds ++ reads ++ writes ∧
      LoopShape x tp target k o rounds reads writes := by
  cases h with
  | @completed k rounds tries h htries =>
    exact ⟨k, _, rounds, tries, [], (List.append_nil _).symm, h, htries.calls, htries.ne_nil,
      htries.length_le, fun _ hc => (by cases hc), Nat.zero_le _⟩
  | @fetchFailed k o rounds tries h ho htries =>
    have hne : tries ≠ [] := by
      intro hnil
      have hlength := htries.length
      rw [hnil] at hlength
      cases hlength
    exact ⟨k, o, rounds, tries, [], (List.append_nil _).symm, h, fun c hc => (htries.failed c hc).1,
      hne, htries.length.le, fun _ hc => (by cases hc), Nat.zero_le _⟩
  | @insertFailed k o rounds reads tries h ho hreads htries =>
    exact ⟨k, o, rounds, reads, tries, rfl, h, hreads.calls, hreads.ne_nil, hreads.length_le,
      fun c hc => (htries.failed c hc).1, htries.length.le⟩

/-- The bounds on the calls of one table, where the inserts of a batch stand between two fetches. -/
structure Bounded (x : MigrationExecutor W) (n : Nat) (log : CallLog) : Prop where
  fetchesAt : ∀ offset, log.countP (fun c => c.1.fetchesAt offset) ≤ x.maxRetries + 1
  inserts : ∀ block, block <:+: log → (∀ c ∈ block, c.1.isInsert = true) →
    block.length ≤ x.maxRetries + 1
  fetches : log.countP (fun c => c.1.isFetch) ≤
    (x.maxRetries + 1) * ((n + x.batchSize - 1) / x.batchSize + 1)

private theorem countP_calls {p : ProviderCall → Bool} {call : ProviderCall} {m : Nat}
    (h : ∀ c ∈ log, c.1 = call) (hm : log.length ≤ m) :
    log.countP (fun c => p c.1) ≤ if p call then m else 0 := by
  split
  · exact List.countP_le_length.trans hm
  · rename_i hp
    rw [Nat.le_zero, List.countP_eq_zero]
    intro c hc
    rw [h c hc]
    exact hp

theorem LoopShape.bounded {k o : Nat} {rounds reads writes : CallLog} (hbatch : 0 < x.batchSize)
    (h : LoopShape x tp target k o rounds reads writes) :
    Bounded x target.length (rounds ++ reads ++ writes) := by
  have hnext : ∀ o, o < target.length → o < x.nextOffset target.length o :=
    fun o ho => nextOffset_gt hbatch ho
  constructor
  · intro offset
    have hrounds := h.inRounds.reads_at offset (ProviderCall.fetchesAt offset)
      (fun q hq => by simpa [fetchCall, ProviderCall.fetchesAt] using hq) (fun _ => rfl) hnext
    have hreads := countP_calls (p := ProviderCall.fetchesAt offset) h.readCalls h.reads_le
    have hwrites := countP_calls (p := ProviderCall.fetchesAt offset) h.writeCalls h.writes_le
    have hcall : (x.fetchCall tp o).fetchesAt offset = decide (o = offset) := rfl
    have hinsert : (x.insertCall tp target o).fetchesAt offset = false := rfl
    rw [hcall] at hreads
    rw [hinsert] at hwrites
    rw [List.countP_append, List.countP_append]
    simp only [decide_eq_true_eq, Bool.false_eq_true, if_false] at hreads hwrites
    split at hrounds <;> split at hreads <;> omega
  · intro block hin hblock
    have hgap : ∀ c ∈ reads, ¬ c.1.isInsert = true := by
      intro c hc
      rw [h.readCalls c hc]
      exact Bool.false_ne_true
    rcases infix_of_gap (p := fun c => c.1.isInsert = true) hblock hgap h.reads_ne hin with
      hrounds | hwrites
    · refine h.inRounds.writes_le (fun call => !call.isInsert) (fun _ => rfl) ?_ hrounds
      intro c hc
      rw [hblock c hc]
      rfl
    · exact hwrites.length_le.trans h.writes_le
  · have hrounds := h.inRounds.reads_le ProviderCall.isFetch (fun _ => rfl)
    have hreads := countP_calls (p := ProviderCall.isFetch) h.readCalls h.reads_le
    have hwrites := countP_calls (p := ProviderCall.isFetch) h.writeCalls h.writes_le
    have hcall : (x.fetchCall tp o).isFetch = true := rfl
    have hinsert : (x.insertCall tp target o).isFetch = false := rfl
    have hk := Nat.mul_le_mul_left (x.maxRetries + 1) (CopyRounds.rounds_le hbatch h.inRounds)
    rw [hcall, if_pos rfl] at hreads
    rw [hinsert, if_neg (by decide)] at hwrites
    rw [List.countP_append, List.countP_append, Nat.mul_succ]
    omega

/-- Calls that neither fetch nor insert. -/
def NoData (log : CallLog) : Prop := ∀ c ∈ log, c.1.isFetch = false ∧ c.1.isInsert = false

theorem BeforeCopy.noData (h : BeforeCopy tp log) : NoData log := by
  intro c hc
  rcases h c hc with hcreate | htruncate
  · rw [hcreate]
    exact ⟨rfl, rfl⟩
  · rw [htruncate]
    exact ⟨rfl, rfl⟩

/-- Calls that neither fetch nor insert do not count. -/
theorem Bounded.after {n : Nat} {before : CallLog} (hbefore : NoData before)
    (h : Bounded x n log) : Bounded x n (before ++ log) := by
  constructor
  · intro offset
    have hnone : before.countP (fun c => c.1.fetchesAt offset) = 0 := by
      rw [List.countP_eq_zero]
      intro c hc hat
      have hfetch := ProviderCall.isFetch_of_fetchesAt hat
      rw [(hbefore c hc).1] at hfetch
      cases hfetch
    rw [List.countP_append, hnone, Nat.zero_add]
    exact h.fetchesAt offset
  · intro block hin hblock
    have hwithout : ∀ c ∈ before, ¬ c.1.isInsert = true := by
      intro c hc
      rw [(hbefore c hc).2]
      exact Bool.false_ne_true
    exact h.inserts block (infix_of_without (p := fun c => c.1.isInsert = true) hblock hwithout hin)
      hblock
  · have hnone : before.countP (fun c => c.1.isFetch) = 0 := by
      rw [List.countP_eq_zero]
      intro c hc
      rw [(hbefore c hc).1]
      exact Bool.false_ne_true
    rw [List.countP_append, hnone, Nat.zero_add]
    exact h.fetches

theorem bounded_nil (x : MigrationExecutor W) (n : Nat) : Bounded x n [] := by
  constructor
  · simp
  · intro block hin _
    rw [List.infix_nil.mp hin]
    exact Nat.zero_le _
  · simp

theorem TableCalls.bounded (hbatch : 0 < x.batchSize) (h : TableCalls x tp target ok log) :
    Bounded x target.length log := by
  have hnil := bounded_nil x target.length
  cases h with
  | refused e _ =>
    have hnodata : NoData [(.createTable tp.sourceSchema, .raised e)] := by
      intro c hc
      rw [List.mem_singleton.mp hc]
      exact ⟨rfl, rfl⟩
    exact hnil.after hnodata
  | schemaOnly h =>
    rw [← List.append_nil log]
    exact hnil.after h.noData
  | copied hbefore h =>
    obtain ⟨k, o, rounds, reads, writes, hlog, hshape⟩ := h.shape
    subst hlog
    exact (hshape.bounded hbatch).after hbefore.noData

/-- What makes `_migrate_table` return False: the table could not be created, or a fetch at one
offset or the insert of one batch raised every time it was tried. -/
def GivenUp (x : MigrationExecutor W) (tp : MigrationTablePlan) (log : CallLog) : Prop :=
  (x.includeSchema = true ∧ ∃ e, (.createTable tp.sourceSchema, .raised e) ∈ log) ∨
  (∃ o block, block <:+: log ∧ GaveUp x.maxRetries (x.fetchCall tp o) block) ∨
  ∃ batch block, block <:+: log ∧ GaveUp x.maxRetries (.insertBatch tp.tableName batch) block

/-- Past calls that all returned in the end, none was given up. -/
theorem not_givenUp {before : CallLog} (hbefore : BeforeCopy tp before)
    (hlog : Settled x.maxRetries log) (hcalls : ∀ c ∈ log, c.1.isFetch = true ∨ c.1.isInsert = true) :
    ¬ GivenUp x tp (before ++ log) := by
  have hblock : ∀ (call : ProviderCall) (block : CallLog),
      call.isFetch = true ∨ call.isInsert = true → block <:+: before ++ log →
      ¬ GaveUp x.maxRetries call block := by
    intro call block hcall hin hgave
    have hwithout : ∀ c ∈ before, ¬ (c.1 = call ∧ ∃ e, c.2 = .raised e) := by
      intro c hc hsame
      have hdata := hbefore.noData c hc
      rw [hsame.1] at hdata
      rw [hdata.1, hdata.2] at hcall
      simp at hcall
    have hrest := infix_of_without
      (p := fun c : ProviderCall × Outcome Exc Unit => c.1 = call ∧ ∃ e, c.2 = .raised e)
      hgave.failed hwithout hin
    have hlength := hgave.length
    rw [← List.append_nil log] at hrest
    rcases hlog.failed_block hgave.failed hrest with hnil | hshort
    · rw [List.infix_nil.mp hnil] at hlength
      cases hlength
    · omega
  intro hgiven
  rcases hgiven with hcreate | hfetch | hinsert
  · obtain ⟨-, e, hmem⟩ := hcreate
    rcases List.mem_append.mp hmem with hpre | hin
    · rcases hbefore _ hpre with hcreated | htruncate
      · cases hcreated
      · cases htruncate
    · rcases hcalls _ hin with hfetch | hinsert
      · cases hfetch
      · cases hinsert
  · obtain ⟨o, block, hin, hgave⟩ := hfetch
    exact hblock _ block (Or.inl rfl) hin hgave
  · obtain ⟨batch, block, hin, hgave⟩ := hinsert
    exact hblock _ block (Or.inr rfl) hin hgave

theorem TableCalls.false_iff (h : TableCalls x tp target ok log) : ok = false ↔ GivenUp x tp log := by
  cases h with
  | refused e hschema =>
    exact iff_of_true rfl (Or.inl ⟨hschema, e, List.mem_singleton_self _⟩)
  | schemaOnly h =>
    have hnot := not_givenUp (x := x) h .nil (fun c hc => (by cases hc))
    rw [List.append_nil] at hnot
    exact iff_of_false (by decide) hnot
  | @copied _ before loop hbefore h =>
    cases h with
    | completed hrounds htries =>
      refine iff_of_false (by decide) (not_givenUp hbefore (hrounds.settled.snoc htries) ?_)
      intro c hc
      rcases List.mem_append.mp hc with hin | hlast
      · obtain ⟨o, hread | hwrite⟩ := hrounds.calls c hin
        · exact Or.inl (by rw [hread]; rfl)
        · exact Or.inr (by rw [hwrite]; rfl)
      · exact Or.inl (by rw [htries.calls c hlast]; rfl)
    | @fetchFailed k o rounds tries _ _ htries =>
      refine iff_of_true rfl (Or.inr (Or.inl ⟨o, tries, ?_, htries⟩))
      rw [← List.append_assoc]
      exact List.infix_append_right
    | @insertFailed k o rounds reads tries _ _ _ htries =>
      refine iff_of_true rfl (Or.inr (Or.inr ⟨_, tries, ?_, htries⟩))
      rw [← List.append_assoc]
      exact List.infix_append_right

end counts

/-- The copy of a fixed table ends whatever fails, within its retries, and returns False just when
something was given up. -/
theorem migrateTable_bounded {x : MigrationExecutor W} {rows : List Row} {tp : MigrationTablePlan}
    (h : x.Steady rows tp)
    (hrows : ∀ row ∈ rows, ∃ new, transformRow (activeMappings tp.columnMappings) row = .ok new)
    {fuel : Nat} (hfuel : (rows.length + 1) * (x.maxRetries + 1) ≤ fuel) (w : W) (m : Nat) :
    ∃ ok s, x.traced.migrateTable fuel tp ⟨{ inner := w }, m⟩ = (.returned ok, s) ∧
      (x.migrateTable fuel tp ⟨w, m⟩).1 = .returned ok ∧
      Bounded x rows.length (logOf s) ∧ (ok = false ↔ GivenUp x tp (logOf s)) := by
  obtain ⟨target, htarget⟩ := transform_exists hrows
  obtain ⟨ok, s, hrun, hcalls⟩ := Call.exists_of_wp
    (h.wp_migrateTable htarget (s := ⟨{ inner := w }, m⟩) rfl hfuel)
  have hbounded := hcalls.bounded h.batchSize
  rw [transform_length htarget] at hbounded
  have hplain := ((x.traced_instruments.related tp).migrateTable fuel ⟨{ inner := w }, m⟩ ⟨w, m⟩ ⟨rfl, rfl⟩).1
  rw [hrun] at hplain
  exact ⟨ok, s, hrun, hplain.symm, hbounded, hcalls.false_iff⟩

private def numbered : List Row := [Dict.ofList [("id", .int 1)], Dict.ofList [("id", .int 2)]]

private def numberedPlan : MigrationTablePlan where
  tableName := "t"
  sourceSchema := { name := "t", columns := [{ name := "id", dataType := "INTEGER" }] }
  columnMappings := buildColumnMappings
    { name := "t", columns := [{ name := "id", dataType := "INTEGER" }] } none
  rowCount := 2

/-- A database whose first fetch times out. -/
private def slowToWake : BaseDatabaseProvider Nat where
  getTableSchema _ := Call.raise ⟨.other, "not served"⟩
  tableExists _ := pure false
  fetchBatch t offset limit cols := fun fetched =>
    if fetched = 0 then (.raised ⟨.other, "timeout"⟩, 1)
    else (.returned (selectRows numbered ⟨cols, t, limit, offset⟩), fetched + 1)
  createTable _ := pure ()
  insertBatch _ rows _ := pure rows.length
  truncateTable _ := pure ()

private def patient : MigrationExecutor Nat where
  source := slowToWake
  destination := slowToWake
  plan := { tables := [numberedPlan], totalRows := 2 }
  batchSize := 1
  maxRetries := 1

private theorem patient_steady : patient.Steady numbered numberedPlan where
  createTable := fun _ => trivial
  truncateTable := fun _ => trivial
  fetchBatch := by
    intro offset
    apply Call.Ends.zoom
    intro fetched
    cases fetched with
    | zero => trivial
    | succ fetched => rfl
  insertBatch := fun _ _ => trivial
  log := fun _ _ _ _ => trivial
  reportProgress := fun _ _ => trivial
  sleep := fun _ _ => trivial
  batchSize := by decide

theorem migrateTable_bounded_retried : ∃ ok s,
    patient.traced.migrateTable 6 numberedPlan ⟨{ inner := 0 }, 0⟩ = (.returned ok, s) ∧
      (patient.migrateTable 6 numberedPlan ⟨0, 0⟩).1 = .returned ok ∧
      Bounded patient 2 (logOf s) ∧ (ok = false ↔ GivenUp patient numberedPlan (logOf s)) := by
  have hrows : ∀ row ∈ numbered,
      ∃ new, transformRow (activeMappings numberedPlan.columnMappings) row = .ok new := by
    intro row hrow
    simp only [numbered, List.mem_cons, List.not_mem_nil, or_false] at hrow
    rcases hrow with hfirst | hsecond
    · subst hfirst
      exact ⟨_, rfl⟩
    · subst hsecond
      exact ⟨_, rfl⟩
  exact migrateTable_bounded patient_steady hrows (by decide) 0 0

end MigrationExecutor

end DataBridge

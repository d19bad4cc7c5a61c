import DataBridge.Migration.ExecutorRules
import DataBridge.Providers.Statement

namespace DataBridge

/-- A server that refuses every statement. -/
def Engine.idle {W : Type} : Engine W where
  fetch _ := Call.raise ⟨.other, "not served"⟩
  executemany _ := Call.raise ⟨.other, "not served"⟩
  truncate _ := Call.raise ⟨.other, "not served"⟩

/-- A provider over `e` that serves no question about the catalogue. -/
def Engine.provider {W : Type} (e : Engine W) : BaseDatabaseProvider W where
  getTableSchema _ := Call.raise ⟨.other, "not served"⟩
  tableExists _ := Call.raise ⟨.other, "not served"⟩
  createTable _ := Call.raise ⟨.other, "not served"⟩
  fetchBatch := fetchBatch e
  insertBatch := insertBatch e
  truncateTable := e.truncate

/-- A table row as the select list shows it. -/
def pickColumns (columns : Option (List String)) (row : Row) : Row :=
  match columns with
  | none | some [] => row
  | some cs => row.project cs

theorem map_pickColumns_none (batch : List Row) : batch.map (pickColumns none) = batch :=
  List.map_id batch

/-- The answer to a query over a table whose rows stand in a fixed order. -/
def selectRows (rows : List Row) (q : Select) : List Row :=
  ((rows.drop q.offset).take q.limit).map (pickColumns q.columns)

variable {D X : Type}

/-- A source whose tables all hold `rows`, in this order, at every query. -/
def staticSource (rows : List Row) : BaseDatabaseProvider D :=
  Engine.provider { Engine.idle with fetch := fun q => pure (selectRows rows q) }

/-- Every query of this table is answered from the same rows. -/
def Serves (source : BaseDatabaseProvider D) (table : String) (rows : List Row) : Prop :=
  ∀ offset limit cols, source.fetchBatch table offset limit cols =
    pure (selectRows rows ⟨cols, table, limit, offset⟩)

theorem staticSource_serves (rows : List Row) (table : String) :
    Serves (staticSource rows : BaseDatabaseProvider D) table rows := fun _ _ _ => rfl

/-- The rows `offset` to `offset + limit - 1`. -/
def window (rows : List Row) (offset limit : Nat) : List Row := (rows.drop offset).take limit

theorem window_length (rows : List Row) (offset limit : Nat) :
    (window rows offset limit).length = min limit (rows.length - offset) := by
  simp [window]

theorem take_append_window (rows : List Row) (offset limit : Nat) :
    rows.take offset ++ window rows offset limit =
      rows.take (offset + (window rows offset limit).length) := by
  rw [window_length, List.take_add]
  congr 1
  rw [window, List.take_eq_take_min, List.length_drop]

namespace MigrationExecutor

/-- Reading only the selected columns of a batch does not change its transform. -/
theorem transform_map_pickColumns (mappings : List ColumnMapping) (batch : List Row) :
    transform mappings (batch.map (pickColumns (selectedColumns mappings))) =
      transform mappings batch := by
  unfold transform selectedColumns
  split
  · exact congrArg Except.ok (map_pickColumns_none batch)
  · rename_i ha
    have hpick : ∀ row : Row, pickColumns (some ((activeMappings mappings).map (·.sourceCol))) row =
        row.project ((activeMappings mappings).map (·.sourceCol)) := by
      intro row
      cases hm : activeMappings mappings with
      | nil => exact absurd hm ha
      | cons m ms => rfl
    rw [applyMappings, ExceptList.mapM_map]
    apply ExceptList.mapM_congr
    intro row _
    rw [hpick]
    exact transformRow_project _ row _ (fun m hm => List.mem_map_of_mem hm)

/-- Fetching the selected columns and transforming a page gives the page of the transformed
table. -/
theorem transform_selectRows {mappings : List ColumnMapping} {rows target : List Row}
    (h : transform mappings rows = .ok target) (table : String) (offset limit : Nat) :
    transform mappings (selectRows rows ⟨selectedColumns mappings, table, limit, offset⟩) =
      .ok (window target offset limit) := by
  have hpage : transform mappings (window rows offset limit) = .ok (window target offset limit) := by
    rw [transform] at h ⊢
    split at h
    · rename_i ha
      cases h
      exact if_pos ha
    · rename_i ha
      rw [if_neg ha]
      exact ExceptList.mapM_window h offset limit
  exact (transform_map_pickColumns mappings (window rows offset limit)).trans hpage

/-- With an included descriptor every row is transformed. -/
theorem transform_of_included {mappings : List ColumnMapping}
    (h : ∃ m ∈ mappings, m.included = true) (batch : List Row) :
    transform mappings batch = applyMappings batch mappings := by
  obtain ⟨m, hm, hi⟩ := h
  have hactive : activeMappings mappings ≠ [] :=
    List.ne_nil_of_mem (List.mem_filter.mpr ⟨hm, hi⟩)
  rw [transform, if_neg hactive]

/-- A batch transforms when each of its rows does. -/
theorem transform_exists {mappings : List ColumnMapping} {batch : List Row}
    (h : ∀ row ∈ batch, ∃ new, transformRow (activeMappings mappings) row = .ok new) :
    ∃ rows, transform mappings batch = .ok rows := by
  rw [transform]
  split
  · exact ⟨batch, rfl⟩
  · exact ExceptList.mapM_exists h

/-- A batch that transforms has only rows that do. -/
theorem transformRow_of_transform {mappings : List ColumnMapping} {batch rows : List Row}
    (h : transform mappings batch = .ok rows) {row : Row} (hrow : row ∈ batch) :
    ∃ new, transformRow (activeMappings mappings) row = .ok new := by
  rw [transform] at h
  split at h
  · rename_i hnone
    exact ⟨Dict.empty, by rw [hnone]; rfl⟩
  · exact ExceptList.mapM_ok_mem h hrow

theorem transform_length {mappings : List ColumnMapping} {rows target : List Row}
    (h : transform mappings rows = .ok target) : target.length = rows.length := by
  rw [transform] at h
  split at h
  · cases h; rfl
  · exact (ExceptList.mapM_length h).symm

/-- Transformed rows all have the same columns, as the rows of one table do. -/
theorem transform_keys {mappings : List ColumnMapping} {rows target : List Row} {cols : List String}
    (hdistinct : (mappings.map (·.destCol)).Nodup) (hrows : ∀ r ∈ rows, r.keys = cols)
    (h : transform mappings rows = .ok target) : ∃ cols', ∀ r ∈ target, r.keys = cols' := by
  rw [transform] at h
  split at h
  · cases h
    exact ⟨cols, hrows⟩
  · refine ⟨(activeMappings mappings).map (·.destCol), ?_⟩
    have hnodup : ((activeMappings mappings).map (·.destCol)).Nodup :=
      hdistinct.sublist (List.filter_sublist.map _)
    intro r hr
    obtain ⟨row, -, hrun⟩ := ExceptList.mapM_source h hr
    exact transformRow_keys hnodup hrun

end MigrationExecutor

/-- Passes the loop may still make over a static table of `n` rows, with `r` retries. -/
def CopyVars.passesLeft (v : CopyVars) (n r : Nat) : Nat :=
  (n - v.offset) * (r + 1) + (r - v.retryCount)

theorem CopyVars.passesLeft_retry (v : CopyVars) (n r : Nat) (h : v.retryCount < r) :
    ({ v with retryCount := v.retryCount + 1 } : CopyVars).passesLeft n r < v.passesLeft n r := by
  unfold passesLeft
  dsimp only
  omega

theorem CopyVars.passesLeft_advance (v : CopyVars) (n r count rowsForTable : Nat)
    (hoff : v.offset < n) (hpos : 0 < count) :
    ({ offset := v.offset + count, rowsForTable := rowsForTable, retryCount := 0 } :
      CopyVars).passesLeft n r < v.passesLeft n r := by
  unfold passesLeft
  have hstep : (n - (v.offset + count) + 1) * (r + 1) ≤ (n - v.offset) * (r + 1) :=
    Nat.mul_le_mul_right _ (by omega)
  rw [Nat.succ_mul] at hstep
  dsimp only
  omega

/-- Passes that are always enough for a static table of `n` rows. -/
def copyFuel (n : Nat) (settings : MigrationSettings) : Nat := (n + 1) * (settings.maxRetries + 1)

/-- What a destination does with the batches of one table: `J o` describes the data once `o` rows
are accepted, and `R o` what a raising insert leaves of it. -/
structure CopySteps (site : Site D X) (table : String) (target : List Row) (J R : Nat → D → Prop) :
    Prop where
  accepted : ∀ o d, o < target.length → J o d →
    Call.wp (site.destination.insertBatch table (window target o site.settings.batchSize) none)
      ⟨fun _ d' => J (o + (window target o site.settings.batchSize).length) d',
        fun _ d' => R o d', fun _ => False⟩
      (site.notes.given (window target o site.settings.batchSize) d)
  kept : ∀ o d k, o < target.length → site.MayKeep k → J o d →
    R o (site.notes.kept (site.notes.given (window target o site.settings.batchSize) d)
      (site.destination.insertBatch table ((window target o site.settings.batchSize).take k) none
        (site.notes.given (window target o site.settings.batchSize) d)).2)
  again : ∀ o d, R o d → J o d

/-- Between two passes: the offset, the data and the executor's counter are in step. -/
structure CopyInStep (site : Site D X) (target : List Row) (J : Nat → D → Prop) (n : Nat)
    (v : CopyVars) (d : D) (m : Nat) : Prop where
  offset : v.offset ≤ target.length
  retries : v.retryCount ≤ site.settings.maxRetries
  data : J v.offset d
  counter : m = n + v.offset

/-- How the copy of a static table ends. -/
def copyPost (site : Site D X) (target : List Row) (J R : Nat → D → Prop) (n : Nat) :
    DataPost D Bool where
  returned ok d m := match ok with
    | true => J target.length d ∧ m = n + target.length
    | false => ∃ o ≤ target.length, J o d ∧
        (site.sourceFaults.fetchBatch.MayRaise ∨ R o d) ∧ m = n + o
  raised d m := site.CallbacksRaise ∧ ∃ o ≤ target.length, J o d ∧ m = n + o
  exhausted := False

section copy

variable (site : Site D X) {rows target : List Row} (tp : MigrationTablePlan)
  {J R : Nat → D → Prop}

/-- One pass keeps the copy in step and comes closer to its end, or ends it. -/
theorem dwp_staticPass (hsource : Serves site.source tp.tableName rows)
    (htarget : MigrationExecutor.transform tp.columnMappings rows = .ok target)
    (hbatch : 0 < site.settings.batchSize) (hsteps : CopySteps site tp.tableName target J R)
    {v : CopyVars} {d : D} {n m : Nat} (hv : CopyInStep site target J n v d m) :
    dwp (site.executor.copyPass tp v)
      ⟨fun p d' m' => match p with
        | .again v' => CopyInStep site target J n v' d' m' ∧
            v'.passesLeft target.length site.settings.maxRetries <
              v.passesLeft target.length site.settings.maxRetries
        | .done ok => (copyPost site target J R n).returned ok d' m',
        (copyPost site target J R n).raised, False⟩ d m := by
  have hlen := MigrationExecutor.transform_length htarget
  obtain ⟨hoff, hretry, hj, hm⟩ := hv
  subst hm
  have hpage : selectRows rows ⟨MigrationExecutor.selectedColumns tp.columnMappings,
      tp.tableName, site.settings.batchSize, v.offset⟩ = [] ↔ v.offset = target.length := by
    rw [← List.length_eq_zero_iff]
    simp only [selectRows, List.length_map, List.length_take, List.length_drop]
    omega
  refine dwp_copyPass site tp v
    (fun batch d' => batch = selectRows rows
      ⟨MigrationExecutor.selectedColumns tp.columnMappings, tp.tableName,
        site.settings.batchSize, v.offset⟩ ∧ d' = d)
    (fun d' => site.sourceFaults.fetchBatch.MayRaise ∧ d' = d) ?_ (fun hf => ⟨hf, rfl⟩) ?_ ?_ ?_
  · rw [hsource]
    exact ⟨rfl, rfl⟩
  · intro d' hd
    obtain ⟨hfault, hd⟩ := hd
    subst hd
    refine ⟨fun hc => ⟨hc, v.offset, hoff, hj, rfl⟩, ?_,
      fun _ => ⟨v.offset, hoff, hj, Or.inl hfault, rfl⟩⟩
    intro hlt
    exact ⟨⟨hoff, hlt, hj, rfl⟩, v.passesLeft_retry _ _ hlt⟩
  · intro d' hd
    obtain ⟨hb, hd⟩ := hd
    subst hd
    have ho := hpage.mp hb.symm
    exact ⟨⟨ho ▸ hj, by rw [ho]⟩, fun hc => ⟨hc, v.offset, hoff, hj, rfl⟩⟩
  · intro batch d' hne hd
    obtain ⟨hb, hd⟩ := hd
    subst hd
    have hlt : v.offset < target.length := by
      have hno : v.offset ≠ target.length := fun he => hne (hb.trans (hpage.mpr he))
      omega
    have htr := MigrationExecutor.transform_selectRows htarget tp.tableName v.offset
      site.settings.batchSize
    rw [← hb] at htr
    refine ⟨fun exc h => (by rw [htr] at h; cases h), ?_⟩
    intro out hout
    rw [htr] at hout
    cases hout
    have hcount : batch.length = (window target v.offset site.settings.batchSize).length := by
      rw [hb, window_length]
      simp only [selectRows, List.length_map, List.length_take, List.length_drop]
      omega
    have hwin := window_length target v.offset site.settings.batchSize
    have hpos : 0 < batch.length := by rw [hcount, hwin]; omega
    have hend : v.offset + batch.length ≤ target.length := by rw [hcount, hwin]; omega
    refine dwp_insertWithRetry site tp.tableName _ (J v.offset)
      (J (v.offset + batch.length)) (R v.offset) ?_ ?_ (hsteps.again v.offset) ?_ ?_ hj
    · intro d₁ hd₁
      rw [hcount]
      exact hsteps.accepted v.offset d₁ hlt hd₁
    · exact fun d₁ k hk hd₁ => hsteps.kept v.offset d₁ k hlt hk hd₁
    · intro d₁ hd₁
      have hm : n + v.offset + batch.length = n + (v.offset + batch.length) := Nat.add_assoc _ _ _
      exact ⟨⟨⟨hend, Nat.zero_le _, hd₁, hm⟩, v.passesLeft_advance _ _ _ _ hlt hpos⟩,
        fun hc => ⟨hc, v.offset + batch.length, hend, hd₁, hm⟩⟩
    · intro d₁ hd₁
      have hj₁ := hsteps.again v.offset d₁ hd₁
      exact ⟨⟨v.offset, hoff, hj₁, Or.inr hd₁, rfl⟩, fun hc => ⟨hc, v.offset, hoff, hj₁, rfl⟩⟩

/-- The copy loop over a static source. -/
theorem dwp_copyLoop (hsource : Serves site.source tp.tableName rows)
    (htarget : MigrationExecutor.transform tp.columnMappings rows = .ok target)
    (hbatch : 0 < site.settings.batchSize) (hsteps : CopySteps site tp.tableName target J R)
    {fuel : Nat} (hfuel : copyFuel rows.length site.settings ≤ fuel) {d : D} (n : Nat)
    (hJ : J 0 d) :
    dwp (Call.loop (site.executor.copyPass tp) fuel {}) (copyPost site target J R n) d n := by
  have hlen := MigrationExecutor.transform_length htarget
  refine dwp_loop (CopyInStep site target J n)
    (fun v => v.passesLeft target.length site.settings.maxRetries) ?_
    ⟨Nat.zero_le _, Nat.zero_le _, hJ, rfl⟩ ?_
  · intro v d' m hv
    refine dwp_mono (dwp_staticPass site tp hsource htarget hbatch hsteps hv) ?_ (fun _ _ h => h)
    intro p d'' m' h
    cases p with
    | again v' => exact h
    | done ok => exact h
  · rw [copyFuel, Nat.succ_mul] at hfuel
    rw [CopyVars.passesLeft, hlen, Nat.sub_zero, Nat.sub_zero]
    omega

/-- The copy of a static table that is not truncated: the counter follows the data, which ends
complete or at a prefix. -/
theorem dwp_copyTable (hsource : Serves site.source tp.tableName rows)
    (htarget : MigrationExecutor.transform tp.columnMappings rows = .ok target)
    (hbatch : 0 < site.settings.batchSize) (hsteps : CopySteps site tp.tableName target J R)
    (hdata : site.settings.includeData = true)
    (htruncate : site.settings.truncateDestination = false) {d : D}
    (hcreate : Call.wp (site.destination.createTable tp.sourceSchema)
      ⟨fun _ d' => d' = d, fun _ d' => d' = d, fun _ => False⟩ d)
    {fuel : Nat} (hfuel : copyFuel rows.length site.settings ≤ fuel) (n : Nat) (hJ : J 0 d) :
    dwp (site.executor.migrateTable fuel tp)
      ⟨fun ok d' m => match ok with
        | true => J target.length d' ∧ m = n + target.length
        | false => ∃ o ≤ target.length, J o d' ∧ m = n + o,
        fun d' m => ∃ o ≤ target.length, J o d' ∧ m = n + o, False⟩ d n := by
  have hzero : ∃ o ≤ target.length, J o d ∧ n = n + o := ⟨0, Nat.zero_le _, hJ, rfl⟩
  refine dwp_migrateTable_copy site fuel tp hdata htruncate hcreate ⟨hzero, fun _ => hzero⟩ ?_
  have hloop := dwp_copyLoop site tp hsource htarget hbatch hsteps hfuel n hJ
  refine dwp_mono hloop ?_ (fun _ _ h => h.2)
  intro ok d' m h
  cases ok with
  | true => exact h
  | false =>
    obtain ⟨o, ho, hj, -, hm⟩ := h
    exact ⟨o, ho, hj, hm⟩

end copy

end DataBridge

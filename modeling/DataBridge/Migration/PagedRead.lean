import DataBridge.Framework.Paging
import DataBridge.Migration.StaticSource

namespace DataBridge

/-- What a run over a table of `n` rows has asked for, was given, and has written. -/
structure PagedData (n : Nat) where
  queries : Nat := 0
  delivered : List (Fin n) := []
  inserted : List Row := []

/-- A table whose rows never change, read without ORDER BY: query `k` of the run sees the rows in
the order `orders k`, which the database picks anew each time. -/
def unorderedSource {n : Nat} (rows : Fin n → Row) (orders : Nat → Equiv.Perm (Fin n)) :
    BaseDatabaseProvider (PagedData n) :=
  Engine.provider { Engine.idle with
    fetch := fun q d =>
      let page := Paging.page (orders d.queries) q.offset q.limit
      (.returned ((page.map rows).map (pickColumns q.columns)),
        { d with queries := d.queries + 1, delivered := d.delivered ++ page }) }

def acceptingDestination {n : Nat} : BaseDatabaseProvider (PagedData n) :=
  { Engine.provider { Engine.idle with
      executemany := fun q => Call.modify fun d => { d with inserted := d.inserted ++ q.rows }
      truncate := fun _ => Call.modify fun d => { d with inserted := [] } } with
    createTable := fun _ => pure () }

/-- One copy of a static table with no failures. -/
structure PagedRun (n : Nat) (X : Type) where
  rows : Fin n → Row
  orders : Nat → Equiv.Perm (Fin n)
  settings : MigrationSettings
  onProgress : Option (String → Nat → Nat → Option String → X → X) := none
  onLog : Option (String → String → Option String → X → X) := none
  sleep : Nat → X → X := fun _ e => e

variable {n : Nat} {X : Type}

namespace PagedRun

def site (r : PagedRun n X) : Site (PagedData n) X where
  source := unorderedSource r.rows r.orders
  destination := acceptingDestination
  settings := r.settings
  onProgress := r.onProgress.map fun f table inTable total error => quietly (f table inTable total error)
  onLog := r.onLog.map fun f level message table => quietly (f level message table)
  sleep seconds := quietly (r.sleep seconds)

theorem not_callbacksRaise (r : PagedRun n X) : ¬ r.site.CallbacksRaise :=
  not_callbacksRaise_quietly rfl rfl fun _ => rfl

/-- The row read at each position of the table, in the order of the run. -/
def shown (r : PagedRun n X) : Fin n → Fin n :=
  Paging.shown r.settings.batchSize fun k => r.orders k

/-- The state of the read after `k` queries. -/
def ReadPages (r : PagedRun n X) (k : Nat) (d : PagedData n) : Prop :=
  d.queries = k ∧ d.delivered = (List.ofFn r.shown).take (min (k * r.settings.batchSize) n)

end PagedRun

private theorem never_raises : ¬ Fault.MayRaise (fun e : X => ((none : Option Exc), e)) := by
  intro h
  obtain ⟨e, exc, he⟩ := h
  cases he

/-- One pass reads the next page, or sees that there is none. -/
private theorem dwp_readPass (r : PagedRun n X) (tp : MigrationTablePlan) {v : CopyVars} {k : Nat}
    (hbatch : 0 < r.settings.batchSize)
    (hrows : ∀ i, ∃ new, transformRow (activeMappings tp.columnMappings) (r.rows i) = .ok new)
    {d : PagedData n} (m : Nat) (hoff : v.offset = min (k * r.settings.batchSize) n)
    (hd : r.ReadPages k d) :
    dwp (r.site.executor.copyPass tp v)
      ⟨fun p d' _ => match p with
        | .again v' => (∃ k, v'.offset = min (k * r.settings.batchSize) n ∧ r.ReadPages k d') ∧
            n - v'.offset < n - v.offset
        | .done ok => ok = true ∧ d'.delivered = List.ofFn r.shown,
        fun _ _ => False, False⟩ d m := by
  obtain ⟨hqueries, hdelivered⟩ := hd
  have hstep : (k + 1) * r.settings.batchSize = k * r.settings.batchSize + r.settings.batchSize :=
    Nat.succ_mul _ _
  let read := Paging.page (fun p => r.orders k p) v.offset r.settings.batchSize
  have hlen : read.length = min r.settings.batchSize (n - v.offset) := Paging.page_length _ _ _
  have hnext : d.delivered ++ read =
      (List.ofFn r.shown).take (min ((k + 1) * r.settings.batchSize) n) := by
    rw [hdelivered]
    change _ ++ Paging.page (fun p => r.orders k p) v.offset r.settings.batchSize = _
    rw [hoff]
    exact Paging.take_shown_append_page _ (fun k p => r.orders k p) k
  refine dwp_copyPass r.site tp v
    (fun batch d' => batch = (read.map r.rows).map
        (pickColumns (MigrationExecutor.selectedColumns tp.columnMappings)) ∧
      d' = { d with queries := k + 1, delivered := d.delivered ++ read })
    (fun _ => False) ?_ never_raises (fun _ h => h.elim) ?_ ?_
  · change Call.wp ((unorderedSource r.rows r.orders).fetchBatch tp.tableName v.offset
      r.settings.batchSize (MigrationExecutor.selectedColumns tp.columnMappings)) _ d
    subst hqueries
    exact ⟨rfl, rfl⟩
  · intro d' h
    obtain ⟨hempty, hd'⟩ := h
    subst hd'
    have hzero : read.length = 0 := by
      have hnone := congrArg List.length hempty
      simpa using hnone.symm
    have hend : n ≤ min ((k + 1) * r.settings.batchSize) n := by omega
    refine ⟨⟨rfl, ?_⟩, fun hc => (r.not_callbacksRaise hc).elim⟩
    change d.delivered ++ read = _
    rw [hnext, List.take_of_length_le (by simpa using hend)]
  · intro batch d' hne h
    obtain ⟨hb, hd'⟩ := h
    subst hd'
    have hcount : batch.length = read.length := by rw [hb]; simp
    have hpos : 0 < batch.length := List.length_pos_of_ne_nil hne
    obtain ⟨rows, hok⟩ : ∃ rows, MigrationExecutor.transform tp.columnMappings batch = .ok rows := by
      rw [hb, MigrationExecutor.transform_map_pickColumns]
      apply MigrationExecutor.transform_exists
      intro row hrow
      obtain ⟨i, -, hi⟩ := List.mem_map.mp hrow
      exact hi ▸ hrows i
    refine ⟨fun exc h => (by rw [hok] at h; cases h), ?_⟩
    intro out _
    have hread : ∀ d'' : PagedData n, d''.queries = k + 1 ∧
        d''.delivered = d.delivered ++ read → r.ReadPages (k + 1) d'' :=
      fun d'' h => ⟨h.1, h.2.trans hnext⟩
    refine dwp_insertWithRetry r.site tp.tableName out
      (fun d'' => d''.queries = k + 1 ∧ d''.delivered = d.delivered ++ read)
      (fun d'' => d''.queries = k + 1 ∧ d''.delivered = d.delivered ++ read)
      (fun _ => False) ?_ ?_ (fun _ h => h.elim) ?_ (fun _ h => h.elim) ⟨rfl, rfl⟩
    · intro d'' h
      cases out with
      | nil => exact h
      | cons first rest => exact h
    · intro d'' kept h
      obtain ⟨e, exc, he⟩ := h
      cases he
    · intro d'' h
      refine ⟨⟨⟨k + 1, ?_, hread d'' h⟩, ?_⟩, fun hc => (r.not_callbacksRaise hc).elim⟩
      · change v.offset + batch.length = _
        omega
      · change n - (v.offset + batch.length) < n - v.offset
        omega

/-- The copy loop reads page after page up to the end of the table. -/
private theorem dwp_readLoop (r : PagedRun n X) (tp : MigrationTablePlan) {fuel : Nat}
    (hbatch : 0 < r.settings.batchSize)
    (hrows : ∀ i, ∃ new, transformRow (activeMappings tp.columnMappings) (r.rows i) = .ok new)
    (hfuel : n < fuel) {d : PagedData n} (m : Nat) (hd : r.ReadPages 0 d) :
    dwp (Call.loop (r.site.executor.copyPass tp) fuel {})
      ⟨fun ok d' _ => ok = true ∧ d'.delivered = List.ofFn r.shown, fun _ _ => False, False⟩ d m := by
  refine dwp_loop
    (fun v d' _ => ∃ k, v.offset = min (k * r.settings.batchSize) n ∧ r.ReadPages k d')
    (fun v => n - v.offset) ?_ ⟨0, by simp, hd⟩ (by simpa using hfuel)
  intro v d' m' hv
  obtain ⟨k, hoff, hread⟩ := hv
  refine dwp_mono (dwp_readPass r tp hbatch hrows m' hoff hread) ?_ (fun _ _ h => h)
  intro p d'' m'' h
  cases p with
  | again v' => exact h
  | done ok => exact h

private theorem dwp_readTable (r : PagedRun n X) (tp : MigrationTablePlan) {fuel : Nat}
    (hbatch : 0 < r.settings.batchSize) (hdata : r.settings.includeData = true)
    (hrows : ∀ i, ∃ new, transformRow (activeMappings tp.columnMappings) (r.rows i) = .ok new)
    (hfuel : n < fuel) (m : Nat) :
    dwp (r.site.executor.migrateTable fuel tp)
      ⟨fun ok d' _ => ok = true ∧ d'.delivered = List.ofFn r.shown, fun _ _ => False, False⟩ {} m := by
  have hquiet := r.not_callbacksRaise
  refine dwp_migrateTable r.site fuel tp (r.ReadPages 0) (fun _ => False) (r.ReadPages 0)
    hquiet (fun _ => ⟨rfl, by simp⟩) (fun _ => ⟨never_raises, ⟨rfl, by simp⟩⟩)
    (fun _ _ => hquiet) (fun _ h => h.elim) (fun _ h _ => h) ?_ (fun _ _ => hquiet) ?_ ?_
  · intro d hd _
    exact ⟨fun h => (never_raises h).elim, hd⟩
  · intro d _ hi
    exact absurd (hdata.symm.trans hi) (by decide)
  · intro d hd _
    exact dwp_readLoop r tp hbatch hrows hfuel m hd

/-- A run without failures over a static table reads every row exactly once just when one fixed
order of the table has, for every query, the page that the query was answered with. -/
theorem migrateTable_reads_once_iff (r : PagedRun n X) (tp : MigrationTablePlan) (fuel : Nat)
    (e : X) (m : Nat) (hbatch : 0 < r.settings.batchSize) (hdata : r.settings.includeData = true)
    (hrows : ∀ i, ∃ new, transformRow (activeMappings tp.columnMappings) (r.rows i) = .ok new)
    (hfuel : n < fuel) :
    ∃ s', r.site.executor.migrateTable fuel tp ⟨⟨{}, e⟩, m⟩ = (.returned true, s') ∧
      ((∀ i, s'.world.data.delivered.count i = 1) ↔
        Paging.HasCommonOrder r.settings.batchSize r.orders) := by
  have hwp := dwp_readTable r tp hbatch hdata hrows hfuel m e
  cases hrun : r.site.executor.migrateTable fuel tp ⟨⟨{}, e⟩, m⟩ with
  | mk outcome s' =>
    cases outcome with
    | exhausted => exact (Call.wp_of_exhausted hwp hrun).elim
    | raised exc => exact (Call.wp_of_raised hwp hrun).elim
    | returned ok =>
      obtain ⟨hok, hdelivered⟩ := Call.wp_of_returned hwp hrun
      subst hok
      refine ⟨s', rfl, ?_⟩
      rw [hdelivered, Paging.count_ofFn_eq_one_iff]
      exact Paging.shown_injective_iff _ _

/-- Two rows read in batches of one; the second query sees them in the other order. -/
def reorderedRead : PagedRun 2 Unit where
  rows := fun i => Dict.ofList [("id", .int i.val)]
  orders := fun k => if k = 1 then Equiv.swap 0 1 else Equiv.refl _
  settings := { batchSize := 1 }

def plainTable : MigrationTablePlan where
  tableName := "items"
  sourceSchema := { name := "items", columns := [] }

theorem reorderedRead_misses_row :
    (reorderedRead.site.executor.migrateTable 3 plainTable ⟨⟨{}, ()⟩, 0⟩).1 = .returned true ∧
      (reorderedRead.site.executor.migrateTable 3 plainTable
        ⟨⟨{}, ()⟩, 0⟩).2.world.data.delivered = [0, 0] := by
  decide

theorem migrateTable_reads_once_iff_reordered :
    ∃ s', reorderedRead.site.executor.migrateTable 3 plainTable ⟨⟨{}, ()⟩, 0⟩ =
        (.returned true, s') ∧
      ((∀ i, s'.world.data.delivered.count i = 1) ↔
        Paging.HasCommonOrder 1 reorderedRead.orders) := by
  have hrows : ∀ i, ∃ new, transformRow (activeMappings plainTable.columnMappings)
      (reorderedRead.rows i) = .ok new := fun i => ⟨Dict.empty, rfl⟩
  exact migrateTable_reads_once_iff reorderedRead plainTable 3 () 0 (by decide) rfl hrows (by decide)

end DataBridge

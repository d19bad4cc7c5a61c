import DataBridge.Framework.MovingPages
import DataBridge.Migration.StaticSource

namespace DataBridge

/-- A row of the source table, with an identity that no other row ever has. -/
structure SourceEntry where
  id : Nat
  row : Row
  deriving DecidableEq

/-- A write of another client. -/
inductive TableWrite where
  | insert (row : Row)
  | delete (position : Nat)
  deriving DecidableEq

/-- The source table, what other clients commit before each of the next fetches, the table as each
fetch saw it, and the batches that the destination accepted. -/
structure MovingData where
  table : List SourceEntry
  nextId : Nat
  writes : List (List TableWrite)
  seen : List (List SourceEntry) := []
  accepted : List (List Row) := []

namespace MovingData

def start (rows : List Row) (writes : List (List TableWrite)) : MovingData where
  table := rows.zipIdx.map fun r => ⟨r.2, r.1⟩
  nextId := rows.length
  writes := writes

def write (d : MovingData) : TableWrite → MovingData
  | .insert row => { d with table := d.table ++ [⟨d.nextId, row⟩], nextId := d.nextId + 1 }
  | .delete position => { d with table := d.table.eraseIdx position }

/-- The state that a fetch reads: other clients have been at work since the last one. -/
def next (d : MovingData) : MovingData :=
  let d' := (d.writes.headD []).foldl write d
  { d' with writes := d.writes.tail, seen := d.seen ++ [d'.table] }

end MovingData

/-- A source that others write to between two fetches. -/
def movingSource : BaseDatabaseProvider MovingData :=
  Engine.provider { Engine.idle with
    fetch := fun q d => (.returned (selectRows (d.next.table.map (·.row)) q), d.next) }

/-- A destination that accepts every batch. -/
def notingDestination : BaseDatabaseProvider MovingData :=
  { Engine.provider Engine.idle with
    createTable := fun _ => pure ()
    insertBatch := fun _ rows _ => do
      Call.modify fun d => { d with accepted := d.accepted ++ [rows] }
      pure rows.length
    truncateTable := fun _ => pure () }

/-- One copy of a table that others write to, under any faults and callbacks. -/
structure MovingRun (X : Type) where
  settings : MigrationSettings := {}
  fetchFault : Fault X := fun e => (none, e)
  destinationFaults : Faults X := {}
  onProgress : Option (String → Nat → Nat → Option String → Fault X) := none
  onLog : Option (String → String → Option String → Fault X) := none
  sleep : Nat → Fault X := fun _ e => (none, e)

variable {X : Type}

def MovingRun.site (c : MovingRun X) : Site MovingData X where
  source := movingSource
  destination := notingDestination
  settings := c.settings
  sourceFaults := { fetchBatch := c.fetchFault }
  destinationFaults := c.destinationFaults
  notes := { kept := fun before _ => before }
  onProgress := c.onProgress
  onLog := c.onLog
  sleep := c.sleep

namespace MovingData

open MovingPages (Follows)

/-- Identities are not shared, and new ones are still to come. -/
structure Fresh (d : MovingData) : Prop where
  ids : (d.table.map (·.id)).Nodup
  below : ∀ e ∈ d.table, e.id < d.nextId

/-- From `d` to `d'` rows were only removed, and new ones added at the end. -/
structure Since (d d' : MovingData) : Prop where
  table : ∃ kept new, d'.table = kept ++ new ∧ kept.Sublist d.table ∧ ∀ e ∈ new, d.nextId ≤ e.id
  nextId : d.nextId ≤ d'.nextId

theorem Since.trans {d d' d'' : MovingData} (h : Since d d') (h' : Since d' d'') : Since d d'' := by
  obtain ⟨⟨kept, new, htable, hkept, hnew⟩, hid⟩ := h
  obtain ⟨⟨kept', new', htable', hkept', hnew'⟩, hid'⟩ := h'
  rw [htable] at hkept'
  obtain ⟨left, right, hsplit, hleft, hright⟩ := List.sublist_append_iff.mp hkept'
  refine ⟨⟨left, right ++ new', ?_, hleft.trans hkept, ?_⟩, Nat.le_trans hid hid'⟩
  · rw [htable', hsplit, List.append_assoc]
  · intro e he
    rcases List.mem_append.mp he with hr | hn
    · exact hnew e (hright.subset hr)
    · exact Nat.le_trans hid (hnew' e hn)

theorem since_write {d : MovingData} (h : d.Fresh) (w : TableWrite) :
    Since d (d.write w) ∧ (d.write w).Fresh := by
  cases w with
  | insert row =>
    refine ⟨⟨⟨d.table, [⟨d.nextId, row⟩], rfl, List.Sublist.refl _, by simp⟩,
      Nat.le_succ d.nextId⟩, ?_, ?_⟩
    · have hids : (d.write (.insert row)).table.map (·.id) = d.table.map (·.id) ++ [d.nextId] := by
        simp [write]
      rw [hids]
      refine h.ids.append (List.nodup_singleton _) ?_
      rw [List.disjoint_singleton]
      intro hmem
      obtain ⟨e, he, hid⟩ := List.mem_map.mp hmem
      have hlt := h.below e he
      omega
    · intro e he
      rcases List.mem_append.mp he with hold | hnew
      · exact Nat.lt_succ_of_lt (h.below e hold)
      · rw [List.mem_singleton.mp hnew]
        exact Nat.lt_succ_self d.nextId
  | delete position =>
    have hsub : (d.table.eraseIdx position).Sublist d.table := List.eraseIdx_sublist _ _
    refine ⟨⟨⟨_, [], (List.append_nil _).symm, hsub, by simp⟩, Nat.le_refl _⟩, ?_, ?_⟩
    · exact h.ids.sublist (hsub.map _)
    · exact fun e he => h.below e (hsub.subset he)

theorem since_writes (ws : List TableWrite) {d : MovingData} (h : d.Fresh) :
    Since d (ws.foldl write d) ∧ (ws.foldl write d).Fresh := by
  induction ws generalizing d with
  | nil => exact ⟨⟨⟨d.table, [], by simp, List.Sublist.refl _, by simp⟩, Nat.le_refl _⟩, h⟩
  | cons w ws ih =>
    obtain ⟨hone, hfresh⟩ := since_write h w
    obtain ⟨hrest, hfresh'⟩ := ih hfresh
    exact ⟨hone.trans hrest, hfresh'⟩

theorem next_accepted (d : MovingData) : d.next.accepted = d.accepted := by
  have hwrite : ∀ (d : MovingData) (w : TableWrite), (d.write w).accepted = d.accepted := by
    intro d w
    cases w <;> rfl
  have hwrites : ∀ (ws : List TableWrite) (d : MovingData),
      (ws.foldl write d).accepted = d.accepted := by
    intro ws
    induction ws with
    | nil => exact fun _ => rfl
    | cons w ws ih => exact fun d => (ih (d.write w)).trans (hwrite d w)
  exact hwrites (d.writes.headD []) d

theorem Since.follows {d d' : MovingData} (h : Since d d') (hd : d.Fresh) :
    Follows d.table d'.table := by
  obtain ⟨⟨kept, new, htable, hkept, hnew⟩, -⟩ := h
  refine ⟨kept, new, htable, hkept, ?_⟩
  intro e he hold
  have hlt := hd.below e hold
  have hge := hnew e he
  omega

theorem start_fresh (rows : List Row) (writes : List (List TableWrite)) :
    (start rows writes).Fresh := by
  constructor
  · have hids : (start rows writes).table.map (·.id) = List.range rows.length := by
      simp [start, List.map_map, Function.comp_def, List.zipIdx_map_snd, List.range_eq_range']
    rw [hids]
    exact List.nodup_range
  · intro e he
    obtain ⟨r, hr, rfl⟩ := List.mem_map.mp he
    exact (List.mem_zipIdx' hr).1

end MovingData

open MovingPages (Follows Overtaken Undisturbed pages page reached)

/-- Between two passes: the offset is where the pages read so far end, and the destination has
accepted their transforms. -/
structure MovingInStep (b : Nat) (mappings : List ColumnMapping) (offset : Nat) (d : MovingData) :
    Prop where
  fresh : d.Fresh
  distinct : ∀ t ∈ d.seen, t.Nodup
  chain : d.seen.IsChain Follows
  current : ∀ t ∈ d.seen.getLast?, t = d.table
  offset : offset = reached b 0 d.seen
  accepted : List.Forall₂
    (fun p batch => MigrationExecutor.transform mappings (p.map (·.row)) = .ok batch)
    (pages b 0 d.seen) d.accepted

/-- How the copy ends when it succeeds: the last page was empty, the others were accepted. -/
structure MovingDone (b : Nat) (mappings : List ColumnMapping) (d : MovingData) : Prop where
  distinct : ∀ t ∈ d.seen, t.Nodup
  chain : d.seen.IsChain Follows
  last : (pages b 0 d.seen).getLast? = some []
  accepted : List.Forall₂
    (fun p batch => MigrationExecutor.transform mappings (p.map (·.row)) = .ok batch)
    (pages b 0 d.seen).dropLast d.accepted

theorem movingInStep_start (b : Nat) (mappings : List ColumnMapping) (rows : List Row)
    (writes : List (List TableWrite)) :
    MovingInStep b mappings 0 (MovingData.start rows writes) where
  fresh := MovingData.start_fresh rows writes
  distinct := by simp [MovingData.start]
  chain := List.isChain_nil
  current := by simp [MovingData.start]
  offset := rfl
  accepted := List.Forall₂.nil

/-- What one more fetch adds to the tables seen. -/
theorem MovingInStep.next {b offset : Nat} {mappings : List ColumnMapping} {d : MovingData}
    (h : MovingInStep b mappings offset d) :
    d.next.Fresh ∧ (∀ t ∈ d.next.seen, t.Nodup) ∧ d.next.seen.IsChain Follows ∧
      pages b 0 d.next.seen = pages b 0 d.seen ++ [page b offset d.next.table] := by
  obtain ⟨hsince, hfresh⟩ := MovingData.since_writes (d.writes.headD []) h.fresh
  have hnext : d.next.Fresh := ⟨hfresh.ids, hfresh.below⟩
  have hseen : d.next.seen = d.seen ++ [d.next.table] := rfl
  refine ⟨hnext, ?_, ?_, ?_⟩
  · intro t ht
    rcases List.mem_append.mp ht with hold | hnew
    · exact h.distinct t hold
    · rw [List.mem_singleton.mp hnew]
      exact hnext.ids.of_map _
  · rw [hseen, List.isChain_append]
    refine ⟨h.chain, List.isChain_singleton _, ?_⟩
    intro t ht t' ht'
    rw [h.current t ht]
    have he : t' = d.next.table := by simpa using ht'.symm
    rw [he]
    exact hsince.follows h.fresh
  · rw [hseen, MovingPages.pages_snoc, h.offset]

section run

variable (c : MovingRun X) (tp : MigrationTablePlan)

/-- A pass over the moving table keeps the copy in step, or ends it. -/
private theorem dwp_movingPass {v : CopyVars} {d : MovingData} {n : Nat}
    (h : MovingInStep c.settings.batchSize tp.columnMappings v.offset d) :
    dwp (c.site.executor.copyPass tp v)
      ⟨fun p d' _ => match p with
        | .again v' => MovingInStep c.settings.batchSize tp.columnMappings v'.offset d'
        | .done ok => ok = true → MovingDone c.settings.batchSize tp.columnMappings d',
        fun _ _ => True, True⟩ d n := by
  obtain ⟨hfresh, hdistinct, hchain, hpages⟩ := h.next
  have hread : selectRows (d.next.table.map (·.row))
      ⟨MigrationExecutor.selectedColumns tp.columnMappings, tp.tableName, c.settings.batchSize,
        v.offset⟩ =
      ((page c.settings.batchSize v.offset d.next.table).map (·.row)).map
        (pickColumns (MigrationExecutor.selectedColumns tp.columnMappings)) := by
    simp [selectRows, page, List.map_drop, List.map_take]
  refine dwp_copyPass c.site tp v (fun batch d' => d' = d.next ∧ batch =
      ((page c.settings.batchSize v.offset d.next.table).map (·.row)).map
        (pickColumns (MigrationExecutor.selectedColumns tp.columnMappings)))
    (fun d' => d' = d) ⟨rfl, hread⟩ (fun _ => rfl) ?_ ?_ ?_
  · intro d' heq
    subst heq
    exact ⟨fun _ => trivial, fun _ => h, fun _ hfalse => by cases hfalse⟩
  · intro d' hparts
    obtain ⟨rfl, hbatch⟩ := hparts
    have hempty : page c.settings.batchSize v.offset d.next.table = [] := by simpa using hbatch.symm
    rw [hempty] at hpages
    refine ⟨fun _ => ⟨hdistinct, hchain, by simp [hpages], ?_⟩, fun _ => trivial⟩
    rw [hpages, List.dropLast_concat, d.next_accepted]
    exact h.accepted
  · intro batch d' hne hfound
    obtain ⟨rfl, rfl⟩ := hfound
    refine ⟨fun _ _ => trivial, ?_⟩
    intro out hout
    rw [MigrationExecutor.transform_map_pickColumns] at hout
    refine dwp_insertWithRetry c.site tp.tableName out (fun d' => d' = d.next)
      (fun d' => d' = { d.next with accepted := d.next.accepted ++ [out] }) (fun d' => d' = d.next)
      (fun d' hd' => by subst hd'; rfl) (fun d' _ _ hd' => hd') (fun _ h => h) ?_
      (fun _ _ => ⟨fun hfalse => (by cases hfalse), fun _ => trivial⟩) rfl
    intro d' hsame
    subst hsame
    refine ⟨⟨⟨hfresh.ids, hfresh.below⟩, hdistinct, hchain, ?_, ?_, ?_⟩, fun _ => trivial⟩
    · intro t ht
      have hlast : d.next.seen.getLast? = some d.next.table :=
        List.getLast?_concat
      exact Option.some.inj (ht.symm.trans hlast)
    · change v.offset + _ = reached c.settings.batchSize 0 d.next.seen
      rw [reached, hpages, List.flatten_append, List.length_append, h.offset, reached]
      simp
    · change List.Forall₂ _ (pages c.settings.batchSize 0 d.next.seen) (d.next.accepted ++ [out])
      rw [hpages, d.next_accepted]
      exact List.rel_append h.accepted (List.Forall₂.cons hout List.Forall₂.nil)

private theorem dwp_movingTable (fuel : Nat) {d : MovingData} (n : Nat)
    (h : MovingInStep c.settings.batchSize tp.columnMappings 0 d)
    (hdata : c.settings.includeData = true) :
    dwp (c.site.executor.migrateTable fuel tp)
      ⟨fun ok d' _ => ok = true → MovingDone c.settings.batchSize tp.columnMappings d',
        fun _ _ => True, True⟩ d n := by
  refine dwp_migrateTable c.site fuel tp (· = d) (· = d) (· = d) (fun _ => trivial) (fun _ => rfl)
    (fun _ => ⟨fun _ => rfl, rfl⟩) (fun _ h _ => h)
    (fun _ _ => ⟨fun hfalse => (by cases hfalse), fun _ => trivial⟩) (fun _ h _ => h)
    (fun _ hd _ => ⟨fun _ => hd, hd⟩) (fun _ _ _ => trivial) ?_ ?_
  · intro _ _ hno
    exact absurd (hdata.symm.trans hno) (by decide)
  · intro d' heq _
    subst heq
    refine dwp_loop_weak
      (fun v d'' _ => MovingInStep c.settings.batchSize tp.columnMappings v.offset d'') ?_ trivial h
    intro v d'' m hv
    refine dwp_mono (dwp_movingPass c tp hv) ?_ (fun _ _ h => h)
    intro p d₁ m₁ hp
    cases p with
    | again v' => exact hp
    | done ok => exact hp

/-- A copy that succeeds while others write to the source: what `insert_batch` accepted are the
transforms of the pages read. A row that stays is on at most one of them, and on one just when the
offset does not overtake it: in particular where no row the loop has passed is deleted. -/
theorem moving_source_pages (hbatch : 0 < c.settings.batchSize)
    (hdata : c.settings.includeData = true) (rows : List Row) (writes : List (List TableWrite))
    (fuel : Nat) (e : X) (n : Nat) {s : SiteState MovingData X}
    (hrun : c.site.executor.migrateTable fuel tp ⟨⟨.start rows writes, e⟩, n⟩ =
      (.returned true, s)) :
    List.Forall₂
      (fun p batch => MigrationExecutor.transform tp.columnMappings (p.map (·.row)) = .ok batch)
      (pages c.settings.batchSize 0 s.world.data.seen).dropLast s.world.data.accepted ∧
    (pages c.settings.batchSize 0 s.world.data.seen).getLast? = some [] ∧
    ∀ entry, (∀ t ∈ s.world.data.seen, entry ∈ t) →
      (pages c.settings.batchSize 0 s.world.data.seen).flatten.count entry ≤ 1 ∧
      ((pages c.settings.batchSize 0 s.world.data.seen).flatten.count entry = 1 ↔
        ¬ Overtaken c.settings.batchSize entry 0 s.world.data.seen) ∧
      (Undisturbed c.settings.batchSize 0 s.world.data.seen →
        (pages c.settings.batchSize 0 s.world.data.seen).flatten.count entry = 1) := by
  have hstart := movingInStep_start c.settings.batchSize tp.columnMappings rows writes
  have hdone := Call.wp_of_returned (dwp_movingTable c tp fuel n hstart hdata e) hrun rfl
  refine ⟨hdone.accepted, hdone.last, ?_⟩
  intro entry hstays
  obtain ⟨hle, hiff⟩ := MovingPages.count_pages (b := c.settings.batchSize) hdone.distinct hstays
    hdone.chain (fun _ _ => Nat.zero_le _)
  have hcount := hiff hbatch hdone.last
  refine ⟨hle, hcount, ?_⟩
  intro hquiet
  exact hcount.mpr (MovingPages.not_overtaken_of_undisturbed hstays hquiet)

end run

/-- Three rows in batches of one; the first one is deleted between the first two fetches. -/
def shrinkingSource : MovingData :=
  .start ([1, 2, 3].map fun i => Dict.ofList [("n", .int i)]) [[], [.delete 0]]

def eventsTable : MigrationTablePlan where
  tableName := "events"
  sourceSchema := { name := "events", columns := [] }

/-- The second row is in the source all the time, the copy succeeds, and it is never copied. -/
theorem staying_row_skipped :
    ∃ s, (({ settings := { batchSize := 1 } } : MovingRun Unit).site.executor.migrateTable 9
        eventsTable ⟨⟨shrinkingSource, ()⟩, 0⟩) = (.returned true, s) ∧
      (∀ t ∈ s.world.data.seen, ⟨1, Dict.ofList [("n", .int 2)]⟩ ∈ t) ∧
      s.world.data.accepted = [[Dict.ofList [("n", .int 1)]], [Dict.ofList [("n", .int 3)]]] := by
  refine ⟨_, Prod.ext (by decide) rfl, by decide, by decide⟩

/-- Three rows, and a fourth one that is added during the copy. -/
def growingSource : MovingData :=
  .start ([1, 2, 3].map fun i => Dict.ofList [("n", .int i)])
    [[], [.insert (Dict.ofList [("n", .int 4)])]]

/-- Here every row that stays is copied once. -/
theorem moving_source_pages_growing :
    ∃ s, (({ settings := { batchSize := 1 } } : MovingRun Unit).site.executor.migrateTable 9
        eventsTable ⟨⟨growingSource, ()⟩, 0⟩) = (.returned true, s) ∧
      (pages 1 0 s.world.data.seen).flatten.count ⟨1, Dict.ofList [("n", .int 2)]⟩ = 1 := by
  have hrun : ({ settings := { batchSize := 1 } } : MovingRun Unit).site.executor.migrateTable 9
      eventsTable ⟨⟨growingSource, ()⟩, 0⟩ =
        (.returned true, (({ settings := { batchSize := 1 } } : MovingRun Unit).site.executor.migrateTable
          9 eventsTable ⟨⟨growingSource, ()⟩, 0⟩).2) := Prod.ext (by decide) rfl
  obtain ⟨-, -, hcount⟩ := moving_source_pages ({ settings := { batchSize := 1 } } : MovingRun Unit)
    eventsTable (by decide) rfl _ _ 9 () 0 hrun
  obtain ⟨-, -, hquiet⟩ := hcount ⟨1, Dict.ofList [("n", .int 2)]⟩ (by decide)
  exact ⟨_, hrun, hquiet (by decide)⟩

end DataBridge

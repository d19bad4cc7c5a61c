import DataBridge.Migration.RestartKeyed

namespace DataBridge

/-- A truncation that empties the table, or raises and leaves it. -/
def KeyedData.truncate (raises : Option Exc) : Call Exc KeyedData Unit :=
  match raises with
  | none => Call.modify fun d => { content := [], past := d.timeline }
  | some exc => Call.raise exc

def truncatableDestination (keyColumns : List String) (truncateRaises : Option Exc) :
    BaseDatabaseProvider KeyedData :=
  { uniqueDestination keyColumns with truncateTable := fun _ => KeyedData.truncate truncateRaises }

/-- One copy into a table that may hold rows, and how the truncation before it ends. -/
structure TruncatedCopy (X : Type) extends KeyedRestart X where
  truncateRaises : Option Exc := none

variable {X : Type}

namespace TruncatedCopy

def site (c : TruncatedCopy X) : Site KeyedData X :=
  { c.toKeyedRestart.site with
    destination := truncatableDestination c.keyColumns c.truncateRaises }

/-- What the copy starts from. -/
def cleared (c : TruncatedCopy X) (d : KeyedData) : KeyedData :=
  match c.truncateRaises with
  | none => { content := [], past := d.timeline }
  | some _ => d

theorem wp_truncateTable (c : TruncatedCopy X) (table : String) (d : KeyedData) :
    Call.wp (c.site.destination.truncateTable table)
      ⟨fun _ d' => d' = c.cleared d, fun _ d' => d' = c.cleared d, fun _ => False⟩ d := by
  change Call.wp (KeyedData.truncate c.truncateRaises) _ d
  rw [cleared]
  cases c.truncateRaises with
  | none => rfl
  | some exc => rfl

/-- The rows left by the truncation are among those of `target` just when it did not raise, or
the old rows are. -/
theorem cleared_subperm_iff (c : TruncatedCopy X) (d : KeyedData) (target : List Row) :
    (c.cleared d).content.Subperm target ↔
      c.truncateRaises = none ∨ d.content.Subperm target := by
  rw [cleared]
  cases c.truncateRaises with
  | none => simp
  | some exc => simp

end TruncatedCopy

section copy

variable (c : TruncatedCopy X) (tp : MigrationTablePlan) {fuel : Nat} {target : List Row}
  {cols : List String}

/-- A truncation that raises is only logged: the copy goes on into the table as it is. -/
theorem dwp_truncatedCopy (hbatch : 0 < c.settings.batchSize)
    (hdata : c.settings.includeData = true) (htruncate : c.settings.truncateDestination = true)
    (hcols : ∀ r ∈ target, r.keys = cols)
    (htarget : MigrationExecutor.transform tp.columnMappings c.rows = .ok target)
    (hfuel : copyFuel c.rows.length c.settings ≤ fuel) (start : KeyedData) (n : Nat) :
    dwp (c.site.executor.migrateTable fuel tp)
      ⟨fun ok d' _ => ok = true → Reached c.keyColumns target (c.cleared start) target.length d',
        fun _ _ => True, False⟩ start n := by
  have hsteps : CopySteps c.site tp.tableName target _ _ :=
    reached_copySteps tp.tableName hcols rfl rfl (c.cleared start)
  have hloop := dwp_copyLoop c.site tp (staticSource_serves _ _) htarget hbatch hsteps hfuel n
    (reached_start c.keyColumns target (c.cleared start))
  refine dwp_migrateTable c.site fuel tp (· = start) (· = start) (· = c.cleared start)
    (fun _ => trivial) (fun _ => rfl) (fun _ => ⟨fun _ => rfl, rfl⟩) (fun _ h _ => h) ?_ ?_ ?_
    (fun _ _ _ => trivial) ?_ ?_
  · exact fun _ _ => ⟨fun h => (by cases h), fun _ => trivial⟩
  · intro d' _ ht
    exact absurd (htruncate.symm.trans ht) (by decide)
  · intro d' hd _
    subst hd
    refine ⟨?_, c.wp_truncateTable tp.tableName d'⟩
    intro hfault
    obtain ⟨e, exc, he⟩ := hfault
    cases he
  · intro d' _ hi
    exact absurd (hdata.symm.trans hi) (by decide)
  · intro d' hd _
    subst hd
    refine dwp_mono hloop ?_ (fun _ _ _ => trivial)
    intro ok d'' m h hok
    subst hok
    exact h.1

/-- A table that is truncated and copied, and reported as a success, is the transformed source just
when the truncation did not raise, or the rows it left are some of that source. -/
theorem truncate_then_copy_iff (hbatch : 0 < c.settings.batchSize)
    (hdata : c.settings.includeData = true) (htruncate : c.settings.truncateDestination = true)
    (hincluded : ∃ m ∈ tp.columnMappings, m.included = true)
    (htarget : applyMappings c.rows tp.columnMappings = .ok target)
    (hkeys : (target.map (Row.key c.keyColumns)).Nodup)
    (hfuel : copyFuel c.rows.length c.settings ≤ fuel) (s : SiteState KeyedData X) :
    (c.site.executor.migrateTable fuel tp s).1 ≠ .exhausted ∧
    ∀ s', c.site.executor.migrateTable fuel tp s = (.returned true, s') →
      (s'.world.data.content.Perm target ↔
        c.truncateRaises = none ∨ s.world.data.content.Subperm target) := by
  have htransform : MigrationExecutor.transform tp.columnMappings c.rows = .ok target :=
    (MigrationExecutor.transform_of_included hincluded c.rows).trans htarget
  obtain ⟨cols, hcols⟩ := applyMappings_keys htarget
  have hwp := dwp_truncatedCopy c tp hbatch hdata htruncate hcols htransform hfuel
    s.world.data s.totalRowsProcessed s.world.env
  constructor
  · intro hx
    have hrun : c.site.executor.migrateTable fuel tp s =
        (.exhausted, (c.site.executor.migrateTable fuel tp s).2) := Prod.ext hx rfl
    exact Call.wp_of_exhausted hwp hrun
  · intro s' hrun
    obtain ⟨added, hadded, htake, hd⟩ := Call.wp_of_returned hwp hrun rfl
    rw [List.take_length] at htake
    rw [← c.cleared_subperm_iff, hd, KeyedData.addAll_content]
    exact Keyed.insertAll_perm_iff _ hkeys hadded htake

end copy

/-- One row to copy, and a truncation that is refused. -/
private def refusedTruncation : TruncatedCopy Unit where
  rows := [Dict.ofList [("id", .int 1), ("note", .str "new")]]
  settings := { truncateDestination := true }
  keyColumns := ["id"]
  truncateRaises := some ⟨.other, "permission denied"⟩

private def notesTable : MigrationTablePlan where
  tableName := "notes"
  sourceSchema := { name := "notes", columns := [] }
  columnMappings := [
    { sourceCol := "id", destCol := "id", sourceType := "INTEGER", destType := "INTEGER",
      included := true },
    { sourceCol := "note", destCol := "note", sourceType := "TEXT", destType := "TEXT",
      included := true }]

private def staleNotes : SiteState KeyedData Unit :=
  { world := { data := ⟨[Dict.ofList [("id", .int 1), ("note", .str "old")]], []⟩, env := () } }

private def refusedRun : Outcome Exc Bool × SiteState KeyedData Unit :=
  refusedTruncation.site.executor.migrateTable 8 notesTable staleNotes

theorem truncate_then_copy_iff_refused :
    refusedRun.2.world.data.content.Perm refusedTruncation.rows ↔
      refusedTruncation.truncateRaises = none ∨
        staleNotes.world.data.content.Subperm refusedTruncation.rows := by
  have hreturned : refusedRun.1 = .returned true := by decide
  exact (truncate_then_copy_iff refusedTruncation notesTable (by decide) rfl rfl
    ⟨_, List.mem_cons_self, rfl⟩ (by decide) (by decide) (by decide : copyFuel _ _ ≤ 8)
    staleNotes).2 _ (Prod.ext hreturned rfl)

/-- The table is reported as migrated, and its one row is still the old one. -/
theorem refused_truncation_keeps_old :
    applyMappings refusedTruncation.rows notesTable.columnMappings = .ok refusedTruncation.rows ∧
    refusedRun.1 = .returned true ∧
    refusedRun.2.world.data.content = staleNotes.world.data.content ∧
    ¬ refusedRun.2.world.data.content.Perm refusedTruncation.rows := by
  decide

end DataBridge

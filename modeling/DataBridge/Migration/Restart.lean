import DataBridge.Migration.StaticSource
import Mathlib.Algebra.Order.Group.Multiset
import Mathlib.Algebra.BigOperators.Group.List.Basic

namespace DataBridge

/-- A table without any unique key, and the rows that raising inserts have kept in it. -/
structure BagData where
  content : Multiset Row
  kept : Multiset Row
  deriving DecidableEq

def BagData.noteKept (before after : BagData) : BagData :=
  { after with kept := before.kept + (after.content - before.content) }

def BagData.add (rows : List Row) (d : BagData) : BagData :=
  { d with content := d.content + (rows : Multiset Row) }

/-- A destination table without any unique constraint: no statement skips a row. -/
def keylessDestination : BaseDatabaseProvider BagData :=
  { Engine.provider { Engine.idle with executemany := fun q => Call.modify (BagData.add q.rows) } with
    createTable := fun _ => pure () }

/-- One table and everything that may go wrong while a migration copies it again and again. A
raising insert keeps any prefix of its batch; `between` is what happens before a restart. -/
structure RestartRun (X : Type) where
  rows : List Row
  settings : MigrationSettings
  createFault : Fault X := fun e => (none, e)
  fetchFault : Fault X := fun e => (none, e)
  insertFault : X → Option (Exc × Nat) × X := fun e => (none, e)
  onProgress : Option (String → Nat → Nat → Option String → Fault X) := none
  onLog : Option (String → String → Option String → Fault X) := none
  sleep : Nat → Fault X := fun _ e => (none, e)
  between : X → X := id

variable {X : Type}

namespace RestartRun

def site (c : RestartRun X) : Site BagData X where
  source := staticSource c.rows
  destination := keylessDestination
  settings := c.settings
  sourceFaults := { fetchBatch := c.fetchFault }
  destinationFaults := { createTable := c.createFault, insertBatch := c.insertFault }
  notes := { kept := BagData.noteKept }
  onProgress := c.onProgress
  onLog := c.onLog
  sleep := c.sleep

/-- The table's part of one execution of the task: a new executor, so offset and counter are 0. -/
def attempt (c : RestartRun X) (fuel : Nat) (tp : MigrationTablePlan) (w : World BagData X) :
    Outcome Exc Bool × World BagData X :=
  let r := c.site.executor.migrateTable fuel tp ⟨w, 0⟩
  (r.1, r.2.world)

/-- The world after `k` attempts, each followed by a restart. -/
def afterAttempts (c : RestartRun X) (fuel : Nat) (tp : MigrationTablePlan) :
    Nat → World BagData X → World BagData X
  | 0, w => w
  | k + 1, w =>
    let w' := (c.attempt fuel tp (c.afterAttempts fuel tp k w)).2
    { w' with env := c.between w'.env }

end RestartRun

/-- Since `start`, raising inserts kept `extra` and the first `o` rows of `target` were accepted. -/
def Grown (target : List Row) (start : BagData) (o : Nat) (d : BagData) : Prop :=
  ∃ extra, d.kept = start.kept + extra ∧
    d.content = start.content + extra + (target.take o : Multiset Row)

private theorem grown_accept {target batch : List Row} {start d : BagData} {o : Nat}
    (h : Grown target start o d)
    (hnext : target.take o ++ batch = target.take (o + batch.length)) :
    Grown target start (o + batch.length) (d.add batch) := by
  obtain ⟨extra, hkept, hcontent⟩ := h
  refine ⟨extra, hkept, ?_⟩
  change d.content + _ = _
  rw [hcontent, ← hnext, add_assoc, Multiset.coe_add]

private theorem grown_keep {target part : List Row} {start d : BagData} {o : Nat}
    (h : Grown target start o d) : Grown target start o (d.noteKept (d.add part)) := by
  obtain ⟨extra, hkept, hcontent⟩ := h
  refine ⟨extra + (part : Multiset Row), ?_, ?_⟩
  · change d.kept + (d.content + (part : Multiset Row) - d.content) = _
    rw [add_tsub_cancel_left, hkept, add_assoc]
  · change d.content + (part : Multiset Row) = _
    rw [hcontent, ← add_assoc, add_right_comm]

/-- What `insert_batch` does with rows that all have the columns of the first one. -/
private theorem keylessDestination_insert (table : String) {cols : List String} {batch : List Row}
    (hcols : ∀ r ∈ batch, r.keys = cols) (d : BagData) :
    keylessDestination.insertBatch table batch none d = (.returned batch.length, d.add batch) := by
  cases batch with
  | nil =>
    change (Outcome.returned 0, d) = (Outcome.returned 0, { d with content := d.content + 0 })
    rw [add_zero]
  | cons first rest =>
    have hrows : (Insert.ofRows table none first (first :: rest)).rows = first :: rest := by
      apply Insert.rows_ofRows
      intro r hr
      rw [hcols r hr, hcols first (by simp)]
    change (Outcome.returned _, d.add (Insert.ofRows table none first (first :: rest)).rows) = _
    rw [hrows]

section attempts

variable (c : RestartRun X) (tp : MigrationTablePlan) {fuel : Nat} {target : List Row}
  {cols : List String}

private theorem dwp_recopy (hbatch : 0 < c.settings.batchSize)
    (hdata : c.settings.includeData = true) (htruncate : c.settings.truncateDestination = false)
    (hcols : ∀ r ∈ target, r.keys = cols)
    (htarget : MigrationExecutor.transform tp.columnMappings c.rows = .ok target)
    (hfuel : copyFuel c.rows.length c.settings ≤ fuel) (start : BagData) (n : Nat) :
    dwp (c.site.executor.migrateTable fuel tp)
      ⟨fun ok d' _ => match ok with
        | true => Grown target start target.length d'
        | false => ∃ o ≤ target.length, Grown target start o d',
        fun d' _ => ∃ o ≤ target.length, Grown target start o d', False⟩ start n := by
  have hstart : Grown target start 0 start := ⟨0, by simp, by simp⟩
  have hwindow : ∀ o, ∀ r ∈ window target o c.settings.batchSize, r.keys = cols := by
    intro o r hr
    exact hcols r (List.mem_of_mem_drop (List.mem_of_mem_take hr))
  have hsteps : CopySteps c.site tp.tableName target (Grown target start) (Grown target start) := by
    refine ⟨?_, ?_, fun _ _ h => h⟩
    · intro o d _ hg
      have hrun := keylessDestination_insert tp.tableName (hwindow o) d
      apply Call.wp_of_eq_returned hrun
      exact grown_accept hg (take_append_window target o c.settings.batchSize)
    · intro o d k _ _ hg
      have hpart : ∀ r ∈ (window target o c.settings.batchSize).take k, r.keys = cols :=
        fun r hr => hwindow o r (List.mem_of_mem_take hr)
      have hrun := keylessDestination_insert tp.tableName hpart d
      change Grown target start o (d.noteKept (keylessDestination.insertBatch tp.tableName
        ((window target o c.settings.batchSize).take k) none d).2)
      rw [hrun]
      exact grown_keep hg
  have hcopy := dwp_copyTable c.site tp (staticSource_serves _ _) htarget hbatch hsteps hdata htruncate
    rfl hfuel n hstart
  refine dwp_mono hcopy ?_ ?_
  · intro ok d m h
    cases ok with
    | true => exact h.1
    | false =>
      obtain ⟨o, ho, hg, -⟩ := h
      exact ⟨o, ho, hg⟩
  · intro d m h
    obtain ⟨o, ho, hg, -⟩ := h
    exact ⟨o, ho, hg⟩

/-- One attempt ends, keeps what was there, and adds a prefix of the table and what its raising
inserts kept; the prefix is the whole table when the attempt succeeds. -/
private theorem attempt_grows (hbatch : 0 < c.settings.batchSize)
    (hdata : c.settings.includeData = true) (htruncate : c.settings.truncateDestination = false)
    (hcols : ∀ r ∈ target, r.keys = cols)
    (htarget : MigrationExecutor.transform tp.columnMappings c.rows = .ok target)
    (hfuel : copyFuel c.rows.length c.settings ≤ fuel) (w : World BagData X) :
    (c.attempt fuel tp w).1 ≠ .exhausted ∧
      ((c.attempt fuel tp w).1 = .returned true →
        Grown target w.data target.length (c.attempt fuel tp w).2.data) ∧
      ∃ o ≤ target.length, Grown target w.data o (c.attempt fuel tp w).2.data := by
  have hwp := dwp_recopy c tp hbatch hdata htruncate hcols htarget hfuel w.data 0 w.env
  rw [RestartRun.attempt]
  cases hrun : c.site.executor.migrateTable fuel tp ⟨w, 0⟩ with
  | mk outcome s' =>
    cases outcome with
    | exhausted => exact (Call.wp_of_exhausted hwp hrun).elim
    | raised exc => exact ⟨by simp, by simp, Call.wp_of_raised hwp hrun⟩
    | returned ok =>
      cases ok with
      | true =>
        have hfull : Grown target w.data target.length s'.world.data := Call.wp_of_returned hwp hrun
        exact ⟨by simp, fun _ => hfull, target.length, le_rfl, hfull⟩
      | false => exact ⟨by simp, by simp, Call.wp_of_returned hwp hrun⟩

/-- A migration restarted `k` times. Before the last attempt the table holds one prefix of the
source for each earlier attempt, and the rows raising inserts kept. A successful attempt adds one
more copy: no row is lost, and none is doubled just when the table was empty and no raising insert
of this attempt kept a row. -/
theorem restart_multiplicity (hbatch : 0 < c.settings.batchSize)
    (hdata : c.settings.includeData = true) (htruncate : c.settings.truncateDestination = false)
    (hdistinct : (tp.columnMappings.map (·.destCol)).Nodup)
    (hrows : ∀ r ∈ c.rows, r.keys = cols)
    (htarget : MigrationExecutor.transform tp.columnMappings c.rows = .ok target)
    (hfuel : copyFuel c.rows.length c.settings ≤ fuel) (w : World BagData X)
    (hempty : w.data = ⟨0, 0⟩) (k : Nat) :
    (∃ copied : List Nat, copied.length = k ∧ (∀ o ∈ copied, o ≤ target.length) ∧
      (c.afterAttempts fuel tp k w).data.content = (c.afterAttempts fuel tp k w).data.kept +
        (copied.map fun o => (target.take o : Multiset Row)).sum) ∧
    ∀ w', c.attempt fuel tp (c.afterAttempts fuel tp k w) = (.returned true, w') →
      ∃ keptNow, w'.data.kept = (c.afterAttempts fuel tp k w).data.kept + keptNow ∧
        w'.data.content =
          (c.afterAttempts fuel tp k w).data.content + keptNow + (target : Multiset Row) ∧
        (∀ r, target.count r ≤ w'.data.content.count r) ∧
        ((∀ r, w'.data.content.count r = target.count r) ↔
          (c.afterAttempts fuel tp k w).data.content = 0 ∧ keptNow = 0) := by
  obtain ⟨cols', hcols⟩ := MigrationExecutor.transform_keys hdistinct hrows htarget
  have hgrow := attempt_grows c tp hbatch hdata htruncate hcols htarget hfuel
  constructor
  · induction k with
    | zero => exact ⟨[], rfl, by simp, by simp [RestartRun.afterAttempts, hempty]⟩
    | succ k ih =>
      obtain ⟨copied, hlen, hle, hcontent⟩ := ih
      obtain ⟨-, -, o, ho, extra, hkept, hnew⟩ := hgrow (c.afterAttempts fuel tp k w)
      refine ⟨o :: copied, by simp [hlen], ?_, ?_⟩
      · intro o' ho'
        rcases List.mem_cons.mp ho' with h | h
        · exact h ▸ ho
        · exact hle o' h
      · change (c.attempt fuel tp (c.afterAttempts fuel tp k w)).2.data.content =
          (c.attempt fuel tp (c.afterAttempts fuel tp k w)).2.data.kept + _
        rw [hnew, hkept, hcontent, List.map_cons, List.sum_cons]
        ac_rfl
  · intro w' hrun
    obtain ⟨-, hfull, -⟩ := hgrow (c.afterAttempts fuel tp k w)
    rw [hrun] at hfull
    obtain ⟨keptNow, hkept, hcontent⟩ := hfull rfl
    rw [List.take_length] at hcontent
    have hcount : ∀ r, w'.data.content.count r =
        ((c.afterAttempts fuel tp k w).data.content + keptNow).count r + target.count r := by
      intro r
      rw [hcontent, Multiset.count_add, Multiset.coe_count]
    refine ⟨keptNow, hkept, hcontent, fun r => by rw [hcount]; omega, ?_⟩
    constructor
    · intro h
      have hzero : ∀ r, (c.afterAttempts fuel tp k w).data.content.count r = 0 ∧
          keptNow.count r = 0 := by
        intro r
        have hr := h r
        rw [hcount, Multiset.count_add] at hr
        omega
      exact ⟨Multiset.ext.mpr fun r => by simpa using (hzero r).1,
        Multiset.ext.mpr fun r => by simpa using (hzero r).2⟩
    · intro h r
      rw [hcount, h.1, h.2]
      simp

end attempts

/-- Two rows in one batch; an insert raises after keeping the first row, whenever the environment
says so. -/
def interruptedCopy : RestartRun (List Bool) where
  rows := [1, 2].map fun i => Dict.ofList [("n", .int i)]
  settings := { batchSize := 2, maxRetries := 1 }
  insertFault := fun e => match e with
    | true :: later => (some (⟨.other, "lost connection"⟩, 1), later)
    | false :: later => (none, later)
    | [] => (none, [])

def keylessTable : MigrationTablePlan where
  tableName := "events"
  sourceSchema := { name := "events", columns := [] }

/-- One retry is enough to double a row, and so is one restart. -/
theorem interruptedCopy_doubles :
    (interruptedCopy.attempt 9 keylessTable ⟨⟨0, 0⟩, [true]⟩).1 = .returned true ∧
      ((interruptedCopy.attempt 9 keylessTable ⟨⟨0, 0⟩, [true]⟩).2.data.content.count
        (Dict.ofList [("n", .int 1)])) = 2 ∧
      (interruptedCopy.attempt 9 keylessTable
        (interruptedCopy.afterAttempts 9 keylessTable 1 ⟨⟨0, 0⟩, [true, true]⟩)).1 =
          .returned true ∧
      ((interruptedCopy.attempt 9 keylessTable
        (interruptedCopy.afterAttempts 9 keylessTable 1 ⟨⟨0, 0⟩, [true, true]⟩)).2.data.content.count
          (Dict.ofList [("n", .int 1)])) = 3 ∧
      interruptedCopy.rows.count (Dict.ofList [("n", .int 1)]) = 1 := by
  decide

theorem restart_multiplicity_interrupted :
    ∃ w', interruptedCopy.attempt 9 keylessTable
        (interruptedCopy.afterAttempts 9 keylessTable 1 ⟨⟨0, 0⟩, [true, true]⟩) =
          (.returned true, w') ∧
      ∀ r, interruptedCopy.rows.count r ≤ w'.data.content.count r := by
  have hreturned : (interruptedCopy.attempt 9 keylessTable
      (interruptedCopy.afterAttempts 9 keylessTable 1 ⟨⟨0, 0⟩, [true, true]⟩)).1 =
        .returned true := by decide
  have hrows : ∀ r ∈ interruptedCopy.rows, r.keys = ["n"] := by decide
  obtain ⟨-, hsuccess⟩ := restart_multiplicity interruptedCopy keylessTable
    (by decide) rfl rfl (by decide) hrows rfl (by decide : copyFuel _ _ ≤ 9)
    ⟨⟨0, 0⟩, [true, true]⟩ rfl 1
  obtain ⟨-, -, -, hcount, -⟩ := hsuccess _ (Prod.ext hreturned rfl)
  exact ⟨_, Prod.ext hreturned rfl, hcount⟩

end DataBridge

import DataBridge.Migration.Frame
import DataBridge.Migration.Instrumented

namespace DataBridge

/-- A world, and what it was after each report of progress. -/
structure Noted (W : Type) where
  inner : W
  notes : List W := []

variable {W α : Type}

namespace Noted

def inside (c : Call Exc W α) : Call Exc (Noted W) α :=
  Call.zoom inner (fun w s => { s with inner := w }) c

/-- A call after which, if it returns, the world is noted. -/
def noteAfter (c : Call Exc W Unit) : Call Exc (Noted W) Unit := fun s =>
  match c s.inner with
  | (.returned (), w) => (.returned (), { inner := w, notes := s.notes ++ [w] })
  | (outcome, w) => (outcome, { s with inner := w })

def provider (p : BaseDatabaseProvider W) : BaseDatabaseProvider (Noted W) :=
  p.within inner fun w s => { s with inner := w }

end Noted

/-- The same executor, with the world noted after every report that returns. -/
def MigrationExecutor.noted (x : MigrationExecutor W) : MigrationExecutor (Noted W) where
  source := Noted.provider x.source
  destination := Noted.provider x.destination
  plan := x.plan
  batchSize := x.batchSize
  includeSchema := x.includeSchema
  includeData := x.includeData
  truncate := x.truncate
  maxRetries := x.maxRetries
  continueOnError := x.continueOnError
  onProgress := x.onProgress.map fun f table inTable total error =>
    Noted.noteAfter (f table inTable total error)
  onLog := x.onLog.map fun f level message table => Noted.inside (f level message table)
  sleep seconds := Noted.inside (x.sleep seconds)

namespace Noted

open Call (Respects)

theorem respects_inside (c : Call Exc W α) : Respects (inner · = ·) (inside c) c :=
  Call.respects_zoom (fun _ _ => rfl) c

theorem respects_noteAfter (c : Call Exc W Unit) : Respects (inner · = ·) (noteAfter c) c := by
  intro s w hs
  subst hs
  rw [noteAfter]
  rcases c s.inner with ⟨_ | _ | _, w⟩
  · exact ⟨rfl, rfl⟩
  · exact ⟨rfl, rfl⟩
  · exact ⟨rfl, rfl⟩

end Noted

namespace MigrationExecutor

theorem noted_instruments (x : MigrationExecutor W) : x.noted.Instruments Noted.inner x where
  fetchBatch _ _ _ _ := Noted.respects_inside _
  createTable _ := Noted.respects_inside _
  insertBatch _ _ _ := Noted.respects_inside _
  truncateTable _ := Noted.respects_inside _
  onProgress := by
    rw [noted]
    cases x.onProgress with
    | none => exact Option.Rel.none
    | some f => exact Option.Rel.some fun t rows total error => Noted.respects_noteAfter _
  onLog := by
    rw [noted]
    cases x.onLog with
    | none => exact Option.Rel.none
    | some f => exact Option.Rel.some fun level message t => Noted.respects_inside _
  sleep _ := Noted.respects_inside _

/-- Noting changes nothing: the noted run ends as the run does, in the same world. -/
theorem run_noted (x : MigrationExecutor W) (fuel : Nat) (w : W) (n : Nat) :
    (x.noted.run fuel ⟨{ inner := w }, n⟩).1 = (x.run fuel ⟨w, n⟩).1 ∧
      SameInner Noted.inner (x.noted.run fuel ⟨{ inner := w }, n⟩).2 (x.run fuel ⟨w, n⟩).2 :=
  x.noted_instruments.run fuel rfl n

/-- What the executor's calls keep, and what holds after each report. -/
structure Reports (I P : W → Prop) (x : MigrationExecutor W) : Prop where
  keeps : x.Keeps I
  reports : ∀ f, x.onProgress = some f → ∀ t rows total error s, I s →
    Call.wp (f t rows total error) (Post.onReturn fun _ => P) s

section noted

variable {I P : W → Prop} {x : MigrationExecutor W}

/-- The notes of a run all have what holds after a report. -/
theorem Reports.keeps_noted (h : x.Reports I P) :
    x.noted.Keeps fun s => I s.inner ∧ ∀ w ∈ s.notes, P w := by
  have hinside : ∀ {α : Type} {c : Call Exc W α}, Call.Keeps I c →
      Call.Keeps (fun s : Noted W => I s.inner ∧ ∀ w ∈ s.notes, P w) (Noted.inside c) :=
    fun hc => hc.zoom (fun _ hs => hs.1) (fun _ _ hs hw => ⟨hw, hs.2⟩)
  have hprovider : ∀ {p : BaseDatabaseProvider W}, p.Keeps I →
      (Noted.provider p).Keeps fun s => I s.inner ∧ ∀ w ∈ s.notes, P w := by
    intro p hp
    exact ⟨fun t => hinside (hp.getTableSchema t), fun t => hinside (hp.tableExists t),
      fun t offset limit cols => hinside (hp.fetchBatch t offset limit cols),
      fun schema => hinside (hp.createTable schema),
      fun t rows cols => hinside (hp.insertBatch t rows cols),
      fun t => hinside (hp.truncateTable t)⟩
  refine ⟨hprovider h.keeps.source, hprovider h.keeps.destination, ?_, ?_,
    fun seconds => hinside (h.keeps.sleep seconds)⟩
  · intro g hg t rows total error s hs
    obtain ⟨f, hf, heq⟩ := Option.map_eq_some_iff.mp hg
    subst heq
    have hboth := Call.wp_and (h.keeps.onProgress f hf t rows total error s.inner hs.1)
      (h.reports f hf t rows total error s.inner hs.1)
    change Call.wp (Noted.noteAfter (f t rows total error)) _ s
    rw [Call.wp] at hboth ⊢
    unfold Noted.noteAfter
    rcases hrun : f t rows total error s.inner with ⟨_ | _ | _, w⟩ <;> rw [hrun] at hboth
    · refine ⟨hboth.1, ?_⟩
      intro v hv
      rcases List.mem_append.mp hv with hold | hnew
      · exact hs.2 v hold
      · rw [List.mem_singleton.mp hnew]
        exact hboth.2
    · exact ⟨hboth.1, hs.2⟩
    · exact ⟨hboth.1, hs.2⟩
  · intro g hg level message t
    obtain ⟨f, hf, heq⟩ := Option.map_eq_some_iff.mp hg
    subst heq
    exact hinside (h.keeps.onLog f hf level message t)

/-- However a run ends, each of its reports left what holds after a report. -/
theorem Reports.notes (h : x.Reports I P) (fuel : Nat) {w : W} (hw : I w) {n : Nat}
    {outcome : Outcome Exc ExecResult} {s : ExecState (Noted W)}
    (hrun : x.noted.run fuel ⟨{ inner := w }, n⟩ = (outcome, s)) : ∀ v ∈ s.world.notes, P v := by
  have hkept := keeps_run h.keeps_noted fuel ⟨{ inner := w }, n⟩
    ⟨hw, fun _ hv => (by cases hv)⟩
  rw [Call.wp, hrun] at hkept
  cases outcome with
  | returned result => exact hkept.2
  | raised exc => exact hkept.2
  | exhausted => exact hkept.2

end noted

end MigrationExecutor

end DataBridge

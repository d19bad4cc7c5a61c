import DataBridge.Migration.Executor

namespace DataBridge

/-- The databases, and everything else that decides how calls go: faults, callbacks, clock. -/
structure World (D X : Type) where
  data : D
  env : X

/-- A source of faults with a state of its own: the exception the next call raises, if any. -/
abbrev Fault (X : Type) := X → Option Exc × X

def Fault.MayRaise {X : Type} (f : Fault X) : Prop := ∃ e exc, (f e).1 = some exc

/-- The fault sources of one provider. A raising insert also says how many rows it keeps. -/
structure Faults (X : Type) where
  getTableSchema : Fault X := fun e => (none, e)
  tableExists : Fault X := fun e => (none, e)
  fetchBatch : Fault X := fun e => (none, e)
  createTable : Fault X := fun e => (none, e)
  insertBatch : X → Option (Exc × Nat) × X := fun e => (none, e)
  truncateTable : Fault X := fun e => (none, e)

variable {D X α β : Type}

namespace World

def onData (c : Call Exc D α) : Call Exc (World D X) α :=
  Call.zoom data (fun d w => { w with data := d }) c

/-- A call that does nothing but return or raise, as `f` decides. -/
def mayRaise (f : Fault X) : Call Exc (World D X) Unit := fun w =>
  match f w.env with
  | (none, e) => (.returned (), { w with env := e })
  | (some exc, e) => (.raised exc, { w with env := e })

end World

open World (onData mayRaise)

/-- What may be noted in the data beside the servers' own work: the batch an insert is given, and
what a raising insert kept, from the data before and after. -/
structure Notes (D : Type) where
  given : List Row → D → D := fun _ d => d
  kept : D → D → D := fun _ after => after

/-- A provider whose calls also fail as `f` decides. An insert that fails keeps a prefix of its
batch. -/
def BaseDatabaseProvider.withFaults (p : BaseDatabaseProvider D) (f : Faults X)
    (notes : Notes D) : BaseDatabaseProvider (World D X) where
  getTableSchema t := do mayRaise f.getTableSchema; onData (p.getTableSchema t)
  tableExists t := do mayRaise f.tableExists; onData (p.tableExists t)
  fetchBatch t offset limit cols := do
    mayRaise f.fetchBatch
    onData (p.fetchBatch t offset limit cols)
  createTable schema := do mayRaise f.createTable; onData (p.createTable schema)
  insertBatch t rows cols := fun w =>
    let d := notes.given rows w.data
    match f.insertBatch w.env with
    | (none, e) => onData (p.insertBatch t rows cols) { data := d, env := e }
    | (some (exc, kept), e) =>
      let after := (p.insertBatch t (rows.take kept) cols d).2
      (.raised exc, { data := notes.kept d after, env := e })
  truncateTable t := do mayRaise f.truncateTable; onData (p.truncateTable t)

/-- Two database servers, the faults of both, and what the executor is given besides. -/
structure Site (D X : Type) where
  source : BaseDatabaseProvider D
  destination : BaseDatabaseProvider D
  settings : MigrationSettings
  plan : MigrationPlan := { tables := [], totalRows := 0 }
  sourceFaults : Faults X := {}
  destinationFaults : Faults X := {}
  notes : Notes D := {}
  onProgress : Option (String → Nat → Nat → Option String → Fault X) := none
  onLog : Option (String → String → Option String → Fault X) := none
  sleep : Nat → Fault X := fun _ e => (none, e)

def Site.executor (site : Site D X) : MigrationExecutor (World D X) where
  source := site.source.withFaults site.sourceFaults site.notes
  destination := site.destination.withFaults site.destinationFaults site.notes
  plan := site.plan
  batchSize := site.settings.batchSize
  includeSchema := site.settings.includeSchema
  includeData := site.settings.includeData
  truncate := site.settings.truncateDestination
  maxRetries := site.settings.maxRetries
  continueOnError := site.settings.continueOnError
  onProgress := site.onProgress.map fun f table inTable total error => mayRaise (f table inTable total error)
  onLog := site.onLog.map fun f level message table => mayRaise (f level message table)
  sleep seconds := mayRaise (site.sleep seconds)

/-- Some callback, or the wait between two tries, may raise. -/
def Site.CallbacksRaise (site : Site D X) : Prop :=
  (∃ f ∈ site.onLog, ∃ level message table, Fault.MayRaise (f level message table)) ∨
  (∃ f ∈ site.onProgress, ∃ table inTable total error,
    Fault.MayRaise (f table inTable total error)) ∨
  ∃ seconds, Fault.MayRaise (site.sleep seconds)

/-- A callback or a wait that only changes its surroundings. -/
def quietly (f : X → X) : Fault X := fun e => (none, f e)

theorem quietly_mayRaise (f : X → X) : ¬ (quietly f).MayRaise := by
  intro h
  obtain ⟨e, exc, he⟩ := h
  cases he

/-- Callbacks and waits that only change their surroundings never raise. -/
theorem not_callbacksRaise_quietly {site : Site D X}
    {onProgress : Option (String → Nat → Nat → Option String → X → X)}
    {onLog : Option (String → String → Option String → X → X)} {sleep : Nat → X → X}
    (hprogress : site.onProgress = onProgress.map fun f table inTable total error =>
      quietly (f table inTable total error))
    (hlog : site.onLog = onLog.map fun f level message table => quietly (f level message table))
    (hsleep : ∀ seconds, site.sleep seconds = quietly (sleep seconds)) : ¬ site.CallbacksRaise := by
  intro h
  rcases h with ⟨f, hf, level, message, table, hraise⟩ |
    ⟨f, hf, table, inTable, total, error, hraise⟩ | ⟨seconds, hraise⟩
  · rw [hlog] at hf
    obtain ⟨g, -, hg⟩ := Option.map_eq_some_iff.mp hf
    subst hg
    exact quietly_mayRaise _ hraise
  · rw [hprogress] at hf
    obtain ⟨g, -, hg⟩ := Option.map_eq_some_iff.mp hf
    subst hg
    exact quietly_mayRaise _ hraise
  · rw [hsleep] at hraise
    exact quietly_mayRaise _ hraise

/-- A raising insert of this site may keep `k` rows of its batch. -/
def Site.MayKeep (site : Site D X) (k : Nat) : Prop :=
  ∃ e exc, (site.destinationFaults.insertBatch e).1 = some (exc, k)

/-- Inserts that leave the table unchanged whenever they raise. -/
def atomicInsert (f : Fault X) : X → Option (Exc × Nat) × X := fun e =>
  ((f e).1.map fun exc => (exc, 0), (f e).2)

abbrev SiteState (D X : Type) := ExecState (World D X)

/-- A postcondition on the databases and the row counter alone, and whether the fuel may end. -/
structure DataPost (D α : Type) where
  returned : α → D → Nat → Prop
  raised : D → Nat → Prop
  exhausted : Prop

def DataPost.post (P : DataPost D α) : Post Exc (SiteState D X) α :=
  ⟨fun a s => P.returned a s.world.data s.totalRowsProcessed,
    fun _ s => P.raised s.world.data s.totalRowsProcessed, fun _ => P.exhausted⟩

/-- The same condition for a call on the databases, with the counter at `n`. -/
def DataPost.onData (P : DataPost D α) (n : Nat) : Post Exc D α :=
  ⟨fun a d => P.returned a d n, fun _ d => P.raised d n, fun _ => P.exhausted⟩

/-- Started with these databases and this counter, and whatever the rest of the world does, the
call meets `P`. -/
def dwp (c : Call Exc (SiteState D X) α) (P : DataPost D α) (d : D) (n : Nat) : Prop :=
  ∀ e, Call.wp c P.post ⟨⟨d, e⟩, n⟩

section rules

variable {P : DataPost D α} {d : D} {n : Nat}

theorem dwp_pure {a : α} (h : P.returned a d n) :
    dwp (pure a : Call Exc (SiteState D X) α) P d n := fun _ => h

theorem dwp_bind {c : Call Exc (SiteState D X) β} {f : β → Call Exc (SiteState D X) α}
    (h : dwp c ⟨fun b d' n' => dwp (f b) P d' n', P.raised, P.exhausted⟩ d n) : dwp (c >>= f) P d n := by
  intro e
  rw [Call.wp_bind]
  exact Call.wp_mono (h e) (fun b s hb => hb s.world.env) (fun _ _ hr => hr) (fun _ hx => hx)

theorem dwp_tryExcept {c : Call Exc (SiteState D X) α} {f : Exc → Call Exc (SiteState D X) α}
    (h : dwp c ⟨P.returned, fun d' n' => ∀ exc, dwp (f exc) P d' n', P.exhausted⟩ d n) :
    dwp (Call.tryExcept c f) P d n := by
  intro e
  rw [Call.wp_tryExcept]
  exact Call.wp_mono (h e) (fun _ _ hr => hr) (fun exc s hr => hr exc s.world.env) (fun _ hx => hx)

theorem dwp_mono {c : Call Exc (SiteState D X) α} {Q : DataPost D α} (h : dwp c P d n)
    (hr : ∀ a d' n', P.returned a d' n' → Q.returned a d' n')
    (he : ∀ d' n', P.raised d' n' → Q.raised d' n')
    (hx : P.exhausted → Q.exhausted := by exact id) : dwp c Q d n := fun e =>
  Call.wp_mono (h e) (fun a s => hr a s.world.data s.totalRowsProcessed)
    (fun _ s => he s.world.data s.totalRowsProcessed) (fun _ => hx)

theorem dwp_ofExcept {r : Except Exc α} (hok : ∀ a, r = .ok a → P.returned a d n)
    (herr : ∀ exc, r = .error exc → P.raised d n) :
    dwp (Call.ofExcept r : Call Exc (SiteState D X) α) P d n := by
  cases r with
  | ok a => exact fun _ => hok a rfl
  | error exc => exact fun _ => herr exc rfl

theorem dwp_read_total {P : DataPost D Nat} (h : P.returned n d n) :
    dwp (Call.read ExecState.totalRowsProcessed : Call Exc (SiteState D X) Nat) P d n := fun _ => h

theorem dwp_addRows {P : DataPost D Unit} {count : Nat} (h : P.returned () d (n + count)) :
    dwp (Call.modify (ExecState.addRows count) : Call Exc (SiteState D X) Unit) P d n := fun _ => h

theorem dwp_await_mayRaise {P : DataPost D Unit} (f : Fault X) (hr : P.returned () d n)
    (he : f.MayRaise → P.raised d n) :
    dwp (ExecState.await (mayRaise f) : Call Exc (SiteState D X) Unit) P d n := by
  intro e
  rw [ExecState.await, Call.wp_zoom]
  have hraise : ∀ exc, (f e).1 = some exc → P.raised d n := fun exc h => he ⟨e, exc, h⟩
  rw [Call.wp, mayRaise]
  rcases hf : f e with ⟨_ | exc, e'⟩
  · exact hr
  · exact hraise exc (by rw [hf])

/-- A provider call that the fault source may turn into an exception. -/
theorem dwp_await_faulty (f : Fault X) {c : Call Exc D α} (he : f.MayRaise → P.raised d n)
    (h : Call.wp c (P.onData n) d) :
    dwp (ExecState.await (do mayRaise f; onData c) : Call Exc (SiteState D X) α) P d n := by
  intro e
  rw [ExecState.await, Call.wp_zoom, Call.wp_bind]
  have hraise : ∀ exc, (f e).1 = some exc → P.raised d n := fun exc h => he ⟨e, exc, h⟩
  rw [Call.wp, mayRaise]
  rcases hf : f e with ⟨_ | exc, e'⟩
  · change Call.wp (onData c) _ _
    rw [onData, Call.wp_zoom]
    exact h
  · exact hraise exc (by rw [hf])

/-- The insert of a faulty provider: it is carried out, or it raises and keeps a prefix. -/
theorem dwp_await_insert {P : DataPost D Nat} (site : Site D X) (table : String)
    (rows : List Row)
    (hins : Call.wp (site.destination.insertBatch table rows none) (P.onData n)
      (site.notes.given rows d))
    (hkept : ∀ k, site.MayKeep k → P.raised (site.notes.kept (site.notes.given rows d)
      (site.destination.insertBatch table (rows.take k) none (site.notes.given rows d)).2) n) :
    dwp (ExecState.await (site.executor.destination.insertBatch table rows none)) P d n := by
  intro e
  rw [ExecState.await, Call.wp_zoom]
  cases hf : site.destinationFaults.insertBatch e with
  | mk fault e' =>
    cases fault with
    | none =>
      have hrun : site.executor.destination.insertBatch table rows none ⟨d, e⟩ =
          onData (site.destination.insertBatch table rows none)
            ⟨site.notes.given rows d, e'⟩ := by
        simp only [Site.executor, BaseDatabaseProvider.withFaults, hf]
      rw [Call.wp, hrun]
      change Call.wp (onData _) _ _
      rw [onData, Call.wp_zoom]
      exact hins
    | some keeping =>
      have hrun : site.executor.destination.insertBatch table rows none ⟨d, e⟩ =
          (.raised keeping.1, ⟨site.notes.kept (site.notes.given rows d)
            (site.destination.insertBatch table (rows.take keeping.2) none
              (site.notes.given rows d)).2, e'⟩) := by
        simp only [Site.executor, BaseDatabaseProvider.withFaults, hf]
      rw [Call.wp, hrun]
      exact hkept keeping.2 ⟨e, keeping.1, by rw [hf]⟩

theorem dwp_loop {body : β → Call Exc (SiteState D X) (Pass β α)} (I : β → D → Nat → Prop)
    (μ : β → Nat)
    (hbody : ∀ b d n, I b d n → dwp (body b)
      ⟨fun p d' n' => match p with
        | .again b' => I b' d' n' ∧ μ b' < μ b
        | .done a => P.returned a d' n', P.raised, P.exhausted⟩ d n)
    {fuel : Nat} {b : β} (hi : I b d n) (hf : μ b < fuel) : dwp (Call.loop body fuel b) P d n := by
  intro e
  apply Call.wp_loop (fun b s => I b s.world.data s.totalRowsProcessed) (fun b _ => μ b)
  · intro b s hb
    refine Call.wp_mono (hbody b s.world.data s.totalRowsProcessed hb s.world.env) ?_
      (fun _ _ h => h) (fun _ h => h)
    intro p s' h
    cases p <;> exact h
  · exact hi
  · exact hf

/-- Loop rule without a variant, where the fuel may end. -/
theorem dwp_loop_weak {body : β → Call Exc (SiteState D X) (Pass β α)} (I : β → D → Nat → Prop)
    (hbody : ∀ b d n, I b d n → dwp (body b)
      ⟨fun p d' n' => match p with
        | .again b' => I b' d' n'
        | .done a => P.returned a d' n', P.raised, P.exhausted⟩ d n)
    (hx : P.exhausted) {fuel : Nat} {b : β} (hi : I b d n) : dwp (Call.loop body fuel b) P d n := by
  intro e
  apply Call.wp_loop_weak (fun b s => I b s.world.data s.totalRowsProcessed)
  · intro b s hb
    refine Call.wp_mono (hbody b s.world.data s.totalRowsProcessed hb s.world.env) ?_
      (fun _ _ h => h) (fun _ h => h)
    intro p s' h
    cases p <;> exact h
  · exact fun _ _ _ => hx
  · exact hi

theorem dwp_forRange {P : DataPost D (Option α)}
    {body : Nat → Call Exc (SiteState D X) (Option α)} (I : Nat → D → Nat → Prop) {stop : Nat}
    (hbody : ∀ i d n, i < stop → I i d n → dwp (body i)
      ⟨fun r d' n' => match r with
        | some a => P.returned (some a) d' n'
        | none => I (i + 1) d' n', P.raised, P.exhausted⟩ d n)
    (hend : ∀ d n, I stop d n → P.returned none d n) (hi : I 0 d n) :
    dwp (Call.forRange body stop 0) P d n := by
  intro e
  apply Call.wp_forRange (fun i s => I i s.world.data s.totalRowsProcessed) stop
  · intro i s hlt hs
    refine Call.wp_mono (hbody i s.world.data s.totalRowsProcessed hlt hs s.world.env) ?_
      (fun _ _ h => h) (fun _ h => h)
    intro r s' h
    cases r <;> exact h
  · exact fun s hs => hend s.world.data s.totalRowsProcessed hs
  · omega
  · exact hi

theorem dwp_forEach {σ : Type} {P : DataPost D σ}
    {body : σ → β → Call Exc (SiteState D X) (Pass σ σ)} (I : List β → σ → D → Nat → Prop)
    (all : List β)
    (hbody : ∀ pre x post s d n, all = pre ++ x :: post → I pre s d n → dwp (body s x)
      ⟨fun p d' n' => match p with
        | .again s' => I (pre ++ [x]) s' d' n'
        | .done s' => P.returned s' d' n', P.raised, P.exhausted⟩ d n)
    (hend : ∀ s d n, I all s d n → P.returned s d n) {s : σ} (hi : I [] s d n) :
    dwp (Call.forEach body all s) P d n := by
  intro e
  apply Call.wp_forEach (fun pre s w => I pre s w.world.data w.totalRowsProcessed) all
  · intro pre x post s w hall hs
    refine Call.wp_mono (hbody pre x post s w.world.data w.totalRowsProcessed hall hs w.world.env)
      ?_ (fun _ _ h => h) (fun _ h => h)
    intro p w' h
    cases p <;> exact h
  · exact fun s w hs => hend s w.world.data w.totalRowsProcessed hs
  · exact (List.nil_append all).symm
  · exact hi

end rules

end DataBridge

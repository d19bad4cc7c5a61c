import DataBridge.Migration.CarriedOut
import DataBridge.System.StoredRequest
import DataBridge.Workers.TerminalEvents

namespace DataBridge

open Call (Simulates Silent Answers Fails)

variable {Cr D W : Type}

/-! ## Planning -/

/-- The providers read these catalogues where the world stands for `d`. -/
structure ReadsAt (At : D → W → Prop) (d : D) (c : Catalogues) (p : MigrationPlanner W) : Prop where
  source : ∀ t ∈ p.tableNames, Answers At d (c.sourceSchema t) (p.source.getTableSchema t)
  present : ∀ t ∈ p.tableNames, Answers At d (.ok (c.present t)) (p.destination.tableExists t)
  destination : ∀ t ∈ p.tableNames, c.present t = true →
    Answers At d (c.destinationSchema t) (p.destination.getTableSchema t)

namespace MigrationPlanner

variable {At : D → W → Prop} {d : D} {c : Catalogues} {p : MigrationPlanner W}

theorem simulates_buildPlanStep (h : ReadsAt At d c p) {tableName : String}
    (hmem : tableName ∈ p.tableNames) (plan : MigrationPlan) :
    Simulates At d (fun q d' => q = .again (planStep c plan tableName) ∧ d' = d)
      (p.buildPlanStep plan tableName) := by
  have hread : Simulates At d (fun r d' => r = c.sourceSchema tableName ∧ d' = d)
      (Call.tryExcept (do
        let s ← p.source.getTableSchema tableName
        pure (Except.ok s)) (fun exc => pure (Except.error exc))) := by
    refine (h.source tableName hmem).tryExcept ?_ ?_
    · intro s hs
      exact Call.simulates_pure ⟨hs.symm, rfl⟩
    · intro exc hexc
      exact Call.simulates_pure ⟨hexc.symm, rfl⟩
  rw [buildPlanStep, planStep]
  refine hread.bind ?_
  rintro r d' ⟨rfl, rfl⟩
  cases c.sourceSchema tableName with
  | error exc => exact Call.simulates_pure ⟨rfl, rfl⟩
  | ok src =>
    dsimp only
    rw [readDestination]
    have hexists := (h.present tableName hmem).simulates
    cases hpresent : c.present tableName with
    | false =>
      rw [hpresent] at hexists
      refine (hexists.bind (Q := fun r e => r = (none, plan) ∧ e = d') ?_).bind ?_
      · rintro _ d' ⟨rfl, rfl⟩
        exact Call.simulates_pure ⟨rfl, rfl⟩
      · rintro _ d' ⟨rfl, rfl⟩
        exact Call.simulates_pure ⟨rfl, rfl⟩
    | true =>
      rw [hpresent] at hexists
      have hdest := h.destination tableName hmem hpresent
      have hread : ∀ found q, (∀ dest, c.destinationSchema tableName = .ok dest →
            found = some dest ∧ q = plan) →
          (∀ exc, c.destinationSchema tableName = .error exc →
            found = none ∧ q = plan.warn (destinationReadWarning tableName exc)) →
          Simulates At d' (fun r e => r = (found, q) ∧ e = d') (Call.tryExcept (do
            let destSchema ← p.destination.getTableSchema tableName
            pure (some destSchema, plan))
            (fun exc => pure (none, plan.warn (destinationReadWarning tableName exc)))) := by
        intro found q hok herror
        refine hdest.tryExcept ?_ ?_
        · intro dest hs
          obtain ⟨rfl, rfl⟩ := hok dest hs
          exact Call.simulates_pure ⟨rfl, rfl⟩
        · intro exc hexc
          obtain ⟨rfl, rfl⟩ := herror exc hexc
          exact Call.simulates_pure ⟨rfl, rfl⟩
      cases hschema : c.destinationSchema tableName with
      | ok dest =>
        rw [hschema] at hread
        refine (hexists.bind (Q := fun r e => r = (some dest, plan) ∧ e = d') ?_).bind ?_
        · rintro _ d' ⟨rfl, rfl⟩
          refine hread _ _ ?_ ?_
          · rintro dest' heq
            cases heq
            exact ⟨rfl, rfl⟩
          · rintro exc heq
            cases heq
        · rintro _ d' ⟨rfl, rfl⟩
          exact Call.simulates_pure ⟨rfl, rfl⟩
      | error exc =>
        rw [hschema] at hread
        refine (hexists.bind (Q := fun r e =>
          r = (none, plan.warn (destinationReadWarning tableName exc)) ∧ e = d') ?_).bind ?_
        · rintro _ d' ⟨rfl, rfl⟩
          refine hread _ _ ?_ ?_
          · rintro dest heq
            cases heq
          · rintro exc' heq
            cases heq
            exact ⟨rfl, rfl⟩
        · rintro _ d' ⟨rfl, rfl⟩
          exact Call.simulates_pure ⟨rfl, rfl⟩

/-- The plan of these catalogues. -/
theorem simulates_buildPlan (h : ReadsAt At d c p) :
    Simulates At d (fun plan d' => plan = p.tableNames.foldl (planStep c) .empty ∧ d' = d)
      p.buildPlan := by
  refine Call.simulates_forEach (fun names plan d' => (∀ t ∈ names, t ∈ p.tableNames) ∧
    names.foldl (planStep c) plan = p.tableNames.foldl (planStep c) .empty ∧ d' = d) ?_ ?_
    ⟨fun _ ht => ht, rfl, rfl⟩
  · rintro t ts plan d' ⟨hin, hfold, rfl⟩
    refine (simulates_buildPlanStep h (hin t List.mem_cons_self) plan).mono ?_
    rintro q d'' ⟨rfl, rfl⟩
    exact ⟨fun t ht => hin t (List.mem_cons_of_mem _ ht), hfold, rfl⟩
  · rintro plan d' ⟨-, hfold, rfl⟩
    exact ⟨hfold, rfl⟩

end MigrationPlanner

/-! ## The task -/

/-- The application database, the sockets and the clocks are there, and waits end. -/
structure TaskContext.Undisturbed (x : TaskContext Cr W) (At : D → W → Prop) : Prop where
  appDb : ∀ d, Silent At d x.appDb
  sockets : ∀ d, Silent At d x.sockets
  now : ∀ d, Silent At d x.now
  elapsed : ∀ d, Silent At d x.elapsed
  newUuid : ∀ d, Silent At d x.newUuid
  sleep : ∀ d seconds, Silent At d (x.sleep seconds)

/-- The provider connects and disconnects. -/
structure ManagedProvider.Opens (p : ManagedProvider W) (At : D → W → Prop) : Prop where
  connect : ∀ d, Silent At d p.connect
  disconnect : ∀ d, Silent At d p.disconnect

/-- What a run of the task is seen by: the databases, the row of the migration, and what its clients
were told of the end. -/
structure TaskView (D : Type) where
  data : D
  row : Migration
  told : List Event

structure Viewed (At : D → W → Prop) (migrationId : String) (v : TaskView D) (s : TaskState W) :
    Prop where
  world : At v.data s.world
  row : s.app.migrations.get? migrationId = some v.row
  events : terminalEvents migrationId s.events = v.told

/-- While the rows are copied, the row changes in its progress only. -/
def Copying (At : D → W → Prop) (migrationId : String) (told : List Event) (base : Migration) (d : D)
    (s : TaskState W) : Prop :=
  ∃ n t, Viewed At migrationId ⟨d, { base with processedRows := n, currentTable := t }, told⟩ s

namespace TaskContext

variable (x : TaskContext Cr W) {At : D → W → Prop} {migrationId : String} {v : TaskView D}
  {told : List Event} {base : Migration} {d : D}

theorem silent_outside {α : Type} {c : Call Exc W α} (hc : Silent At v.data c) :
    Silent (Viewed At migrationId) v (outside c) := by
  refine (Simulates.zoom (fun d => { v with data := d }) hc (fun _ h => h.world) ?_).mono ?_
  · exact fun s w d' h hat => ⟨hat, h.row, h.events⟩
  · rintro _ e ⟨d', rfl, rfl⟩
    rfl

theorem simulates_selectMigration (h : x.Undisturbed At) :
    Simulates (Viewed At migrationId) v (fun found v' => found = some v.row ∧ v' = v)
      (x.selectMigration migrationId) := by
  refine Simulates.after (silent_outside (h.appDb v.data)) fun _ => ?_
  exact fun s hs => ⟨v, ⟨hs.row, rfl⟩, hs⟩

theorem simulates_selectOne (h : x.Undisturbed At) :
    Simulates (Viewed At migrationId) v (fun record v' => record = v.row ∧ v' = v)
      (x.selectOne migrationId) := by
  refine (x.simulates_selectMigration h).bind ?_
  rintro _ v' ⟨rfl, rfl⟩
  exact Call.simulates_pure ⟨rfl, rfl⟩

theorem simulates_commitMigration (h : x.Undisturbed At) (record : Migration) :
    Simulates (Viewed At migrationId) v (fun _ v' => v' = { v with row := record })
      (x.commitMigration migrationId record) := by
  refine Simulates.after (silent_outside (h.appDb v.data)) fun _ => ?_
  intro s hs
  exact ⟨_, rfl, hs.world, (Dict.get?_set _ _ _ _).trans (if_pos rfl), hs.events⟩

theorem simulates_broadcast (h : x.Undisturbed At) (event : Event) :
    Simulates (Viewed At migrationId) v
      (fun _ v' => v' = { v with told := if event.isTerminal then v.told ++ [event] else v.told })
      (x.broadcast migrationId event) := by
  refine Simulates.after (silent_outside (h.sockets v.data)) fun _ => ?_
  intro s hs
  refine ⟨_, rfl, hs.world, hs.row, ?_⟩
  rw [← hs.events]
  by_cases hterminal : event.isTerminal <;> simp [terminalEvents, hterminal]

/-! ### While the rows are copied -/

/-- A call that changes the row in its progress only. -/
theorem simulates_copying {α : Type} {R : α → D → Prop} {c : Call Exc (TaskState W) α}
    (hc : ∀ n t, Simulates (Viewed At migrationId)
      ⟨d, { base with processedRows := n, currentTable := t }, told⟩
      (fun a v' => ∃ d' n' t', R a d' ∧
        v' = ⟨d', { base with processedRows := n', currentTable := t' }, told⟩) c) :
    Simulates (Copying At migrationId told base) d R c := by
  rintro s ⟨n, t, hs⟩
  refine Call.wp_mono (hc n t s hs) ?_ (fun _ _ h => h) (fun _ h => h)
  rintro a s' ⟨v', ⟨d', n', t', hr, rfl⟩, hs'⟩
  exact ⟨d', hr, n', t', hs'⟩

theorem silent_copying {α : Type} {c : Call Exc W α} (hc : Silent At d c) :
    Silent (Copying At migrationId told base) d (outside c) := by
  refine simulates_copying fun n t => (silent_outside hc).mono ?_
  rintro a v' rfl
  exact ⟨d, n, t, rfl, rfl⟩

/-- What an event that is not the end changes. -/
theorem silent_broadcast (h : x.Undisturbed At) {event : Event} (hevent : event.isTerminal = false) :
    Silent (Copying At migrationId told base) d (x.broadcast migrationId event) := by
  refine simulates_copying fun n t => (x.simulates_broadcast h event).mono ?_
  rintro _ v' rfl
  rw [hevent]
  exact ⟨d, n, t, rfl, rfl⟩

theorem silent_onProgress (h : x.Undisturbed At) (plan : MigrationPlan) (table : String)
    (rows total : Nat) (error : Option String) : Silent (Copying At migrationId told base) d
      (x.onProgress migrationId plan table rows total error) := by
  refine Simulates.after (silent_copying (h.elapsed d)) fun elapsed => ?_
  refine simulates_copying fun n t => ?_
  refine (x.simulates_selectOne h).bind ?_
  rintro record v' ⟨rfl, rfl⟩
  refine (x.simulates_commitMigration h _).bind ?_
  rintro _ v' rfl
  refine (x.simulates_broadcast h _).mono ?_
  rintro _ v' rfl
  exact ⟨d, total, some table, rfl, rfl⟩

theorem silent_onLog (h : x.Undisturbed At) (level message : String) (table : Option String) :
    Silent (Copying At migrationId told base) d (x.onLog migrationId level message table) := by
  refine Simulates.after (silent_copying (h.newUuid d)) fun id => ?_
  refine Simulates.after (silent_copying (h.appDb d)) fun _ => ?_
  refine Simulates.after (silent_copying (h.now d)) fun createdAt => ?_
  refine Simulates.after ?_ fun _ => x.silent_broadcast h rfl
  rintro s ⟨n, t, hs⟩
  exact ⟨d, rfl, n, t, hs.world, hs.row, hs.events⟩

theorem quiet_executor {At : Faulted D → W → Prop} (h : x.Undisturbed At) (src dst : ManagedProvider W)
    (settings : MigrationSettings) (plan : MigrationPlan) :
    (x.executor migrationId src dst settings plan).Quiet (Copying At migrationId told base) where
  log f hf e level message table := by
    cases hf
    exact x.silent_onLog h level message table
  progress f hf e table rows total error := by
    cases hf
    exact x.silent_onProgress h plan table rows total error
  sleep e seconds := silent_copying (h.sleep e seconds)

theorem simulates_inTask {α : Type} {R : α → D → Prop} {c : Call Exc W α}
    (hc : Simulates At d R c) : Simulates (Copying At migrationId told base) d R
      (Call.zoom TaskState.world (fun w s => { s with world := w }) c) := by
  refine (Simulates.zoom id hc (fun _ h => ?_) ?_).mono ?_
  · obtain ⟨n, t, hs⟩ := h
    exact hs.world
  · rintro s w d' ⟨n, t, hs⟩ hat
    exact ⟨n, t, hat, hs.row, hs.events⟩
  · rintro a e ⟨d', hr, rfl⟩
    exact hr

theorem answers_inTask {α : Type} {r : Except Exc α} {c : Call Exc W α} (hc : Answers At d r c) :
    Answers (Copying At migrationId told base) d r
      (Call.zoom TaskState.world (fun w s => { s with world := w }) c) := by
  refine hc.zoom ?_ ?_
  · rintro s ⟨n, t, hs⟩
    exact hs.world
  · rintro s w ⟨n, t, hs⟩ hat
    exact ⟨n, t, hat, hs.row, hs.events⟩

theorem fails_inTask {α : Type} {d' : D} {c : Call Exc W α} (hc : Fails At d d' c) :
    Fails (Copying At migrationId told base) d d'
      (Call.zoom TaskState.world (fun w s => { s with world := w }) c) := by
  refine hc.zoom ?_ ?_
  · intro s h
    obtain ⟨n, t, hs⟩ := h
    exact hs.world
  · intro s w h hat
    obtain ⟨n, t, hs⟩ := h
    exact ⟨n, t, hat, hs.row, hs.events⟩

theorem repeated_inTask {α : Type} {m : Nat} {At : Faulted D → W → Prop} {d d' : D} {P : α → Prop}
    {c : Call Exc W α} (hc : Repeated m At d d' P c) :
    Repeated m (Copying At migrationId told base) d d' P
      (Call.zoom TaskState.world (fun w s => { s with world := w }) c) where
  fails k := fails_inTask (hc.fails k)
  works := simulates_inTask hc.works

theorem working_inTask {m : Nat} {At : Faulted D → W → Prop} {store : DestinationStore D}
    {held : String → Option (List Row)} {src dst : ManagedProvider W}
    (h : Working m store At held src.toBaseDatabaseProvider dst.toBaseDatabaseProvider) :
    Working m store (Copying At migrationId told base) held (inTask src) (inTask dst) where
  fetch d t rows offset limit cols hrows :=
    repeated_inTask (h.fetch d t rows offset limit cols hrows)
  create e schema := simulates_inTask (h.create e schema)
  clear e t hpresent := simulates_inTask (h.clear e t hpresent)
  insert d t batch hne haccepts := repeated_inTask (h.insert d t batch hne haccepts)

theorem readsAt_inTask {c : Catalogues} {src dst : ManagedProvider W} {tables : List String}
    (h : ReadsAt At d c ⟨src.toBaseDatabaseProvider, dst.toBaseDatabaseProvider, tables⟩) :
    ReadsAt (Copying At migrationId told base) d c ⟨inTask src, inTask dst, tables⟩ where
  source t ht := answers_inTask (h.source t ht)
  present t ht := answers_inTask (h.present t ht)
  destination t ht hpresent := answers_inTask (h.destination t ht hpresent)

theorem simulates_connected {α : Type} {R : α → D → Prop} {p : ManagedProvider W} (hp : p.Opens At)
    {body : Call Exc (TaskState W) α}
    (hbody : Simulates (Copying At migrationId told base) d R body) :
    Simulates (Copying At migrationId told base) d R (connected p body) := by
  refine Simulates.after (silent_copying (hp.connect d)) fun _ => ?_
  exact hbody.tryFinally fun d' => silent_copying (hp.disconnect d')

/-- A task with its two providers: what is read from the record, and what the registry makes of
it. -/
structure Prepared (job : Job Cr) (src dst : ManagedProvider W) : Prop where
  types : ∃ srcType dstType, srcType ≠ "" ∧ dstType ≠ "" ∧
    x.databaseType job.srcCreds = some srcType ∧ x.databaseType job.dstCreds = some dstType ∧
    x.getProvider srcType job.srcCreds = .ok src ∧ x.getProvider dstType job.dstCreds = .ok dst

/-- The plan that the worker builds. -/
def planOf (c : Catalogues) (job : Job Cr) : MigrationPlan :=
  job.tables.foldl (MigrationPlanner.planStep c) .empty

section run

variable {x} {store : DestinationStore D} {held : String → Option (List Row)} {c : Catalogues}
  {job : Job Cr} {src dst : ManagedProvider W}

/-- The executor that carries out the job of a run. -/
abbrev jobExecutor (x : TaskContext Cr W) (migrationId : String) (src dst : ManagedProvider W)
    (c : Catalogues) (job : Job Cr) : MigrationExecutor (TaskState W) :=
  x.executor migrationId src dst job.migSettings (planOf c job)

theorem simulates_planAndRun {At : Faulted D → W → Prop} {d : D} {k : Nat}
    (hcalm : x.Undisturbed At) (hworks : Working job.migSettings.maxRetries store At held
      src.toBaseDatabaseProvider dst.toBaseDatabaseProvider)
    (hreads : ReadsAt At ⟨d, k⟩ c
      ⟨src.toBaseDatabaseProvider, dst.toBaseDatabaseProvider, job.tables⟩)
    (hbatch : 0 < job.migSettings.batchSize) (hk : k ≤ job.migSettings.maxRetries)
    (hfeasible : (jobExecutor x migrationId src dst c job).Feasible store held
      (planOf c job).tables d) {fuel : Nat}
    (hfuel : ∀ tp ∈ (planOf c job).tables,
      (((held tp.tableName).getD []).length + 1) * (job.migSettings.maxRetries + 1) ≤ fuel) :
    Simulates (Copying At migrationId told base) ⟨d, k⟩
      (fun result e =>
        result = (jobExecutor x migrationId src dst c job).fullResult held (planOf c job).tables ∧
        e.data = (jobExecutor x migrationId src dst c job).carriedOut store held
          (planOf c job).tables d)
      (x.planAndRun fuel migrationId job src dst) := by
  refine (MigrationPlanner.simulates_buildPlan (readsAt_inTask hreads)).bind ?_
  intro plan e h
  obtain ⟨rfl, rfl⟩ := h
  have hworking : Working job.migSettings.maxRetries store (Copying At migrationId told base) held
      (inTask src) (inTask dst) := working_inTask hworks
  have hquiet : (jobExecutor x migrationId src dst c job).Quiet (Copying At migrationId told base) :=
    x.quiet_executor hcalm src dst _ _
  have hrun : Simulates _ _ _ ((jobExecutor x migrationId src dst c job).run fuel) :=
    MigrationExecutor.simulates_run hworking hquiet hbatch hfeasible hk hfuel
  refine (hrun.zoom Prod.fst (fun s hs => ⟨hs, rfl⟩) (fun _ _ _ _ hat => hat.1)).mono ?_
  intro result e h
  obtain ⟨⟨e', total⟩, ⟨hresult, hdata, -⟩, rfl⟩ := h
  exact ⟨hresult, hdata⟩

theorem simulates_migrate (hprepared : x.Prepared job src dst)
    (hsrc : src.Opens At) (hdst : dst.Opens At) {R : ExecResult → D → Prop} {fuel : Nat}
    (hrun : Simulates (Copying At migrationId told base) d R
      (x.planAndRun fuel migrationId job src dst)) :
    Simulates (Copying At migrationId told base) d R (x.migrate fuel migrationId job) := by
  obtain ⟨srcType, dstType, hs, hd, htype, htype', hprovider, hprovider'⟩ := hprepared.types
  have hconnected := Simulates.tryExcept (x.failAndRaise migrationId)
    (simulates_connected hsrc (simulates_connected hdst hrun))
  have horText : ∀ t : String, t ≠ "" → orText (some t) "" = t := by
    intro t ht
    unfold orText
    split
    · rename_i h
      cases h
    · rename_i h
      exact absurd (Option.some.inj h) ht
    · rename_i h
      exact (Option.some.inj h).symm
  rw [migrate, htype, htype', horText srcType hs, horText dstType hd]
  split
  · exact absurd rfl hs
  · exact absurd rfl hd
  · rw [hprovider, hprovider']
    exact hconnected

theorem simulates_markRunning (hcalm : x.Undisturbed At) (hjob : x.loadJob v.row.config = .ok job) :
    Simulates (Viewed At migrationId) v (fun j v' => j = job ∧ ∃ started,
      v' = { v with row := runningRecord v.row started }) (x.markRunning migrationId) := by
  rw [markRunning_eq]
  refine (x.simulates_selectMigration hcalm).bind ?_
  rintro _ v' ⟨rfl, rfl⟩
  dsimp only
  rw [hjob]
  refine (Call.answers_ofExcept (.ok job)).simulates.bind ?_
  rintro j v'' ⟨rfl, rfl⟩
  refine Simulates.after (silent_outside (hcalm.now v''.data)) fun started => ?_
  refine (x.simulates_commitMigration hcalm _).bind ?_
  rintro _ v'' rfl
  exact Call.simulates_pure ⟨rfl, started, rfl⟩

theorem simulates_finalise (hcalm : x.Undisturbed At) (result : ExecResult) :
    Simulates (Viewed At migrationId) v (fun _ v' => ∃ finished,
      v' = { v with row := finalRecord v.row result finished }) (x.finalise migrationId result) := by
  refine (x.simulates_selectOne hcalm).bind ?_
  rintro record v' ⟨rfl, rfl⟩
  refine Simulates.after (silent_outside (hcalm.now v'.data)) fun finished => ?_
  refine (x.simulates_commitMigration hcalm _).mono ?_
  rintro _ v'' rfl
  exact ⟨finished, rfl⟩

/-- A run in which the databases, the sockets and the clocks work, and every call for rows gets
through in time, returns: the plan is carried out, the record is COMPLETED with all rows counted,
and one `completed` event says so. -/
theorem execute_completes {At : Faulted D → W → Prop} {d : D} {k : Nat} (hcalm : x.Undisturbed At)
    {record : Migration} (hjob : x.loadJob record.config = .ok job)
    (hprepared : x.Prepared job src dst) (hsrc : src.Opens At) (hdst : dst.Opens At)
    (hworks : Working job.migSettings.maxRetries store At held src.toBaseDatabaseProvider
      dst.toBaseDatabaseProvider)
    (hreads : ReadsAt At ⟨d, k⟩ c
      ⟨src.toBaseDatabaseProvider, dst.toBaseDatabaseProvider, job.tables⟩)
    (hbatch : 0 < job.migSettings.batchSize) (hk : k ≤ job.migSettings.maxRetries)
    (hfeasible : (jobExecutor x migrationId src dst c job).Feasible store held
      (planOf c job).tables d) {fuel : Nat}
    (hfuel : ∀ tp ∈ (planOf c job).tables,
      (((held tp.tableName).getD []).length + 1) * (job.migSettings.maxRetries + 1) ≤ fuel)
    {s : TaskState W} (hat : At ⟨d, k⟩ s.world)
    (hrow : s.app.migrations.get? migrationId = some record) :
    ∃ result s' e started finished, x.execute fuel migrationId s = (.returned result, s') ∧
      result = (jobExecutor x migrationId src dst c job).fullResult held (planOf c job).tables ∧
      At e s'.world ∧
      e.data = (jobExecutor x migrationId src dst c job).carriedOut store held
        (planOf c job).tables d ∧
      s'.app.migrations.get? migrationId = some { record with
        status := .COMPLETED
        startedAt := some started
        completedTables := result.completedTables.length
        processedRows := result.totalRowsMigrated
        currentTable := none
        completedAt := some finished } ∧
      terminalEvents migrationId s'.events =
        terminalEvents migrationId s.events ++ [.completed result] := by
  have hview : Viewed At migrationId ⟨⟨d, k⟩, record, terminalEvents migrationId s.events⟩ s :=
    ⟨hat, hrow, rfl⟩
  have hmigrate : ∀ started, Simulates (Viewed At migrationId)
      ⟨⟨d, k⟩, runningRecord record started, terminalEvents migrationId s.events⟩
      (fun result v' => (result = (jobExecutor x migrationId src dst c job).fullResult held
          (planOf c job).tables ∧ v'.data.data = (jobExecutor x migrationId src dst c job).carriedOut
          store held (planOf c job).tables d) ∧
        ∃ e n t, v' = ⟨e, { runningRecord record started with processedRows := n, currentTable := t },
          terminalEvents migrationId s.events⟩) (x.migrate fuel migrationId job) := by
    intro started s₁ hs₁
    have hrun : Simulates (Copying At migrationId (terminalEvents migrationId s.events)
        (runningRecord record started)) ⟨d, k⟩ _ (x.migrate fuel migrationId job) :=
      simulates_migrate hprepared hsrc hdst
        (simulates_planAndRun hcalm hworks hreads hbatch hk hfeasible hfuel)
    refine Call.wp_mono (hrun s₁ ⟨record.processedRows, record.currentTable, hs₁⟩) ?_
      (fun _ _ h => h) (fun _ h => h)
    intro result s₂ h
    obtain ⟨e, hcarried, n, t, hs₂⟩ := h
    exact ⟨_, ⟨hcarried, e, n, t, rfl⟩, hs₂⟩
  have hexecute : Simulates (Viewed At migrationId)
      ⟨⟨d, k⟩, record, terminalEvents migrationId s.events⟩
      (fun result v' => (result = (jobExecutor x migrationId src dst c job).fullResult held
          (planOf c job).tables ∧ v'.data.data = (jobExecutor x migrationId src dst c job).carriedOut
          store held (planOf c job).tables d) ∧
        ∃ e started n t finished, v' = ⟨e,
          finalRecord { runningRecord record started with processedRows := n, currentTable := t }
            result finished, terminalEvents migrationId s.events ++ [.completed result]⟩)
      (x.execute fuel migrationId) := by
    refine (simulates_markRunning hcalm hjob).bind ?_
    intro j v' h
    obtain ⟨rfl, started, rfl⟩ := h
    refine (hmigrate started).bind ?_
    intro result v' h
    obtain ⟨hcarried, e, n, t, rfl⟩ := h
    refine (simulates_finalise hcalm result).bind ?_
    intro _ v' h
    obtain ⟨finished, rfl⟩ := h
    refine (x.simulates_broadcast hcalm _).bind ?_
    intro _ v' h
    subst h
    exact Call.simulates_pure ⟨hcarried, e, started, n, t, finished, rfl⟩
  obtain ⟨result, v', s', hrun, ⟨⟨hresult, hdata⟩, e, started, n, t, finished, rfl⟩, hs'⟩ :=
    hexecute.exists hview
  have hfailed : result.failedTables = [] := by
    rw [hresult]
    rfl
  refine ⟨result, s', e, started, finished, hrun, hresult, hs'.world, hdata, hs'.row.trans ?_,
    hs'.events⟩
  simp [finalRecord, runningRecord, hfailed]

end run

end TaskContext

end DataBridge

import DataBridge.Framework.RaisesOnly
import DataBridge.Providers.Handles
import DataBridge.Workers.StoredCredentials

namespace DataBridge

open Opened (inside Holds)

variable {W α : Type}

/-- `TableInfo` of the response. -/
structure TableCount where
  name : String
  rows : Int
  deriving DecidableEq, Repr

structure SchemaResponse where
  tables : List TableCount
  databaseType : String
  deriving DecidableEq, Repr

structure ConnectionTestResponse where
  success : Bool
  message : String
  latencyMs : Option ℚ := none
  deriving DecidableEq

namespace SchemaService

/-- The row count of one table; -1 where it cannot be read. -/
def countTable (p : ProviderObject W) (tables : List TableCount) (name : String) :
    Call Exc (Opened W) (Pass (List TableCount) (List TableCount)) := do
  let count ← Call.tryExcept
    (do
      let n ← inside (p.getRowCount name)
      pure (n : Int))
    (fun _ => pure (-1))
  pure (.again (tables ++ [⟨name, count⟩]))

/-- The body of `async with provider`. -/
def listTables (p : ProviderObject W) : Call Exc (Opened W) (List TableCount) := do
  let names ← inside p.getTables
  Call.forEach (countTable p) names []

-- The libraries that read a configuration, and the object of a provider that it gives.
variable (lib : PyLibrary) (make : ProviderParams → ProviderObject W)

def getTables (connection : ConnectionCredentials) : Call Exc (Opened W) SchemaResponse := do
  let params ← Call.ofExcept (discoveredProvider lib connection)
  let tables ← (make params).asyncWith (listTables (make params))
  pure ⟨tables, connection.databaseType.value⟩

end SchemaService

/-- `ConnectionService.test_connection`. `get_provider` raises NotImplementedError for the types that
are not supported, and for no other. -/
def ConnectionService.testConnection (lib : PyLibrary) (make : ProviderParams → ProviderObject W)
    (req : ConnectionCredentials) : Call Exc (Opened W) ConnectionTestResponse := do
  match testedProvider lib req with
  | .ok params => do
    let (success, message, latencyMs) ← (make params).testConnection
    pure ⟨success, message, some latencyMs⟩
  | .error exc =>
    if req.databaseType.supported then Call.raise exc
    else pure ⟨false, exc.text, none⟩

/-- The exceptions of the driver and of the list of tables. -/
inductive ProviderObject.Raises (p : ProviderObject W) : Exc → Prop where
  | connect {w w' : W} {exc : Exc} (h : p.driver.connect w = (.raised exc, w')) : p.Raises exc
  | execute {conn : Nat} {sql : String} {w w' : W} {exc : Exc}
      (h : p.driver.execute conn sql w = (.raised exc, w')) : p.Raises exc
  | close {conn : Nat} {w w' : W} {exc : Exc} (h : p.driver.close conn w = (.raised exc, w')) :
      p.Raises exc
  | getTables {w w' : W} {exc : Exc} (h : p.getTables w = (.raised exc, w')) : p.Raises exc

/-- The entries of the listed tables, each counted in the state in which the count before it ended;
-1 for a count that raised. -/
inductive ProviderObject.Counted (p : ProviderObject W) (w₀ : W) :
    List String → List TableCount → W → Prop where
  | nil : p.Counted w₀ [] [] w₀
  | counted {names : List String} {tables : List TableCount} {name : String} {w w' : W} {n : Nat}
      (before : p.Counted w₀ names tables w) (h : p.getRowCount name w = (.returned n, w')) :
      p.Counted w₀ (names ++ [name]) (tables ++ [⟨name, n⟩]) w'
  | failed {names : List String} {tables : List TableCount} {name : String} {w w' : W} {exc : Exc}
      (before : p.Counted w₀ names tables w) (h : p.getRowCount name w = (.raised exc, w')) :
      p.Counted w₀ (names ++ [name]) (tables ++ [⟨name, -1⟩]) w'

theorem ProviderObject.Counted.names_eq {p : ProviderObject W} {w₀ w : W} {names : List String}
    {tables : List TableCount} (h : p.Counted w₀ names tables w) :
    tables.map (·.name) = names := by
  induction h with
  | nil => rfl
  | counted _ _ ih => simp [ih]
  | failed _ _ ih => simp [ih]

section raises

open Call (RaisesOnly raisesOnly_pure raisesOnly_modify raisesOnly_read)

variable {p : ProviderObject W}

theorem raisesOnly_observed {P : Exc → Prop} {c : Call Exc W α} {onReturn : α → List HandleEvent}
    {onRaise : List HandleEvent} (h : ∀ w exc w', c w = (.raised exc, w') → P exc) :
    RaisesOnly P (Opened.observed c onReturn onRaise) := by
  intro s
  rw [Call.wp, Opened.observed]
  rcases hc : c s.world with ⟨a | exc | _, w⟩
  · trivial
  · exact h s.world exc w hc
  · trivial

theorem raisesOnly_runAll (conn : Nat) (statements : List String) :
    RaisesOnly p.Raises (p.driver.runAll conn statements) := by
  induction statements with
  | nil => exact raisesOnly_pure ()
  | cons sql rest ih =>
    have hrun : RaisesOnly p.Raises (p.driver.run conn sql) :=
      raisesOnly_observed fun _ _ _ h => .execute h
    exact hrun.bind fun _ => ih

theorem raisesOnly_aenter : RaisesOnly p.Raises p.aenter := by
  have hopen : RaisesOnly p.Raises p.driver.openHandle :=
    raisesOnly_observed fun _ _ _ h => .connect h
  have hconnect : RaisesOnly p.Raises p.connect :=
    hopen.bind fun conn => (raisesOnly_modify _).bind fun _ => raisesOnly_runAll conn p.setup
  refine (raisesOnly_modify _).bind fun _ => hconnect.tryExcept fun exc hexc => ?_
  exact (raisesOnly_modify _).bind fun _ => Call.raisesOnly_raise hexc

theorem raisesOnly_aexit : RaisesOnly p.Raises p.aexit := by
  have hdisconnect : RaisesOnly p.Raises p.disconnect := by
    apply (raisesOnly_read _).bind
    intro conn
    cases conn with
    | none => exact raisesOnly_pure ()
    | some conn =>
      have hclose : RaisesOnly p.Raises (p.driver.closeHandle conn) :=
        raisesOnly_observed fun _ _ _ h => .close h
      exact hclose.bind fun _ => raisesOnly_modify _
  exact hdisconnect.tryFinally (raisesOnly_modify _)

/-- A count that fails is taken for -1. -/
theorem raisesOnly_countTable {P : Exc → Prop} (tables : List TableCount) (name : String) :
    RaisesOnly P (SchemaService.countTable p tables name) :=
  (Call.raisesOnly_tryExcept _ fun _ => raisesOnly_pure _).bind fun _ => raisesOnly_pure _

theorem raisesOnly_listTables : RaisesOnly p.Raises (SchemaService.listTables p) := by
  have hnames : RaisesOnly p.Raises (inside p.getTables) := by
    apply RaisesOnly.zoom
    intro w
    rw [Call.wp]
    rcases h : p.getTables w with ⟨_ | exc | _, w'⟩
    · trivial
    · exact .getTables h
    · trivial
  refine hnames.bind fun names => ?_
  exact RaisesOnly.forEach (fun tables name => raisesOnly_countTable tables name) names []

end raises

namespace SchemaService

variable {p : ProviderObject W} {start : List HandleEvent} {held : List Nat}
  {conns : List (Option Nat)}

theorem keeps_listTables : Call.Keeps (Holds start held conns) (listTables p) := by
  refine (Opened.inside_keeps _).bind fun names => Call.Keeps.forEach ?_ names []
  intro tables name
  have hcount : Call.Keeps (Holds start held conns) (do
      let n ← inside (p.getRowCount name)
      pure (n : Int)) := (Opened.inside_keeps _).bind fun _ => Call.keeps_pure _
  exact (hcount.tryExcept fun _ => Call.keeps_pure _).bind fun _ => Call.keeps_pure _

theorem wp_countTable {w₀ : W} {names : List String} {tables : List TableCount} (name : String)
    {s : Opened W} (hcounted : p.Counted w₀ names tables s.world) :
    Call.wp (countTable p tables name) (Post.onReturn fun pass s' => ∃ tables',
      pass = .again tables' ∧ p.Counted w₀ (names ++ [name]) tables' s'.world) s := by
  have hcount : Call.wp (Call.tryExcept
      (do
        let n ← inside (p.getRowCount name)
        pure (n : Int))
      (fun _ => pure (-1))) (Post.onReturn fun count s' =>
        p.Counted w₀ (names ++ [name]) (tables ++ [⟨name, count⟩]) s'.world) s := by
    rw [Call.wp_tryExcept, Call.wp_bind, inside, Call.wp_zoom, Call.wp]
    rcases h : p.getRowCount name s.world with ⟨n | exc | _, w⟩
    · exact hcounted.counted h
    · exact hcounted.failed h
    · trivial
  exact Call.wp_seq hcount fun count _ h => ⟨_, rfl, h⟩

/-- The entries are those of the listed tables, in their order. -/
theorem wp_listTables (p : ProviderObject W) (s : Opened W) : Call.wp (listTables p)
    (Post.onReturn fun tables s' => ∃ names w, p.getTables s.world = (.returned names, w) ∧
      p.Counted w names tables s'.world) s := by
  have hnames : Call.wp (inside p.getTables)
      (Post.onReturn fun names s' => p.getTables s.world = (.returned names, s'.world)) s := by
    rw [inside, Call.wp_zoom]
    exact Call.wp_onReturn_self p.getTables s.world
  apply Call.wp_seq hnames
  intro names s₁ hlisted
  have hloop : Call.wp (Call.forEach (countTable p) names [])
      (Post.onReturn fun tables s' => p.Counted s₁.world names tables s'.world) s₁ := by
    refine Call.wp_forEach (fun done tables s' => p.Counted s₁.world done tables s'.world) names ?_
      (fun _ _ h => h) [] names [] s₁ rfl .nil
    intro done name later tables s₂ _ hdone
    refine Call.wp_mono (wp_countTable name hdone) ?_ (fun _ _ h => h) (fun _ h => h)
    intro pass s₃ h
    obtain ⟨tables', rfl, hcounted⟩ := h
    exact hcounted
  exact Call.wp_mono hloop (fun _ _ h => ⟨names, s₁.world, hlisted, h⟩) (fun _ _ h => h)
    (fun _ h => h)

/-- What the body of an `async with` returns is returned. -/
theorem wp_asyncWith (p : ProviderObject W) {P : Opened W → α → Prop}
    {body : Call Exc (Opened W) α} (hbody : ∀ s, Call.wp body (Post.onReturn fun a _ => P s a) s)
    (s : Opened W) : Call.wp (p.asyncWith body)
      (Post.onReturn fun a _ => ∃ s₁, p.aenter s = (.returned (), s₁) ∧ P s₁ a) s := by
  apply Call.wp_seq (Call.wp_onReturn_self p.aenter s)
  intro _ s₁ henter
  rw [Call.wp_tryFinally]
  refine Call.wp_mono (hbody s₁) ?_ ?_ (fun _ h => h)
  · exact fun a s₂ ha => Call.wp_of_forall (fun _ _ => ⟨s₁, henter, ha⟩) (fun _ _ => trivial)
      (fun _ => trivial)
  · exact fun _ s₂ _ => Call.wp_of_forall (fun _ _ => trivial) (fun _ _ => trivial)
      (fun _ => trivial)

/-- Schema discovery lists each table once and in order, with its count, or with -1 where the count
could not be read. No failure of a count is one of the request, and however the request ends,
every handle it opened has ended: it was closed, or left open by what failed. -/
theorem getTables_answers (lib : PyLibrary) (make : ProviderParams → ProviderObject W)
    (connection : ConnectionCredentials) (s : Opened W) :
    Call.wp (getTables lib make connection)
      ⟨fun response s' => Holds s.events [] s.conns s' ∧
          response.databaseType = connection.databaseType.value ∧
          ∃ params s₁ names w w', discoveredProvider lib connection = .ok params ∧
            (make params).aenter s = (.returned (), s₁) ∧
            (make params).getTables s₁.world = (.returned names, w) ∧
            (make params).Counted w names response.tables w' ∧
            response.tables.map (·.name) = names,
        fun exc s' => Holds s.events [] s.conns s' ∧
          (discoveredProvider lib connection = .error exc ∨
            ∃ params, discoveredProvider lib connection = .ok params ∧ (make params).Raises exc),
        fun _ => True⟩ s := by
  have hs : Holds s.events [] s.conns s := ⟨⟨[], by simp, .nil⟩, rfl⟩
  rw [getTables]
  apply Call.wp_bind_ofExcept
  · intro params hparams
    have hrestores : Call.Restores (Holds s.events [] s.conns)
        ((make params).asyncWith (listTables (make params))) :=
      ProviderObject.restores_asyncWith fun _ => keeps_listTables.restores
    have hraises : Call.RaisesOnly (make params).Raises
        ((make params).asyncWith (listTables (make params))) :=
      raisesOnly_aenter.bind fun _ => raisesOnly_listTables.tryFinally raisesOnly_aexit
    have hbody : ∀ s₁ : Opened W, Call.wp (listTables (make params))
        (Post.onReturn fun tables _ => ∃ names w w',
          (make params).getTables s₁.world = (.returned names, w) ∧
          (make params).Counted w names tables w') s₁ := by
      intro s₁
      refine Call.wp_mono (wp_listTables (make params) s₁) ?_ (fun _ _ h => h) (fun _ h => h)
      intro tables s₂ h
      obtain ⟨names, w, hlisted, hcounted⟩ := h
      exact ⟨names, w, s₂.world, hlisted, hcounted⟩
    have hlists := wp_asyncWith (make params) hbody s
    rw [Call.wp_bind]
    refine Call.wp_mono (Call.wp_and (hrestores s hs) (Call.wp_and (hraises s) hlists)) ?_ ?_
      (fun _ _ => trivial)
    · intro tables s' h
      obtain ⟨hend, -, s₁, henter, names, w, w', hlisted, hcounted⟩ := h
      exact ⟨hend, rfl, params, s₁, names, w, w', hparams, henter, hlisted, hcounted,
        hcounted.names_eq⟩
    · intro exc s' h
      exact ⟨h.1, Or.inr ⟨params, hparams, h.2.1⟩⟩
  · intro exc hexc
    exact ⟨hs, Or.inl hexc⟩

end SchemaService

namespace ConnectionService

variable (lib : PyLibrary) (c : ConnectionCredentials)

/-- MySQL by its fields without a port, or by a URL that `urlparse` does not read. -/
def Untestable : Prop :=
  c.databaseType = .MYSQL ∧ (c.connectionMethod = .CREDENTIALS → c.port = none) ∧
    (c.connectionMethod = .URL →
      ¬ (PyUrl.ReadableNetloc lib.toTables (PyUrl.netlocOf (c.databaseUrl.getD "")) ∧
        PyUrl.ReadablePort (PyUrl.hostinfo (PyUrl.netlocOf (c.databaseUrl.getD ""))).2))

theorem not_ok_iff_error {e : Except Exc ProviderParams} :
    (∃ exc, e = .error exc) ↔ ¬ ∃ params, e = .ok params := by
  cases e <;> simp

/-- The DSN of a missing port is a text all the same; only MySQL reads the port as a number. -/
theorem testedProvider_fields_ok_iff (hs : c.databaseType.supported = true)
    (hm : c.connectionMethod = .CREDENTIALS) :
    (∃ params, testedProvider lib c = .ok params) ↔ (c.databaseType = .MYSQL → c.port ≠ none) := by
  cases hp : c.port with
  | some port =>
    have hok := testedProvider_fields lib c hm hp hs
    exact iff_of_true ⟨_, hok⟩ fun _ => by simp
  | none =>
    have hprovider := getProvider_of_fields lib c (holdsFields_buildCredentials c hm) hs
    rw [testedProvider, hprovider, buildCredentials_port c hm, buildCredentials_port c hm, hp]
    cases ht : c.databaseType with
    | MYSQL =>
      refine iff_of_false ?_ (by simp)
      intro h
      obtain ⟨params, hparams⟩ := h
      cases hparams
    | POSTGRES => exact iff_of_true ⟨_, rfl⟩ (by simp)
    | SQLITE => exact iff_of_true ⟨_, rfl⟩ (by simp)
    | _ => simp [ht, DatabaseType.supported] at hs

theorem testedProvider_error_iff (hs : c.databaseType.supported = true) :
    (∃ exc, testedProvider lib c = .error exc) ↔ Untestable lib c := by
  rw [not_ok_iff_error]
  cases hm : c.connectionMethod with
  | URL =>
    obtain ⟨url, hurl, hne⟩ := exists_of_present (c.databaseUrl_present hm)
    rw [testedProvider_url lib c hm hurl hne hs, urlParams_ok_iff, Untestable, hm, hurl]
    simp
  | CREDENTIALS =>
    rw [testedProvider_fields_ok_iff lib c hs hm, Untestable, hm]
    simp

variable {lib} {make : ProviderParams → ProviderObject W}

/-- The connection test answers every request that the validators accept, but a MySQL one that has
no port or no readable URL, for which it raises and opens nothing. It reports success just when a
connection was opened, answered and was closed. -/
theorem testConnection_answers (s : Opened W) : Call.wp (testConnection lib make c)
    ⟨fun response s' => ¬ Untestable lib c ∧ Holds s.events [] s.conns s' ∧
        (response.success = true ↔
          ∃ conn, s'.events = s.events ++ [.opened conn, .closed conn]),
      fun _ s' => Untestable lib c ∧ s' = s,
      fun _ => ¬ Untestable lib c⟩ s := by
  have hs : Holds s.events [] s.conns s := ⟨⟨[], by simp, .nil⟩, rfl⟩
  rw [testConnection]
  cases htested : testedProvider lib c with
  | error exc =>
    dsimp only
    by_cases hsupported : c.databaseType.supported = true
    · rw [if_pos hsupported]
      exact ⟨(testedProvider_error_iff lib c hsupported).mp ⟨exc, htested⟩, rfl⟩
    · rw [if_neg hsupported]
      refine ⟨?_, hs, by simp⟩
      intro h
      exact hsupported (by rw [h.1]; rfl)
  | ok params =>
    have htestable : ¬ Untestable lib c := by
      intro h
      have hsupported : c.databaseType.supported = true := by rw [h.1]; rfl
      obtain ⟨exc, hexc⟩ := (testedProvider_error_iff lib c hsupported).mpr h
      rw [htested] at hexc
      cases hexc
    dsimp only
    rw [Call.wp_bind]
    refine Call.wp_mono ((make params).wp_testConnection s) ?_ (fun _ _ h => h.elim)
      (fun _ _ => htestable)
    intro result s' h
    refine ⟨htestable, h.holds hs, ?_⟩
    rcases h.2 with ⟨conn, latency, rfl, hevents⟩ | ⟨exc, rfl, hevents⟩
    · exact iff_of_true rfl ⟨conn, hevents⟩
    · refine iff_of_false Bool.false_ne_true ?_
      intro hclosed
      obtain ⟨conn, hclosed⟩ := hclosed
      rcases hevents with hsame | ⟨conn', hfailed | hfailed⟩
      · rw [hsame] at hclosed
        simp at hclosed
      · rw [hfailed] at hclosed
        simp at hclosed
      · rw [hfailed] at hclosed
        simp at hclosed

end ConnectionService

end DataBridge

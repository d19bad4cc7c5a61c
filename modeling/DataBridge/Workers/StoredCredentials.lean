import DataBridge.Services.ConnectionService
import DataBridge.Utils.Encryption
import DataBridge.Workers.TaskFrame

namespace DataBridge

open FlatJson (Scalar)

variable (lib : PyLibrary) (fernet : Fernet)

/-- `creds.get("database_type")`, where it is a text. -/
def Credentials.databaseType (creds : Credentials) : Option String :=
  match creds.get? "database_type" with
  | some (.str type) => some type
  | _ => none

/-- The provider the worker makes of a stored connection. -/
def storedProvider (ciphertext : String) : Except Exc ProviderParams := do
  let creds ← decryptCredentials fernet ciphertext
  let type := creds.databaseType.getD ""
  if type = "" then
    .error ⟨.valueError, "database_type missing from stored credentials — cannot start migration."⟩
  else getProvider lib type creds

/-! ## The stored provider is the worker's -/

section worker

variable {W : Type} (opened : ProviderParams → ManagedProvider W) (x : TaskContext Credentials W)

/-- A task with the codec and the registry of the repository. -/
def TaskContext.withRegistry : TaskContext Credentials W :=
  { x with
    decryptCredentials := DataBridge.decryptCredentials fernet
    databaseType := Credentials.databaseType
    getProvider := fun type creds => (DataBridge.getProvider lib type creds).map opened }

theorem storedProvider_ok {ciphertext : String} {params : ProviderParams}
    (h : storedProvider lib fernet ciphertext = .ok params) :
    ∃ creds, decryptCredentials fernet ciphertext = .ok creds ∧ creds.databaseType.getD "" ≠ "" ∧
      getProvider lib (creds.databaseType.getD "") creds = .ok params := by
  obtain ⟨creds, hcreds, hrest⟩ := ExceptList.bind_ok_iff.mp h
  refine ⟨creds, hcreds, ?_⟩
  dsimp only at hrest
  split at hrest
  · cases hrest
  · rename_i hne
    exact ⟨hne, hrest⟩

/-- The job of a record opens the two providers its stored connections name. -/
theorem providers_of_stored {source destination : String} {src dst : ProviderParams}
    (hs : storedProvider lib fernet source = .ok src)
    (hd : storedProvider lib fernet destination = .ok dst) :
    ∃ srcCreds dstCreds, (x.withRegistry lib fernet opened).decryptCredentials source = .ok srcCreds ∧
      (x.withRegistry lib fernet opened).decryptCredentials destination = .ok dstCreds ∧
      ∀ tables migSettings, (x.withRegistry lib fernet opened).providers
        ⟨tables, migSettings, srcCreds, dstCreds⟩ = .ok (opened src, opened dst) := by
  obtain ⟨srcCreds, hsrc, hsrcType, hsrcParams⟩ := storedProvider_ok lib fernet hs
  obtain ⟨dstCreds, hdst, hdstType, hdstParams⟩ := storedProvider_ok lib fernet hd
  have htext : ∀ type : Option String, TaskContext.orText type "" = type.getD "" := by
    intro type
    unfold TaskContext.orText
    split <;> rfl
  refine ⟨srcCreds, dstCreds, hsrc, hdst, fun tables migSettings => ?_⟩
  rw [TaskContext.providers]
  simp only [TaskContext.withRegistry, htext]
  rw [if_neg (by tauto), hsrcParams, hdstParams]
  rfl

end worker

/-! ## The three paths to a database -/

variable (c : ConnectionCredentials)

/-- What `create_migration` stores is what schema discovery has tried. -/
theorem storedProvider_encrypted (h : fernet.Undoes) :
    storedProvider lib fernet (encryptCredentials fernet (credsToDict c)) =
      discoveredProvider lib c := by
  have hdecrypt := decrypt_encryptCredentials fernet h (credsToDict c)
  have hmem : ("database_type", .str c.databaseType.value) ∈ c.modelDump := by
    simp [ConnectionFields.modelDump]
  have hget : (credsToDict c).get? "database_type" = some (.str c.databaseType.value) :=
    get?_credsToDict c hmem
  have htype : (credsToDict c).databaseType.getD "" = c.databaseType.value := by
    rw [Credentials.databaseType, hget]
    rfl
  have hne : c.databaseType.value ≠ "" := by
    cases c.databaseType <;> decide
  rw [storedProvider, hdecrypt, discoveredProvider]
  simp only [bind, Except.bind, htype]
  rw [if_neg hne]

/-- The connection test, schema discovery and the worker get the same parameters, without an
exception; with the method CREDENTIALS they are those of the fields. -/
def SameDatabase : Prop :=
  ∃ params, testedProvider lib c = .ok params ∧ discoveredProvider lib c = .ok params ∧
    storedProvider lib fernet (encryptCredentials fernet (credsToDict c)) = .ok params ∧
    (c.connectionMethod = .CREDENTIALS → params = fieldParams c)

/-- A parsed MySQL URL says what the fields say. -/
structure NamesFields (r : PyUrl.ParseResult) (port : Option Nat) : Prop where
  host : c.host = some
    (if (r.hostname lib.toTables).getD "" = "" then "localhost" else (r.hostname lib.toTables).getD "")
  port : c.port.getD 3306 = if port.getD 0 = 0 then (3306 : Int) else port.getD 0
  username : c.username = some (r.username.getD "")
  password : c.password = some (r.password.getD "")
  database : c.database = some (String.ofList (r.path.toList.dropWhile (· = '/')))

/-- A URL says what the fields say. -/
def UrlNames (url : String) : Prop :=
  match c.databaseType with
  | .POSTGRES => PostgresProvider.normalizeUrl url = PostgresProvider.dsnOf (.ofText c.username)
      (.ofText c.password) (.ofText c.host) (.int (c.port.getD 5432)) (.ofText c.database)
  | .MYSQL => ∃ r port, PyUrl.urlparse lib.toTables url = .ok r ∧ r.port lib.toTables = .ok port ∧
      NamesFields lib c r port
  | _ => c.filePath = some (SQLiteProvider.urlPath url)

/-- A MySQL URL can be parsed; the fields of a server say a port; and no URL beside the fields
names another database. -/
structure OneDatabase : Prop where
  readable : c.connectionMethod = .URL → c.databaseType = .MYSQL →
    PyUrl.ReadableNetloc lib.toTables (PyUrl.netlocOf (c.databaseUrl.getD "")) ∧
      PyUrl.ReadablePort (PyUrl.hostinfo (PyUrl.netlocOf (c.databaseUrl.getD ""))).2
  port : c.connectionMethod = .CREDENTIALS → c.databaseType ≠ .SQLITE → c.port ≠ none
  url : c.connectionMethod = .CREDENTIALS → absent c.databaseUrl = false →
    UrlNames lib c (c.databaseUrl.getD "")

theorem ofText_eq_str {text : String} {value : Option String} :
    Scalar.str text = .ofText value ↔ value = some text := by
  cases value with
  | none => exact ⟨fun h => (by cases h), fun h => (by cases h)⟩
  | some v => exact ⟨fun h => congrArg some (Scalar.str.inj h).symm, fun h => (by cases h; rfl)⟩

theorem map_mysql_ok_iff {e : Except Exc MysqlParams} {params : MysqlParams} :
    e.map ProviderParams.mysql = .ok (.mysql params) ↔ e = .ok params := by
  cases e <;> simp [Except.map]

theorem urlParams_eq_fieldParams_iff (url : String) :
    urlParams lib c.databaseType url = .ok (fieldParams c) ↔ UrlNames lib c url := by
  unfold urlParams fieldParams UrlNames
  cases c.databaseType with
  | POSTGRES => simp
  | MYSQL =>
    rw [map_mysql_ok_iff, parseUrl_eq_ok_iff]
    constructor
    · intro hparts
      obtain ⟨r, port, hr, hp, heq⟩ := hparts
      obtain ⟨hhost, hport, huser, hpassword, hdb⟩ := MysqlParams.mk.inj heq
      exact ⟨r, port, hr, hp, ofText_eq_str.mp hhost.symm, hport, ofText_eq_str.mp huser.symm,
        ofText_eq_str.mp hpassword.symm, ofText_eq_str.mp hdb.symm⟩
    · intro hfound
      obtain ⟨r, port, hr, hp, h⟩ := hfound
      refine ⟨r, port, hr, hp, ?_⟩
      rw [ofText_eq_str.mpr h.host, h.port, ofText_eq_str.mpr h.username,
        ofText_eq_str.mpr h.password, ofText_eq_str.mpr h.database]
  | _ => simp [ofText_eq_str]

theorem urlParams_ok_iff (type : DatabaseType) (url : String) :
    (∃ params, urlParams lib type url = .ok params) ↔ (type = .MYSQL →
      PyUrl.ReadableNetloc lib.toTables (PyUrl.netlocOf url) ∧
        PyUrl.ReadablePort (PyUrl.hostinfo (PyUrl.netlocOf url)).2) := by
  have hparse := parseUrl_ok_iff lib url
  cases type with
  | MYSQL =>
    rw [← hparse, urlParams]
    constructor
    · intro hparts _
      obtain ⟨params, hparams⟩ := hparts
      cases hurl : MySQLProvider.parseUrl lib url with
      | error exc => rw [hurl] at hparams; cases hparams
      | ok mysql => exact ⟨mysql, rfl⟩
    · intro hparse
      obtain ⟨params, hparams⟩ := hparse rfl
      exact ⟨.mysql params, by rw [hparams]; rfl⟩
  | _ => exact ⟨fun _ h => (by cases h), fun _ => ⟨_, rfl⟩⟩

theorem sameDatabase_url_iff (h : fernet.Undoes) (hs : c.databaseType.supported = true)
    (hm : c.connectionMethod = .URL) :
    SameDatabase lib fernet c ↔
      ∃ params, urlParams lib c.databaseType (c.databaseUrl.getD "") = .ok params := by
  obtain ⟨url, hurl, hne⟩ := exists_of_present (c.databaseUrl_present hm)
  have htested := testedProvider_url lib c hm hurl hne hs
  have hdiscovered := discoveredProvider_url lib c hurl hne hs
  rw [SameDatabase, storedProvider_encrypted lib fernet c h, htested, hdiscovered, hurl,
    Option.getD_some]
  constructor
  · intro hparts
    obtain ⟨params, hparams, -⟩ := hparts
    exact ⟨params, hparams⟩
  · intro hfound
    obtain ⟨params, hparams⟩ := hfound
    refine ⟨params, hparams, hparams, hparams, fun hcred => ?_⟩
    rw [hm] at hcred
    cases hcred

/-- With the method CREDENTIALS, what the test tries are the fields. -/
theorem sameDatabase_fields_iff (h : fernet.Undoes) (hm : c.connectionMethod = .CREDENTIALS) :
    SameDatabase lib fernet c ↔
      testedProvider lib c = .ok (fieldParams c) ∧ discoveredProvider lib c = .ok (fieldParams c) := by
  rw [SameDatabase, storedProvider_encrypted lib fernet c h]
  constructor
  · intro hparts
    obtain ⟨params, htested, hdiscovered, -, hfields⟩ := hparts
    rw [hfields hm] at htested hdiscovered
    exact ⟨htested, hdiscovered⟩
  · intro hfound
    obtain ⟨htested, hdiscovered⟩ := hfound
    exact ⟨fieldParams c, htested, hdiscovered, hdiscovered, fun _ => rfl⟩

theorem testedProvider_fields_iff (hs : c.databaseType.supported = true)
    (hm : c.connectionMethod = .CREDENTIALS) :
    testedProvider lib c = .ok (fieldParams c) ↔ (c.databaseType ≠ .SQLITE → c.port ≠ none) := by
  constructor
  · intro htested ht hport
    exact testedProvider_noPort lib c hm hport ht hs htested
  · intro hport
    by_cases ht : c.databaseType = .SQLITE
    · exact testedProvider_sqlite lib c hm ht
    · obtain ⟨port, hp⟩ := Option.ne_none_iff_exists'.mp (hport ht)
      exact testedProvider_fields lib c hm hp hs

theorem discoveredProvider_fields_iff (hs : c.databaseType.supported = true)
    (hm : c.connectionMethod = .CREDENTIALS) :
    discoveredProvider lib c = .ok (fieldParams c) ↔
      (absent c.databaseUrl = false → UrlNames lib c (c.databaseUrl.getD "")) := by
  cases hu : absent c.databaseUrl with
  | true => exact ⟨fun _ h => (by cases h), fun _ => discoveredProvider_fields lib c hm hu hs⟩
  | false =>
    obtain ⟨url, hurl, hne⟩ := exists_of_present hu
    have hdiscovered := discoveredProvider_url lib c hurl hne hs
    have hnames := urlParams_eq_fieldParams_iff lib c url
    rw [hdiscovered, hurl, Option.getD_some, hnames]
    exact ⟨fun h _ => h, fun h => h rfl⟩

/-- The paths of a connection with accepted credentials meet in one database just when
`OneDatabase` holds of the request. -/
theorem sameDatabase_iff (h : fernet.Undoes) (hs : c.databaseType.supported = true) :
    SameDatabase lib fernet c ↔ OneDatabase lib c := by
  cases hm : c.connectionMethod with
  | URL =>
    rw [sameDatabase_url_iff lib fernet c h hs hm, urlParams_ok_iff]
    constructor
    · intro hreadable
      exact ⟨fun _ => hreadable, fun hcred => (by rw [hm] at hcred; cases hcred),
        fun hcred => (by rw [hm] at hcred; cases hcred)⟩
    · exact fun hone => hone.readable hm
  | CREDENTIALS =>
    have htested := testedProvider_fields_iff lib c hs hm
    have hdiscovered := discoveredProvider_fields_iff lib c hs hm
    rw [sameDatabase_fields_iff lib fernet c h hm, htested, hdiscovered]
    constructor
    · intro hparts
      obtain ⟨hport, hurl⟩ := hparts
      exact ⟨fun hcred => (by rw [hm] at hcred; cases hcred), fun _ => hport, fun _ => hurl⟩
    · exact fun hone => ⟨hone.port hm, hone.url hm⟩

/-! ## One MySQL connection without a port -/

private def asciiLibrary : PyLibrary where
  ipAddress s := .error (s ++ " does not appear to be an IPv4 or IPv6 address")
  normalizeNFKC s := s
  lower s := s.map Char.toLower
  repr s := "'" ++ s ++ "'"
  int s := .error ⟨.valueError, s⟩

private def taggedFernet : Fernet where
  encrypt s := String.ofList ('g' :: s.toList)
  decrypt s := if s.toList.head? = some 'g' then some (String.ofList (s.toList.drop 1)) else none

private theorem taggedFernet_undoes : taggedFernet.Undoes := by
  intro s
  simp [taggedFernet]

private def mysqlFields (port : Option Int) : ConnectionFields where
  databaseType := .MYSQL
  connectionMethod := .CREDENTIALS
  host := some "db"
  port := port
  database := some "shop"
  username := some "app"
  password := some "secret"

private def withPort : ConnectionCredentials := ⟨mysqlFields (some 3307), rfl, rfl⟩

private def withoutPort : ConnectionCredentials := ⟨mysqlFields none, rfl, rfl⟩

theorem sameDatabase_iff_withPort : SameDatabase asciiLibrary taggedFernet withPort :=
  (sameDatabase_iff asciiLibrary taggedFernet withPort taggedFernet_undoes rfl).mpr
    ⟨fun h => (by cases h), fun _ _ h => (by cases h), fun _ h => (by cases h)⟩

/-- Schema discovery and the worker use the port 3306; the connection test raises a TypeError. -/
theorem test_raises_without_port :
    taggedFernet.Undoes ∧ withoutPort.databaseType.supported = true ∧
      testedProvider asciiLibrary withoutPort = .error ⟨.typeError,
        "int() argument must be a string, a bytes-like object or a real number, not 'NoneType'"⟩ ∧
      discoveredProvider asciiLibrary withoutPort =
        .ok (.mysql ⟨.str "db", 3306, .str "app", .str "secret", .str "shop"⟩) ∧
      ¬ SameDatabase asciiLibrary taggedFernet withoutPort := by
  have htested : testedProvider asciiLibrary withoutPort = .error ⟨.typeError,
      "int() argument must be a string, a bytes-like object or a real number, not 'NoneType'"⟩ := by
    decide
  refine ⟨taggedFernet_undoes, rfl, htested, by decide, ?_⟩
  intro h
  obtain ⟨params, hparams, -⟩ := h
  rw [htested] at hparams
  cases hparams

end DataBridge

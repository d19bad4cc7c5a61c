import DataBridge.Providers.Credentials

namespace DataBridge

open FlatJson (Scalar)

/-- The entries of the dict for the method CREDENTIALS. -/
def fieldEntries (req : ConnectionCredentials) : List (String × Scalar) :=
  [("connection_method", .str req.connectionMethod.value), ("host", .ofText req.host),
    ("port", .ofInt req.port), ("database", .ofText req.database),
    ("username", .ofText req.username), ("password", .ofText req.password)]

/-- `_build_credentials`. -/
def buildCredentials (req : ConnectionCredentials) : Credentials :=
  if req.connectionMethod = .URL then
    Dict.ofList [("database_url", .ofText req.databaseUrl),
      ("connection_method", .str req.connectionMethod.value)]
  else
    let creds : Credentials := Dict.ofList (fieldEntries req)
    if req.databaseType = .SQLITE then creds.set "file_path" (.ofText req.filePath) else creds

variable (lib : PyLibrary) (c : ConnectionCredentials)

/-- The provider of the connection test. -/
def testedProvider : Except Exc ProviderParams :=
  getProvider lib c.databaseType.value (buildCredentials c)

/-- The provider of schema discovery and of `create_migration`. -/
def discoveredProvider : Except Exc ProviderParams :=
  getProvider lib c.databaseType.value (credsToDict c)

/-- The parameters the fields name, with the port of the provider where none is given. -/
def fieldParams : ProviderParams :=
  match c.databaseType with
  | .POSTGRES => .postgres (PostgresProvider.dsnOf (.ofText c.username) (.ofText c.password)
      (.ofText c.host) (.int (c.port.getD 5432)) (.ofText c.database))
  | .MYSQL => .mysql {
      host := .ofText c.host
      port := c.port.getD 3306
      user := .ofText c.username
      password := .ofText c.password
      db := .ofText c.database }
  | _ => .sqlite (.ofText c.filePath)

/-- The parameters a provider takes from a URL. -/
def urlParams (type : DatabaseType) (url : String) : Except Exc ProviderParams :=
  match type with
  | .POSTGRES => .ok (.postgres (PostgresProvider.normalizeUrl url))
  | .MYSQL => (MySQLProvider.parseUrl lib url).map .mysql
  | _ => .ok (.sqlite (.str (SQLiteProvider.urlPath url)))

theorem valueError_ok_iff {α : Type} {e : Except String α} {a : α} :
    MySQLProvider.valueError e = .ok a ↔ e = .ok a := by
  cases e <;> simp [MySQLProvider.valueError, Except.mapError]

theorem parseUrl_eq_ok_iff (url : String) (params : MysqlParams) :
    MySQLProvider.parseUrl lib url = .ok params ↔
      ∃ r port, PyUrl.urlparse lib.toTables url = .ok r ∧ r.port lib.toTables = .ok port ∧ params = {
        host := .str (if (r.hostname lib.toTables).getD "" = "" then "localhost"
          else (r.hostname lib.toTables).getD "")
        port := if port.getD 0 = 0 then 3306 else port.getD 0
        user := .str (r.username.getD "")
        password := .str (r.password.getD "")
        db := .str (String.ofList (r.path.toList.dropWhile (· = '/'))) } := by
  constructor
  · intro h
    obtain ⟨r, hr, hrest⟩ := ExceptList.bind_ok_iff.mp h
    obtain ⟨port, hp, heq⟩ := ExceptList.bind_ok_iff.mp hrest
    exact ⟨r, port, valueError_ok_iff.mp hr, valueError_ok_iff.mp hp, (Except.ok.inj heq).symm⟩
  · intro hparts
    obtain ⟨r, port, hr, hp, rfl⟩ := hparts
    have hport : MySQLProvider.valueError (r.port lib.toTables) = .ok port := valueError_ok_iff.mpr hp
    exact ExceptList.bind_ok_iff.mpr ⟨r, valueError_ok_iff.mpr hr,
      ExceptList.bind_ok_iff.mpr ⟨port, hport, rfl⟩⟩

/-- The URLs `_parse_credentials` reads. -/
theorem parseUrl_ok_iff (url : String) :
    (∃ params, MySQLProvider.parseUrl lib url = .ok params) ↔
      PyUrl.ReadableNetloc lib.toTables (PyUrl.netlocOf url) ∧
        PyUrl.ReadablePort (PyUrl.hostinfo (PyUrl.netlocOf url)).2 := by
  rw [← PyUrl.urlparse_ok_iff]
  constructor
  · intro h
    obtain ⟨params, hparams⟩ := h
    obtain ⟨r, port, hr, hp, -⟩ := (parseUrl_eq_ok_iff lib url params).mp hparams
    have hreadable := (PyUrl.port_ok_iff lib.toTables r).mp ⟨port, hp⟩
    rw [(PyUrl.urlparse_ok lib.toTables hr).2.2] at hreadable
    exact ⟨⟨r, hr⟩, hreadable⟩
  · intro h
    obtain ⟨⟨r, hr⟩, hreadable⟩ := h
    rw [← (PyUrl.urlparse_ok lib.toTables hr).2.2] at hreadable
    obtain ⟨port, hp⟩ := (PyUrl.port_ok_iff lib.toTables r).mpr hreadable
    exact ⟨_, (parseUrl_eq_ok_iff lib url _).mpr ⟨r, port, hr, hp, rfl⟩⟩

theorem getProvider_of_url {creds : Credentials} {url : String}
    (h : creds.databaseUrl = some (.str url)) (hs : c.databaseType.supported = true) :
    getProvider lib c.databaseType.value creds = urlParams lib c.databaseType url := by
  rw [getProvider, DatabaseType.ofValue?_value]
  cases ht : c.databaseType with
  | POSTGRES => simp only [urlParams, PostgresProvider.buildDsn, h, Except.map]
  | MYSQL => simp only [urlParams, MySQLProvider.parseCredentials, h]
  | SQLITE => simp only [urlParams, SQLiteProvider.resolvePath, h, Except.map]
  | _ => simp [ht, DatabaseType.supported] at hs

/-- A dict that says what `fieldParams` needs. -/
structure HoldsFields (creds : Credentials) : Prop where
  noUrl : creds.databaseUrl = none
  username : c.databaseType ≠ .SQLITE → creds.get? "username" = some (.ofText c.username)
  password : c.databaseType ≠ .SQLITE → creds.get? "password" = some (.ofText c.password)
  host : c.databaseType ≠ .SQLITE → creds.get? "host" = some (.ofText c.host)
  database : c.databaseType ≠ .SQLITE → creds.get? "database" = some (.ofText c.database)
  filePath : c.databaseType = .SQLITE → creds.get? "file_path" = some (.ofText c.filePath)

/-- The dict decides the parameters by its port alone. -/
theorem getProvider_of_fields {creds : Credentials} (h : HoldsFields c creds)
    (hs : c.databaseType.supported = true) :
    getProvider lib c.databaseType.value creds =
      match c.databaseType with
      | .POSTGRES => .ok (.postgres (PostgresProvider.dsnOf (.ofText c.username) (.ofText c.password)
          (.ofText c.host) (creds.getD "port" (.int 5432)) (.ofText c.database)))
      | .MYSQL => (intOf lib (creds.getD "port" (.int 3306))).map fun port => .mysql {
          host := .ofText c.host
          port := port
          user := .ofText c.username
          password := .ofText c.password
          db := .ofText c.database }
      | _ => .ok (.sqlite (.ofText c.filePath)) := by
  rw [getProvider, DatabaseType.ofValue?_value]
  obtain ⟨hurl, husername, hpassword, hhost, hdatabase, hpath⟩ := h
  cases ht : c.databaseType with
  | POSTGRES =>
    have hne : c.databaseType ≠ .SQLITE := by rw [ht]; decide
    simp only [PostgresProvider.buildDsn, hurl, Credentials.item, husername hne, hpassword hne,
      hhost hne, hdatabase hne]
    rfl
  | MYSQL =>
    have hne : c.databaseType ≠ .SQLITE := by rw [ht]; decide
    simp only [MySQLProvider.parseCredentials, hurl]
    have husername' : creds.getD "username" (.str "") = .ofText c.username := by
      rw [Credentials.getD, husername hne, Option.getD_some]
    have hpassword' : creds.getD "password" (.str "") = .ofText c.password := by
      rw [Credentials.getD, hpassword hne, Option.getD_some]
    have hhost' : creds.getD "host" (.str "localhost") = .ofText c.host := by
      rw [Credentials.getD, hhost hne, Option.getD_some]
    have hdatabase' : creds.getD "database" (.str "") = .ofText c.database := by
      rw [Credentials.getD, hdatabase hne, Option.getD_some]
    rw [husername', hpassword', hhost', hdatabase']
    cases intOf lib (creds.getD "port" (.int 3306)) <;> rfl
  | SQLITE =>
    simp only [SQLiteProvider.resolvePath, hurl, Credentials.getD, hpath ht, Option.getD_some,
      Except.map]
  | _ => simp [ht, DatabaseType.supported] at hs

/-! ## The dict of the connection test -/

theorem databaseUrl_of_get? {creds : Credentials} {url : String}
    (h : creds.get? "database_url" = some (.str url)) (hne : url ≠ "") :
    creds.databaseUrl = some (.str url) := by
  have htrue : (Scalar.str url).truthy = true := by simpa [Scalar.truthy] using hne
  rw [Credentials.databaseUrl, h, Option.filter_some_pos htrue]

theorem buildCredentials_databaseUrl {url : String} (hm : c.connectionMethod = .URL)
    (h : c.databaseUrl = some url) (hne : url ≠ "") :
    (buildCredentials c).databaseUrl = some (.str url) := by
  have hkeys : (["database_url", "connection_method"] : List String).Nodup := by decide
  apply databaseUrl_of_get? _ hne
  rw [buildCredentials, if_pos hm, h]
  exact (Dict.get?_ofList [("database_url", Scalar.str url),
    ("connection_method", .str c.connectionMethod.value)] hkeys _ _).mpr List.mem_cons_self

theorem get?_buildCredentials (hm : c.connectionMethod = .CREDENTIALS) (key : String) :
    (buildCredentials c).get? key =
      if key = "file_path" ∧ c.databaseType = .SQLITE then some (.ofText c.filePath)
      else (fieldEntries c).lookup key := by
  have hurl : c.connectionMethod ≠ .URL := by
    rw [hm]
    decide
  have hkeys : (["connection_method", "host", "port", "database", "username", "password"] :
      List String).Nodup := by decide
  have hentries := Dict.entries_ofList (fieldEntries c) hkeys
  have hget : (Dict.ofList (fieldEntries c)).get? key = (fieldEntries c).lookup key := by
    rw [Dict.get?, hentries]
  rw [buildCredentials, if_neg hurl]
  by_cases ht : c.databaseType = .SQLITE
  · simp only [ht, if_true, and_true, Dict.get?_set, hget]
  · simp only [ht, if_false, and_false, hget]

theorem holdsFields_buildCredentials (hm : c.connectionMethod = .CREDENTIALS) :
    HoldsFields c (buildCredentials c) where
  noUrl := by
    rw [Credentials.databaseUrl, get?_buildCredentials c hm]
    rfl
  username _ := get?_buildCredentials c hm "username"
  password _ := get?_buildCredentials c hm "password"
  host _ := get?_buildCredentials c hm "host"
  database _ := get?_buildCredentials c hm "database"
  filePath ht := by rw [get?_buildCredentials c hm, if_pos ⟨rfl, ht⟩]

theorem buildCredentials_port (hm : c.connectionMethod = .CREDENTIALS) (default : Scalar) :
    (buildCredentials c).getD "port" default = .ofInt c.port := by
  have hport := get?_buildCredentials c hm "port"
  rw [Credentials.getD, hport]
  rfl

/-! ## The dumped dict -/

theorem mem_modelDump_url : ("database_url", .ofText c.databaseUrl) ∈ c.modelDump := by
  simp [ConnectionFields.modelDump]

theorem credsToDict_databaseUrl {url : String} (h : c.databaseUrl = some url) (hne : url ≠ "") :
    (credsToDict c).databaseUrl = some (.str url) := by
  have hget := get?_credsToDict c (mem_modelDump_url c)
  rw [h] at hget
  exact databaseUrl_of_get? hget hne

/-- A text field that is there is dumped as it is. -/
theorem get?_credsToDict_text {key : String} {value : Option String}
    (h : (key, .ofText value) ∈ c.modelDump) (hp : absent value = false) :
    (credsToDict c).get? key = some (.ofText value) := by
  have hget := get?_credsToDict c h
  obtain ⟨text, rfl, -⟩ := exists_of_present hp
  exact hget

theorem holdsFields_credsToDict (hm : c.connectionMethod = .CREDENTIALS)
    (hu : absent c.databaseUrl = true) : HoldsFields c (credsToDict c) := by
  have hpresent := c.fields_present hm
  refine ⟨?_, ?_, ?_, ?_, ?_, ?_⟩
  · have hget := get?_credsToDict c (mem_modelDump_url c)
    rw [Credentials.databaseUrl, hget]
    cases hc : c.databaseUrl with
    | none => rfl
    | some url =>
      have hempty : url = "" := by simpa [absent, hc] using hu
      subst hempty
      rfl
  · exact fun ht => get?_credsToDict_text c (by simp [ConnectionFields.modelDump])
      (hpresent ht).2.2.1
  · exact fun ht => get?_credsToDict_text c (by simp [ConnectionFields.modelDump])
      (hpresent ht).2.2.2
  · exact fun ht => get?_credsToDict_text c (by simp [ConnectionFields.modelDump]) (hpresent ht).1
  · exact fun ht => get?_credsToDict_text c (by simp [ConnectionFields.modelDump])
      (hpresent ht).2.1
  · exact fun ht => get?_credsToDict_text c (by simp [ConnectionFields.modelDump])
      (c.filePath_present hm ht)

theorem credsToDict_port (default : Int) :
    (credsToDict c).getD "port" (.int default) = .int (c.port.getD default) := by
  have hmem : ("port", .ofInt c.port) ∈ c.modelDump := by simp [ConnectionFields.modelDump]
  have hget := get?_credsToDict c hmem
  rw [Credentials.getD, hget]
  cases c.port <;> rfl

/-! ## The three providers -/

theorem testedProvider_url {url : String} (hm : c.connectionMethod = .URL)
    (h : c.databaseUrl = some url) (hne : url ≠ "") (hs : c.databaseType.supported = true) :
    testedProvider lib c = urlParams lib c.databaseType url :=
  getProvider_of_url lib c (buildCredentials_databaseUrl c hm h hne) hs

theorem discoveredProvider_url {url : String} (h : c.databaseUrl = some url) (hne : url ≠ "")
    (hs : c.databaseType.supported = true) :
    discoveredProvider lib c = urlParams lib c.databaseType url :=
  getProvider_of_url lib c (credsToDict_databaseUrl c h hne) hs

/-- Without a URL beside the fields, a missing port is the provider's own. -/
theorem discoveredProvider_fields (hm : c.connectionMethod = .CREDENTIALS)
    (hu : absent c.databaseUrl = true) (hs : c.databaseType.supported = true) :
    discoveredProvider lib c = .ok (fieldParams c) := by
  have hfields := holdsFields_credsToDict c hm hu
  rw [discoveredProvider, getProvider_of_fields lib c hfields hs, credsToDict_port,
    credsToDict_port]
  unfold fieldParams
  split <;> rfl

theorem testedProvider_fields {port : Int} (hm : c.connectionMethod = .CREDENTIALS)
    (hp : c.port = some port) (hs : c.databaseType.supported = true) :
    testedProvider lib c = .ok (fieldParams c) := by
  have hfields := holdsFields_buildCredentials c hm
  rw [testedProvider, getProvider_of_fields lib c hfields hs, buildCredentials_port c hm,
    buildCredentials_port c hm]
  unfold fieldParams
  rw [hp]
  split <;> rfl

theorem testedProvider_sqlite (hm : c.connectionMethod = .CREDENTIALS)
    (ht : c.databaseType = .SQLITE) : testedProvider lib c = .ok (fieldParams c) := by
  have hs : c.databaseType.supported = true := by rw [ht]; rfl
  rw [testedProvider, getProvider_of_fields lib c (holdsFields_buildCredentials c hm) hs, fieldParams,
    ht]

/-- A DSN with the word None for its port is another one. -/
theorem dsnOf_null_ne (username password host database : Scalar) :
    PostgresProvider.dsnOf username password host .null database ≠
      PostgresProvider.dsnOf username password host (.int 5432) database := by
  have hport : strOf (.int 5432) = "5432" := by decide
  have hwords : strOf .null ≠ "5432" := by decide
  unfold PostgresProvider.dsnOf
  rw [hport]
  intro heq
  rw [String.append_left_inj, String.append_left_inj, String.append_right_inj] at heq
  exact hwords heq

/-- The None that `_build_credentials` keeps is no integer to MySQL, and a word of the DSN to
PostgreSQL. -/
theorem testedProvider_noPort (hm : c.connectionMethod = .CREDENTIALS) (hp : c.port = none)
    (ht : c.databaseType ≠ .SQLITE) (hs : c.databaseType.supported = true) :
    testedProvider lib c ≠ .ok (fieldParams c) := by
  rw [testedProvider, getProvider_of_fields lib c (holdsFields_buildCredentials c hm) hs,
    buildCredentials_port c hm, buildCredentials_port c hm, fieldParams, hp]
  cases hc : c.databaseType with
  | POSTGRES => exact fun heq => dsnOf_null_ne _ _ _ _ (ProviderParams.postgres.inj (Except.ok.inj heq))
  | MYSQL => exact fun heq => (by cases heq)
  | SQLITE => exact absurd hc ht
  | _ => simp [hc, DatabaseType.supported] at hs

end DataBridge

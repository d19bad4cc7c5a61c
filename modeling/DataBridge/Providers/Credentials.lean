import DataBridge.Framework.PyUrl
import DataBridge.Schemas.Connection

namespace DataBridge

open FlatJson (Scalar)

/-- What the providers take from the Python library. `int` reads a text; the credentials hold the
port as an integer. -/
structure PyLibrary extends PyUrl.Tables where
  int : String → Except Exc Int

/-- `str(v)`. -/
def strOf : Scalar → String
  | .null => "None"
  | .bool true => "True"
  | .bool false => "False"
  | .int i => toString i
  | .str s => s

/-- `type(v).__name__`. -/
def typeName : Scalar → String
  | .null => "NoneType"
  | .bool _ => "bool"
  | .int _ => "int"
  | .str _ => "str"

/-- `int(v)`. -/
def intOf (lib : PyLibrary) : Scalar → Except Exc Int
  | .null => .error ⟨.typeError, "int() argument must be a string, a bytes-like object or a real " ++
      "number, not 'NoneType'"⟩
  | .bool b => .ok b.toInt
  | .int i => .ok i
  | .str s => lib.int s

namespace Credentials

/-- `creds.get(key, default)`. -/
def getD (creds : Credentials) (key : String) (default : Scalar) : Scalar :=
  (creds.get? key).getD default

/-- `creds[key]`. -/
def item (creds : Credentials) (key : String) : Except Exc Scalar :=
  match creds.get? key with
  | some value => .ok value
  | none => .error ⟨.other, s!"'{key}'"⟩

/-- The URL, where the test of its presence and truth passes. -/
def databaseUrl (creds : Credentials) : Option Scalar :=
  (creds.get? "database_url").filter Scalar.truthy

end Credentials

/-- The keyword arguments of `aiomysql`. -/
structure MysqlParams where
  host : Scalar
  port : Int
  user : Scalar
  password : Scalar
  db : Scalar
  deriving DecidableEq, Repr

namespace MySQLProvider

def valueError {α : Type} (e : Except String α) : Except Exc α := e.mapError (⟨.valueError, ·⟩)

/-- What `_parse_credentials` makes of a URL. -/
def parseUrl (lib : PyLibrary) (url : String) : Except Exc MysqlParams := do
  let r ← valueError (PyUrl.urlparse lib.toTables url)
  let hostname := (r.hostname lib.toTables).getD ""
  let port := (← valueError (r.port lib.toTables)).getD 0
  .ok {
    host := .str (if hostname = "" then "localhost" else hostname)
    port := if port = 0 then 3306 else port
    user := .str (r.username.getD "")
    password := .str (r.password.getD "")
    db := .str (String.ofList (r.path.toList.dropWhile (· = '/'))) }

/-- `_parse_credentials`. -/
def parseCredentials (lib : PyLibrary) (creds : Credentials) : Except Exc MysqlParams :=
  match creds.databaseUrl with
  | some (.str url) => parseUrl lib url
  | some value => .error ⟨.other, s!"'{typeName value}' object has no attribute 'decode'"⟩
  | none => do
    let port ← intOf lib (creds.getD "port" (.int 3306))
    .ok {
      host := creds.getD "host" (.str "localhost")
      port := port
      user := creds.getD "username" (.str "")
      password := creds.getD "password" (.str "")
      db := creds.getD "database" (.str "") }

end MySQLProvider

namespace PostgresProvider

/-- The scheme asyncpg wants. -/
def normalizeUrl (url : String) : String :=
  PyText.replace "postgres://" "postgresql://" (some 1) url

/-- The DSN of the five values. -/
def dsnOf (username password host port database : Scalar) : String :=
  "postgresql://" ++ strOf username ++ ":" ++ strOf password ++ "@" ++ strOf host ++ ":" ++
    strOf port ++ "/" ++ strOf database

/-- `_build_dsn`. -/
def buildDsn (credentials : Credentials) : Except Exc String :=
  match credentials.databaseUrl with
  | some (.str url) => .ok (normalizeUrl url)
  | some value => .error ⟨.other, s!"'{typeName value}' object has no attribute 'replace'"⟩
  | none => do
    let username ← credentials.item "username"
    let password ← credentials.item "password"
    let host ← credentials.item "host"
    let database ← credentials.item "database"
    .ok (dsnOf username password host (credentials.getD "port" (.int 5432)) database)

end PostgresProvider

namespace SQLiteProvider

/-- The path in a URL. -/
def urlPath (url : String) : String :=
  PyText.replace "sqlite://" "" none (PyText.replace "sqlite:///" "" none url)

/-- `_resolve_path`. -/
def resolvePath (credentials : Credentials) : Except Exc Scalar :=
  match credentials.databaseUrl with
  | some (.str url) => .ok (.str (urlPath url))
  | some value => .error ⟨.other, s!"'{typeName value}' object has no attribute 'replace'"⟩
  | none => .ok (credentials.getD "file_path" (.str ":memory:"))

end SQLiteProvider

/-- A provider as its constructor leaves it. -/
inductive ProviderParams where
  | postgres (dsn : String)
  | mysql (params : MysqlParams)
  | sqlite (path : Scalar)
  deriving DecidableEq, Repr

/-- The types in `PROVIDER_REGISTRY`. -/
def DatabaseType.supported (type : DatabaseType) : Bool :=
  type = .POSTGRES ∨ type = .MYSQL ∨ type = .SQLITE

/-- `get_provider`. -/
def getProvider (lib : PyLibrary) (databaseType : String) (credentials : Credentials) :
    Except Exc ProviderParams :=
  match DatabaseType.ofValue? databaseType with
  | none => .error ⟨.valueError, s!"'{databaseType}' is not a valid DatabaseType"⟩
  | some .POSTGRES => (PostgresProvider.buildDsn credentials).map .postgres
  | some .MYSQL => (MySQLProvider.parseCredentials lib credentials).map .mysql
  | some .SQLITE => (SQLiteProvider.resolvePath credentials).map .sqlite
  | some _ => .error ⟨.other, s!"Database type '{databaseType}' is not yet supported. " ++
      "Supported types: ['postgres', 'mysql', 'sqlite']"⟩

end DataBridge

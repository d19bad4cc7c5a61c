import Mathlib.Tactic.Common

namespace DataBridge

inductive DatabaseType where
  | POSTGRES
  | MYSQL
  | SQLITE
  | MSSQL
  | MONGODB
  | ORACLE
  | MARIADB
  deriving DecidableEq, Repr

namespace DatabaseType

def value : DatabaseType → String
  | POSTGRES => "postgres"
  | MYSQL => "mysql"
  | SQLITE => "sqlite"
  | MSSQL => "mssql"
  | MONGODB => "mongodb"
  | ORACLE => "oracle"
  | MARIADB => "mariadb"

def all : List DatabaseType := [POSTGRES, MYSQL, SQLITE, MSSQL, MONGODB, ORACLE, MARIADB]

/-- `DatabaseType(value)`. -/
def ofValue? (value : String) : Option DatabaseType := all.find? fun type => type.value = value

theorem ofValue?_value (type : DatabaseType) : ofValue? type.value = some type := by
  cases type <;> decide

end DatabaseType

inductive ConnectionMethod where
  | URL
  | CREDENTIALS
  deriving DecidableEq, Repr

def ConnectionMethod.value : ConnectionMethod → String
  | .URL => "url"
  | .CREDENTIALS => "credentials"

inductive MigrationStatus where
  | PENDING
  | PLANNING
  | RUNNING
  | PAUSED
  | COMPLETED
  | FAILED
  | CANCELLED
  deriving DecidableEq, Repr

def MigrationStatus.value : MigrationStatus → String
  | .PENDING => "pending"
  | .PLANNING => "planning"
  | .RUNNING => "running"
  | .PAUSED => "paused"
  | .COMPLETED => "completed"
  | .FAILED => "failed"
  | .CANCELLED => "cancelled"

theorem MigrationStatus.value_injective : Function.Injective MigrationStatus.value := by
  intro a b h
  cases a <;> cases b <;> first | rfl | exact absurd h (by decide)

/-- The exception classes the code tells apart; every one is a subclass of `Exception`. -/
inductive ExcKind where
  | softTimeLimitExceeded
  | schemaCompatibilityError
  | valueError
  | overflowError
  | typeError
  | httpException
  | other
  deriving DecidableEq, Repr

/-- A raised exception and the text `str` gives it. -/
structure Exc where
  kind : ExcKind
  text : String
  deriving DecidableEq, Repr

end DataBridge

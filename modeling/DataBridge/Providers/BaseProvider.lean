import DataBridge.Framework.Call
import DataBridge.Schemas.Migration
import DataBridge.Schemas.Row

namespace DataBridge

/-- The provider operations the migration code calls, over a world that holds the databases. -/
structure BaseDatabaseProvider (W : Type) where
  getTableSchema : String → Call Exc W TableSchema
  tableExists : String → Call Exc W Bool
  fetchBatch : String → Nat → Nat → Option (List String) → Call Exc W (List Row)
  createTable : TableSchema → Call Exc W Unit
  insertBatch : String → List Row → Option (List String) → Call Exc W Nat
  truncateTable : String → Call Exc W Unit

/-- A provider with the connection that `async with` opens and closes. -/
structure ManagedProvider (W : Type) extends BaseDatabaseProvider W where
  connect : Call Exc W Unit := pure ()
  disconnect : Call Exc W Unit := pure ()

/-- The same provider, used from a larger state. -/
def BaseDatabaseProvider.within {W S : Type} (get : S → W) (put : W → S → S)
    (p : BaseDatabaseProvider W) : BaseDatabaseProvider S where
  getTableSchema t := Call.zoom get put (p.getTableSchema t)
  tableExists t := Call.zoom get put (p.tableExists t)
  fetchBatch t offset limit cols := Call.zoom get put (p.fetchBatch t offset limit cols)
  createTable schema := Call.zoom get put (p.createTable schema)
  insertBatch t rows cols := Call.zoom get put (p.insertBatch t rows cols)
  truncateTable t := Call.zoom get put (p.truncateTable t)

end DataBridge

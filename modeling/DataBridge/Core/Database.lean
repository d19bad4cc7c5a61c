import DataBridge.Models.Migration

namespace DataBridge

/-- A column after a session's `commit`: the UPDATE carries only the columns whose value differs
from the one that was loaded. -/
def flushColumn {α : Type} [DecidableEq α] (loaded changed committed : α) : α :=
  if changed = loaded then committed else changed

theorem flushColumn_self {α : Type} [DecidableEq α] (loaded changed : α) :
    flushColumn loaded changed loaded = changed := by
  rw [flushColumn]
  split
  · rename_i h
    exact h.symm
  · rfl

namespace Migration

/-- The committed row after a session that loaded `loaded` and made it `changed`. -/
def flush (loaded changed committed : Migration) : Migration where
  status := flushColumn loaded.status changed.status committed.status
  sourceConnection :=
    flushColumn loaded.sourceConnection changed.sourceConnection committed.sourceConnection
  destinationConnection := flushColumn loaded.destinationConnection
    changed.destinationConnection committed.destinationConnection
  tablesConfig := flushColumn loaded.tablesConfig changed.tablesConfig committed.tablesConfig
  settings := flushColumn loaded.settings changed.settings committed.settings
  totalTables := flushColumn loaded.totalTables changed.totalTables committed.totalTables
  completedTables :=
    flushColumn loaded.completedTables changed.completedTables committed.completedTables
  totalRows := flushColumn loaded.totalRows changed.totalRows committed.totalRows
  processedRows := flushColumn loaded.processedRows changed.processedRows committed.processedRows
  currentTable := flushColumn loaded.currentTable changed.currentTable committed.currentTable
  startedAt := flushColumn loaded.startedAt changed.startedAt committed.startedAt
  completedAt := flushColumn loaded.completedAt changed.completedAt committed.completedAt
  celeryTaskId := flushColumn loaded.celeryTaskId changed.celeryTaskId committed.celeryTaskId
  errorMessage := flushColumn loaded.errorMessage changed.errorMessage committed.errorMessage

theorem flush_status (loaded changed committed : Migration) :
    (loaded.flush changed committed).status =
      flushColumn loaded.status changed.status committed.status := rfl

/-- With no other commit since the load, the row becomes what the session made of it. -/
theorem flush_self (loaded changed : Migration) : loaded.flush changed loaded = changed := by
  simp only [flush, flushColumn_self]

/-- A session that leaves the status as it loaded it does not write it. -/
theorem flush_status_kept {loaded changed : Migration} (committed : Migration)
    (h : changed.status = loaded.status) :
    (loaded.flush changed committed).status = committed.status := by
  rw [flush_status, flushColumn, if_pos h]

/-- A session that changes the status writes it whatever was committed since the load. -/
theorem flush_status_written {loaded changed : Migration} (committed : Migration)
    (h : changed.status ≠ loaded.status) :
    (loaded.flush changed committed).status = changed.status := by
  rw [flush_status, flushColumn, if_neg h]

end Migration

end DataBridge

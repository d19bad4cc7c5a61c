import DataBridge.Core.Constants
import DataBridge.Framework.Dict
import Mathlib.Data.Rat.Defs

namespace DataBridge

inductive PyFloat where
  | finite (q : ℚ)
  | inf (negative : Bool)
  | nan
  deriving DecidableEq

/-- A cell of a result row. A dict or list is known by what `json.dumps(value, default=str)`
gives for it, `none` if that raises; every other object by its text. -/
inductive Value where
  | none
  | bool (b : Bool)
  | int (i : Int)
  | float (f : PyFloat)
  | str (s : String)
  | bytes (b : List UInt8)
  | container (dumps : Option String)
  | other (text : String)
  deriving DecidableEq

/-- `int(value)` of a float: truncation towards zero. -/
def PyFloat.toInt : PyFloat → Except Exc Int
  | .finite q => .ok (q.num.tdiv q.den)
  | .inf _ => .error ⟨.overflowError, "cannot convert float infinity to integer"⟩
  | .nan => .error ⟨.valueError, "cannot convert float NaN to integer"⟩

abbrev Row := Dict String Value

/-- `row.get(col)`. -/
def Row.get (row : Row) (col : String) : Value := (row.get? col).getD .none

theorem Row.get_project (row : Row) (cols : List String) (col : String) (h : col ∈ cols) :
    Row.get (row.project cols) col = row.get col := by
  rw [Row.get, Row.get, Dict.get?_project row cols col h]

end DataBridge

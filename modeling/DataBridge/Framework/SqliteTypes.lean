import Mathlib.Algebra.Field.Rat
import Mathlib.Data.List.Infix
import Mathlib.Tactic.Common

namespace DataBridge.Sqlite

/-- A name or a type in lower case; only ASCII letters have one for SQLite. -/
def foldCase (s : String) : List Char := s.toList.map Char.toLower

/-- A floating-point number; a NaN is stored as NULL. -/
inductive Real where
  | finite (q : ℚ)
  | infinite (negative : Bool)
  deriving DecidableEq

/-- A stored value; an integer has 64 bits. -/
inductive Value where
  | null
  | integer (i : Int) (range : -2 ^ 63 ≤ i ∧ i < 2 ^ 63)
  | real (r : Real)
  | text (s : String)
  | blob (b : List UInt8)
  deriving DecidableEq

/-! ## Affinities -/

inductive Affinity where
  | integer
  | text
  | blob
  | real
  | numeric
  deriving DecidableEq

/-- The affinity of a column, by its declared type. -/
def affinityOf (type : String) : Affinity :=
  let has (word : String) : Bool := word.toList <:+: foldCase type
  if has "int" then .integer
  else if has "char" || has "clob" || has "text" then .text
  else if has "blob" || type = "" then .blob
  else if has "real" || has "floa" || has "doub" then .real
  else .numeric

/-! ## Numbers in texts -/

def isSpace (c : Char) : Bool := c = ' ' || (0x9 ≤ c.toNat && c.toNat ≤ 0xd)

def trim (cs : List Char) : List Char :=
  ((cs.dropWhile isSpace).reverse.dropWhile isSpace).reverse

/-- Whether a minus stands first, and what follows the sign. -/
def sign : List Char → Bool × List Char
  | '-' :: cs => (true, cs)
  | '+' :: cs => (false, cs)
  | cs => (false, cs)

def digitsValue (digits : List Char) : Int :=
  digits.foldl (fun n d => 10 * n + (d.toNat - '0'.toNat)) 0

def signed (negative : Bool) (n : Int) : Int := if negative then -n else n

/-- The exponent that follows an `e`; 0 where nothing follows the digits. -/
def exponent? : List Char → Option Int
  | [] => some 0
  | e :: cs =>
    let (negative, digits) := sign cs
    if (e = 'e' ∨ e = 'E') ∧ digits ≠ [] ∧ digits.all Char.isDigit then
      some (signed negative (digitsValue digits))
    else none

/-- A number as it is written: without a point and an exponent it is an integer. -/
inductive Numeral where
  | integer (i : Int)
  | decimal (q : ℚ)
  deriving DecidableEq

def Numeral.value : Numeral → ℚ
  | integer i => i
  | decimal q => q

/-- The number that a text is, with nothing but spaces around it. -/
def numeral? (s : String) : Option Numeral :=
  let (negative, cs) := sign (trim s.toList)
  let whole := cs.takeWhile Char.isDigit
  match cs.dropWhile Char.isDigit with
  | [] => if whole = [] then none else some (.integer (signed negative (digitsValue whole)))
  | c :: rest =>
    let (fraction, rest) := if c = '.' then (rest.takeWhile Char.isDigit, rest.dropWhile Char.isDigit)
      else ([], c :: rest)
    if whole ++ fraction = [] then none
    else (exponent? rest).map fun e : Int =>
      .decimal (signed negative (digitsValue (whole ++ fraction)) * 10 ^ (e - fraction.length))

example : numeral? " -12.50e1 " = some (.decimal (-125)) ∧ numeral? "7" = some (.integer 7) ∧
    numeral? "0x10" = none ∧ numeral? "1e" = none ∧ numeral? "." = none := by decide +kernel

/-! ## What a column stores -/

/-- What an implementation settles for floating-point numbers: the one that is nearest to a number,
and its text. -/
structure Reals where
  nearest : ℚ → Real
  text : Real → String

/-- The integer that the number is; the two ends of the range are left out. -/
def Real.integer? : Real → Option Value
  | .finite q =>
    if range : q.den = 1 ∧ -2 ^ 63 < q.num ∧ q.num < 2 ^ 63 - 1 then
      some (.integer q.num ⟨le_of_lt range.2.1, by omega⟩)
    else none
  | .infinite _ => none

def Real.asNumber (r : Real) : Value := r.integer?.getD (.real r)

variable (reals : Reals)

def Numeral.asNumber : Numeral → Value
  | .integer i => if range : -2 ^ 63 ≤ i ∧ i < 2 ^ 63 then .integer i range
    else .real (reals.nearest i)
  | .decimal q => (reals.nearest q).asNumber

/-- What a column of the affinity makes of a value. -/
def Affinity.convert : Affinity → Value → Value
  | .text, .integer i _ => .text (toString i)
  | .text, .real r => .text (reals.text r)
  | .real, .integer i _ => .real (reals.nearest i)
  | .real, .text s => ((numeral? s).map fun n => .real (reals.nearest n.value)).getD (.text s)
  | .integer, .real r | .numeric, .real r => r.asNumber
  | .integer, .text s | .numeric, .text s => ((numeral? s).map (Numeral.asNumber reals)).getD (.text s)
  | _, v => v

/-- A column as it is created; `soleKey` where it alone is the primary key. -/
structure Column where
  type : String
  soleKey : Bool
  deriving DecidableEq

/-- The column is another name of the rowid. -/
def Column.isRowid (c : Column) : Bool := c.soleKey && foldCase c.type = "integer".toList

/-- What becomes of a value that is written to a column. -/
inductive Written where
  | value (v : Value)
  | newRowid
  | refused
  deriving DecidableEq

def Column.write (c : Column) (v : Value) : Written :=
  if c.isRowid then
    match Affinity.integer.convert reals v with
    | .null => .newRowid
    | .integer i range => .value (.integer i range)
    | _ => .refused
  else .value ((affinityOf c.type).convert reals v)

/-- The values that the column stores as they are. -/
def Column.Keeps (c : Column) : Value → Prop
  | .null | .blob _ => c.isRowid = false
  | .integer _ _ => affinityOf c.type ∉ [.text, .real]
  | .real r => c.isRowid = false ∧ affinityOf c.type ≠ .text ∧
      (affinityOf c.type ∈ [.integer, .numeric] → r.integer? = none)
  | .text s => c.isRowid = false ∧ (affinityOf c.type ∈ [.integer, .numeric, .real] →
      numeral? s = none)

variable {reals}

theorem asNumber_eq_real_iff {r : Real} : r.asNumber = .real r ↔ r.integer? = none := by
  rw [Real.asNumber]
  cases r with
  | infinite negative => simp [Real.integer?]
  | finite q =>
    rw [Real.integer?]
    split <;> simp

/-- A number that is read from a text is no text. -/
theorem numeral_asNumber_ne_text (n : Numeral) (s : String) : n.asNumber reals ≠ .text s := by
  cases n with
  | integer i =>
    rw [Numeral.asNumber]
    split <;> simp
  | decimal q =>
    rw [Numeral.asNumber, Real.asNumber]
    cases reals.nearest q with
    | infinite negative => simp [Real.integer?]
    | finite q =>
      rw [Real.integer?]
      split <;> simp

theorem affinityOf_of_isRowid {c : Column} (h : c.isRowid = true) :
    affinityOf c.type = .integer := by
  rw [Column.isRowid, Bool.and_eq_true, decide_eq_true_eq] at h
  rw [affinityOf, h.2]
  exact if_pos (by decide)

theorem convert_eq_self_iff (a : Affinity) (v : Value) : a.convert reals v = v ↔
    match v with
    | .null | .blob _ => True
    | .integer _ _ => a ∉ [.text, .real]
    | .real r => a ≠ .text ∧ (a ∈ [.integer, .numeric] → r.integer? = none)
    | .text s => a ∈ [.integer, .numeric, .real] → numeral? s = none := by
  cases v with
  | null => cases a <;> simp [Affinity.convert]
  | blob b => cases a <;> simp [Affinity.convert]
  | integer i range => cases a <;> simp [Affinity.convert]
  | real r => cases a <;> simp [Affinity.convert, asNumber_eq_real_iff]
  | text s =>
    cases hn : numeral? s with
    | none => cases a <;> simp [Affinity.convert, hn]
    | some n => cases a <;> simp [Affinity.convert, hn, numeral_asNumber_ne_text]

/-- A value is stored as it is just when the column keeps it. -/
theorem write_eq_value_iff (c : Column) (v : Value) : c.write reals v = .value v ↔ c.Keeps v := by
  rw [Column.write]
  cases hrowid : c.isRowid with
  | false =>
    rw [if_neg Bool.false_ne_true, Written.value.injEq, convert_eq_self_iff]
    cases v <;> simp [Column.Keeps, hrowid]
  | true =>
    have haffinity := affinityOf_of_isRowid hrowid
    rw [if_pos rfl]
    cases v with
    | null => simp [Column.Keeps, Affinity.convert, hrowid]
    | blob b => simp [Column.Keeps, Affinity.convert, hrowid]
    | integer i range => simp [Column.Keeps, Affinity.convert, haffinity]
    | real r =>
      simp only [Column.Keeps, hrowid]
      split <;> simp
    | text s =>
      simp only [Column.Keeps, hrowid]
      split <;> simp

end DataBridge.Sqlite

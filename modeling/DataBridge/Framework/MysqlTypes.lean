import Mathlib.Algebra.GroupWithZero.Nat
import Mathlib.Algebra.Order.BigOperators.Group.List
import Mathlib.Algebra.Order.Field.Basic
import Mathlib.Algebra.Order.Ring.Nat
import Mathlib.Data.Rat.Cast.Order
import Mathlib.Tactic.Common
import Mathlib.Tactic.NormNum

namespace DataBridge.Mysql

inductive IntSize where
  | tiny
  | small
  | medium
  | int
  | big
  deriving DecidableEq

def IntSize.bits : IntSize → Nat
  | .tiny => 8
  | .small => 16
  | .medium => 24
  | .int => 32
  | .big => 64

/-- The four sizes of TEXT and BLOB columns. -/
inductive LobSize where
  | tiny
  | regular
  | medium
  | long
  deriving DecidableEq

def LobSize.octets : LobSize → Nat
  | .tiny => 255
  | .regular => 65535
  | .medium => 16777215
  | .long => 4294967295

/-- The size that MySQL chooses for a TEXT or BLOB column declared with a length. -/
def LobSize.smallest (octets : Nat) : Option LobSize :=
  if octets ≤ LobSize.tiny.octets then some .tiny
  else if octets ≤ LobSize.regular.octets then some .regular
  else if octets ≤ LobSize.medium.octets then some .medium
  else if octets ≤ LobSize.long.octets then some .long
  else none

/-- A character set: the characters it has, and the octets it spends on each. -/
structure Charset where
  has : Char → Bool
  octets : Char → Nat
  minOctets : Nat
  minOctets_pos : 0 < minOctets
  minOctets_le_four : minOctets ≤ 4
  minOctets_le : ∀ c, has c = true → minOctets ≤ octets c

def Charset.utf8mb4 : Charset where
  has _ := true
  octets := Char.utf8Size
  minOctets := 1
  minOctets_pos := Nat.one_pos
  minOctets_le_four := by decide
  minOctets_le c _ := Char.utf8Size_pos c

def Charset.size (cs : Charset) (s : String) : Nat := (s.toList.map cs.octets).sum

def Charset.Encodes (cs : Charset) (s : String) : Prop := ∀ c ∈ s.toList, cs.has c = true

/-- The types of a point in time or a span of it. -/
inductive TimeKind where
  | time
  | datetime
  | timestamp
  deriving DecidableEq

/-- The first second of the range. -/
def TimeKind.first : TimeKind → Int
  | .time => -3020399
  | .datetime => -30610224000
  | .timestamp => 1

def TimeKind.last : TimeKind → Int
  | .time => 3020399
  | .datetime => 253402300799
  | .timestamp => 2147483647

inductive Spatial where
  | geometry
  | point
  | linestring
  | polygon
  | multipoint
  | multilinestring
  | multipolygon
  | geomcollection
  deriving DecidableEq

/-- A column type of MySQL, with all that is declared of it. -/
inductive SqlType where
  | int (size : IntSize) (unsigned : Bool)
  | decimal (precision scale : Nat) (unsigned : Bool)
  | float (digits : Option (Nat × Nat)) (unsigned : Bool)
  | double (digits : Option (Nat × Nat)) (unsigned : Bool)
  | bit (n : Nat)
  | char (cs : Charset) (n : Nat)
  | varchar (cs : Charset) (n : Nat)
  | binary (n : Nat)
  | varbinary (n : Nat)
  | text (cs : Charset) (size : LobSize)
  | blob (size : LobSize)
  | enum (labels : List String)
  | set (labels : List String)
  | date
  | year
  | temporal (kind : TimeKind) (fsp : Nat)
  | json
  | spatial (kind : Spatial)

inductive Value where
  | int (n : Int)
  | decimal (q : ℚ)
  | real (q : ℚ)
  | bits (n : Nat)
  | text (s : String)
  | octets (bytes : List UInt8)
  | date (day : Int)
  | year (n : Nat)
  | moment (kind : TimeKind) (second : Int) (micro : Nat)
  | json (s : String)
  | geometry (kind : Spatial) (wkb : List UInt8)

/-- The rationals that a binary format holds. -/
def IsBinary (digits : Nat) (emin emax : Int) (q : ℚ) : Prop :=
  ∃ m e : Int, |m| < 2 ^ digits ∧ emin ≤ e ∧ e ≤ emax ∧ q = m * 2 ^ e

def IsSingle : ℚ → Prop := IsBinary 24 (-149) 104

def IsDouble : ℚ → Prop := IsBinary 53 (-1074) 971

/-- `q` is a number of the format that is nearest to `x`. -/
def Nearest (P : ℚ → Prop) (x q : ℚ) : Prop := P q ∧ ∀ r, P r → |x - q| ≤ |x - r|

/-- The numbers of a column that is declared with `digits.1` digits, `digits.2` of them after the
point. -/
def Shows (P : ℚ → Prop) (digits : Nat × Nat) (q : ℚ) : Prop :=
  ∃ k : Int, |k| < 10 ^ digits.1 ∧ Nearest P (k / 10 ^ digits.2) q

def HoldsReal (P : ℚ → Prop) (digits : Option (Nat × Nat)) (unsigned : Bool) (q : ℚ) : Prop :=
  P q ∧ (unsigned = true → 0 ≤ q) ∧ ∀ d, digits = some d → Shows P d q

/-- The text of a SET value. -/
def setText : List String → String
  | [] => ""
  | [label] => label
  | label :: rest => label ++ "," ++ setText rest

/-- The values of a column of the type. -/
def SqlType.Holds (v : Value) : SqlType → Prop
  | .int size unsigned => ∃ n, v = .int n ∧
      if unsigned then 0 ≤ n ∧ n < 2 ^ size.bits
      else -2 ^ (size.bits - 1) ≤ n ∧ n < 2 ^ (size.bits - 1)
  | .decimal precision scale unsigned => ∃ k : Int, v = .decimal (k / 10 ^ scale) ∧
      |k| < 10 ^ precision ∧ (unsigned = true → 0 ≤ k)
  | .float digits unsigned => ∃ q, v = .real q ∧ HoldsReal IsSingle digits unsigned q
  | .double digits unsigned => ∃ q, v = .real q ∧ HoldsReal IsDouble digits unsigned q
  | .bit n => ∃ k, v = .bits k ∧ k < 2 ^ n
  -- Blanks at the end of a CHAR value are not kept.
  | .char cs n => ∃ s, v = .text s ∧ s.length ≤ n ∧ cs.Encodes s ∧ s.toList.getLast? ≠ some ' '
  | .varchar cs n => ∃ s, v = .text s ∧ s.length ≤ n ∧ cs.Encodes s
  -- A BINARY value is padded to the length of its column.
  | .binary n => ∃ bytes, v = .octets bytes ∧ bytes.length = n
  | .varbinary n => ∃ bytes, v = .octets bytes ∧ bytes.length ≤ n
  | .text cs size => ∃ s, v = .text s ∧ cs.Encodes s ∧ cs.size s ≤ size.octets
  | .blob size => ∃ bytes, v = .octets bytes ∧ bytes.length ≤ size.octets
  -- The empty text stands for a value that was not in the list.
  | .enum labels => ∃ s, v = .text s ∧ (s ∈ labels ∨ s = "")
  | .set labels => ∃ chosen, v = .text (setText chosen) ∧ chosen.Sublist labels
  | .date => ∃ day, v = .date day ∧ -354285 ≤ day ∧ day ≤ 2932896
  | .year => ∃ n, v = .year n ∧ (n = 0 ∨ 1901 ≤ n ∧ n ≤ 2155)
  | .temporal kind fsp => ∃ second micro, v = .moment kind second micro ∧
      kind.first ≤ second ∧ second ≤ kind.last ∧ micro < 10 ^ 6 ∧ micro % 10 ^ (6 - fsp) = 0
  | .json => ∃ s, v = .json s
  | .spatial kind => ∃ kind' wkb, v = .geometry kind' wkb ∧ (kind = .geometry ∨ kind' = kind)

/-- The bounds that MySQL sets to a declaration. -/
def SqlType.Valid : SqlType → Prop
  | .decimal precision scale _ =>
      0 < precision ∧ precision ≤ 65 ∧ scale ≤ 30 ∧ scale ≤ precision
  | .float digits _ | .double digits _ =>
      ∀ d, digits = some d → d.1 ≤ 255 ∧ d.2 ≤ 30 ∧ d.2 ≤ d.1
  | .bit n => 0 < n ∧ n ≤ 64
  | .char _ n | .binary n => n ≤ 255
  | .varchar _ n | .varbinary n => n ≤ 65535
  | .enum labels => ∀ label ∈ labels, label.length ≤ 255
  | .set labels => labels.length ≤ 64 ∧ ∀ label ∈ labels, label.length ≤ 255
  | .temporal _ fsp => fsp ≤ 6
  | _ => True

/-! What `information_schema.COLUMNS` reports of a column. -/

def IntSize.name : IntSize → String
  | .tiny => "tinyint"
  | .small => "smallint"
  | .medium => "mediumint"
  | .int => "int"
  | .big => "bigint"

def LobSize.textName : LobSize → String
  | .tiny => "tinytext"
  | .regular => "text"
  | .medium => "mediumtext"
  | .long => "longtext"

def LobSize.blobName : LobSize → String
  | .tiny => "tinyblob"
  | .regular => "blob"
  | .medium => "mediumblob"
  | .long => "longblob"

def TimeKind.name : TimeKind → String
  | .time => "time"
  | .datetime => "datetime"
  | .timestamp => "timestamp"

def Spatial.name : Spatial → String
  | .geometry => "geometry"
  | .point => "point"
  | .linestring => "linestring"
  | .polygon => "polygon"
  | .multipoint => "multipoint"
  | .multilinestring => "multilinestring"
  | .multipolygon => "multipolygon"
  | .geomcollection => "geomcollection"

namespace SqlType

/-- `DATA_TYPE`. -/
def dataType : SqlType → String
  | .int size _ => size.name
  | .decimal .. => "decimal"
  | .float .. => "float"
  | .double .. => "double"
  | .bit _ => "bit"
  | .char .. => "char"
  | .varchar .. => "varchar"
  | .binary _ => "binary"
  | .varbinary _ => "varbinary"
  | .text _ size => size.textName
  | .blob size => size.blobName
  | .enum _ => "enum"
  | .set _ => "set"
  | .date => "date"
  | .year => "year"
  | .temporal kind _ => kind.name
  | .json => "json"
  | .spatial kind => kind.name

/-- `CHARACTER_MAXIMUM_LENGTH`: for an ENUM that of the longest label, for a SET that of all labels
together. -/
def characterMaximumLength : SqlType → Option Nat
  | .char _ n | .varchar _ n | .binary n | .varbinary n => some n
  | .text cs size => some (size.octets / cs.minOctets)
  | .blob size => some size.octets
  | .enum labels => some ((labels.map String.length).foldr max 0)
  | .set labels => some (setText labels).length
  | _ => none

/-- `NUMERIC_PRECISION`. -/
def numericPrecision : SqlType → Option Nat
  | .int .tiny _ => some 3
  | .int .small _ => some 5
  | .int .medium _ => some 7
  | .int .int _ => some 10
  | .int .big unsigned => some (if unsigned then 20 else 19)
  | .decimal precision _ _ => some precision
  | .float digits _ => some ((digits.map Prod.fst).getD 12)
  | .double digits _ => some ((digits.map Prod.fst).getD 22)
  | .bit n => some n
  | _ => none

/-- `NUMERIC_SCALE`. -/
def numericScale : SqlType → Option Nat
  | .int .. => some 0
  | .decimal _ scale _ => some scale
  | .float digits _ | .double digits _ => digits.map Prod.snd
  | _ => none

end SqlType

/-! General facts of these types and values. -/

theorem LobSize.le_smallest {n : Nat} {size : LobSize} (h : LobSize.smallest n = some size) :
    n ≤ size.octets := by
  unfold smallest at h
  split_ifs at h <;> cases h <;> assumption

theorem LobSize.smallest_isSome {n : Nat} (h : n ≤ LobSize.long.octets) :
    (LobSize.smallest n).isSome = true := by
  unfold smallest
  split_ifs <;> rfl

theorem TimeKind.first_le_last (kind : TimeKind) : kind.first ≤ kind.last := by
  cases kind <;> decide

theorem Charset.mul_length_le (cs : Charset) {s : String} (h : cs.Encodes s) :
    cs.minOctets * s.length ≤ cs.size s := by
  unfold Encodes at h
  rw [size, ← String.length_toList]
  generalize s.toList = chars at h ⊢
  induction chars with
  | nil => simp
  | cons c rest ih =>
    have hc := cs.minOctets_le c (h c List.mem_cons_self)
    have hrest := ih fun c hc => h c (List.mem_cons_of_mem _ hc)
    rw [List.length_cons, List.map_cons, List.sum_cons, Nat.mul_succ]
    omega

/-- UTF-8 spends at most four octets on a character. -/
theorem Charset.utf8mb4_size_le (s : String) : Charset.utf8mb4.size s ≤ 4 * s.length := by
  rw [size, ← String.length_toList]
  induction s.toList with
  | nil => simp
  | cons c rest ih =>
    have hc : Charset.utf8mb4.octets c ≤ 4 := Char.utf8Size_le_four c
    rw [List.length_cons, List.map_cons, List.sum_cons, Nat.mul_succ]
    omega

theorem Charset.utf8mb4_encodes (s : String) : Charset.utf8mb4.Encodes s := fun _ _ => rfl

theorem length_le_longest {labels : List String} {label : String} (h : label ∈ labels) :
    label.length ≤ (labels.map String.length).foldr max 0 := by
  induction labels with
  | nil => cases h
  | cons first rest ih =>
    rw [List.map_cons, List.foldr_cons]
    rcases List.mem_cons.mp h with rfl | hrest
    · exact le_max_left _ _
    · exact (ih hrest).trans (le_max_right _ _)

theorem longest_le {labels : List String} {n : Nat} (h : ∀ label ∈ labels, label.length ≤ n) :
    (labels.map String.length).foldr max 0 ≤ n := by
  induction labels with
  | nil => exact Nat.zero_le n
  | cons first rest ih =>
    rw [List.map_cons, List.foldr_cons]
    exact max_le (h first List.mem_cons_self) (ih fun label hl => h label (List.mem_cons_of_mem _ hl))

theorem setText_cons_length (label : String) {rest : List String} (h : rest ≠ []) :
    (setText (label :: rest)).length = label.length + 1 + (setText rest).length := by
  cases rest with
  | nil => exact absurd rfl h
  | cons next rest =>
    rw [setText, String.length_append, String.length_append]
    · rfl
    · simp

theorem length_le_setText_cons (label : String) (rest : List String) :
    label.length ≤ (setText (label :: rest)).length ∧
      (setText rest).length ≤ (setText (label :: rest)).length := by
  cases rest with
  | nil => exact ⟨le_rfl, Nat.zero_le _⟩
  | cons next rest =>
    rw [setText_cons_length label (List.cons_ne_nil next rest)]
    omega

/-- No SET value is longer than that of all labels. -/
theorem setText_length_le {chosen labels : List String} (h : chosen.Sublist labels) :
    (setText chosen).length ≤ (setText labels).length := by
  induction h with
  | slnil => exact le_rfl
  | cons label _ ih => exact ih.trans (length_le_setText_cons label _).2
  | @cons_cons chosen labels label hrest ih =>
    by_cases hnone : chosen = []
    · subst hnone
      exact (length_le_setText_cons label labels).1
    · have hsome : labels ≠ [] := fun hempty => hnone (List.sublist_nil.mp (hempty ▸ hrest))
      rw [setText_cons_length label hnone, setText_cons_length label hsome]
      omega

theorem setText_length_lt {labels : List String} (h : ∀ label ∈ labels, label.length ≤ 255) :
    (setText labels).length ≤ 256 * labels.length - 1 := by
  induction labels with
  | nil => exact Nat.zero_le _
  | cons label rest ih =>
    have hlabel := h label List.mem_cons_self
    have hrest := ih fun label hl => h label (List.mem_cons_of_mem _ hl)
    by_cases hnone : rest = []
    · subst hnone
      change label.length ≤ _
      rw [List.length_singleton]
      omega
    · have hpos := List.length_pos_iff.mpr hnone
      rw [setText_cons_length label hnone, List.length_cons]
      omega

end DataBridge.Mysql

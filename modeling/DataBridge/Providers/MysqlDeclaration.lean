import DataBridge.Framework.MysqlTypes
import DataBridge.Providers.CrossDatabase

namespace DataBridge

open Mysql

/-- What a type name of a column definition stands for, before its size is read. -/
inductive TypeKeyword where
  | plain (type : SqlType)
  | decimal
  | float
  | double
  | bit
  | temporal (kind : TimeKind)
  | char
  | varchar
  | binary
  | varbinary
  | text
  | blob

namespace TypeKeyword

/-- The type of a column that is declared with the keyword and the size, in a table whose character
set is utf8mb4; `none` if the declaration is an error. -/
def declare : TypeKeyword → TypeSize → Option SqlType
  | .plain type, .unsized => some type
  | .decimal, .unsized => some (.decimal 10 0 false)
  | .decimal, .length p => if p ≤ 65 then some (.decimal p 0 false) else none
  | .decimal, .precision p s =>
    if p ≤ 65 ∧ s ≤ 30 ∧ s ≤ p then some (.decimal p s false) else none
  | .float, .unsized => some (.float none false)
  | .float, .precision m d =>
    if m ≤ 255 ∧ d ≤ 30 ∧ d ≤ m then some (.float (some (m, d)) false) else none
  | .double, .unsized => some (.double none false)
  | .double, .precision m d =>
    if m ≤ 255 ∧ d ≤ 30 ∧ d ≤ m then some (.double (some (m, d)) false) else none
  | .bit, .unsized => some (.bit 1)
  | .bit, .length n => if n ≤ 64 then some (.bit n) else none
  | .temporal kind, .unsized => some (.temporal kind 0)
  | .temporal kind, .length n => if n ≤ 6 then some (.temporal kind n) else none
  | .char, .unsized => some (.char .utf8mb4 1)
  | .char, .length n => if n ≤ 255 then some (.char .utf8mb4 n) else none
  | .varchar, .length n => if n ≤ 16383 then some (.varchar .utf8mb4 n) else none
  | .binary, .unsized => some (.binary 1)
  | .binary, .length n => if n ≤ 255 then some (.binary n) else none
  | .varbinary, .length n => if n ≤ 65535 then some (.varbinary n) else none
  | .text, .unsized => some (.text .utf8mb4 .regular)
  | .text, .length n => (LobSize.smallest (4 * n)).map (.text .utf8mb4)
  | .blob, .unsized => some (.blob .regular)
  | .blob, .length n => (LobSize.smallest n).map .blob
  | _, _ => none

end TypeKeyword

/-- The type names of MySQL that the provider writes. -/
def mysqlKeywords : List (String × TypeKeyword) :=
  [("TINYINT", .plain (.int .tiny false)), ("SMALLINT", .plain (.int .small false)),
    ("MEDIUMINT", .plain (.int .medium false)), ("INT", .plain (.int .int false)),
    ("BIGINT", .plain (.int .big false)), ("BOOLEAN", .plain (.int .tiny false)),
    ("FLOAT", .float), ("DOUBLE", .double), ("DECIMAL", .decimal), ("BIT", .bit),
    ("CHAR", .char), ("VARCHAR", .varchar), ("BINARY", .binary), ("VARBINARY", .varbinary),
    ("TINYTEXT", .plain (.text .utf8mb4 .tiny)), ("TEXT", .text),
    ("MEDIUMTEXT", .plain (.text .utf8mb4 .medium)), ("LONGTEXT", .plain (.text .utf8mb4 .long)),
    ("TINYBLOB", .plain (.blob .tiny)), ("BLOB", .blob), ("MEDIUMBLOB", .plain (.blob .medium)),
    ("LONGBLOB", .plain (.blob .long)), ("DATE", .plain .date), ("YEAR", .plain .year),
    ("TIME", .temporal .time), ("DATETIME", .temporal .datetime),
    ("TIMESTAMP", .temporal .timestamp), ("JSON", .plain .json),
    ("GEOMETRY", .plain (.spatial .geometry)), ("POINT", .plain (.spatial .point)),
    ("LINESTRING", .plain (.spatial .linestring)), ("POLYGON", .plain (.spatial .polygon)),
    ("MULTIPOINT", .plain (.spatial .multipoint)),
    ("MULTILINESTRING", .plain (.spatial .multilinestring)),
    ("MULTIPOLYGON", .plain (.spatial .multipolygon)),
    ("GEOMCOLLECTION", .plain (.spatial .geomcollection))]

/-- What MySQL makes of the type in a column definition. -/
def declaredType (t : ColumnType) : Option SqlType :=
  (mysqlKeywords.lookup t.name).bind (·.declare t.size)

namespace Mysql.SqlType

/-- The type name that the provider makes of a `DATA_TYPE`. -/
def writtenName (dataType : String) : String :=
  (MySQLProvider.mysqlTypeMap.lookup (PyText.lower dataType)).getD (PyText.upper dataType)

/-- The type that the provider writes for a column of the type. -/
def spelled (t : SqlType) : ColumnType where
  name := writtenName t.dataType
  size := TypeSize.of t.characterMaximumLength t.numericPrecision t.numericScale

/-- MySQL accepts what is written for the type: a text or blob is of the regular size, as only that
takes a length, and a varying column has a length that is not 0 nor too long for utf8mb4. -/
def Accepted : SqlType → Prop
  | .varchar _ n => 0 < n ∧ n ≤ 16383
  | .varbinary n => 0 < n
  | .text _ size | .blob size => size = .regular
  | .enum labels => ∃ label ∈ labels, label ≠ ""
  | .set labels => setText labels ≠ ""
  | _ => True

/-- The digits that are written: none if the scale is 0. -/
def copiedDigits (digits : Option (Nat × Nat)) : Option (Nat × Nat) :=
  digits.filter fun d => d.2 ≠ 0

/-- The type of the created column, where it is accepted. -/
def copied : SqlType → SqlType
  | .int size _ => .int size false
  | .decimal precision scale _ =>
    if scale = 0 then .decimal 10 0 false else .decimal precision scale false
  | .float digits _ => .float (copiedDigits digits) false
  | .double digits _ => .double (copiedDigits digits) false
  | .bit _ => .bit 1
  | .char _ n => .char .utf8mb4 (if n = 0 then 1 else n)
  | .varchar _ n => .varchar .utf8mb4 n
  | .binary n => .binary (if n = 0 then 1 else n)
  | .text cs size =>
    .text .utf8mb4 ((LobSize.smallest (4 * (size.octets / cs.minOctets))).getD .long)
  | .enum labels => .varchar .utf8mb4 ((labels.map String.length).foldr max 0)
  | .set labels => .varchar .utf8mb4 (setText labels).length
  | .temporal kind _ => .temporal kind 0
  | t => t

/-- The created column has room for the values: the sign, the precision of a DECIMAL without scale,
the width of a BIT, the padding of an empty BINARY and the fraction of a second are not written. -/
def Kept : SqlType → Prop
  | .int _ unsigned => unsigned = false
  | .decimal precision scale _ => 0 < scale ∨ precision ≤ 10
  | .bit n => n = 1
  | .binary n => 0 < n
  | .temporal _ fsp => fsp = 0
  | _ => True

/-- The keyword that is written for the type. -/
def keyword : SqlType → TypeKeyword
  | .int size _ => .plain (.int size false)
  | .decimal .. => .decimal
  | .float .. => .float
  | .double .. => .double
  | .bit _ => .bit
  | .char .. => .char
  | .varchar .. | .enum _ | .set _ => .varchar
  | .binary _ => .binary
  | .varbinary _ => .varbinary
  | .text _ .regular => .text
  | .text _ size => .plain (.text .utf8mb4 size)
  | .blob .regular => .blob
  | .blob size => .plain (.blob size)
  | .temporal kind _ => .temporal kind
  | t => .plain t

theorem lookup_written (dataType name : String) {keyword : TypeKeyword}
    (hname : writtenName dataType = name) (hkeyword : mysqlKeywords.lookup name = some keyword) :
    mysqlKeywords.lookup (writtenName dataType) = some keyword := hname ▸ hkeyword

theorem lookup_dataType (t : SqlType) :
    mysqlKeywords.lookup (writtenName t.dataType) = some t.keyword := by
  cases t with
  | int size unsigned =>
    cases size with
    | tiny => exact lookup_written "tinyint" "TINYINT" (by decide) rfl
    | small => exact lookup_written "smallint" "SMALLINT" (by decide) rfl
    | medium => exact lookup_written "mediumint" "MEDIUMINT" (by decide) rfl
    | int => exact lookup_written "int" "INT" (by decide) rfl
    | big => exact lookup_written "bigint" "BIGINT" (by decide) rfl
  | text cs size =>
    cases size with
    | tiny => exact lookup_written "tinytext" "TINYTEXT" (by decide) rfl
    | regular => exact lookup_written "text" "TEXT" (by decide) rfl
    | medium => exact lookup_written "mediumtext" "MEDIUMTEXT" (by decide) rfl
    | long => exact lookup_written "longtext" "LONGTEXT" (by decide) rfl
  | blob size =>
    cases size with
    | tiny => exact lookup_written "tinyblob" "TINYBLOB" (by decide) rfl
    | regular => exact lookup_written "blob" "BLOB" (by decide) rfl
    | medium => exact lookup_written "mediumblob" "MEDIUMBLOB" (by decide) rfl
    | long => exact lookup_written "longblob" "LONGBLOB" (by decide) rfl
  | temporal kind fsp =>
    cases kind with
    | time => exact lookup_written "time" "TIME" (by decide) rfl
    | datetime => exact lookup_written "datetime" "DATETIME" (by decide) rfl
    | timestamp => exact lookup_written "timestamp" "TIMESTAMP" (by decide) rfl
  | spatial kind =>
    cases kind with
    | geometry => exact lookup_written "geometry" "GEOMETRY" (by decide) rfl
    | point => exact lookup_written "point" "POINT" (by decide) rfl
    | linestring => exact lookup_written "linestring" "LINESTRING" (by decide) rfl
    | polygon => exact lookup_written "polygon" "POLYGON" (by decide) rfl
    | multipoint => exact lookup_written "multipoint" "MULTIPOINT" (by decide) rfl
    | multilinestring => exact lookup_written "multilinestring" "MULTILINESTRING" (by decide) rfl
    | multipolygon => exact lookup_written "multipolygon" "MULTIPOLYGON" (by decide) rfl
    | geomcollection => exact lookup_written "geomcollection" "GEOMCOLLECTION" (by decide) rfl
  | decimal _ _ _ => exact lookup_written "decimal" "DECIMAL" (by decide) rfl
  | float _ _ => exact lookup_written "float" "FLOAT" (by decide) rfl
  | double _ _ => exact lookup_written "double" "DOUBLE" (by decide) rfl
  | bit _ => exact lookup_written "bit" "BIT" (by decide) rfl
  | char _ _ => exact lookup_written "char" "CHAR" (by decide) rfl
  | varchar _ _ => exact lookup_written "varchar" "VARCHAR" (by decide) rfl
  | binary _ => exact lookup_written "binary" "BINARY" (by decide) rfl
  | varbinary _ => exact lookup_written "varbinary" "VARBINARY" (by decide) rfl
  | enum _ => exact lookup_written "enum" "VARCHAR" (by decide) rfl
  | set _ => exact lookup_written "set" "VARCHAR" (by decide) rfl
  | date => exact lookup_written "date" "DATE" (by decide) rfl
  | year => exact lookup_written "year" "YEAR" (by decide) rfl
  | json => exact lookup_written "json" "JSON" (by decide) rfl

/-- A type of the table is declared by its keyword and the size that is reported of it. -/
theorem declaredType_spelled (t : SqlType) :
    declaredType t.spelled = t.keyword.declare t.spelled.size := by
  have hlookup : mysqlKeywords.lookup t.spelled.name = some t.keyword := t.lookup_dataType
  rw [declaredType, hlookup]
  rfl

section sizes

variable {t : SqlType}

theorem spelled_unsized (hlength : t.characterMaximumLength.getD 0 = 0)
    (hscale : t.numericScale.getD 0 = 0) : t.spelled.size = .unsized :=
  TypeSize.of_unsized hlength hscale

theorem spelled_length {n : Nat} (hlength : t.characterMaximumLength = some n) (hn : n ≠ 0) :
    t.spelled.size = .length n := by
  have hset : t.characterMaximumLength.getD 0 ≠ 0 := by
    rw [hlength]
    exact hn
  have hsize : t.spelled.size = .length (t.characterMaximumLength.getD 0) :=
    TypeSize.of_length hset
  rw [hsize, hlength]
  rfl

theorem spelled_precision {p s : Nat} (hlength : t.characterMaximumLength = none)
    (hprecision : t.numericPrecision = some p) (hscale : t.numericScale = some s) (hp : p ≠ 0)
    (hs : s ≠ 0) : t.spelled.size = .precision p s := by
  unfold spelled
  rw [hlength, hprecision, hscale]
  exact TypeSize.of_precision hp hs

end sizes

/-- The length that is reported of a text column is not 0. -/
theorem textLength_ne_zero (cs : Charset) (size : LobSize) : size.octets / cs.minOctets ≠ 0 := by
  have hfour := cs.minOctets_le_four
  have hroom : cs.minOctets ≤ size.octets := by
    cases size <;> simp only [LobSize.octets] <;> omega
  exact (Nat.div_pos hroom cs.minOctets_pos).ne'

theorem longest_eq_zero_iff (labels : List String) :
    (labels.map String.length).foldr max 0 = 0 ↔ ¬ ∃ label ∈ labels, label ≠ "" := by
  push Not
  constructor
  · intro hzero label hlabel
    have hle := length_le_longest hlabel
    exact String.length_eq_zero_iff.mp (by omega)
  · intro hempty
    have hle : ∀ label ∈ labels, label.length ≤ 0 := by
      intro label hlabel
      rw [hempty label hlabel]
      exact le_rfl
    exact Nat.le_zero.mp (longest_le hle)

/-- The size that says these digits. -/
def digitsSize : Option (Nat × Nat) → TypeSize
  | none => .unsized
  | some d => .precision d.1 d.2

/-- The size of a FLOAT or DOUBLE says its digits, if there are any after the point. -/
theorem spelled_digits {t : SqlType} {digits : Option (Nat × Nat)} {width : Nat}
    (hlength : t.characterMaximumLength = none)
    (hprecision : t.numericPrecision = some ((digits.map Prod.fst).getD width))
    (hscale : t.numericScale = digits.map Prod.snd)
    (hle : ∀ d, digits = some d → d.2 ≤ d.1) :
    t.spelled.size = digitsSize (copiedDigits digits) := by
  have hnone : t.characterMaximumLength.getD 0 = 0 := by
    rw [hlength]
    rfl
  cases digits with
  | none =>
    have hzero : t.numericScale.getD 0 = 0 := by
      rw [hscale]
      rfl
    exact spelled_unsized hnone hzero
  | some d =>
    by_cases hzero : d.2 = 0
    · have hcopied : copiedDigits (some d) = none := by simp [copiedDigits, hzero]
      have hunset : t.numericScale.getD 0 = 0 := by
        rw [hscale]
        exact hzero
      rw [hcopied]
      exact spelled_unsized hnone hunset
    · have hcopied : copiedDigits (some d) = some d := by simp [copiedDigits, Option.filter, hzero]
      have hsome : d.1 ≠ 0 := by
        have hd := hle d rfl
        omega
      rw [hcopied]
      exact spelled_precision hlength hprecision hscale hsome hzero

/-- The digits that are written are within the bounds of those that were declared. -/
theorem copiedDigits_eq_some {digits : Option (Nat × Nat)} {d : Nat × Nat}
    (h : copiedDigits digits = some d) : digits = some d :=
  (Option.filter_eq_some_iff.mp h).1

/-- FLOAT and DOUBLE are declared with the digits that are written. -/
theorem declared_digits {keyword : TypeKeyword} {f : Option (Nat × Nat) → SqlType} {t : SqlType}
    {digits : Option (Nat × Nat)} (hplain : keyword.declare .unsized = some (f none))
    (hsized : ∀ d : Nat × Nat, d.1 ≤ 255 ∧ d.2 ≤ 30 ∧ d.2 ≤ d.1 →
      keyword.declare (.precision d.1 d.2) = some (f (some d)))
    (hsize : t.spelled.size = digitsSize (copiedDigits digits))
    (hv : ∀ d, digits = some d → d.1 ≤ 255 ∧ d.2 ≤ 30 ∧ d.2 ≤ d.1) :
    keyword.declare t.spelled.size = some (f (copiedDigits digits)) := by
  rw [hsize]
  cases hcopied : copiedDigits digits with
  | none => exact hplain
  | some d => exact hsized d (hv d (copiedDigits_eq_some hcopied))

/-- CHAR and BINARY have room for one where the length is 0, as it is not written then. -/
theorem declared_padded {keyword : TypeKeyword} {f : Nat → SqlType} {t : SqlType} {n : Nat}
    (hplain : keyword.declare .unsized = some (f 1))
    (hsized : keyword.declare (.length n) = some (f n))
    (hlength : t.characterMaximumLength = some n) (hscale : t.numericScale = none) :
    keyword.declare t.spelled.size = some (f (if n = 0 then 1 else n)) := by
  by_cases hzero : n = 0
  · have hsize : t.spelled.size = .unsized := by
      apply spelled_unsized
      · rw [hlength, hzero]
        rfl
      · rw [hscale]
        rfl
    rw [hsize, if_pos hzero]
    exact hplain
  · rw [spelled_length hlength hzero, if_neg hzero]
    exact hsized

/-- An accepted type is declared as its copy. -/
theorem declared_of_accepted {t : SqlType} (hv : t.Valid) (ha : t.Accepted) :
    t.keyword.declare t.spelled.size = some t.copied := by
  cases t with
  | int size unsigned =>
    have hsize : (SqlType.int size unsigned).spelled.size = .unsized := by
      cases size <;> exact spelled_unsized rfl rfl
    rw [hsize]
    rfl
  | decimal p s unsigned =>
    obtain ⟨hpos, hp, hs, hle⟩ := hv
    by_cases hzero : s = 0
    · subst hzero
      rw [spelled_unsized rfl rfl]
      rfl
    · rw [spelled_precision rfl rfl rfl hpos.ne' hzero, keyword, TypeKeyword.declare,
        if_pos ⟨hp, hs, hle⟩, copied, if_neg hzero]
  | float digits unsigned =>
    exact declared_digits (f := (.float · false)) rfl (fun _ hd => if_pos hd)
      (spelled_digits rfl rfl rfl fun d hd => (hv d hd).2.2) hv
  | double digits unsigned =>
    exact declared_digits (f := (.double · false)) rfl (fun _ hd => if_pos hd)
      (spelled_digits rfl rfl rfl fun d hd => (hv d hd).2.2) hv
  | bit n =>
    rw [spelled_unsized rfl rfl]
    rfl
  | char cs n => exact declared_padded (f := (.char .utf8mb4 ·)) rfl (if_pos hv) rfl rfl
  | varchar cs n =>
    obtain ⟨hpos, hle⟩ := ha
    rw [spelled_length rfl hpos.ne', keyword, TypeKeyword.declare, if_pos hle]
    rfl
  | binary n => exact declared_padded (f := (.binary ·)) rfl (if_pos hv) rfl rfl
  | varbinary n =>
    have hpos : 0 < n := ha
    have hle : n ≤ 65535 := hv
    rw [spelled_length rfl hpos.ne', keyword, TypeKeyword.declare, if_pos hle]
    rfl
  | text cs size =>
    have hregular : size = .regular := ha
    subst hregular
    have hroom : 4 * (LobSize.regular.octets / cs.minOctets) ≤ LobSize.long.octets := by
      have hle := Nat.div_le_self LobSize.regular.octets cs.minOctets
      simp only [LobSize.octets] at hle ⊢
      omega
    obtain ⟨smallest, hsmallest⟩ := Option.isSome_iff_exists.mp (LobSize.smallest_isSome hroom)
    rw [spelled_length rfl (textLength_ne_zero cs .regular), keyword, TypeKeyword.declare, copied,
      hsmallest]
    rfl
  | blob size =>
    have hregular : size = .regular := ha
    subst hregular
    rw [spelled_length rfl (by decide)]
    rfl
  | enum labels =>
    have hlongest : (labels.map String.length).foldr max 0 ≠ 0 := by
      rw [Ne, longest_eq_zero_iff, not_not]
      exact ha
    have hle : (labels.map String.length).foldr max 0 ≤ 16383 :=
      (longest_le hv).trans (by decide)
    rw [spelled_length rfl hlongest, keyword, TypeKeyword.declare, if_pos hle]
    rfl
  | set labels =>
    have hsome : (setText labels).length ≠ 0 := fun hzero => ha (String.length_eq_zero_iff.mp hzero)
    have hle : (setText labels).length ≤ 16383 := by
      have hlength := setText_length_lt hv.2
      have hcount := hv.1
      omega
    rw [spelled_length rfl hsome, keyword, TypeKeyword.declare, if_pos hle]
    rfl
  | temporal kind fsp =>
    rw [spelled_unsized rfl rfl]
    rfl
  | _ =>
    rw [spelled_unsized rfl rfl]
    rfl

/-- Any other type is declared wrongly. -/
theorem declared_of_not_accepted {t : SqlType} (ha : ¬ t.Accepted) :
    t.keyword.declare t.spelled.size = none := by
  cases t with
  | varchar cs n =>
    by_cases hzero : n = 0
    · subst hzero
      rw [spelled_unsized rfl rfl]
      rfl
    · have hlong : ¬ n ≤ 16383 := fun hle => ha ⟨Nat.pos_of_ne_zero hzero, hle⟩
      rw [spelled_length rfl hzero, keyword, TypeKeyword.declare, if_neg hlong]
  | varbinary n =>
    have hzero : n = 0 := Nat.eq_zero_of_not_pos ha
    subst hzero
    rw [spelled_unsized rfl rfl]
    rfl
  | text cs size =>
    rw [spelled_length rfl (textLength_ne_zero cs size)]
    cases size with
    | regular => exact absurd rfl ha
    | _ => rfl
  | blob size =>
    cases size with
    | regular => exact absurd rfl ha
    | _ =>
      rw [spelled_length rfl (by decide)]
      rfl
  | enum labels =>
    have hzero : (SqlType.enum labels).characterMaximumLength.getD 0 = 0 :=
      (longest_eq_zero_iff labels).mpr ha
    rw [spelled_unsized hzero rfl]
    rfl
  | set labels =>
    have hempty : setText labels = "" := not_not.mp ha
    have hzero : (SqlType.set labels).characterMaximumLength.getD 0 = 0 := by
      rw [characterMaximumLength, hempty]
      rfl
    rw [spelled_unsized hzero rfl]
    rfl
  | _ => exact absurd trivial ha

theorem declaredType_eq_some_iff {t : SqlType} (hv : t.Valid) (u : SqlType) :
    declaredType t.spelled = some u ↔ t.Accepted ∧ u = t.copied := by
  rw [declaredType_spelled]
  by_cases ha : t.Accepted
  · rw [declared_of_accepted hv ha, Option.some.injEq]
    exact ⟨fun h => ⟨ha, h.symm⟩, fun h => h.2.symm⟩
  · rw [declared_of_not_accepted ha]
    exact iff_of_false (by simp) fun h => ha h.1

theorem holdsReal_copied {P : ℚ → Prop} {digits : Option (Nat × Nat)} {unsigned : Bool} {q : ℚ}
    (h : HoldsReal P digits unsigned q) : HoldsReal P (copiedDigits digits) false q := by
  obtain ⟨hbinary, -, hshows⟩ := h
  refine ⟨hbinary, fun hfalse => (by cases hfalse), ?_⟩
  intro d hd
  exact hshows d (copiedDigits_eq_some hd)

/-- A text of the regular size fits in the size that MySQL chooses for its number of characters. -/
theorem holds_text (cs : Charset) {v : Value} (h : (SqlType.text cs .regular).Holds v) :
    (SqlType.text cs .regular).copied.Holds v := by
  obtain ⟨s, hs, hencodes, hsize⟩ := h
  refine ⟨s, hs, Charset.utf8mb4_encodes s, ?_⟩
  have hchars : s.length ≤ LobSize.regular.octets / cs.minOctets := by
    rw [Nat.le_div_iff_mul_le cs.minOctets_pos, Nat.mul_comm]
    exact (cs.mul_length_le hencodes).trans hsize
  have hutf8 := Charset.utf8mb4_size_le s
  cases hsmallest : LobSize.smallest (4 * (LobSize.regular.octets / cs.minOctets)) with
  | none =>
    have hle := Nat.div_le_self LobSize.regular.octets cs.minOctets
    simp only [LobSize.octets, Option.getD_none] at hle hchars ⊢
    omega
  | some size =>
    have hroom := LobSize.le_smallest hsmallest
    rw [Option.getD_some]
    omega

/-- What is kept has room for every value of the source. -/
theorem holds_copied {t : SqlType} (ha : t.Accepted) (hk : t.Kept) {v : Value} (h : t.Holds v) :
    t.copied.Holds v := by
  cases t with
  | int size unsigned =>
    have hsigned : unsigned = false := hk
    subst hsigned
    exact h
  | decimal p s unsigned =>
    obtain ⟨k, hvalue, hdigits, -⟩ := h
    have hsigned : false = true → 0 ≤ k := fun hfalse => (by cases hfalse)
    by_cases hzero : s = 0
    · subst hzero
      have hp : p ≤ 10 := hk.resolve_left (lt_irrefl 0)
      have hten : (10 : Int) ^ p ≤ 10 ^ 10 := pow_le_pow_right₀ (by norm_num) hp
      exact ⟨k, hvalue, hdigits.trans_le hten, hsigned⟩
    · rw [copied, if_neg hzero]
      exact ⟨k, hvalue, hdigits, hsigned⟩
  | float digits unsigned =>
    obtain ⟨q, hvalue, hreal⟩ := h
    exact ⟨q, hvalue, holdsReal_copied hreal⟩
  | double digits unsigned =>
    obtain ⟨q, hvalue, hreal⟩ := h
    exact ⟨q, hvalue, holdsReal_copied hreal⟩
  | bit n =>
    have hone : n = 1 := hk
    subst hone
    exact h
  | char cs n =>
    obtain ⟨s, hvalue, hlength, -, hblank⟩ := h
    refine ⟨s, hvalue, ?_, Charset.utf8mb4_encodes s, hblank⟩
    split <;> omega
  | varchar cs n =>
    obtain ⟨s, hvalue, hlength, -⟩ := h
    exact ⟨s, hvalue, hlength, Charset.utf8mb4_encodes s⟩
  | binary n =>
    have hpos : 0 < n := hk
    rw [copied, if_neg hpos.ne']
    exact h
  | text cs size =>
    have hregular : size = .regular := ha
    subst hregular
    exact holds_text cs h
  | enum labels =>
    obtain ⟨s, hvalue, hs⟩ := h
    refine ⟨s, hvalue, ?_, Charset.utf8mb4_encodes s⟩
    rcases hs with hlabel | hempty
    · exact length_le_longest hlabel
    · rw [hempty]
      exact Nat.zero_le _
  | set labels =>
    obtain ⟨chosen, hvalue, hchosen⟩ := h
    exact ⟨_, hvalue, setText_length_le hchosen, Charset.utf8mb4_encodes _⟩
  | temporal kind fsp =>
    have hwhole : fsp = 0 := hk
    subst hwhole
    exact h
  | _ => exact h

/-- The largest number of an unsigned column. -/
theorem unsigned_value (size : IntSize) :
    (SqlType.int size true).Holds (.int (2 ^ size.bits - 1)) ∧
      ¬ (SqlType.int size true).copied.Holds (.int (2 ^ size.bits - 1)) := by
  constructor
  · refine ⟨_, rfl, ?_⟩
    cases size <;> decide
  · intro h
    obtain ⟨n, hn, -, hlt⟩ := h
    rw [← Value.int.inj hn] at hlt
    revert hlt
    cases size <;> decide

/-- A number of eleven digits. -/
theorem decimal_value {p : Nat} (hp : 10 < p) (unsigned : Bool) :
    (SqlType.decimal p 0 unsigned).Holds (.decimal (((10 ^ 10 : Int) : ℚ) / 10 ^ 0)) ∧
      ¬ (SqlType.decimal p 0 unsigned).copied.Holds (.decimal (((10 ^ 10 : Int) : ℚ) / 10 ^ 0)) := by
  constructor
  · refine ⟨10 ^ 10, rfl, ?_, fun _ => by norm_num⟩
    have hlt : (10 : Int) ^ 10 < 10 ^ p := pow_lt_pow_right₀ (by norm_num) hp
    rwa [abs_of_pos (by norm_num)]
  · intro h
    obtain ⟨k, hk, hdigits, -⟩ := h
    have heq := Value.decimal.inj hk
    rw [pow_zero, div_one, div_one] at heq
    rw [← Int.cast_injective heq, abs_of_pos (by norm_num)] at hdigits
    exact lt_irrefl _ hdigits

/-- What is not kept has a value that the created column cannot hold. -/
theorem exists_not_holds_copied {t : SqlType} (hv : t.Valid) (hk : ¬ t.Kept) :
    ∃ v, t.Holds v ∧ ¬ t.copied.Holds v := by
  cases t with
  | int size unsigned =>
    have hunsigned : unsigned = true := Bool.not_eq_false _ ▸ hk
    subst hunsigned
    exact ⟨_, unsigned_value size⟩
  | decimal p s unsigned =>
    have hzero : s = 0 := Nat.eq_zero_of_not_pos fun hpos => hk (Or.inl hpos)
    have hlong : 10 < p := Nat.lt_of_not_le fun hle => hk (Or.inr hle)
    subst hzero
    exact ⟨_, decimal_value hlong unsigned⟩
  | bit n =>
    have hpos : 0 < n := hv.1
    have hne : n ≠ 1 := hk
    refine ⟨.bits 2, ⟨2, rfl, ?_⟩, ?_⟩
    · have hfour : 2 ^ 2 ≤ 2 ^ n := Nat.pow_le_pow_right (by decide) (by omega)
      omega
    · intro h
      obtain ⟨k, hk, hlt⟩ := h
      rw [← Value.bits.inj hk] at hlt
      exact absurd hlt (by decide)
  | binary n =>
    have hzero : n = 0 := Nat.eq_zero_of_not_pos hk
    subst hzero
    refine ⟨.octets [], ⟨[], rfl, rfl⟩, ?_⟩
    intro h
    obtain ⟨bytes, hbytes, hlength⟩ := h
    rw [← Value.octets.inj hbytes] at hlength
    cases hlength
  | temporal kind fsp =>
    have hfsp : fsp ≠ 0 := hk
    have hlt : 10 ^ (6 - fsp) < 10 ^ 6 := Nat.pow_lt_pow_right (by decide) (by have := hv; omega)
    refine ⟨.moment kind kind.first (10 ^ (6 - fsp)),
      ⟨_, _, rfl, le_rfl, TimeKind.first_le_last kind, hlt, Nat.mod_self _⟩, ?_⟩
    intro h
    obtain ⟨second, micro, hmoment, -, -, -, hwhole⟩ := h
    obtain ⟨-, -, hmicro⟩ := Value.moment.inj hmoment
    rw [← hmicro, Nat.sub_zero, Nat.mod_eq_of_lt hlt] at hwhole
    exact absurd hwhole (Nat.pow_pos (by decide)).ne'
  | _ => exact absurd trivial hk

theorem holds_copied_iff {t : SqlType} (hv : t.Valid) (ha : t.Accepted) :
    (∀ v, t.Holds v → t.copied.Holds v) ↔ t.Kept := by
  constructor
  · intro hholds
    by_contra hk
    obtain ⟨v, hsource, hcreated⟩ := exists_not_holds_copied hv hk
    exact hcreated (hholds v hsource)
  · exact fun hk v h => holds_copied ha hk h

end Mysql.SqlType

end DataBridge

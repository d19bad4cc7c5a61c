import DataBridge.Migration.Compatibility
import Mathlib.Data.List.TakeWhile

namespace DataBridge

def typeAffinity : List (String × String) :=
  [("int", "INTEGER"), ("tinyint", "SMALLINT"), ("smallint", "SMALLINT"), ("mediumint", "INTEGER"),
    ("bigint", "BIGINT"), ("serial", "INTEGER"), ("bigserial", "BIGINT"), ("float", "FLOAT"),
    ("double", "DOUBLE"), ("real", "FLOAT"), ("decimal", "DECIMAL"), ("numeric", "DECIMAL"),
    ("money", "DECIMAL"), ("char", "CHAR"), ("varchar", "VARCHAR"), ("text", "TEXT"),
    ("tinytext", "TEXT"), ("mediumtext", "TEXT"), ("longtext", "TEXT"), ("nchar", "CHAR"),
    ("nvarchar", "VARCHAR"), ("ntext", "TEXT"), ("blob", "BLOB"), ("tinyblob", "BLOB"),
    ("mediumblob", "BLOB"), ("longblob", "BLOB"), ("bytea", "BLOB"), ("binary", "BLOB"),
    ("varbinary", "BLOB"), ("date", "DATE"), ("time", "TIME"), ("datetime", "DATETIME"),
    ("timestamp", "TIMESTAMP"), ("year", "SMALLINT"), ("interval", "VARCHAR"), ("bool", "BOOLEAN"),
    ("boolean", "BOOLEAN"), ("bit", "BOOLEAN"), ("json", "JSON"), ("jsonb", "JSON"),
    ("uuid", "VARCHAR"), ("enum", "VARCHAR"), ("set", "VARCHAR")]

/-- `_universal_type`; nothing in the program calls it. -/
def universalType (dtype : String) : String :=
  let lower := PyText.strip (PyText.before '(' (PyText.lower dtype))
  (typeAffinity.lookup lower).getD (PyText.upper dtype)

/-- The family that a type name is listed in. -/
def familyOf (name : String) : Option Nat := typeFamilies.findIdx? fun fam => name ∈ fam

/-- The family of the universal type of a spelling. -/
def universalFamily (dtype : String) : Option Nat := familyOf (universalType dtype)

theorem family_eq (dtype : String) :
    family dtype = familyOf (PyText.upper (PyText.before '(' dtype)) := by
  rw [family, PyText.before_upper]
  rfl

theorem mem_typeFamilies {name : String} {i : Nat} (h : familyOf name = some i) :
    name ∈ typeFamilies.flatten := by
  obtain ⟨hlt, hmem, -⟩ := List.findIdx?_eq_some_iff_getElem.mp h
  exact List.mem_flatten.mpr ⟨_, List.getElem_mem hlt, of_decide_eq_true hmem⟩

/-- A family name is written in capitals. -/
theorem isUpper_of_family {name : String} (h : name ∈ typeFamilies.flatten) :
    ∀ c ∈ name.toList, c.isUpper = true := by
  have hall : (typeFamilies.flatten.all fun name => name.toList.all Char.isUpper) := by decide
  exact List.all_eq_true.mp (List.all_eq_true.mp hall name h)

theorem isAscii_of_affinity {name universal : String}
    (h : typeAffinity.lookup name = some universal) : PyText.isAscii name = true := by
  have hall : ∀ e ∈ typeAffinity, PyText.isAscii e.1 = true := by decide
  obtain ⟨l₁, l₂, heq, -⟩ := List.lookup_eq_some_iff.mp h
  exact hall (name, universal) (by rw [heq]; simp)

/-- A family name that the affinity table knows in lower case stays in its family. -/
theorem affinity_family {name universal : String} (hname : name ∈ typeFamilies.flatten)
    (h : typeAffinity.lookup (PyText.lower name) = some universal) :
    familyOf universal = familyOf name := by
  have hall : ∀ name ∈ typeFamilies.flatten,
      (typeAffinity.lookup (PyText.lower name)).all fun u => familyOf u = familyOf name := by
    decide
  have hmem := hall name hname
  rw [h] at hmem
  simpa using hmem

/-- Where both tables know a spelling, they put it in the same family. -/
theorem family_agrees {dtype : String} {i j : Nat} (h : family dtype = some i)
    (hu : universalFamily dtype = some j) : i = j := by
  rw [family_eq] at h
  have hname := mem_typeFamilies h
  have hcapitals := isUpper_of_family hname
  rw [universalFamily, universalType, PyText.before_lower, PyText.strip_lower hcapitals] at hu
  cases hlookup : typeAffinity.lookup (PyText.lower (PyText.before '(' dtype)) with
  | some universal =>
    have hascii := PyText.isAscii_of_cases hcapitals (isAscii_of_affinity hlookup)
    rw [hlookup, Option.getD_some] at hu
    rw [← PyText.lower_upper hascii] at hlookup
    rw [affinity_family hname hlookup, h] at hu
    exact Option.some.inj hu
  | none =>
    rw [hlookup, Option.getD_none] at hu
    have hfull := isUpper_of_family (mem_typeFamilies hu)
    have hwhole : PyText.upper (PyText.before '(' dtype) = PyText.upper dtype := by
      rw [← PyText.before_upper, PyText.before, List.takeWhile_eq_self_iff.mpr,
        String.ofList_toList]
      intro c hc
      apply decide_eq_true
      intro heq
      subst heq
      exact absurd (hfull '(' hc) (by decide)
    rw [hwhole, hu] at h
    exact (Option.some.inj h).symm

/-- Every pair of schemas that share a column of these two types is refused. -/
def Refused (sourceType destType : String) : Prop :=
  ∀ (source destination : TableSchema) (col dcol : ColumnSchema), col ∈ source.columns →
    (columnsByName destination.columns).get? col.name = some dcol →
    col.dataType = sourceType → dcol.dataType = destType →
    ∃ exc, validateSchemaCompatibility source (some destination) = .error exc ∧
      exc.kind = .schemaCompatibilityError

/-- A table of one column. -/
def singleColumn (dataType : String) : TableSchema where
  name := "t"
  columns := [{ name := "c", dataType := dataType }]

theorem singleColumn_lookup (dataType : String) :
    (columnsByName (singleColumn dataType).columns).get? "c" =
      some { name := "c", dataType := dataType } := rfl

/-- Two tables of one column pass when one of the families is not known. -/
theorem singleColumn_accepted {sourceType destType : String}
    (h : family sourceType = none ∨ family destType = none) :
    ∃ warnings, validateSchemaCompatibility (singleColumn sourceType) (some (singleColumn destType)) =
      .ok warnings := by
  refine ⟨_, validate_of_accepted (List.cons_ne_nil _ _) ?_⟩
  intro hrejected
  rcases hrejected with ⟨col, hcol, dcol, hget, hsource, hdest, -⟩ | ⟨entry, hentry, hkey, -⟩
  · cases List.mem_singleton.mp hcol
    rw [singleColumn_lookup] at hget
    cases hget
    rcases h with hs | hd
    · exact hsource hs
    · exact hdest hd
  · cases List.mem_singleton.mp hentry
    exact hkey (List.mem_singleton.mpr rfl)

/-- Spellings whose universal types are of different families are refused just when the validator
knows the family of both. -/
theorem refused_iff_known {sourceType destType : String} {i j : Nat}
    (hs : universalFamily sourceType = some i) (hd : universalFamily destType = some j)
    (hne : i ≠ j) :
    Refused sourceType destType ↔ family sourceType ≠ none ∧ family destType ≠ none := by
  constructor
  · intro h
    obtain ⟨exc, hraised, -⟩ := h (singleColumn sourceType) (singleColumn destType) _ _
      (List.mem_singleton.mpr rfl) (singleColumn_lookup destType) rfl rfl
    by_contra hunknown
    have hnone : family sourceType = none ∨ family destType = none :=
      (not_and_or.mp hunknown).imp not_not.mp not_not.mp
    obtain ⟨warnings, hok⟩ := singleColumn_accepted hnone
    rw [hok] at hraised
    cases hraised
  · intro hknown source destination col dcol hcol hget hsource hdest
    subst hsource hdest
    obtain ⟨k, hk⟩ := Option.ne_none_iff_exists'.mp hknown.1
    obtain ⟨l, hl⟩ := Option.ne_none_iff_exists'.mp hknown.2
    have hkl : k ≠ l := by
      rw [family_agrees hk hs, family_agrees hl hd]
      exact hne
    have hclash : FamiliesClash col dcol := by
      refine ⟨hknown.1, hknown.2, ?_⟩
      rw [hk, hl]
      exact fun h => hkl (Option.some.inj h)
    have hrejected : Rejected source destination := Or.inl ⟨col, hcol, dcol, hget, hclash⟩
    obtain ⟨exc, hraised⟩ := validate_of_rejected hrejected
    exact ⟨exc, hraised, validate_error_kind hraised⟩

theorem refused_iff_known_sized :
    universalFamily "varchar(20)" = some 1 ∧ universalFamily "BIGINT" = some 0 ∧
      Refused "varchar(20)" "BIGINT" := by
  have hs : universalFamily "varchar(20)" = some 1 := by decide
  have hd : universalFamily "BIGINT" = some 0 := by decide
  exact ⟨hs, hd, (refused_iff_known hs hd (by decide)).mpr (by decide)⟩

/-- INT is an integer type for the universal table and no type at all for the validator. -/
theorem int_not_refused : ¬ ∀ sourceType destType i j, universalFamily sourceType = some i →
    universalFamily destType = some j → i ≠ j → Refused sourceType destType := by
  intro hclaim
  have h := hclaim "INT" "DATE" 0 2 (by decide) (by decide) (by decide)
  obtain ⟨exc, hraised, -⟩ := h (singleColumn "INT") (singleColumn "DATE") _ _
    (List.mem_singleton.mpr rfl) (singleColumn_lookup "DATE") rfl rfl
  have hnone : family "INT" = none ∨ family "DATE" = none := Or.inl (by decide)
  obtain ⟨warnings, hok⟩ := singleColumn_accepted hnone
  rw [hok] at hraised
  cases hraised

end DataBridge

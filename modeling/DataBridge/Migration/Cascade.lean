import DataBridge.Framework.Keyed
import DataBridge.Framework.Reach
import DataBridge.Migration.StaticSource

namespace DataBridge

/-- What a key does to the rows that refer to a row that is deleted (ON DELETE), or whose referenced
columns change (ON UPDATE). NO ACTION and RESTRICT do nothing to them, and may not leave them without
a row to refer to. -/
inductive KeyAction where
  | restricted
  | cascade
  | setNull
  | setDefault (values : List Value)
  deriving DecidableEq

/-- A foreign key between two destination tables. -/
structure ForeignKey where
  child : String
  childCols : List String
  parent : String
  parentCols : List String
  onDelete : KeyAction := .restricted
  onUpdate : KeyAction := .restricted
  deriving DecidableEq

namespace ForeignKey

/-- Does the row `c` of the child refer to the row `p` of the parent? A NULL refers to none. -/
def refers (fk : ForeignKey) (c p : Row) : Bool :=
  (fk.childCols.zip fk.parentCols).all fun cols =>
    c.get cols.1 ≠ .none ∧ c.get cols.1 = p.get cols.2

/-- Every column of the key has a value in the row. -/
def refersToSome (fk : ForeignKey) (c : Row) : Bool := fk.childCols.all fun col => c.get col ≠ .none

def setChild (fk : ForeignKey) (values : List Value) (c : Row) : Row :=
  (fk.childCols.zip values).foldl (fun row e => row.set e.1 e.2) c

/-- The row `c` of the child after the action, where `p` is the row it is to refer to now. -/
def act (fk : ForeignKey) (action : KeyAction) (p c : Row) : Row :=
  match action with
  | .restricted => c
  | .cascade => fk.setChild (fk.parentCols.map p.get) c
  | .setNull => fk.setChild (fk.childCols.map fun _ => .none) c
  | .setDefault values => fk.setChild values c

end ForeignKey

/-- From each parent table to the tables that reference it. -/
def tableEdges (fks : List ForeignKey) : List (String × String) :=
  fks.map fun fk => (fk.parent, fk.child)

/-- From each parent row to the rows that go with it on delete. -/
def rowEdges (fks : List ForeignKey) (content : String → List Row) :
    List ((String × Row) × (String × Row)) :=
  (fks.filter (·.onDelete = .cascade)).flatMap fun fk =>
    (content fk.parent).flatMap fun p =>
      ((content fk.child).filter fun c => fk.refers c p).map fun c => ((fk.parent, p), (fk.child, c))

section delete

-- A statement that deletes all rows of `u`.
variable (fks : List ForeignKey) (content : String → List Row) (u : String)

/-- Is row `r` of table `t` deleted with them? -/
def deletedWith (t : String) (r : Row) : Bool :=
  (content u).any fun r₀ => Reach.reaches (rowEdges fks content) (u, r₀) (t, r)

/-- A row that stays, after the actions of its keys: each of them acts if the row it refers to is
deleted, or if a column that it refers to has changed. The actions follow each other up to `depth`. -/
def rewritten : (depth : Nat) → (t : String) → (r : Row) → Row
  | 0, _, r => r
  | depth + 1, t, r =>
    (fks.filter (·.child = t)).foldl (fun new fk =>
      match (content fk.parent).find? (fk.refers r) with
      | none => new
      | some p =>
        if deletedWith fks content u fk.parent p then fk.act fk.onDelete p new
        else
          let p' := rewritten depth fk.parent p
          if fk.parentCols.all fun col => p'.get col = p.get col then new
          else fk.act fk.onUpdate p' new) r

def afterDelete (depth : Nat) (t : String) (r : Row) : Option Row :=
  if deletedWith fks content u t r then none else some (rewritten fks content u depth t r)

/-- Is there a row that had a row to refer to, and has none after the actions? -/
def deleteBlocked (depth : Nat) : Bool :=
  fks.any fun fk => (content fk.child).any fun r =>
    (content fk.parent).any (fk.refers r) &&
      (afterDelete fks content u depth fk.child r).any fun r' => fk.refersToSome r' &&
        !((content fk.parent).filterMap (afterDelete fks content u depth fk.parent)).any (fk.refers r')

end delete

/-- What a server does with a row that violates a foreign key: PostgreSQL and SQLite raise; the
`INSERT IGNORE` of MySQL skips the row. -/
inductive OnViolation where
  | raises
  | skips
  deriving DecidableEq

/-- The rows of each destination table. -/
abbrev Tables := String → List Row

/-- Foreign keys (none of them deferred) and unique keys of the destination, and what an insert does
about the former. -/
structure Constraints where
  fks : List ForeignKey
  conflicts : String → Row → Row → Bool
  onViolation : OnViolation

namespace Constraints

variable (k : Constraints)

/-- Some foreign key of table `t`, whose rows are `own`, finds no parent for `row`. A row may refer
to itself. -/
def violates (content : Tables) (t : String) (own : List Row) (row : Row) : Bool :=
  k.fks.any fun fk => fk.child = t && fk.childCols.all (fun c => row.get c ≠ .none) &&
    !(if fk.parent = t then own ++ [row] else content fk.parent).any (fk.refers row)

def addRow (content : Tables) (t : String) (own : List Row) (row : Row) : Except Exc (List Row) :=
  if own.any (k.conflicts t row) then .ok own
  else if k.violates content t own row then
    match k.onViolation with
    | .raises => .error ⟨.other, "violates foreign key constraint"⟩
    | .skips => .ok own
  else .ok (own ++ [row])

/-- The rows of the table with the rows of a statement up to the one that raises, if any. -/
def addUntilRaise (content : Tables) (t : String) : List Row → List Row → List Row × Option Exc
  | own, [] => (own, none)
  | own, row :: rows =>
    match k.addRow content t own row with
    | .ok own' => addUntilRaise content t own' rows
    | .error exc => (own, some exc)

end Constraints

/-- The source and the destination tables. -/
structure FkData (S : Type) where
  source : S
  tables : Dict String (List Row)

variable {S X : Type}

namespace FkData

def content (d : FkData S) (t : String) : List Row := (d.tables.get? t).getD []

def mapRows (f : String → List Row → List Row) (d : FkData S) : FkData S :=
  { d with tables := d.tables.mapValues f }

theorem content_mapRows (f : String → List Row → List Row) (d : FkData S) (t : String)
    (hnil : f t [] = []) : (d.mapRows f).content t = f t (d.content t) := by
  unfold content mapRows
  dsimp only
  rw [Dict.get?_mapValues]
  cases d.tables.get? t with
  | none => exact hnil.symm
  | some rows => rfl

theorem content_set (d : FkData S) (u t : String) (rows : List Row) :
    FkData.content { d with tables := d.tables.set u rows } t =
      if t = u then rows else d.content t := by
  rw [content]
  dsimp only
  rw [Dict.get?_set]
  split <;> rfl

end FkData

/-- `truncate_table` on a server of each dialect: TRUNCATE .. CASCADE empties every table that
references the named one, directly or not; TRUNCATE refuses a referenced table; DELETE takes the
rows that cascade with it and rewrites those that other actions say. -/
def truncateTables (dialect : Dialect) (fks : List ForeignKey) (depth : Nat) (u : String) :
    Call Exc (FkData S) Unit := fun d =>
  if u ∉ d.tables.keys then (.raised ⟨.other, s!"table {u} does not exist"⟩, d)
  else match dialect with
    | .postgres =>
      (.returned (), d.mapRows fun t rows =>
        if Reach.reaches (tableEdges fks) u t then [] else rows)
    | .mysql =>
      if fks.any fun fk => fk.parent = u && fk.child ≠ u then
        (.raised ⟨.other, "Cannot truncate a table referenced in a foreign key constraint"⟩, d)
      else (.returned (), d.mapRows fun t rows => if t = u then [] else rows)
    | .sqlite =>
      if deleteBlocked fks d.content u depth then
        (.raised ⟨.other, "FOREIGN KEY constraint failed"⟩, d)
      else (.returned (), d.mapRows fun t rows =>
        rows.filterMap (afterDelete fks d.content u depth t))

theorem truncateTables_ends (dialect : Dialect) (fks : List ForeignKey) (depth : Nat) (u : String)
    (d : FkData S) : (truncateTables dialect fks depth u d).1 ≠ .exhausted := by
  unfold truncateTables
  split
  · simp
  · cases dialect with
    | postgres => simp
    | mysql =>
      dsimp only
      split <;> simp
    | sqlite =>
      dsimp only
      split <;> simp

/-- Truncating `u` would change the rows of `t`: `t` has rows and references `u`, directly or not, or
(SQLite) the DELETE is not refused and takes or rewrites one of its rows. -/
def Cascades (dialect : Dialect) (fks : List ForeignKey) (depth : Nat) (content : String → List Row)
    (u t : String) : Prop :=
  match dialect with
  | .postgres => Relation.ReflTransGen (Reach.Edge (tableEdges fks)) u t ∧ content t ≠ []
  | .mysql => False
  | .sqlite => deleteBlocked fks content u depth = false ∧
      ∃ r ∈ content t, afterDelete fks content u depth t r ≠ some r

/-- A truncation changes no other table that it does not cascade to. -/
theorem truncateTables_frame (dialect : Dialect) (fks : List ForeignKey) (depth : Nat)
    (u t : String) (d : FkData S) (htu : t ≠ u)
    (hsafe : ¬ Cascades dialect fks depth d.content u t) :
    ((truncateTables dialect fks depth u d).2).content t = d.content t := by
  unfold truncateTables
  split
  · rfl
  · cases dialect with
    | postgres =>
      dsimp only
      rw [FkData.content_mapRows _ _ _ (by split <;> rfl)]
      split
      · rename_i hreach
        have hempty : ¬ d.content t ≠ [] := fun hne =>
          hsafe ⟨(Reach.reaches_iff _ _ _).mp hreach, hne⟩
        exact (not_not.mp hempty).symm
      · rfl
    | mysql =>
      dsimp only
      split
      · rfl
      · dsimp only
        rw [FkData.content_mapRows _ _ _ (by simp), if_neg htu]
    | sqlite =>
      dsimp only
      cases hblocked : deleteBlocked fks d.content u depth with
      | true => rfl
      | false =>
        rw [if_neg Bool.false_ne_true]
        dsimp only
        rw [FkData.content_mapRows _ _ _ (by simp)]
        have hstay : ∀ r ∈ d.content t, afterDelete fks d.content u depth t r = some r := by
          intro r hr
          by_contra hchanged
          exact hsafe ⟨hblocked, r, hr, hchanged⟩
        rw [List.filterMap_congr hstay, List.filterMap_some]

end DataBridge

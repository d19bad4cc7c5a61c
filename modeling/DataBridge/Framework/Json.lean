import DataBridge.Framework.FlatJson

namespace DataBridge

open FlatJson (Scalar)

/-- A JSON value without floats. The members of an object stand in the order they are written. -/
inductive Json where
  | scalar (v : Scalar)
  | arr (items : List Json)
  | obj (members : List (String × Json))
  deriving Repr

namespace Json

open FlatJson (escapeUnit intText scanNat scanScalar scanString scanUnits skipSpace stringBody Stops)

def null : Json := .scalar .null
def bool (b : Bool) : Json := .scalar (.bool b)
def int (i : Int) : Json := .scalar (.int i)
def str (s : String) : Json := .scalar (.str s)

/-! ## Writing -/

/-- How a writer separates members, and whether it escapes what is not ASCII. -/
structure Style where
  spaced : Bool
  ascii : Bool

/-- `json.dumps`. -/
def Style.python : Style := ⟨true, true⟩

/-- `model_dump_json`. -/
def Style.compact : Style := ⟨false, false⟩

variable (st : Style)

/-- What follows a comma or a colon. -/
def Style.pad : List Char := if st.spaced then [' '] else []

def escapeRaw (c : Char) : List Char :=
  if c = '"' ∨ c = '\\' ∨ c.toNat < 32 then escapeUnit c.toNat else [c]

/-- What follows the opening quote of a string. -/
def bodyText (s : String) : List Char :=
  if st.ascii then stringBody s else s.toList.flatMap escapeRaw ++ ['"']

def scalarText : Scalar → List Char
  | .str s => '"' :: bodyText st s
  | v => FlatJson.scalarText v

mutual

def valueText : Json → List Char
  | .scalar v => scalarText st v
  | .arr items => '[' :: itemsText items
  | .obj members => '{' :: membersText members

/-- The items with their separators, and the closing bracket. -/
def itemsText : List Json → List Char
  | [] => [']']
  | [v] => valueText v ++ [']']
  | v :: w :: vs => valueText v ++ ',' :: (st.pad ++ itemsText (w :: vs))

/-- The members with their separators, and the closing brace. -/
def membersText : List (String × Json) → List Char
  | [] => ['}']
  | [(key, v)] => '"' :: (bodyText st key ++ ':' :: (st.pad ++ (valueText v ++ ['}'])))
  | (key, v) :: e :: es =>
    '"' :: (bodyText st key ++ ':' :: (st.pad ++ (valueText v ++ ',' ::
      (st.pad ++ membersText (e :: es)))))

end

def dumps (v : Json) : String := String.ofList (valueText st v)

/-! ## Reading -/

mutual

/-- A value and what follows it; every call takes at least one character, so the length of the text
bounds their number. -/
def scanValue : Nat → List Char → Option (Json × List Char)
  | 0, _ => none
  | bound + 1, '[' :: text =>
    match skipSpace text with
    | ']' :: left => some (.arr [], left)
    | text => (scanItems bound text).map fun p => (.arr p.1, p.2)
  | bound + 1, '{' :: text =>
    match skipSpace text with
    | '}' :: left => some (.obj [], left)
    | text => (scanMembers bound text).map fun p => (.obj (Dict.ofList p.1).entries, p.2)
  | _ + 1, text => (scanScalar text).map fun p => (.scalar p.1, p.2)

def scanItems : Nat → List Char → Option (List Json × List Char)
  | 0, _ => none
  | bound + 1, text => do
    let (v, text) ← scanValue bound text
    match skipSpace text with
    | ',' :: text => do
      let (vs, left) ← scanItems bound (skipSpace text)
      some (v :: vs, left)
    | ']' :: left => some ([v], left)
    | _ => none

def scanMembers : Nat → List Char → Option (List (String × Json) × List Char)
  | 0, _ => none
  | bound + 1, text =>
    match text with
    | '"' :: text => do
      let (key, text) ← scanString text
      match skipSpace text with
      | ':' :: text => do
        let (v, text) ← scanValue bound (skipSpace text)
        match skipSpace text with
        | ',' :: text => do
          let (es, left) ← scanMembers bound (skipSpace text)
          some ((key, v) :: es, left)
        | '}' :: left => some ([(key, v)], left)
        | _ => none
      | _ => none
    | _ => none

end

/-- `json.loads`. -/
def loads (text : String) : Option Json := do
  let (v, left) ← scanValue text.toList.length (skipSpace text.toList)
  if skipSpace left = [] then some v else none

/-! ## What was written is read back -/

mutual

/-- Every object has every key once. -/
def Distinct : Json → Prop
  | .scalar _ => True
  | .arr items => DistinctItems items
  | .obj members => (members.map Prod.fst).Nodup ∧ DistinctMembers members

def DistinctItems : List Json → Prop
  | [] => True
  | v :: vs => Distinct v ∧ DistinctItems vs

def DistinctMembers : List (String × Json) → Prop
  | [] => True
  | (_, v) :: es => Distinct v ∧ DistinctMembers es

/-- The calls the reader needs for a value. -/
def calls : Json → Nat
  | .scalar _ => 1
  | .arr items => callsItems items + 1
  | .obj members => callsMembers members + 1

def callsItems : List Json → Nat
  | [] => 0
  | v :: vs => max (calls v) (callsItems vs) + 1

def callsMembers : List (String × Json) → Nat
  | [] => 0
  | (_, v) :: es => max (calls v) (callsMembers es) + 1

end

theorem scanUnits_escapeRaw (c : Char) (rest : List Char) :
    scanUnits (escapeRaw c ++ rest) = (scanUnits rest).map fun p => (c.toNat :: p.1, p.2) := by
  unfold escapeRaw
  split
  · rename_i hescaped
    have hlow : c.toNat < 0x10000 := by
      rcases hescaped with rfl | rfl | hcontrol
      · decide
      · decide
      · omega
    exact FlatJson.scanUnits_escapeUnit c.toNat hlow rest
  · rename_i hplain
    simp only [not_or, Nat.not_lt] at hplain
    exact FlatJson.scanUnits_plain c hplain.1 hplain.2.1 hplain.2.2 rest

theorem scanUnits_raw (cs rest : List Char) :
    scanUnits (cs.flatMap escapeRaw ++ '"' :: rest) = some (cs.map Char.toNat, rest) := by
  induction cs with
  | nil => rfl
  | cons c cs ih =>
    rw [List.flatMap_cons, List.append_assoc, scanUnits_escapeRaw, ih]
    rfl

/-- No character is a surrogate. -/
theorem joinUnits_toNat (cs : List Char) : FlatJson.joinUnits (cs.map Char.toNat) = some cs := by
  induction cs with
  | nil => rfl
  | cons c cs ih =>
    have hone := FlatJson.ofUnit_toNat c
    cases cs with
    | nil => simp [FlatJson.joinUnits, hone]
    | cons d cs =>
      have hlow : ¬ ((0xd800 ≤ c.toNat ∧ c.toNat ≤ 0xdbff) ∧ 0xdc00 ≤ d.toNat ∧
          d.toNat ≤ 0xdfff) := by
        have hc : c.toNat.isValidChar := c.valid
        intro h
        rcases hc with hlt | hgt <;> omega
      rw [List.map_cons, List.map_cons, FlatJson.joinUnits, if_neg hlow, hone]
      rw [List.map_cons] at ih
      simp [ih]

theorem scanString_bodyText (s : String) (rest : List Char) :
    scanString (bodyText st s ++ rest) = some (s, rest) := by
  unfold bodyText
  split
  · exact FlatJson.scanString_stringBody s rest
  · have hscan := scanUnits_raw s.toList rest
    have hjoin := joinUnits_toNat s.toList
    rw [List.append_assoc, List.singleton_append, scanString, hscan]
    simp [hjoin]

theorem scanScalar_scalarText (v : Scalar) (rest : List Char) (h : Stops rest) :
    scanScalar (scalarText st v ++ rest) = some (v, rest) := by
  cases v with
  | str s =>
    have hscan := scanString_bodyText st s rest
    rw [scalarText, List.cons_append, scanScalar, hscan, Option.map_some]
  | null => exact FlatJson.scanScalar_scalarText .null rest h
  | bool b => exact FlatJson.scanScalar_scalarText (.bool b) rest h
  | int i => exact FlatJson.scanScalar_scalarText (.int i) rest h

/-- The first characters a value may have. -/
def Opens (c : Char) : Prop := c ∉ [' ', '\t', '\n', '\r', ']', '}', ',', ':']

instance (c : Char) : Decidable (Opens c) :=
  inferInstanceAs (Decidable (c ∉ [' ', '\t', '\n', '\r', ']', '}', ',', ':']))

theorem scalarText_opens (v : Scalar) :
    ∃ c cs, scalarText st v = c :: cs ∧ Opens c ∧ c ≠ '[' ∧ c ≠ '{' := by
  cases v with
  | null => exact ⟨'n', _, rfl, by decide, by decide, by decide⟩
  | bool b =>
    cases b
    · exact ⟨'f', _, rfl, by decide, by decide, by decide⟩
    · exact ⟨'t', _, rfl, by decide, by decide, by decide⟩
  | str s => exact ⟨'"', _, rfl, by decide, by decide, by decide⟩
  | int i =>
    rw [scalarText, FlatJson.scalarText, intText]
    · split
      · exact ⟨'-', _, rfl, by decide, by decide, by decide⟩
      · obtain ⟨d, ds, hd, hdigit⟩ := FlatJson.toDigits_cons i.natAbs
        refine ⟨d, ds, hd, ?_, ?_, ?_⟩
        · intro hmem
          simp only [List.mem_cons, List.not_mem_nil, or_false] at hmem
          rcases hmem with rfl | rfl | rfl | rfl | rfl | rfl | rfl | rfl <;> cases hdigit
        · rintro rfl
          cases hdigit
        · rintro rfl
          cases hdigit
    · intro s h
      cases h

theorem valueText_opens (v : Json) : ∃ c cs, valueText st v = c :: cs ∧ Opens c := by
  cases v with
  | scalar v =>
    obtain ⟨c, cs, htext, hopens, -⟩ := scalarText_opens st v
    exact ⟨c, cs, htext, hopens⟩
  | arr items => exact ⟨'[', _, rfl, by decide⟩
  | obj members => exact ⟨'{', _, rfl, by decide⟩

theorem Opens.skipSpace {c : Char} (h : Opens c) (rest : List Char) :
    FlatJson.skipSpace (c :: rest) = c :: rest := by
  apply FlatJson.skipSpace_cons
  intro hmem
  apply h
  simp only [List.mem_cons, List.not_mem_nil, or_false] at hmem ⊢
  tauto

theorem skipSpace_pad (text : List Char) : skipSpace (st.pad ++ text) = skipSpace text := by
  unfold Style.pad
  split <;> rfl

theorem skipSpace_valueText (v : Json) (rest : List Char) :
    skipSpace (valueText st v ++ rest) = valueText st v ++ rest := by
  obtain ⟨c, cs, htext, hopens⟩ := valueText_opens st v
  rw [htext, List.cons_append, hopens.skipSpace]

theorem itemsText_cons (v w : Json) (vs : List Json) :
    itemsText st (v :: w :: vs) = valueText st v ++ ',' :: (st.pad ++ itemsText st (w :: vs)) := rfl

theorem itemsText_opens (v : Json) (vs : List Json) :
    ∃ c cs, itemsText st (v :: vs) = c :: cs ∧ Opens c := by
  obtain ⟨c, cs, htext, hopens⟩ := valueText_opens st v
  cases vs with
  | nil => exact ⟨c, cs ++ [']'], by rw [itemsText, htext, List.cons_append], hopens⟩
  | cons w vs =>
    exact ⟨c, cs ++ ',' :: (st.pad ++ itemsText st (w :: vs)),
      by rw [itemsText_cons, htext, List.cons_append], hopens⟩

theorem membersText_cons (key : String) (v : Json) (es : List (String × Json)) :
    membersText st ((key, v) :: es) = '"' :: (bodyText st key ++ ':' :: (st.pad ++
      (valueText st v ++ match es with
        | [] => ['}']
        | e :: es => ',' :: (st.pad ++ membersText st (e :: es))))) := by
  cases es <;> rfl

/-- The reader finds a scalar where one was written. -/
theorem scanValue_scalar (v : Scalar) (bound : Nat) (rest : List Char) (h : Stops rest) :
    scanValue (bound + 1) (scalarText st v ++ rest) = some (.scalar v, rest) := by
  have hscan := scanScalar_scalarText st v rest h
  obtain ⟨c, cs, htext, -, harr, hobj⟩ := scalarText_opens st v
  rw [htext, List.cons_append] at hscan ⊢
  rw [scanValue.eq_4 _ _ (fun _ he => harr (List.cons.inj he).1)
    (fun _ he => hobj (List.cons.inj he).1), hscan]
  rfl

/-- One item and what comes after it. -/
theorem scanItems_valueText (v : Json) (bound : Nat) (rest : List Char)
    (hv : scanValue bound (valueText st v ++ rest) = some (v, rest)) :
    scanItems (bound + 1) (valueText st v ++ rest) =
      match skipSpace rest with
      | ',' :: text => do
        let (vs, left) ← scanItems bound (skipSpace text)
        some (v :: vs, left)
      | ']' :: left => some ([v], left)
      | _ => none := by
  simp only [scanItems, hv, Option.bind_eq_bind, Option.bind_some]

/-- One member and what comes after it. -/
theorem scanMembers_member (key : String) (v : Json) (bound : Nat) (rest : List Char)
    (hv : scanValue bound (valueText st v ++ rest) = some (v, rest)) :
    scanMembers (bound + 1)
        ('"' :: (bodyText st key ++ ':' :: (st.pad ++ (valueText st v ++ rest)))) =
      match skipSpace rest with
      | ',' :: text => do
        let (es, left) ← scanMembers bound (skipSpace text)
        some ((key, v) :: es, left)
      | '}' :: left => some ([(key, v)], left)
      | _ => none := by
  have hkey := scanString_bodyText st key (':' :: (st.pad ++ (valueText st v ++ rest)))
  have hcolon : skipSpace (':' :: (st.pad ++ (valueText st v ++ rest))) =
      ':' :: (st.pad ++ (valueText st v ++ rest)) := FlatJson.skipSpace_cons ':' _ (by decide)
  have hspace : skipSpace (st.pad ++ (valueText st v ++ rest)) = valueText st v ++ rest := by
    rw [skipSpace_pad, skipSpace_valueText]
  simp only [scanMembers, hkey, Option.bind_eq_bind, Option.bind_some, hcolon, hspace, hv]

mutual

theorem scanValue_valueText (v : Json) (hd : v.Distinct) (bound : Nat) (hb : calls v ≤ bound)
    (rest : List Char) (h : Stops rest) :
    scanValue bound (valueText st v ++ rest) = some (v, rest) := by
  cases bound with
  | zero => cases v <;> cases hb
  | succ bound =>
    cases v with
    | scalar v => exact scanValue_scalar st v bound rest h
    | arr items =>
      cases items with
      | nil => rfl
      | cons v vs =>
        have hitems := scanItems_itemsText (v :: vs) (List.cons_ne_nil v vs) hd bound
          (Nat.le_of_succ_le_succ hb) rest
        obtain ⟨c, cs, htext, hopens⟩ := itemsText_opens st v vs
        rw [valueText, List.cons_append, scanValue]
        rw [htext, List.cons_append] at hitems ⊢
        rw [hopens.skipSpace]
        split
        · rename_i heq
          rw [(List.cons.inj heq).1] at hopens
          exact absurd hopens (by decide)
        · rw [hitems]
          rfl
    | obj members =>
      cases members with
      | nil => rfl
      | cons e es =>
        obtain ⟨hkeys, hvalues⟩ := hd
        have hmembers := scanMembers_membersText (e :: es) (List.cons_ne_nil e es) hvalues bound
          (Nat.le_of_succ_le_succ hb) rest
        have hentries := Dict.entries_ofList (e :: es) hkeys
        obtain ⟨key, v⟩ := e
        have hquote : skipSpace (membersText st ((key, v) :: es) ++ rest) =
            membersText st ((key, v) :: es) ++ rest := by
          rw [membersText_cons, List.cons_append, FlatJson.skipSpace_cons '"' _ (by decide)]
        rw [valueText, List.cons_append, scanValue, hquote]
        split
        · rename_i heq
          rw [membersText_cons, List.cons_append] at heq
          exact absurd (List.cons.inj heq).1 (by decide)
        · rw [hmembers, Option.map_some, hentries]

theorem scanItems_itemsText (vs : List Json) (hne : vs ≠ []) (hd : DistinctItems vs) (bound : Nat)
    (hb : callsItems vs ≤ bound) (left : List Char) :
    scanItems bound (itemsText st vs ++ left) = some (vs, left) := by
  match vs, bound with
  | [], _ => exact absurd rfl hne
  | _ :: _, 0 => cases hb
  | [v], bound + 1 =>
    have hcalls : calls v ≤ bound := by
      simp only [callsItems] at hb
      omega
    have hv := scanValue_valueText v hd.1 bound hcalls (']' :: left)
      (FlatJson.stops_cons ']' left rfl)
    have hbracket : skipSpace (']' :: left) = ']' :: left :=
      FlatJson.skipSpace_cons ']' left (by decide)
    rw [itemsText, List.append_assoc, List.singleton_append, scanItems_valueText st v bound _ hv,
      hbracket]
    rfl
  | v :: w :: vs, bound + 1 =>
    have hcalls : calls v ≤ bound ∧ callsItems (w :: vs) ≤ bound := by
      simp only [callsItems] at hb ⊢
      omega
    have hv := scanValue_valueText v hd.1 bound hcalls.1
      (',' :: (st.pad ++ (itemsText st (w :: vs) ++ left))) (FlatJson.stops_cons ',' _ rfl)
    have hvs := scanItems_itemsText (w :: vs) (List.cons_ne_nil w vs) hd.2 bound hcalls.2 left
    have hcomma : skipSpace (',' :: (st.pad ++ (itemsText st (w :: vs) ++ left))) =
        ',' :: (st.pad ++ (itemsText st (w :: vs) ++ left)) :=
      FlatJson.skipSpace_cons ',' _ (by decide)
    have hspace : skipSpace (st.pad ++ (itemsText st (w :: vs) ++ left)) =
        itemsText st (w :: vs) ++ left := by
      obtain ⟨c, cs, htext, hopens⟩ := itemsText_opens st w vs
      rw [skipSpace_pad, htext, List.cons_append, hopens.skipSpace]
    rw [itemsText_cons, List.append_assoc, List.cons_append, List.append_assoc,
      scanItems_valueText st v bound _ hv, hcomma]
    simp only [hspace, hvs, Option.bind_eq_bind, Option.bind_some]

theorem scanMembers_membersText (es : List (String × Json)) (hne : es ≠ [])
    (hd : DistinctMembers es) (bound : Nat) (hb : callsMembers es ≤ bound) (left : List Char) :
    scanMembers bound (membersText st es ++ left) = some (es, left) := by
  match es, bound with
  | [], _ => exact absurd rfl hne
  | _ :: _, 0 => cases hb
  | [(key, v)], bound + 1 =>
    have hcalls : calls v ≤ bound := by
      simp only [callsMembers] at hb
      omega
    have hv := scanValue_valueText v hd.1 bound hcalls ('}' :: left)
      (FlatJson.stops_cons '}' left rfl)
    have hbrace : skipSpace ('}' :: left) = '}' :: left :=
      FlatJson.skipSpace_cons '}' left (by decide)
    have hmember := scanMembers_member st key v bound ('}' :: left) hv
    rw [hbrace] at hmember
    simpa [membersText] using hmember
  | (key, v) :: e :: es, bound + 1 =>
    have hcalls : calls v ≤ bound ∧ callsMembers (e :: es) ≤ bound := by
      simp only [callsMembers] at hb ⊢
      omega
    have hv := scanValue_valueText v hd.1 bound hcalls.1
      (',' :: (st.pad ++ (membersText st (e :: es) ++ left))) (FlatJson.stops_cons ',' _ rfl)
    have hes := scanMembers_membersText (e :: es) (List.cons_ne_nil e es) hd.2 bound hcalls.2 left
    have hcomma : skipSpace (',' :: (st.pad ++ (membersText st (e :: es) ++ left))) =
        ',' :: (st.pad ++ (membersText st (e :: es) ++ left)) :=
      FlatJson.skipSpace_cons ',' _ (by decide)
    have hspace : skipSpace (st.pad ++ (membersText st (e :: es) ++ left)) =
        membersText st (e :: es) ++ left := by
      rw [skipSpace_pad, membersText_cons, List.cons_append,
        FlatJson.skipSpace_cons '"' _ (by decide)]
    have hmember := scanMembers_member st key v bound _ hv
    rw [hcomma] at hmember
    simp only [hspace, hes, Option.bind_eq_bind, Option.bind_some] at hmember
    simpa [membersText] using hmember

end

mutual

theorem calls_le_valueText (v : Json) : calls v ≤ (valueText st v).length := by
  cases v with
  | scalar v =>
    obtain ⟨c, cs, htext, -⟩ := scalarText_opens st v
    simp [calls, valueText, htext]
  | arr items =>
    have hitems := calls_le_itemsText items
    simpa [calls, valueText] using hitems
  | obj members =>
    have hmembers := calls_le_membersText members
    simpa [calls, valueText] using hmembers

theorem calls_le_itemsText (vs : List Json) : callsItems vs ≤ (itemsText st vs).length := by
  match vs with
  | [] => simp [callsItems]
  | [v] =>
    have hv := calls_le_valueText v
    simp only [callsItems, itemsText, List.length_append, List.length_singleton]
    omega
  | v :: w :: vs =>
    have hv := calls_le_valueText v
    have hvs := calls_le_itemsText (w :: vs)
    rw [callsItems, itemsText_cons]
    simp only [List.length_append, List.length_cons]
    omega

theorem calls_le_membersText (es : List (String × Json)) :
    callsMembers es ≤ (membersText st es).length := by
  match es with
  | [] => simp [callsMembers]
  | [(key, v)] =>
    have hv := calls_le_valueText v
    simp only [callsMembers, membersText, List.length_append, List.length_cons, List.length_nil]
    omega
  | (key, v) :: e :: es =>
    have hv := calls_le_valueText v
    have hes := calls_le_membersText (e :: es)
    rw [callsMembers, membersText]
    simp only [List.length_append, List.length_cons]
    omega

end

/-- Whatever a value is written as reads back as that value, in either style. -/
theorem loads_dumps (v : Json) (hd : v.Distinct) : loads (dumps st v) = some v := by
  have hskip := skipSpace_valueText st v []
  have hcalls := calls_le_valueText st v
  have hscan := scanValue_valueText st v hd _ hcalls [] (fun c hc => by cases hc)
  rw [List.append_nil] at hskip hscan
  have hempty : skipSpace [] = [] := rfl
  rw [loads, dumps, String.toList_ofList, hskip, hscan]
  simp [hempty]

end Json

/-! ## Objects of scalars -/

namespace FlatJson

def toJson (d : Dict String Scalar) : Json := .obj (d.entries.map fun e => (e.1, .scalar e.2))

/-- `json.dumps(d)`. -/
def dumps (d : Dict String Scalar) : String := Json.dumps .python (toJson d)

def scalarMember : String × Json → Option (String × Scalar)
  | (key, .scalar v) => some (key, v)
  | _ => none

/-- `json.loads` of a text that is an object of scalars. -/
def loads (text : String) : Option (Dict String Scalar) :=
  match Json.loads text with
  | some (.obj members) => (members.mapM scalarMember).map Dict.ofList
  | _ => none

theorem distinctMembers_scalars (es : List (String × Scalar)) :
    Json.DistinctMembers (es.map fun e => (e.1, Json.scalar e.2)) := by
  induction es with
  | nil => trivial
  | cons e es ih => exact ⟨trivial, ih⟩

theorem mapM_scalarMember (es : List (String × Scalar)) :
    (es.map fun e => (e.1, Json.scalar e.2)).mapM scalarMember = some es := by
  induction es with
  | nil => rfl
  | cons e es ih =>
    rw [List.map_cons, List.mapM_cons, ih]
    rfl

/-- Whatever a dict of scalars is written as reads back as that dict, in the same order. -/
theorem loads_dumps (d : Dict String Scalar) : loads (dumps d) = some d := by
  have hkeys : ((d.entries.map fun e => (e.1, Json.scalar e.2)).map Prod.fst).Nodup := by
    rw [List.map_map]
    exact d.nodup
  have hloads := Json.loads_dumps .python (toJson d) ⟨hkeys, distinctMembers_scalars d.entries⟩
  have hdict : Dict.ofList d.entries = d := Dict.ext (Dict.entries_ofList d.entries d.nodup)
  rw [loads, dumps, hloads, toJson]
  dsimp only
  rw [mapM_scalarMember, Option.map_some, hdict]

end FlatJson

end DataBridge

import DataBridge.Framework.Dict
import DataBridge.Framework.QueryString
import DataBridge.Framework.SplitUrl

namespace DataBridge

open PyUrl (Param SeparatedParam UrlText Tables parseQsl urlencode unquoteParam quoteParam
  writeQuery)

/-- `url.replace(old, new, 1) if url.startswith(old) else url`. -/
def replacePrefix (old new url : String) : String :=
  if old.toList.isPrefixOf url.toList then PyText.replace old new (some 1) url else url

theorem replacePrefix_append {old : String} (hold : old.toList ≠ []) {new : String}
    {rest : List Char} :
    replacePrefix old new (String.ofList (old.toList ++ rest)) =
      String.ofList (new.toList ++ rest) := by
  have hprefix : old.toList.isPrefixOf (String.ofList (old.toList ++ rest)).toList = true := by
    rw [String.toList_ofList]
    exact List.isPrefixOf_iff_prefix.mpr (List.prefix_append _ _)
  rw [replacePrefix, if_pos hprefix, PyText.replace_prefix_once hold]

/-- A text that starts another way is left as it is. -/
theorem replacePrefix_of_not {old new : String} {start rest : List Char}
    (hlength : old.toList.length ≤ start.length) (hstart : ¬ old.toList <+: start) :
    replacePrefix old new (String.ofList (start ++ rest)) = String.ofList (start ++ rest) := by
  have hprefix : ¬ old.toList.isPrefixOf (String.ofList (start ++ rest)).toList = true := by
    rw [String.toList_ofList, List.isPrefixOf_iff_prefix]
    intro h
    exact hstart (List.prefix_of_prefix_length_le h (List.prefix_append start rest) hlength)
  rw [replacePrefix, if_neg hprefix]

/-- The parameters of `_LIBPQ_ONLY_PARAMS`. -/
def libpqOnlyParams : List (List Char) := ["sslmode".toList, "channel_binding".toList]

/-- The values of `sslmode` that require TLS. -/
def tlsModes : List (List Char) := ["require".toList, "verify-ca".toList, "verify-full".toList]

def requiresSsl (params : List Param) : Bool :=
  params.any fun p => p.1 = "sslmode".toList ∧ p.2 ∈ tlsModes

def keptParams (params : List Param) : List Param := params.filter fun p => p.1 ∉ libpqOnlyParams

def connectArgs (params : List Param) : Dict String Bool :=
  if requiresSsl params then Dict.empty.set "ssl" true else Dict.empty

def buildAsyncUrl (t : Tables) (url : String) : Except String (String × Dict String Bool) := do
  let url := replacePrefix "postgres://" "postgresql://" url
  let url := replacePrefix "postgresql://" "postgresql+asyncpg://" url
  let parts ← PyUrl.urlsplit t url
  let params := parseQsl parts.query
  let cleanUrl := PyUrl.urlunsplit { parts with query := urlencode (keptParams params) }
  .ok (cleanUrl, connectArgs params)

/-! ## PostgreSQL URLs -/

inductive PgScheme where
  | postgres
  | postgresql
  | asyncpg
  deriving DecidableEq, Repr

def PgScheme.text : PgScheme → List Char
  | .postgres => "postgres".toList
  | .postgresql => "postgresql".toList
  | .asyncpg => "postgresql+asyncpg".toList

structure PgUrlText where
  scheme : PgScheme
  authority : List Char
  path : List Char
  query : Option (List Param) := none
  fragment : Option (List Char) := none
  deriving DecidableEq, Repr

def PgUrlText.toUrlText (u : PgUrlText) : UrlText where
  scheme := u.scheme.text
  authority := u.authority
  path := u.path
  query := u.query.map writeQuery
  fragment := u.fragment

/-- A PostgreSQL URL: its query is a list of pairs, as they are written. -/
structure PgUrl extends PgUrlText where
  wellFormed : toPgUrlText.toUrlText.WellFormed
  separated : ∀ p ∈ query.getD [], SeparatedParam p

namespace PgUrl

def text (u : PgUrl) : String := String.ofList u.toUrlText.text

/-- The query parameters, decoded. -/
def params (u : PgUrl) : List Param := (u.query.getD []).map unquoteParam

/-- The parameters that `parse_qsl` gives. -/
def valued (u : PgUrl) : List Param :=
  ((u.query.getD []).filter fun p => p.2 ≠ []).map unquoteParam

/-- The parameters that are written again. -/
def kept (u : PgUrl) : List Param := keptParams u.valued

/-- The parts that are put together. -/
def keptParts (u : PgUrl) : PyUrl.SplitResult where
  scheme := PgScheme.asyncpg.text
  netloc := u.authority
  path := u.path
  query := urlencode u.kept
  fragment := u.fragment.getD []

theorem kept_value_ne_nil {u : PgUrl} : ∀ p ∈ u.kept, p.2 ≠ [] := by
  intro p hp
  obtain ⟨q, hq, rfl⟩ := List.mem_map.mp (List.mem_filter.mp hp).1
  exact PyUrl.unquotePlus_ne_nil (of_decide_eq_true (List.mem_filter.mp hq).2)

/-- What `build_async_url` is to give for a URL. -/
structure Normalises (t : Tables) (url : PgUrl) (u : String) (args : Dict String Bool) : Prop where
  parts : ∃ out : PgUrl, out.text = u ∧ out.scheme = .asyncpg ∧ out.authority = url.authority ∧
    out.path = url.path ∧ out.fragment.getD [] = url.fragment.getD [] ∧
    out.params = url.params.filter fun p => p.1 ∉ libpqOnlyParams
  tls : args.get? "ssl" = some true ↔ ∃ p ∈ url.params, p.1 = "sslmode".toList ∧ p.2 ∈ tlsModes
  again : ∃ args', buildAsyncUrl t u = .ok (u, args')

/-- The URL with the scheme of the driver, and perhaps another query and fragment. -/
def asyncpgText (u : PgUrl) (query fragment : Option (List Char)) : UrlText where
  scheme := PgScheme.asyncpg.text
  authority := u.authority
  path := u.path
  query := query
  fragment := fragment

theorem wellFormed_asyncpgText (u : PgUrl) {query fragment : Option (List Char)}
    (hquery : ∀ text, query = some text → '#' ∉ text)
    (hvisible : ∀ c ∈ query.getD [], c ≠ '\t' ∧ c ≠ '\r' ∧ c ≠ '\n')
    (hfragment : fragment.getD [] = u.fragment.getD []) :
    (u.asyncpgText query fragment).WellFormed := by
  have hscheme : (PgScheme.asyncpg.text.head?.any Char.isAlpha) = true ∧
      PgScheme.asyncpg.text.all PyUrl.isSchemeChar = true ∧
      PgScheme.asyncpg.text.map Char.toLower = PgScheme.asyncpg.text := by decide
  have hschemeVisible : ∀ c ∈ PgScheme.asyncpg.text, c ≠ '\t' ∧ c ≠ '\r' ∧ c ≠ '\n' :=
    PyText.forall_mem_of_all (by decide)
  obtain ⟨-, hauthority, hpath, -, hold⟩ := UrlText.clean_iff.mp u.wellFormed.clean
  refine ⟨hscheme, u.wellFormed.authority, u.wellFormed.path, hquery, ?_⟩
  refine UrlText.clean_iff.mpr ⟨hschemeVisible, hauthority, hpath, hvisible, ?_⟩
  intro c hc
  exact hold c (hfragment ▸ hc)

/-- The two rewrites leave the scheme of the driver in front of the same rest. -/
theorem rewrite_text (u : PgUrl) :
    replacePrefix "postgresql://" "postgresql+asyncpg://"
        (replacePrefix "postgres://" "postgresql://" u.text) =
      String.ofList (u.asyncpgText (u.query.map writeQuery) u.fragment).text := by
  have hrest : (u.asyncpgText (u.query.map writeQuery) u.fragment).tail = u.toUrlText.tail := rfl
  rw [text, UrlText.text_eq, UrlText.text_eq, hrest]
  change replacePrefix _ _ (replacePrefix _ _ (String.ofList
    ((u.scheme.text ++ _) ++ (u.authority ++ _)))) =
      String.ofList ((PgScheme.asyncpg.text ++ _) ++ (u.authority ++ _))
  generalize u.authority ++ u.toUrlText.tail = rest
  have hpostgres : PgScheme.postgres.text ++ "://".toList = "postgres://".toList := by decide
  have hpostgresql : PgScheme.postgresql.text ++ "://".toList = "postgresql://".toList := by decide
  have hasyncpg : PgScheme.asyncpg.text ++ "://".toList = "postgresql+asyncpg://".toList := by
    decide
  rw [hasyncpg]
  cases u.scheme with
  | postgres =>
    rw [hpostgres, replacePrefix_append (by decide), replacePrefix_append (by decide)]
  | postgresql =>
    rw [hpostgresql, replacePrefix_of_not (by decide) (by decide),
      replacePrefix_append (by decide)]
  | asyncpg =>
    rw [hasyncpg, replacePrefix_of_not (by decide) (by decide),
      replacePrefix_of_not (by decide) (by decide)]

theorem parseQsl_text (u : PgUrl) :
    parseQsl ((u.query.map writeQuery).getD []) = u.valued := by
  unfold valued
  have hseparated := u.separated
  cases hquery : u.query with
  | none => rfl
  | some params =>
    rw [hquery] at hseparated
    exact PyUrl.parseQsl_writeQuery hseparated

/-- `build_async_url` splits the URL and puts it together again with the parameters it keeps. -/
theorem build_text (t : Tables) (u : PgUrl) :
    buildAsyncUrl t u.text = (do
      PyUrl.checkBrackets t u.authority
      PyUrl.checkNetloc t u.authority
      .ok (PyUrl.urlunsplit u.keptParts, connectArgs u.valued)) := by
  have hvisible : ∀ c ∈ (u.query.map writeQuery).getD [], c ≠ '\t' ∧ c ≠ '\r' ∧ c ≠ '\n' :=
    (UrlText.clean_iff.mp u.wellFormed.clean).2.2.2.1
  have hwellFormed : (u.asyncpgText (u.query.map writeQuery) u.fragment).WellFormed :=
    u.wellFormed_asyncpgText u.wellFormed.query hvisible rfl
  have hsplit := UrlText.urlsplit_text t hwellFormed
  unfold buildAsyncUrl
  simp only [u.rewrite_text, hsplit]
  cases hbrackets : PyUrl.checkBrackets t u.authority with
  | error e => simp only [asyncpgText, hbrackets, bind, Except.bind]
  | ok _ =>
    cases hnetloc : PyUrl.checkNetloc t u.authority with
    | error e => simp only [asyncpgText, hbrackets, hnetloc, bind, Except.bind]
    | ok _ =>
      simp only [asyncpgText, hbrackets, hnetloc, bind, Except.bind, parseQsl_text, keptParts, kept]

theorem build_ok_iff (t : Tables) (u : PgUrl) (r : String × Dict String Bool) :
    buildAsyncUrl t u.text = .ok r ↔
      PyUrl.ReadableNetloc t u.authority ∧
        (PyUrl.urlunsplit u.keptParts, connectArgs u.valued) = r := by
  rw [build_text, PyUrl.readableNetloc_iff]
  constructor
  · intro h
    obtain ⟨_, hbrackets, hrest⟩ := ExceptList.bind_ok_iff.mp h
    obtain ⟨_, hnormalized, hr⟩ := ExceptList.bind_ok_iff.mp hrest
    exact ⟨⟨hbrackets, hnormalized⟩, Except.ok.inj hr⟩
  · rintro ⟨⟨hbrackets, hnormalized⟩, rfl⟩
    rw [hbrackets, hnormalized]
    rfl

/-! ## The URL it is to give -/

/-- The query of the kept parameters, if there are any. -/
def keptQuery (u : PgUrl) : Option (List Param) :=
  if u.kept = [] then none else some (u.kept.map quoteParam)

theorem map_keptQuery (u : PgUrl) :
    u.keptQuery.map writeQuery = UrlText.optional (urlencode u.kept) := by
  unfold keptQuery UrlText.optional urlencode
  by_cases h : u.kept = []
  · rw [if_pos h, h]
    rfl
  · have hne : writeQuery (u.kept.map quoteParam) ≠ [] := by
      rw [Ne, PyUrl.writeQuery_eq_nil_iff, List.map_eq_nil_iff]
      exact h
    rw [if_neg h, if_neg hne]
    rfl

theorem getD_keptQuery (u : PgUrl) : u.keptQuery.getD [] = u.kept.map quoteParam := by
  unfold keptQuery
  by_cases h : u.kept = []
  · rw [if_pos h, h]
    rfl
  · rw [if_neg h]
    rfl

theorem wellFormed_kept (u : PgUrl) :
    (u.asyncpgText (u.keptQuery.map writeQuery)
      (UrlText.optional (u.fragment.getD []))).WellFormed := by
  rw [map_keptQuery]
  apply wellFormed_asyncpgText
  · intro text htext
    have hvalue : text = urlencode u.kept := by
      rw [← UrlText.getD_optional (urlencode u.kept), htext]
      rfl
    rw [hvalue]
    exact PyUrl.notMem_urlencode (by decide) (by decide) (by decide) (by decide) u.kept
  · rw [UrlText.getD_optional]
    intro c hc
    refine ⟨?_, ?_, ?_⟩
    · rintro rfl
      exact PyUrl.notMem_urlencode (by decide) (by decide) (by decide) (by decide) _ hc
    · rintro rfl
      exact PyUrl.notMem_urlencode (by decide) (by decide) (by decide) (by decide) _ hc
    · rintro rfl
      exact PyUrl.notMem_urlencode (by decide) (by decide) (by decide) (by decide) _ hc
  · exact UrlText.getD_optional _

def normalized (u : PgUrl) : PgUrl where
  scheme := .asyncpg
  authority := u.authority
  path := u.path
  query := u.keptQuery
  fragment := UrlText.optional (u.fragment.getD [])
  wellFormed := u.wellFormed_kept
  separated := by
    intro p hp
    rw [getD_keptQuery] at hp
    obtain ⟨q, -, rfl⟩ := List.mem_map.mp hp
    exact PyUrl.separated_quoteParam q

theorem params_normalized (u : PgUrl) : u.normalized.params = u.kept := by
  have hback : unquoteParam ∘ quoteParam = id := funext PyUrl.unquoteParam_quoteParam
  change (u.keptQuery.getD []).map unquoteParam = u.kept
  rw [getD_keptQuery, List.map_map, hback, List.map_id]

/-- What is kept once is kept again. -/
theorem kept_normalized (u : PgUrl) : u.normalized.kept = u.kept := by
  have hquery : (u.normalized.query.map writeQuery).getD [] = urlencode u.kept := by
    change (u.keptQuery.map writeQuery).getD [] = urlencode u.kept
    rw [map_keptQuery, UrlText.getD_optional]
  have hkeep : keptParams u.kept = u.kept := by
    apply List.filter_eq_self.mpr
    intro p hp
    exact (List.mem_filter.mp hp).2
  rw [kept, ← parseQsl_text, hquery, PyUrl.parseQsl_urlencode kept_value_ne_nil, hkeep]

/-- With an authority, or a path that starts with two slashes, the URL is written in full. -/
theorem urlunsplit_kept (u : PgUrl) (h : u.authority ≠ [] ∨ u.path.take 2 = ['/', '/']) :
    PyUrl.urlunsplit u.keptParts = u.normalized.text := by
  have htext : u.normalized.text = String.ofList (u.asyncpgText (u.keptQuery.map writeQuery)
    (UrlText.optional (u.fragment.getD []))).text := rfl
  have hscheme : PgScheme.asyncpg.text ≠ [] := by decide
  rw [UrlText.urlunsplit_text (r := u.keptParts) hscheme u.wellFormed.path.1 h, htext,
    map_keptQuery]
  rfl

theorem keptParts_normalized (u : PgUrl) : u.normalized.keptParts = u.keptParts := by
  have hfragment : u.normalized.fragment.getD [] = u.fragment.getD [] := UrlText.getD_optional _
  rw [keptParts, kept_normalized, hfragment]
  rfl

/-- The normalised URL is normalised already. -/
theorem build_normalized (t : Tables) (u : PgUrl) (hreadable : PyUrl.ReadableNetloc t u.authority)
    (h : u.authority ≠ [] ∨ u.path.take 2 = ['/', '/']) :
    ∃ args, buildAsyncUrl t u.normalized.text = .ok (u.normalized.text, args) := by
  have hagain : PyUrl.urlunsplit u.normalized.keptParts = u.normalized.text := by
    rw [keptParts_normalized, u.urlunsplit_kept h]
  exact ⟨_, (u.normalized.build_ok_iff t _).mpr ⟨hreadable, Prod.ext hagain rfl⟩⟩

/-! ## When it does -/

theorem requiresSsl_iff (params : List Param) :
    (connectArgs params).get? "ssl" = some true ↔
      ∃ p ∈ params, p.1 = "sslmode".toList ∧ p.2 ∈ tlsModes := by
  have hany : requiresSsl params = true ↔
      ∃ p ∈ params, p.1 = "sslmode".toList ∧ p.2 ∈ tlsModes := by
    simp only [requiresSsl, List.any_eq_true, decide_eq_true_eq]
  rw [← hany, connectArgs]
  cases requiresSsl params with
  | true => simp
  | false => simp

/-- A mode that requires TLS is not blank. -/
theorem tls_iff (u : PgUrl) :
    (connectArgs u.valued).get? "ssl" = some true ↔
      ∃ p ∈ u.params, p.1 = "sslmode".toList ∧ p.2 ∈ tlsModes := by
  rw [requiresSsl_iff]
  constructor
  · rintro ⟨p, hp, hmode⟩
    obtain ⟨q, hq, rfl⟩ := List.mem_map.mp hp
    exact ⟨_, List.mem_map_of_mem (List.mem_of_mem_filter hq), hmode⟩
  · rintro ⟨p, hp, hname, hvalue⟩
    obtain ⟨q, hq, rfl⟩ := List.mem_map.mp hp
    have hwritten : q.2 ≠ [] := by
      intro hblank
      have hread : (unquoteParam q).2 = [] := by
        rw [unquoteParam, hblank]
        rfl
      rw [hread] at hvalue
      exact absurd hvalue (by decide)
    refine ⟨_, List.mem_map_of_mem (List.mem_filter.mpr ⟨hq, ?_⟩), hname, hvalue⟩
    exact decide_eq_true hwritten

/-- Nothing is lost where only driver parameters are blank. -/
theorem kept_eq_iff (u : PgUrl) :
    u.kept = u.params.filter (fun p => p.1 ∉ libpqOnlyParams) ↔
      ∀ p ∈ u.query.getD [], p.2 = [] → PyUrl.unquotePlus p.1 ∈ libpqOnlyParams := by
  let written := (u.query.getD []).filter fun p => PyUrl.unquotePlus p.1 ∉ libpqOnlyParams
  have hparams : u.params.filter (fun p => p.1 ∉ libpqOnlyParams) = written.map unquoteParam :=
    List.filter_map
  have hkept : u.kept = (written.filter fun p => p.2 ≠ []).map unquoteParam := by
    rw [kept, keptParams, valued, List.filter_map, List.filter_filter, List.filter_filter]
    congr 1
    apply List.filter_congr
    intro p _
    rw [Bool.and_comm]
    rfl
  rw [hparams, hkept]
  constructor
  · intro heq p hp hblank
    have hlength := congrArg List.length heq
    rw [List.length_map, List.length_map, List.length_filter_eq_length_iff] at hlength
    by_contra hother
    have hmem : p ∈ written := List.mem_filter.mpr ⟨hp, decide_eq_true hother⟩
    exact of_decide_eq_true (hlength p hmem) hblank
  · intro h
    have hall : (written.filter fun p => p.2 ≠ []) = written := by
      apply List.filter_eq_self.mpr
      intro p hp
      have hother := of_decide_eq_true (List.mem_filter.mp hp).2
      exact decide_eq_true fun hblank => hother (h p (List.mem_of_mem_filter hp) hblank)
    rw [hall]

/-- The text of a URL determines its parameters. -/
theorem params_eq_of_text {t : Tables} {u other : PgUrl} (h : u.text = other.text)
    (hreadable : PyUrl.ReadableNetloc t u.authority) (hauthority : other.authority = u.authority) :
    u.params = other.params := by
  have hquery : ∀ v : PgUrl, (v.query.map writeQuery).getD [] = writeQuery (v.query.getD []) := by
    intro v
    cases v.query <;> rfl
  have hother : PyUrl.ReadableNetloc t other.authority := hauthority ▸ hreadable
  have hboth : Except.ok _ = Except.ok _ :=
    (UrlText.urlsplit_readable u.wellFormed hreadable).symm.trans
      ((congrArg (PyUrl.urlsplit t) h).trans (UrlText.urlsplit_readable other.wellFormed hother))
  have hsame : (u.query.map writeQuery).getD [] = (other.query.map writeQuery).getD [] :=
    congrArg PyUrl.SplitResult.query (Except.ok.inj hboth)
  rw [hquery, hquery] at hsame
  rw [params, params, PyUrl.writeQuery_injective u.separated other.separated hsame]

section

variable {t : Tables} {url : PgUrl}

theorem normalises_of_readable (hreadable : PyUrl.ReadableNetloc t url.authority)
    (hwritten : url.authority ≠ [] ∨ url.path.take 2 = ['/', '/'])
    (hblank : ∀ p ∈ url.query.getD [], p.2 = [] → PyUrl.unquotePlus p.1 ∈ libpqOnlyParams) :
    ∃ u args, buildAsyncUrl t url.text = .ok (u, args) ∧ Normalises t url u args := by
  refine ⟨_, _, (url.build_ok_iff t _).mpr ⟨hreadable, rfl⟩, ?_⟩
  rw [url.urlunsplit_kept hwritten]
  refine ⟨⟨url.normalized, rfl, rfl, rfl, rfl, UrlText.getD_optional _, ?_⟩, url.tls_iff,
    url.build_normalized t hreadable hwritten⟩
  rw [params_normalized]
  exact url.kept_eq_iff.mpr hblank

/-- Without an authority there is no `//` in front of the path, and no URL of this kind. -/
theorem written_of_normalises {u : String} {args : Dict String Bool}
    (hok : buildAsyncUrl t url.text = .ok (u, args)) (h : Normalises t url u args) :
    url.authority ≠ [] ∨ url.path.take 2 = ['/', '/'] := by
  obtain ⟨-, hresult⟩ := (url.build_ok_iff t _).mp hok
  obtain ⟨rfl, -⟩ := Prod.mk.inj hresult
  obtain ⟨out, htext, hscheme, -⟩ := h.parts
  have hne : PgScheme.asyncpg.text ≠ [] := by decide
  have huses : String.ofList PgScheme.asyncpg.text ∉ PyUrl.usesNetloc := by decide
  have hsame : out.toUrlText.scheme = PgScheme.asyncpg.text := congrArg PgScheme.text hscheme
  by_contra hnone
  obtain ⟨hempty, hslashes⟩ := not_or.mp hnone
  exact UrlText.urlunsplit_ne_text (r := url.keptParts) hne huses url.wellFormed.path.1
    (not_not.mp hempty) hslashes out.toUrlText hsame htext.symm

theorem blank_of_normalises {u : String} {args : Dict String Bool}
    (hok : buildAsyncUrl t url.text = .ok (u, args)) (h : Normalises t url u args) :
    ∀ p ∈ url.query.getD [], p.2 = [] → PyUrl.unquotePlus p.1 ∈ libpqOnlyParams := by
  have hwritten := written_of_normalises hok h
  obtain ⟨hreadable, hresult⟩ := (url.build_ok_iff t _).mp hok
  obtain ⟨rfl, -⟩ := Prod.mk.inj hresult
  obtain ⟨out, htext, -, hauthority, -, -, hparams⟩ := h.parts
  rw [url.urlunsplit_kept hwritten] at htext
  rw [← kept_eq_iff, ← params_normalized, ← hparams]
  exact params_eq_of_text htext.symm hreadable hauthority

end

/-- `build_async_url` removes only what it says where `urlsplit` reads the authority, `urlunsplit`
writes it again, and no parameter but those of the driver has an empty value. -/
theorem build_normalises_iff (t : Tables) (url : PgUrl) :
    (∃ u args, buildAsyncUrl t url.text = .ok (u, args) ∧ Normalises t url u args) ↔
      PyUrl.ReadableNetloc t url.authority ∧
        (url.authority ≠ [] ∨ url.path.take 2 = ['/', '/']) ∧
        ∀ p ∈ url.query.getD [], p.2 = [] → PyUrl.unquotePlus p.1 ∈ libpqOnlyParams := by
  constructor
  · rintro ⟨u, args, hok, hnormalises⟩
    obtain ⟨hreadable, -⟩ := (url.build_ok_iff t _).mp hok
    exact ⟨hreadable, written_of_normalises hok hnormalises, blank_of_normalises hok hnormalises⟩
  · rintro ⟨hreadable, hwritten, hblank⟩
    exact normalises_of_readable hreadable hwritten hblank

/-- The library where every host is a name and every character is in ASCII. -/
private def asciiTables : Tables where
  ipAddress _ := .error "not an address"
  normalizeNFKC s := s
  lower := PyText.lower
  repr s := s

/-- `postgresql://app:pw@db:5432/main?options=&sslmode=require`. -/
private def blankOptions : PgUrl where
  scheme := .postgresql
  authority := "app:pw@db:5432".toList
  path := "/main".toList
  query := some [("options".toList, []), ("sslmode".toList, "require".toList)]
  wellFormed := by
    refine ⟨by decide, PyText.forall_mem_of_all (by decide), by decide, ?_,
      PyText.forall_mem_of_all (by decide)⟩
    rintro text ⟨⟩
    decide
  separated := by
    intro p hp
    rcases List.mem_cons.mp hp with rfl | hp
    · exact ⟨by decide, by decide⟩
    · rw [List.mem_singleton.mp hp]
      exact ⟨by decide, by decide⟩

/-- A parameter without a value is dropped with those of the driver. -/
theorem blankOptions_dropped :
    buildAsyncUrl asciiTables blankOptions.text =
        .ok ("postgresql+asyncpg://app:pw@db:5432/main", Dict.empty.set "ssl" true) ∧
      ¬ ∃ u args, buildAsyncUrl asciiTables blankOptions.text = .ok (u, args) ∧
        Normalises asciiTables blankOptions u args := by
  refine ⟨by decide +kernel, ?_⟩
  rintro ⟨u, args, hok, hnormalises⟩
  have hlibpq := blank_of_normalises hok hnormalises ("options".toList, []) List.mem_cons_self rfl
  exact absurd hlibpq (by decide +kernel)

end PgUrl

end DataBridge

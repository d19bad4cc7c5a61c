import DataBridge.Framework.ExceptList
import DataBridge.Framework.PyText
import Mathlib.Data.List.TakeWhile

namespace DataBridge.PyUrl

inductive IpVersion where
  | v4
  | v6
  deriving DecidableEq, Repr

/-- What `urllib.parse` takes from `ipaddress`, the Unicode tables and `repr`. An error is the
text of a `ValueError`, here and below. -/
structure Tables where
  ipAddress : String → Except String IpVersion
  normalizeNFKC : String → String
  lower : String → String
  repr : String → String

structure ParseResult where
  scheme : String
  netloc : String
  path : String
  params : String
  query : String
  fragment : String
  deriving DecidableEq, Repr

/-- The first and the last part of `s.partition(c)`. -/
def partition (c : Char) (s : List Char) : List Char × List Char :=
  (s.takeWhile (· ≠ c), (s.dropWhile (· ≠ c)).drop 1)

/-- The first and the last part of `s.rpartition(c)`. -/
def rpartition (c : Char) (s : List Char) : List Char × List Char :=
  (((s.reverse.dropWhile (· ≠ c)).drop 1).reverse, (s.reverse.takeWhile (· ≠ c)).reverse)

theorem partition_of_mem {c : Char} {s : List Char} (h : c ∈ s) :
    s = (partition c s).1 ++ c :: (partition c s).2 := by
  induction s with
  | nil => cases h
  | cons d s ih =>
    by_cases hd : d = c
    · simp [partition, hd]
    · have hmem : c ∈ s := (List.mem_cons.mp h).resolve_left fun heq => hd heq.symm
      simpa [partition, hd] using ih hmem

theorem notMem_partition (c : Char) (s : List Char) : c ∉ (partition c s).1 := by
  intro hmem
  simpa using List.mem_takeWhile_imp hmem

theorem partition_append {c : Char} {s : List Char} (h : c ∉ s) (t : List Char) :
    partition c (s ++ c :: t) = (s, t) := by
  have hall : ∀ d ∈ s, decide (d ≠ c) = true := by
    intro d hd
    exact decide_eq_true fun heq => h (heq ▸ hd)
  unfold partition
  rw [List.takeWhile_append_of_pos hall, List.dropWhile_append_of_pos hall]
  simp

theorem partition_of_notMem {c : Char} {s : List Char} (h : c ∉ s) : partition c s = (s, []) := by
  have hall : ∀ d ∈ s, decide (d ≠ c) = true := by
    intro d hd
    exact decide_eq_true fun heq => h (heq ▸ hd)
  unfold partition
  rw [List.takeWhile_eq_self_iff.mpr hall, List.dropWhile_eq_nil_iff.mpr hall]
  rfl

/-- The last part of one is the first of the other, backwards. -/
theorem rpartition_eq (c : Char) (s : List Char) :
    rpartition c s = ((partition c s.reverse).2.reverse, (partition c s.reverse).1.reverse) := rfl

theorem rpartition_of_mem {c : Char} {s : List Char} (h : c ∈ s) :
    s = (rpartition c s).1 ++ c :: (rpartition c s).2 := by
  have hrev := partition_of_mem (List.mem_reverse.mpr h)
  rw [rpartition_eq]
  simpa using congrArg List.reverse hrev

theorem notMem_rpartition (c : Char) (s : List Char) : c ∉ (rpartition c s).2 := by
  rw [rpartition_eq, List.mem_reverse]
  exact notMem_partition c s.reverse

theorem rpartition_append {c : Char} {t : List Char} (h : c ∉ t) (s : List Char) :
    rpartition c (s ++ c :: t) = (s, t) := by
  have hrev : (s ++ c :: t).reverse = t.reverse ++ c :: s.reverse := by simp
  rw [rpartition_eq, hrev, partition_append (fun hmem => h (List.mem_reverse.mp hmem))]
  simp

def usesParams : List String :=
  ["", "ftp", "hdl", "prospero", "http", "imap", "https", "shttp", "rtsp", "rtsps", "rtspu", "sip",
    "sips", "mms", "sftp", "tel"]

def isSchemeChar (c : Char) : Bool := c.isAlphanum || c = '+' || c = '-' || c = '.'

/-- The URL without leading control characters and spaces, and without tabs and line ends. -/
def clean (url : String) : List Char :=
  (url.toList.dropWhile (·.toNat ≤ 32)).filter fun c => c ≠ '\t' ∧ c ≠ '\r' ∧ c ≠ '\n'

/-- The scheme, and what follows its colon. -/
def splitScheme (url : List Char) : List Char × List Char :=
  let (name, rest) := partition ':' url
  if ':' ∈ url ∧ (name.head?.any Char.isAlpha) ∧ name.all isSchemeChar then
    (name.map Char.toLower, rest)
  else ([], url)

def splitNetloc : List Char → List Char × List Char
  | '/' :: '/' :: rest => rest.span fun c => c ≠ '/' ∧ c ≠ '?' ∧ c ≠ '#'
  | url => ([], url)

/-- The regular expression for a host in brackets that starts with `v`. -/
def isIPvFuture (hostname : List Char) : Bool :=
  let (version, address) := partition '.' (hostname.drop 1)
  hostname.head? = some 'v' ∧ version ≠ [] ∧
    version.all (fun c => c.isDigit || ('a' ≤ c && c ≤ 'f') || ('A' ≤ c && c ≤ 'F')) ∧
    address ≠ [] ∧ '\n' ∉ address

variable (t : Tables)

/-- `_check_bracketed_host`. -/
def checkBracketedHost (hostname : List Char) : Except String Unit :=
  if hostname.head? = some 'v' then
    if isIPvFuture hostname then .ok () else .error "IPvFuture address is invalid"
  else
    match t.ipAddress (String.ofList hostname) with
    | .error e => .error e
    | .ok .v4 => .error "An IPv4 address cannot be in brackets"
    | .ok .v6 => .ok ()

/-- `_check_bracketed_netloc`. -/
def checkBracketedNetloc (netloc : List Char) : Except String Unit :=
  let hostnameAndPort := (rpartition '@' netloc).2
  if '[' ∈ hostnameAndPort then
    let (beforeBracket, bracketed) := partition '[' hostnameAndPort
    let (hostname, port) := partition ']' bracketed
    if beforeBracket ≠ [] then .error "Invalid IPv6 URL"
    else if port ≠ [] ∧ port.head? ≠ some ':' then .error "Invalid IPv6 URL"
    else checkBracketedHost t hostname
  else checkBracketedHost t (partition ':' hostnameAndPort).1

/-- `_checknetloc`. -/
def checkNetloc (netloc : List Char) : Except String Unit :=
  if netloc.all (·.toNat < 128) then .ok ()
  else
    let n := String.ofList (netloc.filter fun c => c ≠ '@' ∧ c ≠ ':' ∧ c ≠ '#' ∧ c ≠ '?')
    let netloc2 := t.normalizeNFKC n
    if n = netloc2 then .ok ()
    else if ['/', '?', '#', '@', ':'].any (netloc2.toList.contains ·) then
      .error s!"netloc '{String.ofList netloc}' contains invalid characters under NFKC normalization"
    else .ok ()

/-- The brackets of the authority, as `urlsplit` checks them. -/
def checkBrackets (netloc : List Char) : Except String Unit :=
  if ('[' ∈ netloc ∧ ']' ∉ netloc) ∨ (']' ∈ netloc ∧ '[' ∉ netloc) then .error "Invalid IPv6 URL"
  else if '[' ∈ netloc ∧ ']' ∈ netloc then checkBracketedNetloc t netloc
  else .ok ()

/-- `_splitparams`: the parameters are those of the last segment. -/
def splitParams (url : List Char) : List Char × List Char :=
  let last := (rpartition '/' url).2
  if ';' ∈ last then
    let (segment, params) := partition ';' last
    (url.take (url.length - last.length) ++ segment, params)
  else (url, [])

/-- The authority of an URL, before any check. -/
def netlocOf (url : String) : List Char := (splitNetloc (splitScheme (clean url)).2).1

/-- `urlparse(url)`. -/
def urlparse (url : String) : Except String ParseResult := do
  let (scheme, rest) := splitScheme (clean url)
  let (netloc, rest) := splitNetloc rest
  checkBrackets t netloc
  let (rest, fragment) := partition '#' rest
  let (rest, query) := partition '?' rest
  checkNetloc t netloc
  let (path, params) :=
    if String.ofList scheme ∈ usesParams ∧ ';' ∈ rest then splitParams rest else (rest, [])
  .ok ⟨String.ofList scheme, String.ofList netloc, String.ofList path, String.ofList params,
    String.ofList query, String.ofList fragment⟩

namespace ParseResult

/-- `_userinfo`. -/
def userinfo (r : ParseResult) : Option String × Option String :=
  let netloc := r.netloc.toList
  if '@' ∈ netloc then
    let info := (rpartition '@' netloc).1
    let (username, password) := partition ':' info
    (some (String.ofList username), if ':' ∈ info then some (String.ofList password) else none)
  else (none, none)

def username (r : ParseResult) : Option String := r.userinfo.1

def password (r : ParseResult) : Option String := r.userinfo.2

end ParseResult

/-- `_hostinfo`, of an authority; the port is empty when there is none. -/
def hostinfo (netloc : List Char) : List Char × List Char :=
  let info := (rpartition '@' netloc).2
  if '[' ∈ info then
    let (hostname, rest) := partition ']' (partition '[' info).2
    (hostname, (partition ':' rest).2)
  else partition ':' info

/-- The longest text of digits that `int` reads. -/
def maxIntDigits : Nat := 4300

/-- The number of a port that is not empty. -/
def readPort (port : List Char) : Except String Nat :=
  if port.all Char.isDigit then
    if port.length > maxIntDigits then
      .error (s!"Exceeds the limit (4300 digits) for integer string conversion: value has " ++
        s!"{port.length} digits; use sys.set_int_max_str_digits() to increase the limit")
    else if Nat.ofDigitChars 10 port 0 ≤ 65535 then .ok (Nat.ofDigitChars 10 port 0)
    else .error "Port out of range 0-65535"
  else .error s!"Port could not be cast to integer value as {t.repr (String.ofList port)}"

namespace ParseResult

/-- The host is in lower case, but for the zone of an IPv6 address. -/
def hostname (r : ParseResult) : Option String :=
  let (name, _) := hostinfo r.netloc.toList
  if name = [] then none
  else
    let (address, zone) := partition '%' name
    some (t.lower (String.ofList address) ++
      String.ofList (if '%' ∈ name then '%' :: zone else []))

def port (r : ParseResult) : Except String (Option Nat) :=
  let (_, port) := hostinfo r.netloc.toList
  if port = [] then .ok none else (readPort t port).map some

end ParseResult

/-! ## What is parsed -/

/-- An IPv6 address, or an address of a later version. -/
def BracketedHost (hostname : List Char) : Prop :=
  isIPvFuture hostname = true ∨
    hostname.head? ≠ some 'v' ∧ t.ipAddress (String.ofList hostname) = .ok .v6

/-- Nothing but a port stands beside the brackets, and the host is one that takes brackets. -/
structure BracketedNetloc (netloc : List Char) : Prop where
  before : '[' ∈ (rpartition '@' netloc).2 → (partition '[' (rpartition '@' netloc).2).1 = []
  after : '[' ∈ (rpartition '@' netloc).2 →
    let rest := (partition ']' (partition '[' (rpartition '@' netloc).2).2).2
    rest = [] ∨ rest.head? = some ':'
  host : BracketedHost t (hostinfo netloc).1

/-- Normalising does not bring a delimiter to light. -/
def NormalizedNetloc (netloc : List Char) : Prop :=
  let n := String.ofList (netloc.filter fun c => c ≠ '@' ∧ c ≠ ':' ∧ c ≠ '#' ∧ c ≠ '?')
  (∀ c ∈ netloc, c.toNat < 128) ∨ t.normalizeNFKC n = n ∨
    ∀ c ∈ ['/', '?', '#', '@', ':'], c ∉ (t.normalizeNFKC n).toList

/-- The authorities that `urlparse` lets pass. -/
structure ReadableNetloc (netloc : List Char) : Prop where
  balanced : '[' ∈ netloc ↔ ']' ∈ netloc
  bracketed : '[' ∈ netloc → BracketedNetloc t netloc
  normalized : NormalizedNetloc t netloc

/-- The ports that can be read; the empty one stands for none. -/
structure ReadablePort (port : List Char) : Prop where
  digits : ∀ c ∈ port, c.isDigit = true
  short : port.length ≤ maxIntDigits
  inRange : Nat.ofDigitChars 10 port 0 ≤ 65535

theorem isIPvFuture_head {hostname : List Char} (h : isIPvFuture hostname = true) :
    hostname.head? = some 'v' := by
  simp only [isIPvFuture, decide_eq_true_eq] at h
  exact h.1

theorem checkBracketedHost_ok_iff (hostname : List Char) :
    checkBracketedHost t hostname = .ok () ↔ BracketedHost t hostname := by
  unfold checkBracketedHost BracketedHost
  by_cases hv : hostname.head? = some 'v'
  · by_cases hf : isIPvFuture hostname = true
    · simp [hv, hf]
    · simp [hv, hf]
  · have hf : isIPvFuture hostname ≠ true := fun h => hv (isIPvFuture_head h)
    rw [if_neg hv]
    cases hip : t.ipAddress (String.ofList hostname) with
    | error e => simp [hf]
    | ok version => cases version <;> simp [hf, hv]

theorem checkBracketedNetloc_ok_iff (netloc : List Char) :
    checkBracketedNetloc t netloc = .ok () ↔ BracketedNetloc t netloc := by
  by_cases hb : '[' ∈ (rpartition '@' netloc).2
  · have hhost : (hostinfo netloc).1 =
        (partition ']' (partition '[' (rpartition '@' netloc).2).2).1 := by simp [hostinfo, hb]
    have hiff := checkBracketedHost_ok_iff t
      (partition ']' (partition '[' (rpartition '@' netloc).2).2).1
    unfold checkBracketedNetloc
    simp only [if_pos hb]
    by_cases hbefore : (partition '[' (rpartition '@' netloc).2).1 = []
    · rw [if_neg (not_not_intro hbefore)]
      by_cases hafter : (partition ']' (partition '[' (rpartition '@' netloc).2).2).2 = [] ∨
          (partition ']' (partition '[' (rpartition '@' netloc).2).2).2.head? = some ':'
      · rw [if_neg (by tauto), hiff, ← hhost]
        exact ⟨fun h => ⟨fun _ => hbefore, fun _ => hafter, h⟩, fun h => h.host⟩
      · rw [if_pos (by tauto)]
        exact ⟨fun h => (by cases h), fun h => absurd (h.after hb) hafter⟩
    · rw [if_pos hbefore]
      exact ⟨fun h => (by cases h), fun h => absurd (h.before hb) hbefore⟩
  · have hhost : (hostinfo netloc).1 = (partition ':' (rpartition '@' netloc).2).1 := by
      simp [hostinfo, hb]
    have hiff := checkBracketedHost_ok_iff t (partition ':' (rpartition '@' netloc).2).1
    unfold checkBracketedNetloc
    simp only [if_neg hb]
    rw [hiff, ← hhost]
    exact ⟨fun h => ⟨fun hm => absurd hm hb, fun hm => absurd hm hb, h⟩, fun h => h.host⟩

theorem checkBrackets_ok_iff (netloc : List Char) :
    checkBrackets t netloc = .ok () ↔
      ('[' ∈ netloc ↔ ']' ∈ netloc) ∧ ('[' ∈ netloc → BracketedNetloc t netloc) := by
  have hiff := checkBracketedNetloc_ok_iff t netloc
  unfold checkBrackets
  by_cases hopen : '[' ∈ netloc
  · by_cases hclose : ']' ∈ netloc
    · simp [hopen, hclose, hiff]
    · simp [hopen, hclose]
  · by_cases hclose : ']' ∈ netloc
    · simp [hopen, hclose]
    · simp [hopen, hclose]

theorem checkNetloc_ok_iff (netloc : List Char) :
    checkNetloc t netloc = .ok () ↔ NormalizedNetloc t netloc := by
  unfold checkNetloc NormalizedNetloc
  by_cases hascii : ∀ c ∈ netloc, c.toNat < 128
  · have hall : netloc.all (·.toNat < 128) = true := by simpa using hascii
    simp only [if_pos hall]
    exact ⟨fun _ => Or.inl hascii, fun _ => trivial⟩
  · have hall : ¬ netloc.all (·.toNat < 128) = true := by simpa using hascii
    simp only [if_neg hall, hascii, false_or]
    generalize hn : String.ofList (netloc.filter fun c => c ≠ '@' ∧ c ≠ ':' ∧ c ≠ '#' ∧ c ≠ '?') = n
    by_cases hsame : n = t.normalizeNFKC n
    · rw [if_pos hsame]
      exact ⟨fun _ => Or.inl hsame.symm, fun _ => rfl⟩
    · have hne : t.normalizeNFKC n ≠ n := fun h => hsame h.symm
      rw [if_neg hsame]
      by_cases hdelimiter : ['/', '?', '#', '@', ':'].any ((t.normalizeNFKC n).toList.contains ·) = true
      · rw [if_pos hdelimiter]
        obtain ⟨c, hc, hmem⟩ := List.any_eq_true.mp hdelimiter
        refine ⟨fun h => (by cases h), ?_⟩
        intro hcases
        rcases hcases with heq | hall
        · exact absurd heq hne
        · exact absurd (List.contains_iff_mem.mp hmem) (hall c hc)
      · rw [if_neg hdelimiter]
        refine ⟨fun _ => Or.inr fun c hc hmem => hdelimiter ?_, fun _ => rfl⟩
        exact List.any_eq_true.mpr ⟨c, hc, List.contains_iff_mem.mpr hmem⟩

/-- The two checks let exactly these authorities pass. -/
theorem readableNetloc_iff (netloc : List Char) :
    ReadableNetloc t netloc ↔
      checkBrackets t netloc = .ok () ∧ checkNetloc t netloc = .ok () := by
  rw [checkBrackets_ok_iff, checkNetloc_ok_iff]
  constructor
  · intro h
    exact ⟨⟨h.balanced, h.bracketed⟩, h.normalized⟩
  · intro h
    exact ⟨h.1.1, h.1.2, h.2⟩

/-- `urlparse` raises in its two checks only, and keeps the authority as it stands. -/
theorem urlparse_eq (url : String) :
    ∃ r : ParseResult, r.netloc.toList = netlocOf url ∧
      urlparse t url = (do
        checkBrackets t (netlocOf url)
        checkNetloc t (netlocOf url)
        .ok r) := by
  unfold urlparse netlocOf
  rcases splitScheme (clean url) with ⟨scheme, rest⟩
  rcases hn : splitNetloc rest with ⟨netloc, path⟩
  simp only [hn]
  exact ⟨_, String.toList_ofList, rfl⟩

theorem urlparse_ok {url : String} {r : ParseResult} (h : urlparse t url = .ok r) :
    checkBrackets t (netlocOf url) = .ok () ∧ checkNetloc t (netlocOf url) = .ok () ∧
      r.netloc.toList = netlocOf url := by
  obtain ⟨r', hnetloc, heq⟩ := urlparse_eq t url
  rw [heq] at h
  obtain ⟨_, hbrackets, hrest⟩ := ExceptList.bind_ok_iff.mp h
  obtain ⟨_, hnormalized, hr⟩ := ExceptList.bind_ok_iff.mp hrest
  cases hr
  exact ⟨hbrackets, hnormalized, hnetloc⟩

theorem urlparse_ok_iff (url : String) :
    (∃ r, urlparse t url = .ok r) ↔ ReadableNetloc t (netlocOf url) := by
  rw [readableNetloc_iff]
  constructor
  · intro hparts
    obtain ⟨r, hr⟩ := hparts
    obtain ⟨hbrackets, hnormalized, -⟩ := urlparse_ok t hr
    exact ⟨hbrackets, hnormalized⟩
  · rintro ⟨hbrackets, hnormalized⟩
    obtain ⟨r, -, heq⟩ := urlparse_eq t url
    rw [heq, hbrackets, hnormalized]
    exact ⟨r, rfl⟩

theorem readPort_ok_iff (port : List Char) :
    (∃ n, readPort t port = .ok n) ↔ ReadablePort port := by
  unfold readPort
  by_cases hdigits : port.all Char.isDigit = true
  · have hall : ∀ c ∈ port, c.isDigit = true := by simpa using hdigits
    rw [if_pos hdigits]
    by_cases hshort : port.length > maxIntDigits
    · rw [if_pos hshort]
      exact ⟨fun ⟨n, h⟩ => (by cases h), fun h => absurd h.short (Nat.not_le_of_lt hshort)⟩
    · rw [if_neg hshort]
      by_cases hrange : Nat.ofDigitChars 10 port 0 ≤ 65535
      · rw [if_pos hrange]
        exact ⟨fun _ => ⟨hall, Nat.le_of_not_lt hshort, hrange⟩, fun _ => ⟨_, rfl⟩⟩
      · rw [if_neg hrange]
        exact ⟨fun ⟨n, h⟩ => (by cases h), fun h => absurd h.inRange hrange⟩
  · rw [if_neg hdigits]
    refine ⟨fun ⟨n, h⟩ => (by cases h), fun h => absurd ?_ hdigits⟩
    simpa using h.digits

theorem port_ok_iff (r : ParseResult) :
    (∃ p, r.port t = .ok p) ↔ ReadablePort (hostinfo r.netloc.toList).2 := by
  have hread := readPort_ok_iff t (hostinfo r.netloc.toList).2
  unfold ParseResult.port
  simp only
  by_cases hempty : (hostinfo r.netloc.toList).2 = []
  · rw [if_pos hempty, hempty]
    exact ⟨fun _ => ⟨by simp, by simp, by decide⟩, fun _ => ⟨none, rfl⟩⟩
  · rw [if_neg hempty, ← hread]
    cases readPort t (hostinfo r.netloc.toList).2 with
    | error e => exact ⟨fun ⟨p, h⟩ => (by cases h), fun ⟨n, h⟩ => (by cases h)⟩
    | ok n => exact ⟨fun _ => ⟨n, rfl⟩, fun _ => ⟨some n, rfl⟩⟩

end DataBridge.PyUrl

import DataBridge.Framework.StandardUrl
import DataBridge.Services.ConnectionService

namespace DataBridge

open StandardUrl (Written octets HasEscape HostName notMem_toDigits)

/-- The credentials are these five values. -/
structure FiveValues (c : ConnectionCredentials) (type : DatabaseType) (username password host : String)
    (port : Nat) (database : String) : Prop where
  type : c.databaseType = type
  method : c.connectionMethod = .CREDENTIALS
  noUrl : absent c.databaseUrl = true
  username : c.username = some username
  password : c.password = some password
  host : c.host = some host
  port : c.port = some (port : Int)
  database : c.database = some database

namespace PostgresProvider

def dsnScheme : List Char := ['p', 'o', 's', 't', 'g', 'r', 'e', 's', 'q', 'l']

/-- Read as a URL, the DSN stands for the five values and for nothing else. -/
def Decodes (dsn username password host : String) (port : Nat) (database : String) : Prop :=
  StandardUrl.read dsn.toList = some {
    scheme := dsnScheme
    user := some (octets username.toList)
    password := some (octets password.toList)
    host := octets host.toList
    port := some port
    path := octets database.toList
    query := none
    fragment := none }

/-- Texts that need no encoding where the DSN has them. -/
structure PlainInDsn (username password database : String) : Prop where
  noEscape : ¬ HasEscape username.toList ∧ ¬ HasEscape password.toList ∧
    ¬ HasEscape database.toList
  username : ∀ d ∈ [':', '/', '?', '#'], d ∉ username.toList
  password : ∀ d ∈ ['/', '?', '#'], d ∉ password.toList
  database : ∀ d ∈ ['?', '#'], d ∉ database.toList

/-- The components of the DSN. -/
def written (username password host : String) (port : Nat) (database : String) : Written where
  scheme := dsnScheme
  user := username.toList
  password := password.toList
  host := host.toList
  port := Nat.toDigits 10 port
  path := database.toList

theorem toList_dsnOf (username password host : String) (port : Nat) (database : String) :
    (dsnOf (.str username) (.str password) (.str host) (.int port) (.str database)).toList =
      (written username password host port database).text := by
  have hrepr : strOf (.int port) = (port : Int).repr := Int.toString_eq_repr
  have hport : (strOf (.int port)).toList = Nat.toDigits 10 port := by
    rw [hrepr, Int.repr_eq_if, if_pos (by omega), Int.toNat_natCast, Nat.toList_repr]
  have hscheme : ("postgresql://" : String).toList = dsnScheme ++ [':', '/', '/'] := rfl
  have hcolon : (":" : String).toList = [':'] := by rfl
  have hat : ("@" : String).toList = ['@'] := by rfl
  have hslash : ("/" : String).toList = ['/'] := by rfl
  have htext : ∀ s : String, strOf (.str s) = s := fun _ => rfl
  unfold dsnOf
  rw [htext, htext, htext, htext]
  simp only [String.toList_append]
  rw [hport]
  rw [hscheme, hcolon, hat, hslash]
  unfold Written.text Written.authority Written.userinfo Written.address written
  simp only [List.append_assoc, List.cons_append, List.nil_append]

theorem separated_written {username password host : String} {port : Nat} {database : String}
    (hhost : HostName host) (h : PlainInDsn username password database) :
    (written username password host port database).Separated where
  scheme := by
    change ':' ∉ dsnScheme
    decide
  user := h.username ':' (by simp)
  host := hhost.notMem (by decide)
  address := by
    have hhost' : '@' ∉ host.toList := hhost.notMem (by decide)
    have hport : '@' ∉ Nat.toDigits 10 port := notMem_toDigits (by decide) port
    simp [Written.address, written, hhost', hport]
  authority := by
    rw [StandardUrl.inAuthority_iff]
    intro d hd
    have huser : d ∉ username.toList := h.username d (List.mem_cons_of_mem _ hd)
    have hpassword : d ∉ password.toList := h.password d hd
    have hhost' : d ∉ host.toList := by
      apply hhost.notMem
      have hall : ['/', '?', '#'].all fun d => StandardUrl.isHostChar d == false := by decide
      exact eq_of_beq (List.all_eq_true.mp hall d hd)
    have hport : d ∉ Nat.toDigits 10 port := by
      apply notMem_toDigits
      have hall : ['/', '?', '#'].all fun d => d.isDigit == false := by decide
      exact eq_of_beq (List.all_eq_true.mp hall d hd)
    have hne : d ≠ ':' ∧ d ≠ '@' := by
      have hall : ['/', '?', '#'].all fun d => decide (d ≠ ':' ∧ d ≠ '@') := by decide
      exact of_decide_eq_true (List.all_eq_true.mp hall d hd)
    simp [Written.authority, Written.userinfo, Written.address, written, huser, hpassword, hhost',
      hport, hne]
  path := ⟨h.database '?' (by simp), h.database '#' (by simp)⟩

/-- A DSN that decodes to the five values was made of texts that need no encoding. -/
theorem plain_of_decodes {username password host : String} {port : Nat} {database : String}
    (hne : database ≠ "")
    (h : StandardUrl.read (written username password host port database).text = some {
      scheme := dsnScheme
      user := some (octets username.toList)
      password := some (octets password.toList)
      host := octets host.toList
      port := some port
      path := octets database.toList
      query := none
      fragment := none }) :
    PlainInDsn username password database := by
  have hpath : octets database.toList ≠ [] := by
    intro hnil
    exact hne (String.toList_eq_nil_iff.mp (StandardUrl.octets_injective hnil))
  obtain ⟨w, hw, htext, hmeaning⟩ := Written.exists_of_read h (by simp) (by simp) (by simp) hpath
    rfl rfl
  simp only [Written.meaning, StandardUrl.Components.mk.injEq, Option.some.injEq] at hmeaning
  obtain ⟨hscheme, huser, hpassword, hhost, hport, hdatabase, -, -⟩ := hmeaning
  have hlength := congrArg (fun s => (octets s).length) htext
  simp only [Written.length_octets_text, written, hscheme] at hlength
  have hleUser := StandardUrl.length_percentDecode_le w.user
  have hlePassword := StandardUrl.length_percentDecode_le w.password
  have hleHost := StandardUrl.length_percentDecode_le w.host
  have hlePort := StandardUrl.length_percentDecode_le w.port
  have hleDigits := StandardUrl.length_octets_toDigits_le hport
  have hlePath := StandardUrl.length_percentDecode_le w.path
  rw [huser] at hleUser
  rw [hpassword] at hlePassword
  rw [hhost] at hleHost
  rw [hdatabase] at hlePath
  have hsameUser := StandardUrl.eq_of_percentDecode huser (by omega)
  have hsamePassword := StandardUrl.eq_of_percentDecode hpassword (by omega)
  have hsamePath := StandardUrl.eq_of_percentDecode hdatabase (by omega)
  have hauthority := StandardUrl.inAuthority_iff.mp hw.authority
  have hparts : ∀ d ∈ ['/', '?', '#'], d ∉ w.user ∧ d ∉ w.password := by
    intro d hd
    have hnot := hauthority d hd
    simp only [Written.authority, Written.userinfo, List.mem_append, List.mem_cons, not_or] at hnot
    exact ⟨hnot.1.1, hnot.1.2.2⟩
  refine ⟨⟨hsameUser.2, hsamePassword.2, hsamePath.2⟩, ?_, ?_, ?_⟩
  · rw [← hsameUser.1]
    intro d hd
    rcases List.mem_cons.mp hd with hcolon | hends
    · rw [hcolon]
      exact hw.user
    · exact (hparts d hends).1
  · rw [← hsamePassword.1]
    exact fun d hd => (hparts d hd).2
  · rw [← hsamePath.1]
    intro d hd
    simp only [List.mem_cons, List.not_mem_nil, or_false] at hd
    rcases hd with rfl | rfl
    · exact hw.path.1
    · exact hw.path.2

/-- Texts that need no encoding are decoded as they are. -/
theorem decodes_of_plain {username password host : String} {port : Nat} {database : String}
    (hhost : HostName host) (h : PlainInDsn username password database) :
    Decodes (dsnOf (.str username) (.str password) (.str host) (.int port) (.str database))
      username password host port database := by
  have hplainHost := StandardUrl.noEscape_of_notMem (hhost.notMem (d := '%') (by decide))
  have hplainPort := StandardUrl.noEscape_of_notMem (notMem_toDigits (d := '%') (by decide) port)
  obtain ⟨huser, hpassword, hdatabase⟩ := h.noEscape
  unfold Decodes
  rw [toList_dsnOf, Written.read_text (separated_written hhost h)]
  simp only [Written.meaning, written, StandardUrl.percentDecode_of_noEscape, huser, hpassword,
    hdatabase, hplainHost, hplainPort, not_false_eq_true, StandardUrl.readPort_toDigits]

variable {c : ConnectionCredentials} {username password host database : String} {port : Nat}

/-- Both dicts that are made of the credentials give one DSN. -/
theorem buildDsn_of_fiveValues (h : FiveValues c .POSTGRES username password host port database)
    {creds : Credentials} (hcreds : creds = credsToDict c ∨ creds = buildCredentials c) :
    buildDsn creds =
      .ok (dsnOf (.str username) (.str password) (.str host) (.int port) (.str database)) := by
  have hne : c.databaseType ≠ .SQLITE := by
    rw [h.type]
    decide
  have hfields : HoldsFields c creds := by
    rcases hcreds with rfl | rfl
    · exact holdsFields_credsToDict c h.method h.noUrl
    · exact holdsFields_buildCredentials c h.method
  have hport : creds.getD "port" (.int 5432) = .int port := by
    rcases hcreds with rfl | rfl
    · rw [credsToDict_port, h.port]
      rfl
    · rw [buildCredentials_port c h.method, h.port]
      rfl
  simp only [buildDsn, hfields.noUrl, Credentials.item, hfields.username hne, hfields.password hne,
    hfields.host hne, hfields.database hne, hport, h.username, h.password, h.host, h.database]
  rfl

theorem plain_of_buildDsn (h : FiveValues c .POSTGRES username password host port database)
    {creds : Credentials} (hcreds : creds = credsToDict c ∨ creds = buildCredentials c)
    (hdecodes : ∃ dsn, buildDsn creds = .ok dsn ∧
      Decodes dsn username password host port database) :
    PlainInDsn username password database := by
  obtain ⟨dsn, hdsn, hread⟩ := hdecodes
  rw [buildDsn_of_fiveValues h hcreds] at hdsn
  cases hdsn
  have hne : database ≠ "" := by
    have hpresent := (c.fields_present h.method (by rw [h.type]; decide)).2.1
    intro hempty
    simp [h.database, hempty, absent] at hpresent
  unfold Decodes at hread
  rw [toList_dsnOf] at hread
  exact plain_of_decodes hne hread

/-- The DSN decodes to the five values exactly where they need no encoding in it. -/
theorem buildDsn_decodes_iff (h : FiveValues c .POSTGRES username password host port database)
    (hhost : HostName host) {creds : Credentials}
    (hcreds : creds = credsToDict c ∨ creds = buildCredentials c) :
    (∃ dsn, buildDsn creds = .ok dsn ∧ Decodes dsn username password host port database) ↔
      PlainInDsn username password database := by
  constructor
  · exact plain_of_buildDsn h hcreds
  · intro hplain
    exact ⟨_, buildDsn_of_fiveValues h hcreds, decodes_of_plain hhost hplain⟩

private def plainLogin : ConnectionCredentials where
  databaseType := .POSTGRES
  connectionMethod := .CREDENTIALS
  host := some "db.example"
  port := some 5432
  database := some "shop"
  username := some "app"
  password := some "s3cret@home"
  validPort := rfl
  validFields := rfl

theorem buildDsn_decodes_iff_plain :
    FiveValues plainLogin .POSTGRES "app" "s3cret@home" "db.example" 5432 "shop" ∧
      ((∃ dsn, buildDsn (credsToDict plainLogin) = .ok dsn ∧
        Decodes dsn "app" "s3cret@home" "db.example" 5432 "shop") ↔
      PlainInDsn "app" "s3cret@home" "shop") := by
  have hvalues : FiveValues plainLogin .POSTGRES "app" "s3cret@home" "db.example" 5432 "shop" :=
    ⟨rfl, rfl, rfl, rfl, rfl, rfl, rfl, rfl⟩
  exact ⟨hvalues, buildDsn_decodes_iff hvalues (by decide) (Or.inl rfl)⟩

private def slashedLogin : ConnectionCredentials where
  databaseType := .POSTGRES
  connectionMethod := .CREDENTIALS
  host := some "db.example"
  port := some 5432
  database := some "shop"
  username := some "app"
  password := some "pass/word"
  validPort := rfl
  validFields := rfl

/-- The slash of the password ends the authority. -/
theorem slashed_password_not_decoded :
    FiveValues slashedLogin .POSTGRES "app" "pass/word" "db.example" 5432 "shop" ∧
      HostName "db.example" ∧
      ¬ ∃ dsn, buildDsn (credsToDict slashedLogin) = .ok dsn ∧
        Decodes dsn "app" "pass/word" "db.example" 5432 "shop" := by
  have hvalues : FiveValues slashedLogin .POSTGRES "app" "pass/word" "db.example" 5432 "shop" :=
    ⟨rfl, rfl, rfl, rfl, rfl, rfl, rfl, rfl⟩
  refine ⟨hvalues, by decide, ?_⟩
  intro hdecodes
  have hplain := plain_of_buildDsn hvalues (Or.inl rfl) hdecodes
  exact hplain.password '/' (by simp) (by decide)

end PostgresProvider

end DataBridge

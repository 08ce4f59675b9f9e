import Otpd.EventWindow
import Otpd.PasswdRecord

/-!
# What `ldap_get` makes of an entry

The static password that `verify` is given and the two temporary overrides, each with
the expiry it depends on.
-/

set_option autoImplicit false

namespace Otpd

open CMem

/-! ## The static password -/

/-- A digest of `n` bytes in hex. -/
def HexDigits (digits : List Byte) (n : Nat) : Prop :=
  digits.length = 2 * n ∧ ∀ b ∈ digits, isHexDigit b

/-- The encoded passwords, with the size of their digest and its digits. -/
inductive Encoded : List Byte → Nat → List Byte → Prop where
  | md5 (digits : List Byte) (hex : HexDigits digits 16) :
      Encoded (ascii "\x7bMD5\x7d" ++ digits) 16 digits
  | sha (digits : List Byte) (hex : HexDigits digits 20) :
      Encoded (ascii "\x7bSHA\x7d" ++ digits) 20 digits
  | sha1 (digits : List Byte) (hex : HexDigits digits 20) :
      Encoded (ascii "\x7bSHA1\x7d" ++ digits) 20 digits

def InGrammar (p : List Byte) : Prop := p.head? ≠ some 123 ∨ ∃ n digits, Encoded p n digits

/-- The entry is valid but for its static password. -/
def OtherwiseValid (config : Config) (entry : LdapEntry) (memory : LdapMemory) (now : Time) :
    Prop :=
  ∃ user, ldapGet config (.entry { entry with otpTmpStaticPassword := none }) memory now =
    some (.found user)

structure GrammarKept (get : Option UserGet) (p : List Byte) : Prop where
  accepts : (∃ user, get = some (.found user)) ↔ InGrammar p
  digest : ∀ user n digits, get = some (.found user) → Encoded p n digits →
    a2nx digits n = some (user.passwordHash.bytes.take n)

/-- The encoded texts that the inverted prefix tests let through. -/
def TakenForDigest (memory : LdapMemory) (p : List Byte) : Prop :=
  if p.take 5 = ascii "\x7bMD5\x7d" then HexDigits (p.drop 5) 20
  else HexDigits (memory.past p 5) 16

section Grammar

theorem a2nx_digits {s out : List Byte} {l : Nat} (decoded : a2nx s l = some out)
    (length : s.length = 2 * l) : ∀ b ∈ s, isHexDigit b := by
  fun_induction a2nx s l generalizing out with
  | case1 s =>
      intro b inside
      rw [List.length_eq_zero_iff.mp length] at inside
      cases inside
  | case2 c0 c1 rest l n0 n1 low high tail tailRun ih =>
      have shorter : rest.length = 2 * l := by
        simp only [List.length_cons] at length
        omega
      intro b inside
      rcases List.mem_cons.mp inside with rfl | inside
      · exact Option.isSome_of_eq_some high
      · rcases List.mem_cons.mp inside with rfl | inside
        · exact Option.isSome_of_eq_some low
        · exact ih tailRun shorter b inside
  | case3 => cases decoded
  | case4 => cases decoded
  | case5 => cases decoded

theorem passwordDigest_isSome_iff {p : List Byte} {n : Nat} {h : Buffer 20} :
    (passwordDigest p n h).isSome ↔ HexDigits p n := by
  rw [passwordDigest]
  by_cases length : p.length = 2 * n
  · rw [if_neg (not_not.mpr length), Option.isSome_map]
    constructor
    · intro decoded
      obtain ⟨out, decoded⟩ := Option.isSome_iff_exists.mp decoded
      exact ⟨length, a2nx_digits decoded length⟩
    · intro digits
      obtain ⟨out, decoded⟩ := a2nx_total (l := n) digits.2 (by omega)
      rw [decoded]
      rfl
  · rw [if_pos length]
    exact iff_of_false Bool.false_ne_true fun digits => length digits.1

theorem ldapPasswordHash_isSome_iff {memory : LdapMemory} {p : List Byte} :
    (ldapPasswordHash memory p).isSome ↔ TakenForDigest memory p := by
  have differs : ascii "\x7bMD5\x7d" ≠ ascii "\x7bSHA\x7d" := by decide +kernel
  rw [ldapPasswordHash, TakenForDigest]
  by_cases md5 : p.take 5 = ascii "\x7bMD5\x7d"
  · have notSha : p.take 5 ≠ ascii "\x7bSHA\x7d" := by
      rw [md5]
      exact differs
    have inside : 5 ≤ p.length := by
      have size := congrArg List.length md5
      rw [List.length_take] at size
      have five : (ascii "\x7bMD5\x7d").length = 5 := by decide +kernel
      omega
    rw [if_neg (not_not.mpr md5), if_pos notSha, if_pos md5, passwordDigest_isSome_iff,
      LdapMemory.past, if_pos inside]
  · rw [if_pos md5, if_neg md5, passwordDigest_isSome_iff]

theorem TakenForDigest.length {memory : LdapMemory} {p : List Byte}
    (taken : TakenForDigest memory p) (long : 5 ≤ p.length) :
    p.length = if p.take 5 = ascii "\x7bMD5\x7d" then 45 else 37 := by
  rw [TakenForDigest, LdapMemory.past, if_pos long] at taken
  split
  · rename_i md5
    rw [if_pos md5] at taken
    have size := taken.1
    rw [List.length_drop] at size
    omega
  · rename_i other
    rw [if_neg other] at taken
    have size := taken.1
    rw [List.length_drop] at size
    omega

/-- No text of the grammar has the length asked of it. -/
theorem Encoded.not_taken {memory : LdapMemory} {p digits : List Byte} {n : Nat}
    (encoded : Encoded p n digits) : ¬ TakenForDigest memory p := by
  have front : ∀ scheme rest : List Byte, 5 ≤ scheme.length →
      (scheme ++ rest).take 5 = scheme.take 5 := fun scheme rest long =>
    List.take_append_of_le_length long
  intro taken
  cases encoded with
  | md5 _ hex =>
      have scheme : (ascii "\x7bMD5\x7d").length = 5 := by decide +kernel
      have size := taken.length (by rw [List.length_append]; omega)
      rw [front _ _ (by omega), if_pos (by decide +kernel), List.length_append, hex.1] at size
      omega
  | sha _ hex =>
      have scheme : (ascii "\x7bSHA\x7d").length = 5 := by decide +kernel
      have size := taken.length (by rw [List.length_append]; omega)
      rw [front _ _ (by omega), if_neg (by decide +kernel), List.length_append, hex.1] at size
      omega
  | sha1 _ hex =>
      have scheme : (ascii "\x7bSHA1\x7d").length = 6 := by decide +kernel
      have size := taken.length (by rw [List.length_append]; omega)
      rw [front _ _ (by omega), if_neg (by decide +kernel), List.length_append, hex.1] at size
      omega

theorem Encoded.head {p digits : List Byte} {n : Nat} (encoded : Encoded p n digits) :
    p.head? = some 123 := by
  have open_brace : ∀ scheme : List Byte, scheme.head? = some 123 →
      (scheme ++ digits).head? = some 123 := by
    intro scheme starts
    rw [List.head?_append, starts, Option.some_or]
  cases encoded with
  | md5 _ _ => exact open_brace _ (by decide +kernel)
  | sha _ _ => exact open_brace _ (by decide +kernel)
  | sha1 _ _ => exact open_brace _ (by decide +kernel)

variable {config : Config} {entry : LdapEntry} {memory : LdapMemory} {now : Time}
  {p expiry : List Byte}

theorem ldapStaticPassword_live (h : expired expiry now = false) :
    (ldapStaticPassword memory (some p) (some expiry) now).isSome ↔
      p.head? ≠ some 123 ∨ TakenForDigest memory p := by
  simp only [ldapStaticPassword, h, Bool.false_eq_true, if_false]
  by_cases encoded : p.head? = some 123
  · rw [if_pos encoded, Option.isSome_map, ldapPasswordHash_isSome_iff]
    simp [encoded]
  · rw [if_neg encoded]
    simp [encoded]

/-- With the rest of the entry valid, the static password decides. -/
theorem OtherwiseValid.found_iff (valid : OtherwiseValid config entry memory now) :
    (∃ user, ldapGet config (.entry entry) memory now = some (.found user)) ↔
      (ldapStaticPassword memory entry.otpTmpStaticPassword entry.otpTmpStaticPasswordExpiry
        now).isSome := by
  obtain ⟨other, found⟩ := valid
  obtain ⟨rest, checked, -⟩ := ldapGet_found_iff.mp found
  constructor
  · rintro ⟨user, accepted⟩
    obtain ⟨parts, of, -⟩ := ldapGet_found_iff.mp accepted
    exact Option.isSome_of_eq_some of.password
  · intro accepted
    obtain ⟨⟨password, passwordHash⟩, static⟩ := Option.isSome_iff_exists.mp accepted
    exact ⟨_, ldapGet_found_iff.mpr
      ⟨{ rest with password := password, passwordHash := passwordHash },
        ⟨checked.vendor, checked.model, checked.key, checked.sane, checked.encryption, static,
          checked.rwindow⟩, rfl⟩⟩

end Grammar

theorem ldap_password_grammar_iff (config : Config) (entry : LdapEntry) (memory : LdapMemory)
    (now : Time) (p expiry : List Byte) (static : entry.otpTmpStaticPassword = some p)
    (expires : entry.otpTmpStaticPasswordExpiry = some expiry)
    (live : (now : Int) ≤ timeValue expiry)
    (valid : OtherwiseValid config entry memory now) :
    GrammarKept (ldapGet config (.entry entry) memory now) p ↔
      (p.head? = some 123 → (¬ ∃ n digits, Encoded p n digits) ∧ ¬ TakenForDigest memory p) := by
  have unexpired : expired expiry now = false := by
    rw [expired, decide_eq_false_iff_not]
    omega
  have accepted := valid.found_iff
  rw [static, expires, ldapStaticPassword_live unexpired] at accepted
  constructor
  · intro kept encoded
    have same := accepted.symm.trans kept.accepts
    simp only [InGrammar, encoded, ne_eq, not_true_eq_false, false_or] at same
    constructor
    · rintro ⟨n, digits, inside⟩
      exact inside.not_taken (same.mpr ⟨n, digits, inside⟩)
    · intro taken
      obtain ⟨n, digits, inside⟩ := same.mp taken
      exact inside.not_taken taken
  · intro neither
    by_cases encoded : p.head? = some 123
    · obtain ⟨outside, refused⟩ := neither encoded
      refine ⟨accepted.trans ?_, fun user n digits _ inside => ?_⟩
      · simp only [InGrammar, encoded, ne_eq, not_true_eq_false, false_or]
        exact iff_of_false refused outside
      · exact absurd ⟨n, digits, inside⟩ outside
    · exact ⟨accepted.trans (iff_of_true (.inl encoded) (.inl encoded)),
        fun user n digits _ inside => absurd inside.head encoded⟩

/-- `bob` with a static password until 2000000000. -/
def staticEntry (password : String) : LdapEntry :=
  { windowEntry "10" with
    otpTmpStaticPassword := some (ascii password)
    otpTmpStaticPasswordExpiry := some (ascii "2000000000") }

def cleanMemory : LdapMemory := ⟨Buffer.zero 20, []⟩

theorem staticEntry_otherwiseValid (password : String) :
    OtherwiseValid defaultConfig (staticEntry password) cleanMemory 1000 := by
  have unset : { staticEntry password with otpTmpStaticPassword := none } =
      { windowEntry "10" with otpTmpStaticPasswordExpiry := some (ascii "2000000000") } := rfl
  exact ⟨{ hmacUser "hotp-d6" with rwindowSize := 10 }, by rw [unset]; decide +kernel⟩

theorem ldap_password_grammar_plain :
    GrammarKept (ldapGet defaultConfig (.entry (staticEntry "secret")) cleanMemory 1000)
      (ascii "secret") :=
  (ldap_password_grammar_iff defaultConfig (staticEntry "secret") cleanMemory 1000
    (ascii "secret") (ascii "2000000000") rfl rfl (by decide +kernel)
    (staticEntry_otherwiseValid "secret")).mpr fun encoded => absurd encoded (by decide +kernel)

/-- The MD5 digest of `secret` is refused. -/
theorem ldap_password_md5_refused :
    InGrammar (ascii "\x7bMD5\x7d5ebe2294ecd0e0f08eab7690d2a6ee69") ∧
      ldapGet defaultConfig
        (.entry (staticEntry "\x7bMD5\x7d5ebe2294ecd0e0f08eab7690d2a6ee69")) cleanMemory 1000 =
        some .unavailable ∧
      ¬ GrammarKept (ldapGet defaultConfig
        (.entry (staticEntry "\x7bMD5\x7d5ebe2294ecd0e0f08eab7690d2a6ee69")) cleanMemory 1000)
        (ascii "\x7bMD5\x7d5ebe2294ecd0e0f08eab7690d2a6ee69") := by
  have split : ascii "\x7bMD5\x7d5ebe2294ecd0e0f08eab7690d2a6ee69" =
      ascii "\x7bMD5\x7d" ++ ascii "5ebe2294ecd0e0f08eab7690d2a6ee69" := by decide +kernel
  have digits : (ascii "5ebe2294ecd0e0f08eab7690d2a6ee69").all
      (fun b => (nibble b).isSome) = true := by decide +kernel
  have inside : InGrammar (ascii "\x7bMD5\x7d5ebe2294ecd0e0f08eab7690d2a6ee69") := by
    rw [split]
    exact .inr ⟨16, _, .md5 _ ⟨by decide +kernel, List.all_eq_true.mp digits⟩⟩
  have refused : ldapGet defaultConfig
      (.entry (staticEntry "\x7bMD5\x7d5ebe2294ecd0e0f08eab7690d2a6ee69")) cleanMemory 1000 =
      some .unavailable := by decide +kernel
  refine ⟨inside, refused, ?_⟩
  intro kept
  rw [refused] at kept
  obtain ⟨user, found⟩ := kept.accepts.mpr inside
  cases found

/-! ## The temporary overrides -/

/-- The value of an override whose expiry lies at or after `now`. -/
def liveOverride (value expiry : Option (List Byte)) (now : Time) : Option (List Byte) :=
  match value, expiry with
  | some value, some expiry => if (now : Int) ≤ timeValue expiry then some value else none
  | _, _ => none

structure OverridesKept (entry : LdapEntry) (now : Time) (get : Option UserGet) : Prop where
  -- `none` is the use of an absent attribute
  present : get ≠ none
  required : entry.otpVendor = none ∨ entry.otpModel = none ∨ entry.otpKey1 = none →
    get = some .unavailable
  passwordExpiry : entry.otpTmpStaticPassword ≠ none → entry.otpTmpStaticPasswordExpiry = none →
    get = some .unavailable
  rwindowExpiry : entry.otpTmpRWindow ≠ none → entry.otpTmpRWindowExpiry = none →
    get = some .unavailable
  password : ∀ user, get = some (.found user) →
    user.password = liveOverride entry.otpTmpStaticPassword entry.otpTmpStaticPasswordExpiry now
  rwindow : ∀ user, get = some (.found user) →
    user.rwindowSize =
      ((liveOverride entry.otpTmpRWindow entry.otpTmpRWindowExpiry now).map
        fun value => (strtoul value).toUInt32).getD 0

/-- A temporary window without an expiry, in an entry that passes the checks before it. -/
structure WindowWithoutExpiry (config : Config) (entry : LdapEntry) (memory : LdapMemory)
    (now : Time) : Prop where
  rwindow : entry.otpTmpRWindow ≠ none
  expiry : entry.otpTmpRWindowExpiry = none
  sane : ∃ vendor model key, entry.otpVendor = some vendor ∧ entry.otpModel = some model ∧
    entry.otpKey1 = some key ∧ ldapSane entry vendor model key = true
  encryption : (ldapKeyEncryption config entry.otpKeyEncryption).isSome
  password : (ldapStaticPassword memory entry.otpTmpStaticPassword
    entry.otpTmpStaticPasswordExpiry now).isSome

section Overrides

variable {config : Config} {entry : LdapEntry} {memory : LdapMemory} {now : Time}

theorem ldapRWindow_none_iff {rwindow expiry : Option (List Byte)} :
    ldapRWindow rwindow expiry now = none ↔ rwindow ≠ none ∧ expiry = none := by
  cases rwindow with
  | none => simp [ldapRWindow]
  | some value =>
      cases expiry with
      | none => simp [ldapRWindow]
      | some expiry =>
          simp only [ldapRWindow]
          split
          · simp
          · simp

theorem ldapGet_none_iff :
    ldapGet config (.entry entry) memory now = none ↔
      WindowWithoutExpiry config entry memory now := by
  constructor
  · intro crashed
    simp only [ldapGet] at crashed
    split at crashed
    · rename_i vendor model key hasVendor hasModel hasKey
      split at crashed
      · cases crashed
      · rename_i sane
        split at crashed
        · rename_i encryption static
          obtain ⟨rwindow, expiry⟩ := ldapRWindow_none_iff.mp (Option.map_eq_none_iff.mp crashed)
          exact ⟨rwindow, expiry,
            ⟨vendor, model, key, hasVendor, hasModel, hasKey, Bool.of_not_eq_false sane⟩,
            Option.isSome_of_eq_some encryption, Option.isSome_of_eq_some static⟩
        · cases crashed
    · cases crashed
  · rintro ⟨rwindow, expiry, ⟨vendor, model, key, hasVendor, hasModel, hasKey, sane⟩, encryption,
      static⟩
    obtain ⟨⟨encryptmode, keyid⟩, encryption⟩ := Option.isSome_iff_exists.mp encryption
    obtain ⟨⟨password, passwordHash⟩, static⟩ := Option.isSome_iff_exists.mp static
    simp only [ldapGet, hasVendor, hasModel, hasKey, sane, encryption, static,
      ldapRWindow_none_iff.mpr ⟨rwindow, expiry⟩]
    rfl

/-- Only the search itself finds no user. -/
theorem ldapGet_known : ldapGet config (.entry entry) memory now ≠ some .unknown := by
  intro unknown
  simp only [ldapGet] at unknown
  split at unknown
  · split at unknown
    · cases unknown
    · split at unknown
      · obtain ⟨size, -, same⟩ := Option.map_eq_some_iff.mp unknown
        cases same
      · cases unknown
  · cases unknown

theorem ldapGet_unavailable (present : ldapGet config (.entry entry) memory now ≠ none)
    (refused : ∀ parts : LdapParts, ¬ parts.Of config entry memory now) :
    ldapGet config (.entry entry) memory now = some .unavailable := by
  cases get : ldapGet config (.entry entry) memory now with
  | none => exact absurd get present
  | some result =>
      cases result with
      | found user =>
          obtain ⟨parts, of, -⟩ := ldapGet_found_iff.mp get
          exact absurd of (refused parts)
      | unknown => exact absurd get ldapGet_known
      | unavailable => rfl

theorem ldapStaticPassword_value {password expiry : Option (List Byte)}
    {value : Option (List Byte)} {hash : Buffer 20}
    (checked : ldapStaticPassword memory password expiry now = some (value, hash)) :
    value = liveOverride password expiry now ∧ (password ≠ none → expiry ≠ none) := by
  cases password with
  | none =>
      cases checked
      exact ⟨rfl, fun absent => absurd rfl absent⟩
  | some p =>
      cases expiry with
      | none => cases checked
      | some expiry =>
          refine ⟨?_, fun _ => Option.some_ne_none _⟩
          simp only [ldapStaticPassword, expired, decide_eq_true_eq] at checked
          simp only [liveOverride]
          split at checked
          · rename_i past
            rw [if_neg (by omega)]
            cases checked
            rfl
          · rename_i live
            rw [if_pos (by omega)]
            split at checked
            · obtain ⟨h, -, same⟩ := Option.map_eq_some_iff.mp checked
              cases same
              rfl
            · cases checked
              rfl

theorem ldapRWindow_value {rwindow expiry : Option (List Byte)} {size : UInt32}
    (checked : ldapRWindow rwindow expiry now = some size) :
    size = ((liveOverride rwindow expiry now).map fun value => (strtoul value).toUInt32).getD 0 ∧
      (rwindow ≠ none → expiry ≠ none) := by
  cases rwindow with
  | none =>
      cases checked
      exact ⟨rfl, fun absent => absurd rfl absent⟩
  | some value =>
      cases expiry with
      | none => cases checked
      | some expiry =>
          refine ⟨?_, fun _ => Option.some_ne_none _⟩
          simp only [ldapRWindow, expired, decide_eq_true_eq] at checked
          simp only [liveOverride]
          split at checked
          · rename_i past
            rw [if_neg (by omega)]
            exact (Option.some.inj checked).symm
          · rename_i live
            rw [if_pos (by omega)]
            exact (Option.some.inj checked).symm

end Overrides

theorem ldap_overrides_iff (config : Config) (entry : LdapEntry) (memory : LdapMemory)
    (now : Time) :
    OverridesKept entry now (ldapGet config (.entry entry) memory now) ↔
      ¬ WindowWithoutExpiry config entry memory now := by
  constructor
  · intro kept without
    exact kept.present (ldapGet_none_iff.mpr without)
  · intro within
    have present : ldapGet config (.entry entry) memory now ≠ none :=
      fun crashed => within (ldapGet_none_iff.mp crashed)
    refine ⟨present, ?_, ?_, ?_, ?_, ?_⟩
    · intro missing
      refine ldapGet_unavailable present fun parts of => ?_
      rcases missing with missing | missing | missing
      · exact Option.some_ne_none _ (of.vendor.symm.trans missing)
      · exact Option.some_ne_none _ (of.model.symm.trans missing)
      · exact Option.some_ne_none _ (of.key.symm.trans missing)
    · intro set missing
      exact ldapGet_unavailable present fun parts of =>
        (ldapStaticPassword_value of.password).2 set missing
    · intro set missing
      exact ldapGet_unavailable present fun parts of =>
        (ldapRWindow_value of.rwindow).2 set missing
    · intro user found
      obtain ⟨parts, of, rfl⟩ := ldapGet_found_iff.mp found
      exact (ldapStaticPassword_value of.password).1
    · intro user found
      obtain ⟨parts, of, rfl⟩ := ldapGet_found_iff.mp found
      exact (ldapRWindow_value of.rwindow).1

/-- The expiry of a window that has none is read. -/
theorem ldap_window_crash :
    ldapGet defaultConfig (.entry { windowEntry "10" with otpTmpRWindowExpiry := none })
        cleanMemory 1000 = none ∧
      ¬ OverridesKept { windowEntry "10" with otpTmpRWindowExpiry := none } 1000
        (ldapGet defaultConfig (.entry { windowEntry "10" with otpTmpRWindowExpiry := none })
          cleanMemory 1000) := by
  have crashed : ldapGet defaultConfig
      (.entry { windowEntry "10" with otpTmpRWindowExpiry := none }) cleanMemory 1000 = none := by
    decide +kernel
  exact ⟨crashed, fun kept => kept.present crashed⟩

end Otpd

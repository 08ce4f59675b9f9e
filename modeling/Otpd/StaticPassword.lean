import Otpd.Session

/-!
# The static password override

`verify` with a user whose record holds a static password: the three formats such a
password has, what each asks of a passcode, and what the two `strncmp` calls make of it.
-/

set_option autoImplicit false

namespace Otpd

open CMem

/-- The formats of `otpTmpStaticPassword`; a digest lies decoded in `password_hash`. -/
inductive PasswordFormat where
  | plain
  | md5
  | sha
  deriving DecidableEq

def passwordFormat (password : List Byte) : Option PasswordFormat :=
  if password.head? ≠ some 123 then some .plain
  else if password.take 5 = ascii "\x7bMD5\x7d" then some .md5
  else if password.take 5 = ascii "\x7bSHA\x7d" ∨ password.take 6 = ascii "\x7bSHA1\x7d" then
    some .sha
  else none

/-- The passcode is the one that the stored password stands for. -/
def passwordMatches (crypto : Crypto) (request : Request) (user : User) (password : List Byte) :
    PasswordFormat → Bool
  | .plain => compare crypto request password
  | .md5 => user.passwordHash.bytes.take 16 == (crypto.md5 request.pwe.papPasscode).take 16
  | .sha => user.passwordHash.bytes == (crypto.sha1 request.pwe.papPasscode).take 20

/-- The comparison that is made: with the other digest, and with a digest for plain text. -/
def comparedFormat : PasswordFormat → PasswordFormat
  | .plain => .md5
  | .md5 => .sha
  | .sha => .md5

def DecidedBy (crypto : Crypto) (request : Request) (user : User) (password : List Byte)
    (format : PasswordFormat) (rc : Rc) : Prop :=
  if request.pwe.isPap then
    rc = if passwordMatches crypto request user password format then .ok else .authErr
  else
    match format with
    | .plain => rc = .ok ↔ compare crypto request password = true
    | .md5 | .sha => rc = .serviceErr

/-- A card module knows the card and the comparison made comes out as the one asked for. -/
def ComparisonsAgree (crypto : Crypto) (mods : List CardOps) (request : Request) (user : User)
    (password : List Byte) (format : PasswordFormat) : Prop :=
  let known := (findCardops mods user.card).isSome
  let compared := passwordMatches crypto request user password (comparedFormat format)
  if request.pwe.isPap then
    known = true ∧ compared = passwordMatches crypto request user password format
  else
    match format with
    | .plain => (known && compared) = compare crypto request password
    | .md5 | .sha => True

section Static

variable {crypto : Crypto} {mods : List CardOps} {config : Config} {request : Request} {env : Env}
  {store : Store} {user : User} {password : List Byte}

theorem verify_static (got : env.get = .found user) (set : user.password = some password) :
    (verify crypto mods config request env store).rc =
      if (findCardops mods user.card).isSome then
        (staticPassword crypto request user password).rc
      else .serviceErr := by
  cases known : findCardops mods user.card with
  | none =>
      have prepared : prepare crypto mods config request env =
          .error ⟨.serviceErr, .serviceErr⟩ := by
        simp only [prepare, got, known]
      simp only [verify, prepared]
      rw [finish_unlocked config request env store [] _ rfl]
      rfl
  | some ops =>
      have prepared : prepare crypto mods config request env =
          .error (staticPassword crypto request user password) := by
        simp only [prepare, got, known, set]
      simp only [verify, prepared]
      rw [finish_unlocked config request env store [] _ rfl]
      rfl

theorem passwordFormat_prefix {format : PasswordFormat}
    (formatted : passwordFormat password = some format) :
    (format = .plain → password.head? ≠ some 123) ∧
      (format = .md5 → password.take 4 = ascii "\x7bMD5") ∧
      (format = .sha → password.take 4 = ascii "\x7bSHA") := by
  have shorter : ∀ n, 4 ≤ n → (password.take n).take 4 = password.take 4 := by
    intro n long
    rw [List.take_take, Nat.min_eq_left long]
  unfold passwordFormat at formatted
  split_ifs at formatted with text md5 sha
  · cases formatted
    exact ⟨fun _ => text, by simp, by simp⟩
  · cases formatted
    refine ⟨by simp, fun _ => ?_, by simp⟩
    rw [← shorter 5 (by decide), md5]
    decide +kernel
  · cases formatted
    refine ⟨by simp, by simp, fun _ => ?_⟩
    rcases sha with sha | sha1
    · rw [← shorter 5 (by decide), sha]
      decide +kernel
    · rw [← shorter 6 (by decide), sha1]
      decide +kernel

/-- The branch taken for a format is that of another one. -/
theorem staticPassword_rc {format : PasswordFormat} (request : Request)
    (formatted : passwordFormat password = some format) :
    (staticPassword crypto request user password).rc =
      if format ≠ .plain ∧ request.pwe.isPap = false then .serviceErr
      else if passwordMatches crypto request user password (comparedFormat format) then .ok
      else .authErr := by
  obtain ⟨plain, md5, sha⟩ := passwordFormat_prefix formatted
  have head : ∀ text : List Byte, password.take 4 = text → password.head? = text.head? := by
    intro text front
    rw [← front, List.head?_take, if_neg (by decide)]
  have differs : ascii "\x7bSHA" ≠ ascii "\x7bMD5" := by decide +kernel
  cases format with
  | plain =>
      have text := plain rfl
      have notMd5 : password.take 4 ≠ ascii "\x7bMD5" := by
        intro front
        exact text ((head _ front).trans (by decide +kernel))
      have unguarded : ¬ (password.head? = some 123 ∧ request.pwe.isPap = false) :=
        fun both => text both.1
      have compared : ¬ (PasswordFormat.plain ≠ .plain ∧ request.pwe.isPap = false) :=
        fun both => both.1 rfl
      rw [staticPassword, if_neg unguarded, if_neg compared]
      simp only [if_pos notMd5, comparedFormat, passwordMatches]
      rfl
  | md5 =>
      have encoded : password.head? = some 123 := (head _ (md5 rfl)).trans (by decide +kernel)
      have notSha : password.take 4 ≠ ascii "\x7bSHA" := by
        rw [md5 rfl]
        exact differs.symm
      by_cases pap : request.pwe.isPap = false
      · rw [staticPassword, if_pos ⟨encoded, pap⟩, if_pos ⟨by decide, pap⟩]
      · have unguarded : ¬ (password.head? = some 123 ∧ request.pwe.isPap = false) :=
          fun both => pap both.2
        have compared : ¬ (PasswordFormat.md5 ≠ .plain ∧ request.pwe.isPap = false) :=
          fun both => pap both.2
        rw [staticPassword, if_neg unguarded, if_neg compared]
        simp only [if_neg (not_not.mpr (md5 rfl)), if_pos notSha, comparedFormat, passwordMatches]
        rfl
  | sha =>
      have encoded : password.head? = some 123 := (head _ (sha rfl)).trans (by decide +kernel)
      have notMd5 : password.take 4 ≠ ascii "\x7bMD5" := by
        rw [sha rfl]
        exact differs
      by_cases pap : request.pwe.isPap = false
      · rw [staticPassword, if_pos ⟨encoded, pap⟩, if_pos ⟨by decide, pap⟩]
      · have unguarded : ¬ (password.head? = some 123 ∧ request.pwe.isPap = false) :=
          fun both => pap both.2
        have compared : ¬ (PasswordFormat.sha ≠ .plain ∧ request.pwe.isPap = false) :=
          fun both => pap both.2
        rw [staticPassword, if_neg unguarded, if_neg compared]
        simp only [if_pos notMd5, comparedFormat, passwordMatches]
        rfl

end Static

theorem static_password_iff (crypto : Crypto) (mods : List CardOps) (config : Config)
    (request : Request) (env : Env) (store : Store) (user : User) (password : List Byte)
    (format : PasswordFormat) (got : env.get = .found user) (set : user.password = some password)
    (formatted : passwordFormat password = some format) :
    DecidedBy crypto request user password format
        (verify crypto mods config request env store).rc ↔
      ComparisonsAgree crypto mods request user password format := by
  rw [verify_static got set, staticPassword_rc request formatted]
  unfold DecidedBy ComparisonsAgree
  generalize (findCardops mods user.card).isSome = known
  by_cases pap : request.pwe.isPap = true
  · have compares : ¬ (format ≠ .plain ∧ request.pwe.isPap = false) := by simp [pap]
    rw [if_neg compares, if_pos pap, if_pos pap]
    generalize passwordMatches crypto request user password (comparedFormat format) = compared
    generalize passwordMatches crypto request user password format = right
    cases known <;> cases compared <;> cases right <;> decide
  · rw [if_neg pap, if_neg pap]
    have notPap : request.pwe.isPap = false := Bool.eq_false_iff.mpr pap
    cases format with
    | plain =>
        have compares : ¬ (PasswordFormat.plain ≠ .plain ∧ request.pwe.isPap = false) := by simp
        rw [if_neg compares]
        generalize passwordMatches crypto request user password (comparedFormat .plain) = compared
        generalize compare crypto request password = right
        cases known <;> cases compared <;> cases right <;> decide
    | md5 =>
        have refused : PasswordFormat.md5 ≠ .plain ∧ request.pwe.isPap = false :=
          ⟨by decide, notPap⟩
        rw [if_pos refused, ite_self]
        exact iff_of_true rfl trivial
    | sha =>
        have refused : PasswordFormat.sha ≠ .plain ∧ request.pwe.isPap = false :=
          ⟨by decide, notPap⟩
        rw [if_pos refused, ite_self]
        exact iff_of_true rfl trivial

/-- MD5 of the texts `secret` and `wrong`, SHA-1 of `secret`. -/
def digestCrypto : Crypto :=
  { sampleCrypto with
    md5 := fun text => if text = ascii "secret" then
        bytesOf 16 0x5ebe2294ecd0e0f08eab7690d2a6ee69
      else if text = ascii "wrong" then bytesOf 16 0x2bda2998d9b0ee197da142a0447f6725 else []
    sha1 := fun text => if text = ascii "secret" then
      bytesOf 20 0xe5e9fa1ba31ecd1ae84f75caaa474f3a663f05f4 else [] }

def overriddenUser (password : String) (hash : Buffer 20) : User :=
  { hmacUser "hotp-d6" with password := some (ascii password), passwordHash := hash }

/-- A wrong passcode is refused by the comparison made instead as well. -/
theorem static_password_wrong :
    let call := papCall (overriddenUser "secret" (Buffer.zero 20)) "wrong" 1000
    DecidedBy digestCrypto call.request (overriddenUser "secret" (Buffer.zero 20))
      (ascii "secret") .plain
      (verify digestCrypto (cardops digestCrypto call.env.undef) defaultConfig call.request call.env
        none).rc := by
  intro call
  have agree : ComparisonsAgree digestCrypto (cardops digestCrypto call.env.undef) call.request
      (overriddenUser "secret" (Buffer.zero 20)) (ascii "secret") .plain := by
    have pap : call.request.pwe.isPap = true := rfl
    rw [ComparisonsAgree, if_pos pap]
    exact ⟨by decide +kernel, by decide +kernel⟩
  exact (static_password_iff digestCrypto _ defaultConfig call.request call.env none
    (overriddenUser "secret" (Buffer.zero 20)) _ .plain rfl rfl (by decide +kernel)).mpr agree

/-- The right plain password is compared as an MD5 digest, and refused. -/
theorem static_password_refused :
    passwordFormat (ascii "secret") = some .plain ∧
      (serve digestCrypto none
        (papCall (overriddenUser "secret" (Buffer.zero 20)) "secret" 1000)).1.rc = .authErr ∧
      ¬ DecidedBy digestCrypto
        (papCall (overriddenUser "secret" (Buffer.zero 20)) "secret" 1000).request
        (overriddenUser "secret" (Buffer.zero 20)) (ascii "secret") .plain
        (serve digestCrypto none
          (papCall (overriddenUser "secret" (Buffer.zero 20)) "secret" 1000)).1.rc := by
  have refused : (serve digestCrypto none
      (papCall (overriddenUser "secret" (Buffer.zero 20)) "secret" 1000)).1.rc = .authErr := by
    decide +kernel
  refine ⟨by decide +kernel, refused, ?_⟩
  intro decided
  rw [refused] at decided
  have right : passwordMatches digestCrypto
      (papCall (overriddenUser "secret" (Buffer.zero 20)) "secret" 1000).request
      (overriddenUser "secret" (Buffer.zero 20)) (ascii "secret") .plain = true := by
    decide +kernel
  have pap : (papCall (overriddenUser "secret" (Buffer.zero 20)) "secret" 1000).request.pwe.isPap =
      true := rfl
  rw [DecidedBy, if_pos pap, right] at decided
  cases decided

end Otpd

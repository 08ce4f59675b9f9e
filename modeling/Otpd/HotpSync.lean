import Otpd.Prepare
import Otpd.Replay
import Otpd.Resync
import Otpd.Window

/-!
# Sync authentication with an HOTP card

What the passcode of a counter is for each encrypt mode and PIN placement, and that
`verify` accepts these passcodes and no others.
-/

set_option autoImplicit false

namespace Otpd

open CMem

/-! ## Keys, PINs and passcodes -/

/-- The passcode without its OTP characters. -/
def typedPin (config : Config) (otpLen : Nat) (passcode : List Byte) : List Byte :=
  if config.prependPin then passcode.take (passcode.length - otpLen) else passcode.drop otpLen

/-- The key and the PIN that the decoded `key` and `pin` of a user stand for. -/
def credentials (crypto : Crypto) (config : Config) (user : User) (otpLen : Nat)
    (passcode key pin : List Byte) : List Byte × List Byte :=
  match user.encryptmode with
  | .clear => (key, pin)
  | .keyid =>
      let configured := (config.key[user.keyid]?.join).getD []
      (cyclicXor key configured, cyclicXor pin configured)
  | .pin => (cyclicXor key (typedPin config otpLen passcode), typedPin config otpLen passcode)
  | .pinmd5 =>
      (cyclicXor key (crypto.md5 (typedPin config otpLen passcode)), typedPin config otpLen passcode)

def joinPin (config : Config) (pin otp : List Byte) : List Byte :=
  if config.prependPin then pin ++ otp else otp ++ pin

/-- HOTP of RFC 4226 with `d` digits. -/
def hotp (crypto : Crypto) (key : List Byte) (counter d : Nat) : Option (List Byte) :=
  hotpMac crypto (c2c (UInt64.ofNat counter)) key d

/-- The passcode is PIN and OTP of this counter, in the configured order. -/
def PasscodeOf (crypto : Crypto) (config : Config) (user : User) (d : Nat)
    (passcode key pin : List Byte) (counter : Nat) : Prop :=
  ∃ otp, hotp crypto (credentials crypto config user d passcode key pin).1 counter d = some otp ∧
    passcode = joinPin config (credentials crypto config user d passcode key pin).2 otp

/-! ## `decrypt` -/

theorem decryptFrom_eq {key : List Byte} (nonempty : key ≠ []) :
    ∀ (data : List Byte) (j : Nat), j ≤ key.length →
      decryptFrom key j data = data.mapIdx fun i b => b ^^^ key.getD ((j + i) % key.length) 0 := by
  have positive : 0 < key.length := List.length_pos_iff.mpr nonempty
  intro data
  induction data with
  | nil =>
      intro j _
      rfl
  | cons b rest ih =>
      intro j inside
      by_cases wrap : j = key.length
      · subst wrap
        simp only [decryptFrom, if_true, List.mapIdx_cons, Nat.add_zero, Nat.mod_self]
        rw [ih 1 positive]
        congr 2
        funext i b
        rw [Nat.add_comm i 1, Nat.add_mod_left]
      · simp only [decryptFrom, if_neg wrap, List.mapIdx_cons, Nat.add_zero]
        rw [Nat.mod_eq_of_lt (by omega), ih (j + 1) (by omega)]
        congr 2
        funext i b
        rw [Nat.add_right_comm, Nat.add_assoc]

theorem decrypt_eq (data key : List Byte) : decrypt data key = cyclicXor data key := by
  by_cases empty : key = []
  · subst empty
    rw [decrypt, if_pos rfl]
    apply List.ext_getElem
    · simp
    · intro i _ _
      simp [cyclicXor]
  · rw [decrypt, if_neg empty, decryptFrom_eq empty data 0 (Nat.zero_le _), cyclicXor]
    simp

/-! ## The decoded user -/

section Decrypt

variable {crypto : Crypto} {config : Config} {request : Request} {undef : Undef} {user : User}
  {featuremask : UInt32} {key pin : List Byte} {passcode : CString 47} {d : Nat}

/-- What the length checks ask of the passcode and of the stored PIN. -/
def FitsLength (user : User) (d length : Nat) (pin : List Byte) : Prop :=
  match user.encryptmode with
  | .clear | .keyid => d + pin.length = length
  | .pin | .pinmd5 => pin = [] ∧ d ≤ length ∧ length - d ≤ otpMaxPinLen

theorem credentials_length (passcode : List Byte) :
    (credentials crypto config user d passcode key pin).1.length = key.length := by
  unfold credentials
  split
  · rfl
  · exact cyclicXor_length _ _
  · exact cyclicXor_length _ _
  · exact cyclicXor_length _ _

theorem decryptWithPin_iff (md5 : Bool) (given : request.pwe = .pap passcode)
    (opened : List Byte × List Byte) :
    decryptWithPin crypto config request md5 d pin.length key = .ok opened ↔
      (pin = [] ∧ d ≤ passcode.bytes.length ∧ passcode.bytes.length - d ≤ otpMaxPinLen) ∧
        opened = (cyclicXor key (if md5 then crypto.md5 (typedPin config d passcode.bytes)
          else typedPin config d passcode.bytes), typedPin config d passcode.bytes) := by
  have cut : (if config.prependPin then passcode.bytes.take (passcode.bytes.length - d)
      else passcode.bytes.drop d) = typedPin config d passcode.bytes := rfl
  simp only [decryptWithPin, given]
  by_cases stored : pin = []
  · subst stored
    rw [if_neg (by simp)]
    by_cases long : d ≤ passcode.bytes.length
    · rw [if_neg (by omega)]
      by_cases short : passcode.bytes.length - d ≤ otpMaxPinLen
      · rw [if_neg (by omega)]
        simp only [cut, decrypt_eq, Except.ok.injEq, long, short, and_self, true_and]
        exact eq_comm
      · rw [if_pos (by omega)]
        simp [short]
    · rw [if_pos (by omega)]
      simp [long]
  · rw [if_pos (by simpa using stored)]
    simp [stored]

theorem decryptUser_iff {user' : User} (given : request.pwe = .pap passcode)
    (pinned : a2x user.pinstring = some pin)
    (slot : user.encryptmode = .keyid → ∃ k, config.key[user.keyid]? = some (some k)) :
    decryptUser crypto config request undef (decodedUser undef user featuremask key) d
        (pinLenOf user.pinstring) = .ok user' ↔
      FitsLength user d passcode.bytes.length pin ∧
        user' = { decodedUser undef user featuremask key with
          key := (credentials crypto config user d passcode.bytes key pin).1
          pin := (credentials crypto config user d passcode.bytes key pin).2 } := by
  have pinLen : pinLenOf user.pinstring = pin.length := by
    simp [pinLenOf, pinned]
  have decoded : (decodedUser undef user featuremask key).pin = pin := by
    simp [decodedUser, pinned]
  have whole : decodedUser undef user featuremask key =
      { decodedUser undef user featuremask key with key := key, pin := pin } := by
    simp [decodedUser, pinned]
  have sameMode : (decodedUser undef user featuremask key).encryptmode = user.encryptmode := rfl
  have sameKey : (decodedUser undef user featuremask key).key = key := rfl
  have sameId : (decodedUser undef user featuremask key).keyid = user.keyid := rfl
  have wrong : wrongLength request d pin.length = true ↔ d + pin.length ≠ passcode.bytes.length := by
    simp only [wrongLength, given, ne_eq, decide_not, Bool.not_eq_true', decide_eq_false_iff_not]
    omega
  have withPin : ∀ md5, (do
      let opened ← decryptWithPin crypto config request md5 d pin.length key
      Except.ok { decodedUser undef user featuremask key with key := opened.1, pin := opened.2 } :
        Except EarlyExit User) = .ok user' ↔
      (pin = [] ∧ d ≤ passcode.bytes.length ∧ passcode.bytes.length - d ≤ otpMaxPinLen) ∧
        user' = { decodedUser undef user featuremask key with
          key := cyclicXor key (if md5 then crypto.md5 (typedPin config d passcode.bytes)
            else typedPin config d passcode.bytes)
          pin := typedPin config d passcode.bytes } := by
    intro md5
    have opens : ∀ opened, decryptWithPin crypto config request md5 d pin.length key = .ok opened ↔ _ :=
      decryptWithPin_iff md5 given
    cases opened : decryptWithPin crypto config request md5 d pin.length key with
    | error exit =>
        constructor
        · intro success
          cases success
        · rintro ⟨fits, -⟩
          cases opened.symm.trans ((opens _).mpr ⟨fits, rfl⟩)
    | ok pair =>
        obtain ⟨fits, exact⟩ := (opens pair).mp opened
        subst exact
        constructor
        · intro success
          cases success
          exact ⟨fits, rfl⟩
        · rintro ⟨-, rfl⟩
          rfl
  rw [pinLen]
  cases mode : user.encryptmode with
  | clear =>
      simp only [sameMode, mode] at whole
      simp only [decryptUser, sameMode, mode, FitsLength, credentials]
      by_cases fits : d + pin.length = passcode.bytes.length
      · rw [if_neg (by rw [wrong]; exact not_not.mpr fits), Except.ok.injEq]
        rw [← whole]
        simp only [fits, true_and]
        exact eq_comm
      · rw [if_pos (wrong.mpr fits)]
        simp [fits]
  | keyid =>
      obtain ⟨k, configured⟩ := slot mode
      have found : passwdKey config undef user.keyid = k := by
        simp [passwdKey, configured]
      simp only [decryptUser, sameMode, mode, FitsLength, credentials, sameId, found, configured,
        decrypt_eq, sameKey, decoded, Option.join_some, Option.getD_some]
      by_cases fits : d + pin.length = passcode.bytes.length
      · rw [if_neg (by rw [wrong]; exact not_not.mpr fits), Except.ok.injEq]
        simp only [fits, true_and]
        exact eq_comm
      · rw [if_pos (wrong.mpr fits)]
        simp [fits]
  | pin =>
      simpa only [decryptUser, sameMode, mode, FitsLength, credentials, sameKey, reduceCtorEq,
        decide_false, Bool.false_eq_true, if_false] using withPin false
  | pinmd5 =>
      simpa only [decryptUser, sameMode, mode, FitsLength, credentials, sameKey, decide_true,
        if_true] using withPin true

end Decrypt

/-! ## Window positions as counters -/

section Counters

variable {crypto : Crypto} {undef : Undef} {config : Config} (env : Env) {p : Prepared}
  (data : CardData) {challenge : Buffer 16} {c : Nat}

theorem nextCounter_eq (value : beNat (challenge.bytes.take 8) = c)
    (small : c < 2 ^ 31) : nextCounter challenge = UInt64.ofNat (c + 1) := by
  have stepped := hotpChallenge_counter (hmacUser "") State.init.toCardData challenge 0 0 0
    (by omega)
  have size : (c2c (nextCounter challenge)).length = 8 := rfl
  rw [hotpChallenge_eq, Buffer.copy_take_of_eq challenge (by decide) size, (c2c_counter _).2,
    value] at stepped
  have fits : c + 1 < 2 ^ 64 := by omega
  rw [← UInt64.toNat_inj, stepped, UInt64.toNat_ofNat', Nat.mod_eq_of_lt fits]

/-- Each position steps the counter by one; nothing else of the card data that a
response reads changes. -/
theorem positionBefore_hotp (runs : p.ops = CardModule.hotp.ops crypto undef)
    (start : beNat (challenge.bytes.take 8) = c) :
    ∀ e, c + e ≤ 2 ^ 31 →
      beNat ((positionBefore env p data challenge e).2.bytes.take 8) = c + e ∧
        (positionBefore env p data challenge e).1.scratch1 = data.scratch1 := by
  intro e
  induction e with
  | zero =>
      intro _
      exact ⟨start, rfl⟩
  | succ e ih =>
      intro small
      obtain ⟨value, scratch⟩ := ih (by omega)
      have stepped := hotpChallenge_counter p.user (positionBefore env p data challenge e).1
        (positionBefore env p data challenge e).2 env.now 0 e (by omega)
      have next : positionBefore env p data challenge (e + 1) =
          (hotpChallenge p.user (positionBefore env p data challenge e).1
            (positionBefore env p data challenge e).2 env.now 0 e).2 := by
        rw [positionBefore, positionAt_eq, runs]
        rfl
      rw [next]
      refine ⟨?_, scratch⟩
      rw [stepped, value]
      omega

theorem passcodeAt_counter (runs : p.ops = CardModule.hotp.ops crypto undef)
    (start : beNat (challenge.bytes.take 8) = c) {e : Nat} (small : c + e < 2 ^ 31) :
    passcodeAt config env p data challenge e =
      (hotp crypto (p.user.key.take data.scratch1) (c + 1 + e) (otpLenOf p.user.featuremask)).map
        (expectedPasscode config p.user) := by
  obtain ⟨value, scratch⟩ := positionBefore_hotp env data runs start e (by omega)
  rw [passcodeAt_hotp runs, scratch, nextCounter_eq value small, hotp]
  congr 4
  omega

theorem positionAt_counter (runs : p.ops = CardModule.hotp.ops crypto undef)
    (start : beNat (challenge.bytes.take 8) = c) {e : Nat} (small : c + e < 2 ^ 31) :
    (positionAt env p data challenge e).2.2.bytes.take 8 = c2c (UInt64.ofNat (c + 1 + e)) ∧
      (positionAt env p data challenge e).2.1.clen = eventClen := by
  obtain ⟨value, -⟩ := positionBefore_hotp env data runs start e (by omega)
  have size : ∀ counter, (c2c counter).length = 8 := fun _ => rfl
  simp only [positionAt_eq, runs, CardModule.ops, hotpCardops, hotpChallenge_eq]
  rw [Buffer.copy_take_of_eq _ (by decide) (size _), nextCounter_eq value small]
  refine ⟨?_, trivial⟩
  congr 2
  omega

end Counters

/-! ## Logins -/

/-- A PAP request for sync authentication with an HOTP card of six to nine digits, whose
stored challenge is a counter. -/
structure HotpLogin (crypto : Crypto) (call : Call) (store : Store) where
  user : User
  featuremask : UInt32
  key : List Byte
  pin : List Byte
  passcode : CString 47
  record : StateRecord
  found : call.env.get = .found user
  noPassword : user.password = none
  card : cardOf user.card = some .hotp
  mask : lookupCard hotpCard user.card = some featuremask
  digits : 6 ≤ otpLenOf featuremask
  keyed : hmacKeystring2key user.keystring = some (key, key.length)
  pinned : a2x user.pinstring = some pin
  slot : user.encryptmode = .keyid → ∃ k, call.config.key[user.keyid]? = some (some k)
  given : call.request.pwe = .pap passcode
  sync : call.request.allowSync = true
  noNul : (0 : Byte) ∉
    (credentials crypto call.config user (otpLenOf featuremask) passcode.bytes key pin).2
  stored : recordIn call.config.stateMode call.request.username store = some record
  eight : record.challenge.length = 8
  small : (beNat record.challenge : Int) + call.window < 2 ^ 31

theorem Attempt.recordIn_saved {crypto : Crypto} {call : Call} {store : Store} {m : CardModule}
    {r : StateRecord} {p : Prepared} {state : State} {l : Locals}
    (attempt : Attempt crypto call store (serve crypto store call).1 m r p state l)
    (accepted : (serve crypto store call).1.rc = .ok) :
    recordIn call.config.stateMode call.request.username (serve crypto store call).2 =
      some (authDone call.env.now l).record := by
  have same : (serve crypto store call).2 = (serve crypto store call).1.store := rfl
  rcases attempt.written with ⟨-, -, written⟩ | ⟨rc, -⟩
  · rw [same, written, recordIn_persist]
  · rw [rc] at accepted
    cases accepted

namespace HotpLogin

variable {crypto : Crypto} {call : Call} {store : Store} (login : HotpLogin crypto call store)

def otpLen : Nat := otpLenOf login.featuremask

def counter : Nat := beNat login.record.challenge

/-- The decrypted key and PIN. -/
def opened : List Byte × List Byte :=
  credentials crypto call.config login.user login.otpLen login.passcode.bytes login.key login.pin

/-- The passcode is the one of position `e`. -/
def Correct (e : Nat) : Prop :=
  PasscodeOf crypto call.config login.user login.otpLen login.passcode.bytes login.key login.pin
    (login.counter + 1 + e)

/-- Time is left, the state is read and written, no PIN is stored where the passcode holds
it, and the HMACs up to position `e` can be computed. -/
structure Undisturbed (e : Nat) : Prop where
  early : ¬ call.config.timeout - call.env.hrGet < 500000000
  inTime : ¬ call.config.timeout - call.env.hrGet - call.env.hrState < 250000000
  granted : call.env.io.granted = true
  readable : call.env.io.readable = true
  put : call.env.io.put = .done
  noStoredPin : login.user.encryptmode = .pin ∨ login.user.encryptmode = .pinmd5 → login.pin = []
  computed : ∀ k < e, hotp crypto login.opened.1 (login.counter + 1 + k) login.otpLen ≠ none

/-- A PIN taken from the passcode is short enough for `user->pin`. -/
def ShortPin : Prop :=
  login.user.encryptmode = .pin ∨ login.user.encryptmode = .pinmd5 →
    login.opened.2.length ≤ otpMaxPinLen

def prepared : Prepared where
  user := { decodedUser call.env.undef login.user login.featuremask login.key with
    key := login.opened.1
    pin := login.opened.2 }
  ops := CardModule.hotp.ops crypto call.env.undef
  scratch1 := login.key.length

theorem prepareCall_iff_fits :
    prepareCall crypto call = .ok login.prepared ↔
      FitsLength login.user login.otpLen login.passcode.bytes.length login.pin ∧
        ¬ call.config.timeout - call.env.hrGet < 500000000 := by
  rw [prepareCall_iff]
  constructor
  · rintro ⟨user, m, featuremask, key, found, -, card, mask, keyed, -, opened, inTime⟩
    cases login.found.symm.trans found
    cases login.card.symm.trans card
    cases login.mask.symm.trans mask
    cases login.keyed.symm.trans keyed
    exact ⟨((decryptUser_iff login.given login.pinned login.slot).mp opened).1, inTime⟩
  · rintro ⟨fits, inTime⟩
    exact ⟨login.user, .hotp, login.featuremask, login.key, login.found, login.noPassword, login.card,
      login.mask, login.keyed, rfl, (decryptUser_iff login.given login.pinned login.slot).mpr
        ⟨fits, rfl⟩, inTime⟩

theorem prepared_eq {p : Prepared} (prepared : prepareCall crypto call = .ok p) :
    p = login.prepared := by
  obtain ⟨user, m, featuremask, key, found, -, card, mask, keyed, ops, opened, -⟩ :=
    prepareCall_iff.mp prepared
  cases login.found.symm.trans found
  cases login.card.symm.trans card
  cases login.mask.symm.trans mask
  have same := login.keyed.symm.trans keyed
  simp only [Option.some.injEq, Prod.mk.injEq] at same
  obtain ⟨rfl, scratch⟩ := same
  obtain ⟨-, exact⟩ := (decryptUser_iff login.given login.pinned login.slot).mp opened
  obtain ⟨user', ops', scratch'⟩ := p
  dsimp only at ops scratch exact
  subst ops scratch exact
  rfl

theorem window_eq : eendOf call.config login.prepared.user = call.window := by
  have mask : login.prepared.user.featuremask ∈ CardModule.hotp.masks := lookupCard_mem login.mask
  have event := (CardModule.hotp.masks_event (by decide) _ mask).2
  have same : eendOf call.config login.prepared.user =
      eendOf call.config { login.user with featuremask := otpCfEs } :=
    eendOf_event event (CardModule.hotp.masks_noFrw _ mask) rfl
  simp only [same, Call.window, login.found]

theorem noAsync : asyncPossible call.request login.prepared.user = false := by
  have mask : login.prepared.user.featuremask ∈ CardModule.hotp.masks := lookupCard_mem login.mask
  have off := (CardModule.hotp.masks_event (by decide) _ mask).1
  simp [asyncPossible, off]

section Window

variable {resolved : State}

/-- The state is the one that was loaded from the line. -/
def Loaded (resolved : State) : Prop :=
  resolved.toCardData = (loadedState login.prepared.state login.record).toCardData

variable {login}

theorem Loaded.start (loaded : login.Loaded resolved) :
    beNat ((windowBase call.config call.request call.env login.prepared
      resolved.toCardData).bytes.take 8) = login.counter := by
  have stored : resolved.toCardData.challenge.bytes.take resolved.toCardData.clen =
      login.record.challenge := by
    rw [loaded]
    exact congrArg StateRecord.challenge (State.record_fill login.prepared.state login.record)
  rw [windowBase, stored, Buffer.copy_take_of_eq _ (by decide) login.eight, counter]

theorem Loaded.passcode (loaded : login.Loaded resolved) {e : Nat}
    (inside : (e : Int) ≤ call.window) :
    windowPasscode call login.prepared resolved e =
      (hotp crypto login.opened.1 (login.counter + 1 + e) login.otpLen).map
        (joinPin call.config login.opened.2) := by
  have small := login.small
  have whole : login.prepared.user.key.take resolved.toCardData.scratch1 = login.opened.1 := by
    have scratch : resolved.toCardData.scratch1 = login.key.length := by
      rw [loaded]
      rfl
    rw [scratch]
    exact List.take_of_length_le (Nat.le_of_eq (credentials_length _))
  have pin : cstr login.prepared.user.pin = login.opened.2 := by
    apply List.takeWhile_eq_self_iff.mpr
    intro b member
    have : b ≠ 0 := by
      rintro rfl
      exact login.noNul member
    simpa using this
  have joined : expectedPasscode call.config login.prepared.user =
      joinPin call.config login.opened.2 := by
    funext response
    rw [expectedPasscode, joinPin, pin]
  have runs : login.prepared.ops = CardModule.hotp.ops crypto call.env.undef := rfl
  rw [windowPasscode, passcodeAt_counter call.env resolved.toCardData runs loaded.start
    (by rw [counter]; omega), whole, joined]
  rfl

theorem Loaded.correct_iff (loaded : login.Loaded resolved) {e : Nat}
    (inside : (e : Int) ≤ call.window) :
    login.Correct e ↔ ∃ passcode, windowPasscode call login.prepared resolved e = some passcode ∧
      compare crypto call.request passcode = true := by
  rw [loaded.passcode inside]
  simp only [Correct, PasscodeOf, compare, login.given, beq_iff_eq, Option.map_eq_some_iff]
  constructor
  · rintro ⟨otp, computed, exact⟩
    exact ⟨_, ⟨otp, computed, rfl⟩, exact⟩
  · rintro ⟨_, ⟨otp, computed, rfl⟩, exact⟩
    exact ⟨otp, computed, exact⟩

end Window

/-! ### Only correct passcodes are accepted -/

theorem loads_eq {state : State} (loads : Loads login.prepared login.record state) :
    state = loadedState login.prepared.state login.record := by
  rcases loads with exact | ⟨blank, -⟩
  · exact exact
  · have eight := login.eight
    rw [blank] at eight
    cases eight

theorem authenticate_ended {state : State} {l : Locals}
    (loads : Loads login.prepared login.record state)
    (result : authenticate crypto call.config call.request call.env login.prepared state =
      (.authDone, l)) :
    ∃ resolved, login.Loaded resolved ∧
      LoopEnd crypto call.config call.request call.env login.prepared
        (failCondition call.config call.env.undef resolved call.env.now) resolved.toCardData
        (windowBase call.config call.request call.env login.prepared resolved.toCardData) 0
        (call.window + 1).toNat (Locals.start call.request call.env .authErr resolved)
        (.authDone, l) := by
  have runs : login.prepared.ops = CardModule.hotp.ops crypto call.env.undef := rfl
  obtain ⟨resolved, found⟩ := authenticate_resolved _ _ _ _ _ result
  have data := (loads.resolves runs found).data
  rw [login.loads_eq loads] at data
  have inTime : ¬ call.config.timeout - call.env.hrGet - call.env.hrState < 250000000 := by
    intro late
    simp only [authenticate, found, if_pos late] at result
    cases result
  have on : syncPossible call.request login.prepared = true := by
    simp only [syncPossible, Bool.and_eq_true]
    exact ⟨hotp_masks_sync (lookupCard_mem login.mask), login.sync⟩
  have notAsync : asyncMatches crypto call.config call.request call.env login.prepared
      resolved.toCardData = false := by
    simp [asyncMatches, login.noAsync]
  have ended := authenticate_window (p := login.prepared)
    (CardModule.hotp.noEarly crypto call.env.undef) found inTime on rfl notAsync
    (by rw [login.noAsync]; exact fun wrong => by cases wrong)
  rw [result, login.window_eq] at ended
  exact ⟨resolved, data, ended⟩

/-- The counter that is persisted is the one of the first matching position. -/
theorem sound (accepted : (serve crypto store call).1.rc = .ok) :
    ∃ e : Nat, (e : Int) ≤ call.window ∧ IsLeast { n | login.Correct n } e ∧
      ∃ r, recordIn call.config.stateMode call.request.username (serve crypto store call).2 = some r ∧
        r.challenge = c2c (UInt64.ofNat (login.counter + 1 + e)) := by
  have noPassword : ∀ user, call.env.get = .found user → user.password = none := by
    intro user found
    cases login.found.symm.trans found
    exact login.noPassword
  rcases serve_cases crypto store call noPassword with untouched | ⟨m, r, p, state, l, attempt⟩
  · exact (untouched.not_ok accepted).elim
  · have same := login.prepared_eq attempt.prepared
    subst same
    have record : r = login.record :=
      Option.some.inj (attempt.stored.symm.trans (kept_of_recordIn login.stored))
    subst record
    obtain ⟨resolved, loaded, ended⟩ := login.authenticate_ended attempt.loads attempt.result
    have success := attempt.ok_rc accepted
    generalize ending : (Label.authDone, l) = result at ended
    cases ended with
    | failed e result _ _ _ _ label =>
        subst ending
        cases label
    | wrong result _ _ rc =>
        subst ending
        rw [success] at rc
        cases rc
    | hit e passcode _ inside earlier expected equal =>
        have within : (e : Int) ≤ call.window := by omega
        have small := login.small
        have runs : login.prepared.ops = CardModule.hotp.ops crypto call.env.undef := rfl
        have stepped := positionAt_counter call.env resolved.toCardData runs loaded.start
          (show login.counter + e < 2 ^ 31 by rw [counter]; omega)
        refine ⟨e, within, ⟨(loaded.correct_iff within).mpr ⟨passcode, expected, equal⟩, ?_⟩, ?_⟩
        · intro k correct
          by_contra before
          obtain ⟨other, same, different⟩ := earlier k (Nat.zero_le _) (by omega)
          obtain ⟨passcode', expected', equal'⟩ := (loaded.correct_iff (by omega)).mp correct
          cases same.symm.trans expected'
          rw [equal'] at different
          cases different
        · obtain ⟨sameChallenge, resync, rc, updated⟩ := syncMatch_done ending.symm
          have clen : l.state.clen = eventClen := by
            rw [CardModule.hotp.updatecsd_data crypto call.env.undef updated,
              (CardModule.hotp.recorded_fields _ rc e).1]
            exact stepped.2
          refine ⟨_, attempt.recordIn_saved accepted, ?_⟩
          rw [authDone_challenge, if_pos ⟨success, resync⟩, sameChallenge, clen]
          exact stepped.1

/-! ### Correct passcodes are accepted -/

theorem fitsLength {e : Nat} (correct : login.Correct e) (undisturbed : login.Undisturbed e)
    (shortPin : login.ShortPin) :
    FitsLength login.user login.otpLen login.passcode.bytes.length login.pin := by
  obtain ⟨otp, computed, exact⟩ := correct
  have digits := hotpMac_length computed
  have length : login.passcode.bytes.length = login.opened.2.length + login.otpLen := by
    rw [exact, joinPin]
    split
    · rw [List.length_append, digits, opened]
    · rw [List.length_append, digits, opened, Nat.add_comm]
  unfold FitsLength
  cases mode : login.user.encryptmode with
  | clear =>
      have pin : login.opened.2 = login.pin := by simp only [opened, credentials, mode]
      rw [pin] at length
      omega
  | keyid =>
      have pin : login.opened.2.length = login.pin.length := by
        simp only [opened, credentials, mode, cyclicXor_length]
      rw [pin] at length
      omega
  | pin =>
      have short := shortPin (Or.inl mode)
      exact ⟨undisturbed.noStoredPin (Or.inl mode), by omega, by omega⟩
  | pinmd5 =>
      have short := shortPin (Or.inr mode)
      exact ⟨undisturbed.noStoredPin (Or.inr mode), by omega, by omega⟩

theorem complete {e : Nat} (correct : login.Correct e) (within : (e : Int) ≤ call.window)
    (normal : e ≤ call.config.ewindowSize.toNat) (signed : call.config.ewindowSize.toNat < 2 ^ 31)
    (undisturbed : login.Undisturbed e) (shortPin : login.ShortPin)
    (healthy : failCondition call.config call.env.undef (judged login.record) call.env.now = .none)
    (later : absTime login.record.authtime < call.env.now.toU32) :
    (serve crypto store call).1.rc = .ok := by
  have runs : login.prepared.ops = CardModule.hotp.ops crypto call.env.undef := rfl
  obtain ⟨resolved, found, loaded⟩ := resolveNullstate_loaded login.prepared
    (loadedState login.prepared.state login.record) call.env.now rfl
  have resolves := Loads.resolves (Or.inl rfl) runs found
  have reaches : ReachesWindow crypto store call login.prepared resolved := by
    refine ⟨login.prepareCall_iff_fits.mpr
      ⟨login.fitsLength correct undisturbed shortPin, undisturbed.early⟩,
      ⟨_, stateGet_stored login.stored undisturbed.granted undisturbed.readable, found⟩,
      undisturbed.inTime, ?_, ?_, undisturbed.put⟩
    · simp only [syncPossible, Bool.and_eq_true]
      exact ⟨hotp_masks_sync (lookupCard_mem login.mask), login.sync⟩
    · simp [asyncMatches, login.noAsync]
  have sameFc : failCondition call.config call.env.undef resolved call.env.now =
      failCondition call.config call.env.undef (judged login.record) call.env.now :=
    failCondition_congr _ _ _ resolves.failcount resolves.authtime resolves.nullstate
  have loaded' : login.Loaded resolved := loaded
  obtain ⟨passcode, expected, equal⟩ := (loaded'.correct_iff within).mp correct
  refine reaches.accepts (sameFc.trans healthy) (by rw [resolves.authtime]; exact later) (e := e) ?_ ?_
    ?_ expected equal
  · rw [toInt32_toInt, if_pos signed]
    omega
  · rw [login.window_eq]
    exact within
  · intro k before
    rw [loaded'.passcode (by omega)]
    simpa using undisturbed.computed k before

end HotpLogin

/-- Sync authentication with PIN: a passcode is accepted only if it is the one of a position
in the window, the counter of the first such position is persisted, and within the normal
window such a passcode is accepted. -/
theorem hotp_sync_correct (crypto : Crypto) (call : Call) (store : Store)
    (login : HotpLogin crypto call store) :
    ((serve crypto store call).1.rc = .ok →
      ∃ e : Nat, (e : Int) ≤ call.window ∧ IsLeast { n | login.Correct n } e ∧
        ∃ r, recordIn call.config.stateMode call.request.username (serve crypto store call).2 =
            some r ∧ r.challenge = c2c (UInt64.ofNat (login.counter + 1 + e))) ∧
      (∀ e : Nat, IsLeast { n | login.Correct n } e → (e : Int) ≤ call.window →
        e ≤ call.config.ewindowSize.toNat → call.config.ewindowSize.toNat < 2 ^ 31 →
        login.Undisturbed e → login.ShortPin →
        failCondition call.config call.env.undef (judged login.record) call.env.now = .none →
        absTime login.record.authtime < call.env.now.toU32 →
        (serve crypto store call).1.rc = .ok) := by
  refine ⟨login.sound, ?_⟩
  intro e least within normal signed undisturbed shortPin healthy later
  exact login.complete least.1 within normal signed undisturbed shortPin healthy later

/-! ### Cards opened by the PIN in the passcode -/

def pinLockedUser (keystring : String) : User :=
  { hmacUser "hotp-d6" with keystring := ascii keystring, encryptmode := .pin }

theorem pinLocked_slot {keystring : String} {keys : List (Option (List Byte))}
    (mode : (pinLockedUser keystring).encryptmode = .keyid) :
    ∃ k, keys[(pinLockedUser keystring).keyid]? = some (some k) := by
  cases mode

/-- `rfcKey` under the PIN 1234. -/
def shortPinLogin : HotpLogin sampleCrypto
    (papCall (pinLockedUser "000000000404040c0802020602060602060a0a04") "1234287082" 1000)
    (stateLine "5:bob:0000000000000000:::0:0:0:") where
  user := pinLockedUser "000000000404040c0802020602060602060a0a04"
  featuremask := otpCfEs ||| hotpCfLen6
  key := [0, 0, 0, 0, 4, 4, 4, 12, 8, 2, 2, 6, 2, 6, 6, 2, 6, 10, 10, 4]
  pin := []
  passcode := textOf 47 "1234287082"
  record := ⟨List.replicate 8 0, by decide, StateField.empty 63, StateField.empty 31, 0, 0, 0⟩
  found := rfl
  noPassword := rfl
  card := by decide +kernel
  mask := by decide +kernel
  digits := by decide +kernel
  keyed := by decide +kernel
  pinned := by decide +kernel
  slot := pinLocked_slot
  given := rfl
  sync := rfl
  noNul := by decide +kernel
  stored := by decide +kernel
  eight := rfl
  small := by decide +kernel

theorem shortPinLogin_correct : shortPinLogin.Correct 0 :=
  ⟨ascii "287082", by decide +kernel, by decide +kernel⟩

theorem hotp_sync_short_pin :
    (serve sampleCrypto (stateLine "5:bob:0000000000000000:::0:0:0:")
      (papCall (pinLockedUser "000000000404040c0802020602060602060a0a04") "1234287082" 1000)).1.rc = .ok :=
  (hotp_sync_correct sampleCrypto _ _ shortPinLogin).2 0
    ⟨shortPinLogin_correct, fun _ _ => Nat.zero_le _⟩ (by decide +kernel) (by decide +kernel)
    (by decide +kernel)
    ⟨by decide +kernel, by decide +kernel, rfl, rfl, rfl, fun _ => rfl, fun _ before => by omega⟩
    (fun _ => by decide +kernel) (by decide +kernel) (by decide +kernel)

/-- `rfcKey` under a PIN of 17 characters. -/
def longPinLogin : HotpLogin sampleCrypto
    (papCall (pinLockedUser "0000000000000000000000000000000000090b03") "12345678901234567287082" 1000)
    (stateLine "5:bob:0000000000000000:::0:0:0:") where
  user := pinLockedUser "0000000000000000000000000000000000090b03"
  featuremask := otpCfEs ||| hotpCfLen6
  key := List.replicate 17 0 ++ [9, 11, 3]
  pin := []
  passcode := textOf 47 "12345678901234567287082"
  record := ⟨List.replicate 8 0, by decide, StateField.empty 63, StateField.empty 31, 0, 0, 0⟩
  found := rfl
  noPassword := rfl
  card := by decide +kernel
  mask := by decide +kernel
  digits := by decide +kernel
  keyed := by decide +kernel
  pinned := by decide +kernel
  slot := pinLocked_slot
  given := rfl
  sync := rfl
  noNul := by decide +kernel
  stored := by decide +kernel
  eight := rfl
  small := by decide +kernel

/-- The correct passcode with that PIN is refused. -/
theorem hotp_sync_long_pin :
    IsLeast { n | longPinLogin.Correct n } 0 ∧ longPinLogin.Undisturbed 0 ∧
      failCondition defaultConfig (sampleEnv longPinLogin.user 1000).undef
        (judged longPinLogin.record) 1000 = .none ∧
      absTime longPinLogin.record.authtime < Time.toU32 1000 ∧
      (serve sampleCrypto (stateLine "5:bob:0000000000000000:::0:0:0:")
        (papCall (pinLockedUser "0000000000000000000000000000000000090b03") "12345678901234567287082"
          1000)).1.rc = .authErr := by
  refine ⟨⟨⟨ascii "287082", by decide +kernel, by decide +kernel⟩, fun _ _ => Nat.zero_le _⟩,
    ⟨by decide +kernel, by decide +kernel, rfl, rfl, rfl, fun _ => rfl, fun _ before => by omega⟩,
    by decide +kernel, by decide +kernel, by decide +kernel⟩

end Otpd

import Otpd.EventWindow
import Otpd.HotpSync

/-!
# `resynctool`

The tool has its own hex conversion, its own HOTP and its own counter encoding, and
prints the state line with one `printf`.  Here they are the daemon's in other words, and the
printed line is one that the daemon would have written.
-/

set_option autoImplicit false

namespace Otpd

open CMem

namespace Resynctool

/-! ## `resynctool.c` -/

def a2x (s : List Byte) : Option (List Byte) := a2nx s (s.length / 2)

/-- `(l & ~1) > 64` turns the keystring down. -/
def keystring2keyblock (keystring : List Byte) : Option (List Byte) :=
  if 2 * (keystring.length / 2) > 64 then none else a2x keystring

/-- `printf("%02x", b)`. -/
def printHex02 (b : Byte) : List Byte :=
  let digits := printHex b.toUInt32
  List.replicate (2 - digits.length) 48 ++ digits

def x2a (challenge : Buffer 8) : List Byte := challenge.bytes.flatMap printHex02

def c2c (counter : UInt64) : Buffer 8 :=
  ⟨[(counter >>> 56).toUInt8, (counter >>> 48).toUInt8, (counter >>> 40).toUInt8,
    (counter >>> 32).toUInt8, (counter >>> 24).toUInt8, (counter >>> 16).toUInt8,
    (counter >>> 8).toUInt8, counter.toUInt8], rfl⟩

/-- The result of `HMAC` is ignored; `md` is what the array holds before the call. -/
def hotp (crypto : Crypto) (md : Buffer 20) (challenge : Buffer 8) (keyblock : List Byte) :
    List Byte :=
  let md := match crypto.hmac keyblock challenge.bytes with
    | some hmac => md.copy hmac
    | none => md
  let offset := (md.get 19 &&& 0x0F).toNat
  let dbc : UInt32 :=
    ((md.get offset &&& 0x7F).toUInt32 <<< (24 : UInt32)) |||
    ((md.get (offset + 1)).toUInt32 <<< (16 : UInt32)) |||
    ((md.get (offset + 2)).toUInt32 <<< (8 : UInt32)) |||
    (md.get (offset + 3)).toUInt32
  printDec 6 (dbc.toNat % 1000000)

/-- "The new state containing the last used challenge". -/
def stateOutput (username : List Byte) (challenge : Buffer 8) : List Byte :=
  ascii "5:" ++ (username ++ (ascii ":" ++ (x2a challenge ++ ascii ":::0:0:0:\n")))

/-- `argv` after `getopt`; `-c` and `-i` both set `initial`. -/
structure Options where
  username : List Byte
  keystring : List Byte
  pass1 : List Byte
  pass2 : List Byte
  initial : UInt64
  final : UInt64

inductive Exit where
  | passcodeLength (n : Nat)
  | keyInvalid
  | printed (line : List Byte)
  | notFound
  deriving DecidableEq

/-- The search, for at most `fuel` passes: it need not end when `final` is stepped over. -/
def search (crypto : Crypto) (md : Buffer 20) (options : Options) (keyblock : List Byte)
    (final : UInt64) : Nat → UInt64 → Option Exit
  | 0, _ => none
  | fuel + 1, counter =>
      if counter < final then
        if hotp crypto md (c2c counter) keyblock = options.pass1 then
          -- the second passcode is looked for at the next counter
          if hotp crypto md (c2c (counter + 1)) keyblock = options.pass2 then
            some (.printed (stateOutput options.username (c2c (counter + 1))))
          else search crypto md options keyblock final fuel (counter + 2)
        else search crypto md options keyblock final fuel (counter + 1)
      else some .notFound

def main (crypto : Crypto) (md : Buffer 20) (options : Options) (fuel : Nat) : Option Exit :=
  if options.pass1.length ≠ 6 then some (.passcodeLength 1)
  else if options.pass2.length ≠ 6 then some (.passcodeLength 2)
  else
    let final := if options.final = 0 then options.initial + 65536 else options.final
    match keystring2keyblock options.keystring with
    | none => some .keyInvalid
    | some keyblock => search crypto md options keyblock final fuel options.initial

/-! ## The same as the daemon's -/

/-- `HMAC` with SHA-1 gives 20 bytes. -/
def HmacSha1 (crypto : Crypto) (key data : List Byte) : Prop :=
  ∃ hmac, crypto.hmac key data = some hmac ∧ hmac.length = 20

theorem c2c_eq (counter : UInt64) : (c2c counter).bytes = Otpd.c2c counter := rfl

theorem printHex02_eq (b : Byte) :
    printHex02 b = [x2aHexConversion.getD ((b >>> 4) &&& 0x0f).toNat 0,
      x2aHexConversion.getD (b &&& 0x0f).toNat 0] := by
  have table : ∀ n : Fin 256, printHex02 (UInt8.ofNat n) =
      [x2aHexConversion.getD ((UInt8.ofNat n >>> 4) &&& 0x0f).toNat 0,
        x2aHexConversion.getD (UInt8.ofNat n &&& 0x0f).toNat 0] := by
    decide +kernel
  have entry := table ⟨b.toNat, b.toNat_lt⟩
  simpa only [UInt8.ofNat_toNat] using entry

theorem x2a_eq (challenge : Buffer 8) :
    x2a challenge = Otpd.x2a challenge.bytes x2aHexConversion := by
  rw [x2a]
  induction challenge.bytes with
  | nil => rfl
  | cons b rest ih =>
      rw [List.flatMap_cons, printHex02_eq, ih]
      rfl

theorem hotp_eq {crypto : Crypto} {md : Buffer 20} {challenge : Buffer 8} {key : List Byte}
    (computed : HmacSha1 crypto key challenge.bytes) :
    hotpMac crypto challenge.bytes key 6 = some (hotp crypto md challenge key) := by
  obtain ⟨hmac, answered, twenty⟩ := computed
  have whole : (md.copy hmac).bytes = hmac := by
    rw [Buffer.copy_bytes md hmac (Nat.le_of_eq twenty), List.drop_of_length_le, List.append_nil]
    rw [md.size, twenty]
  simp only [hotpMac, hotp, answered, twenty, Buffer.get, whole]
  rfl

/-- A key of at least 16 bytes is the same for both. -/
theorem keystring2keyblock_eq {keystring key : List Byte}
    (keyed : keystring2keyblock keystring = some key) (sixteen : 16 ≤ key.length) :
    hmacKeystring2key keystring = some (key, key.length) := by
  simp only [keystring2keyblock, a2x] at keyed
  split at keyed
  · cases keyed
  · have length := a2nx_length keyed
    have long : ¬ keystring.length < 32 := by omega
    rw [hmacKeystring2key, if_neg long, keyed, length]
    rfl

/-! ## The line that is printed -/

def lastUsed (challenge : Buffer 8) : StateRecord where
  challenge := challenge.bytes
  challengeBound := by rw [challenge.size]; decide
  csd := StateField.empty 63
  rd := StateField.empty 31
  failcount := 0
  authtime := 0
  mincardtime := 0

/-- `state_write` would have written the same line. -/
theorem stateOutput_eq (username : Username) (challenge : Buffer 8) :
    stateOutput username.bytes challenge = stateWrite (stateUnparse username (lastUsed challenge)) := by
  have version : ascii "5:" = [53, 58] := by decide +kernel
  have delimiter : ascii ":" = [58] := by decide +kernel
  have rest : ascii ":::0:0:0:\n" = [58, 58, 58, 48, 58, 48, 58, 48, 58, 10] := by decide +kernel
  have zero : printHex 0 = [48] := rfl
  rw [stateWrite_unparse, stateOutput, version, delimiter, rest, x2a_eq]
  simp [stateUnparse, unparseFields, lastUsed, StateField.empty, zero]

theorem recordIn_stateOutput (mode : StateMode) (username : Username) (challenge : Buffer 8) :
    recordIn mode username (some (stateOutput username.bytes challenge)) =
      some (lastUsed challenge) := by
  rw [stateOutput_eq]
  exact recordIn_persist .localMode mode username (lastUsed challenge)

theorem stateOutput_read (username : Username) (challenge : Buffer 8) (fresh : State) :
    ∃ buf parsed, stateRead true (some (stateOutput username.bytes challenge)) = some buf ∧
      stateParse buf username fresh = some parsed ∧ parsed.nullstate = false ∧
      parsed.clen = eventClen ∧ parsed.record = lastUsed challenge := by
  obtain ⟨tail, delivered⟩ := deliver_persist .localMode .localMode username (lastUsed challenge)
  rw [stateOutput_eq]
  exact ⟨_, _, delivered, stateParse_unparse username (lastUsed challenge) tail fresh, rfl,
    Fin.ext challenge.size, fresh.record_fill (lastUsed challenge)⟩

section Search

variable {crypto : Crypto} {md : Buffer 20} {options : Options} {keyblock : List Byte}
  {final counter : UInt64} {fuel : Nat}

/-- What is printed is the line of a counter that has the second passcode, the one before
it having the first. -/
theorem search_printed {line : List Byte}
    (printed : search crypto md options keyblock final fuel counter = some (.printed line)) :
    ∃ n, line = stateOutput options.username (c2c (n + 1)) ∧
      hotp crypto md (c2c n) keyblock = options.pass1 ∧
      hotp crypto md (c2c (n + 1)) keyblock = options.pass2 := by
  induction fuel generalizing counter with
  | zero => cases printed
  | succ fuel ih =>
      simp only [search] at printed
      split at printed
      · split at printed
        · rename_i first
          split at printed
          · rename_i second
            cases printed
            exact ⟨counter, rfl, first, second⟩
          · exact ih printed
        · exact ih printed
      · cases printed

/-- Where the search goes from a counter below `final`. -/
theorem counter_next {final : UInt64} (room : final.toNat + 1 < 2 ^ 64)
    (below : counter.toNat < final.toNat) :
    (counter + 1).toNat = counter.toNat + 1 ∧ (counter + 2).toNat = counter.toNat + 2 := by
  constructor
  · rw [UInt64.toNat_add, UInt64.toNat_one]
    omega
  · rw [UInt64.toNat_add, show (2 : UInt64).toNat = 2 from rfl]
    omega

/-- The search ends, unless `final` is the last counter there is. -/
theorem search_total (room : final.toNat + 1 < 2 ^ 64)
    (enough : final.toNat - counter.toNat < fuel) :
    ∃ exit, search crypto md options keyblock final fuel counter = some exit := by
  induction fuel generalizing counter with
  | zero => omega
  | succ fuel ih =>
      simp only [search]
      split
      · rename_i before
        rw [UInt64.lt_iff_toNat_lt] at before
        obtain ⟨one, two⟩ := counter_next room before
        split
        · split
          · exact ⟨_, rfl⟩
          · exact ih (by omega)
        · exact ih (by omega)
      · exact ⟨_, rfl⟩

theorem main_printed {line : List Byte}
    (printed : main crypto md options fuel = some (.printed line)) :
    ∃ keyblock n, keystring2keyblock options.keystring = some keyblock ∧
      line = stateOutput options.username (c2c (n + 1)) ∧
      hotp crypto md (c2c n) keyblock = options.pass1 ∧
      hotp crypto md (c2c (n + 1)) keyblock = options.pass2 := by
  simp only [main] at printed
  split at printed
  · cases printed
  · split at printed
    · cases printed
    · split at printed
      · cases printed
      · rename_i keyblock keyed
        obtain ⟨n, line, first, second⟩ := search_printed printed
        exact ⟨keyblock, n, keyed, line, first, second⟩

/-- `main` ends: with the default range from any counter that is not among the last. -/
theorem main_total (room : options.final.toNat + 1 < 2 ^ 64)
    (default : options.final = 0 → options.initial.toNat + 65537 < 2 ^ 64)
    (enough : options.final.toNat + 65536 < fuel) :
    ∃ exit, main crypto md options fuel = some exit := by
  simp only [main]
  split
  · exact ⟨_, rfl⟩
  · split
    · exact ⟨_, rfl⟩
    · split
      · exact ⟨_, rfl⟩
      · split
        · rename_i none
          have start := default none
          have range : (options.initial + 65536).toNat = options.initial.toNat + 65536 := by
            rw [UInt64.toNat_add, show (65536 : UInt64).toNat = 65536 from rfl]
            omega
          exact search_total (by omega) (by omega)
        · exact search_total room (by omega)

end Search

/-! ## The next login -/

/-- The user and the request: the daemon reads the key that the tool was given, and the
passcode is the one the tool computes for counter `n + 1`; nothing fails and time is left. -/
structure NextLogin (crypto : Crypto) (md : Buffer 20) (n : Nat) (call : Call) (user : User)
    (key : List Byte) : Prop where
  found : call.env.get = .found user
  card : strcasecmpEq user.card (ascii "hotp-d6") = true
  keyed : hmacKeystring2key user.keystring = some (key, key.length)
  noPin : user.pinstring = []
  clear : user.encryptmode = .clear
  sync : call.request.allowSync = true
  computed : HmacSha1 crypto key (c2c (UInt64.ofNat (n + 1))).bytes
  presented : compare crypto call.request (hotp crypto md (c2c (UInt64.ofNat (n + 1))) key) = true
  early : ¬ call.config.timeout - call.env.hrGet < 500000000
  inTime : ¬ call.config.timeout - call.env.hrGet - call.env.hrState < 250000000
  granted : call.env.io.granted = true
  readable : call.env.io.readable = true
  put : call.env.io.put = .done

/-- Accepted at the first position, and the counter is the one stored. -/
structure AcceptedNext (n : Nat) (call : Call) (out : Outcome) : Prop where
  ok : out.rc = .ok
  position : ∃ challenge, out.matched = some (.sync 0 0 challenge eventClen) ∧
    challenge.bytes.take 8 = (c2c (UInt64.ofNat (n + 1))).bytes
  persisted : ∃ r, recordIn call.config.stateMode call.request.username out.store = some r ∧
    r.challenge = (c2c (UInt64.ofNat (n + 1))).bytes

/-- The windows are no negative `int`s. -/
def SignedWindows (config : Config) (user : User) : Prop :=
  (searchedWindow config user.rwindowSize).toNat < 2 ^ 31 ∧ config.ewindowSize.toNat < 2 ^ 31

def hotpD6 : UInt32 := otpCfEs ||| hotpCfLen6

theorem card_hotpD6 {card : List Byte} (same : strcasecmpEq card (ascii "hotp-d6") = true) :
    cardOf card = some .hotp ∧ lookupCard hotpCard card = some hotpD6 := by
  have lower : card.map toLower = (ascii "hotp-d6").map toLower := by
    simpa [strcasecmpEq] using same
  have named : cardOf card = cardOf (ascii "hotp-d6") := by
    simp only [cardOf, strncasecmpEq, strcasecmpEq, List.map_take, lower]
  have masked : lookupCard hotpCard card = lookupCard hotpCard (ascii "hotp-d6") := by
    simp only [lookupCard, strcasecmpEq, lower]
  rw [named, masked]
  exact ⟨by decide +kernel, by decide +kernel⟩

theorem hotpD6_digits : otpLenOf hotpD6 = 6 := by decide +kernel

theorem hotpD6_mask : hotpD6 ∈ CardModule.hotp.masks := by decide +kernel

section Login

variable {crypto : Crypto} {md : Buffer 20} {n : Nat} {call : Call} {user : User} {key : List Byte}

def nextPrepared (crypto : Crypto) (call : Call) (user : User) (key : List Byte) : Prepared where
  user := decodedUser call.env.undef user hotpD6 key
  ops := CardModule.hotp.ops crypto call.env.undef
  scratch1 := key.length

theorem NextLogin.otp (login : NextLogin crypto md n call user key) :
    Otpd.hotp crypto key (n + 1) 6 =
      some (hotp crypto md (c2c (UInt64.ofNat (n + 1))) key) :=
  hotp_eq login.computed

theorem NextLogin.rightLength (login : NextLogin crypto md n call user key) :
    wrongLength call.request 6 0 = false := by
  have presented := login.presented
  have six := hotpMac_length login.otp
  cases given : call.request.pwe with
  | pap passcode =>
      simp only [compare, given, beq_iff_eq] at presented
      simp only [wrongLength, given, presented, six]
      decide
  | chap data => simp [wrongLength, given]
  | mschap data => simp [wrongLength, given]
  | mschap2 data => simp [wrongLength, given]

theorem NextLogin.prepared (login : NextLogin crypto md n call user key)
    (noPassword : user.password = none) :
    prepareCall crypto call = .ok (nextPrepared crypto call user key) := by
  obtain ⟨card, mask⟩ := card_hotpD6 login.card
  have noPin : pinLenOf user.pinstring = 0 := by
    rw [login.noPin]
    rfl
  have clear : (decodedUser call.env.undef user hotpD6 key).encryptmode = .clear := login.clear
  refine prepareCall_iff.mpr ⟨user, .hotp, hotpD6, key, login.found, noPassword, card, mask,
    login.keyed, rfl, ?_, login.early⟩
  rw [hotpD6_digits, noPin]
  simp only [decryptUser, clear, login.rightLength, Bool.false_eq_true, if_false]
  rfl

/-- What `state_get` makes of the printed line. -/
def nextState (crypto : Crypto) (n : Nat) (call : Call) (user : User) (key : List Byte) : State :=
  loadedState (nextPrepared crypto call user key).state (lastUsed (c2c (UInt64.ofNat n)))

theorem NextLogin.reaches (login : NextLogin crypto md n call user key)
    (noPassword : user.password = none) :
    ReachesWindow crypto
      (some (stateOutput call.request.username.bytes (c2c (UInt64.ofNat n)))) call
      (nextPrepared crypto call user key) (nextState crypto n call user key) := by
  have noAsync := (CardModule.hotp.masks_event (by decide) _ hotpD6_mask).1
  refine ⟨login.prepared noPassword, ⟨_, stateGet_stored (recordIn_stateOutput _ _ _) login.granted
    login.readable, ?_⟩, login.inTime, ?_, ?_, login.put⟩
  · rfl
  · simp only [syncPossible, Bool.and_eq_true]
    exact ⟨hotp_masks_sync hotpD6_mask, login.sync⟩
  · have off : asyncPossible call.request (nextPrepared crypto call user key).user = false := by
      have same : (nextPrepared crypto call user key).user.featuremask = hotpD6 := rfl
      simp [asyncPossible, same, noAsync]
    simp [asyncMatches, off]

theorem nextState_start (small : n < 2 ^ 31 - 1) :
    beNat ((windowBase call.config call.request call.env (nextPrepared crypto call user key)
      (nextState crypto n call user key).toCardData).bytes.take 8) = n := by
  have stored : (nextState crypto n call user key).challenge.bytes.take
      (nextState crypto n call user key).clen = (c2c (UInt64.ofNat n)).bytes :=
    congrArg StateRecord.challenge (State.record_fill (nextPrepared crypto call user key).state
      (lastUsed (c2c (UInt64.ofNat n))))
  rw [windowBase, stored, Buffer.copy_take_of_eq _ (by decide) (Buffer.size _), c2c_eq,
    (c2c_counter _).2, UInt64.toNat_ofNat']
  exact Nat.mod_eq_of_lt (by omega)

theorem NextLogin.expected (login : NextLogin crypto md n call user key) (small : n < 2 ^ 31 - 1) :
    windowPasscode call (nextPrepared crypto call user key) (nextState crypto n call user key) 0 =
      some (hotp crypto md (c2c (UInt64.ofNat (n + 1))) key) := by
  have runs : (nextPrepared crypto call user key).ops = CardModule.hotp.ops crypto call.env.undef := rfl
  have whole : (nextPrepared crypto call user key).user.key.take
      (nextState crypto n call user key).scratch1 = key := List.take_length
  have digits : otpLenOf (nextPrepared crypto call user key).user.featuremask = 6 := hotpD6_digits
  have noPin : cstr (nextPrepared crypto call user key).user.pin = [] := by
    have blank : (nextPrepared crypto call user key).user.pin =
        (a2x user.pinstring).getD call.env.undef.pin := rfl
    rw [blank, login.noPin]
    rfl
  have plain : expectedPasscode call.config (nextPrepared crypto call user key).user = id := by
    funext response
    simp [expectedPasscode, noPin]
  rw [windowPasscode, passcodeAt_counter call.env _ runs (nextState_start small) (by omega),
    whole, digits, plain, Nat.add_zero, login.otp]
  rfl

theorem nextState_healthy : failCondition call.config call.env.undef
    (nextState crypto n call user key) call.env.now = .none := by
  have below : ∀ limit : UInt32, ¬ (limit ≠ 0 ∧ (0 : UInt32) ≥ limit) := by
    rintro limit ⟨positive, reached⟩
    exact positive (UInt32.le_antisymm reached (UInt32.le_iff_toNat_le.mpr (Nat.zero_le _)))
  have failcount : (nextState crypto n call user key).failcount = 0 := rfl
  have loaded : (nextState crypto n call user key).nullstate = false := rfl
  simp only [failCondition, failcount, loaded, if_neg (below _), Bool.false_eq_true, and_false,
    if_false]

/-- Without a candidate the first position is in the normal window. -/
theorem syncRc_first {state : State} {now : Time} (noCandidate : state.rd.bytes = [])
    (signed : call.config.ewindowSize.toNat < 2 ^ 31) :
    syncRc call.config (nextPrepared crypto call user key) .none state now 0 = .ok := by
  have first : (nextPrepared crypto call user key).ops.isconsecutive
      (nextPrepared crypto call user key).user state.toCardData 0 = false := if_pos noCandidate
  have inside : ¬ (hasFeature (nextPrepared crypto call user key).user.featuremask otpCfFrw = false ∧
      ((0 : Nat) : Int) > call.config.ewindowSize.toInt32.toInt) := by
    rintro ⟨-, beyond⟩
    rw [toInt32_toInt, if_pos signed] at beyond
    omega
  simp only [syncRc, first, if_neg inside, reduceCtorEq, Bool.false_eq_true, if_false]

theorem syncMatch_first {l : Locals} (noCandidate : l.state.rd.bytes = [])
    (signed : call.config.ewindowSize.toNat < 2 ^ 31) :
    syncMatch call.config call.env (nextPrepared crypto call user key) .none 0 0 l =
      (.authDone, { l with
        rc := .ok
        state := { l.state with rd := StateField.empty 31 }
        resync := true
        matched := some (.sync 0 0 l.challenge l.state.clen) }) :=
  syncMatch_recorded (syncRc_first noCandidate signed) rfl

theorem SignedWindows.opened (windows : SignedWindows call.config user) :
    0 ≤ eendOf call.config (nextPrepared crypto call user key).user := by
  have searched : eendOf call.config (nextPrepared crypto call user key).user =
      (searchedWindow call.config user.rwindowSize).toInt32.toInt :=
    eendOf_searched (CardModule.hotp.masks_event (by decide) _ hotpD6_mask).2
      (CardModule.hotp.masks_noFrw _ hotpD6_mask)
  rw [searched, toInt32_toInt, if_pos windows.1]
  exact Int.natCast_nonneg _

theorem NextLogin.accepted (login : NextLogin crypto md n call user key) (small : n < 2 ^ 31 - 1)
    (noPassword : user.password = none) (windows : SignedWindows call.config user) :
    AcceptedNext n call (serve crypto
      (some (stateOutput call.request.username.bytes (c2c (UInt64.ofNat n)))) call).1 := by
  have reaches := login.reaches noPassword
  have runs : (nextPrepared crypto call user key).ops = CardModule.hotp.ops crypto call.env.undef := rfl
  obtain ⟨stepped, clen⟩ := positionAt_counter call.env
    (nextState crypto n call user key).toCardData runs (nextState_start small)
    (show n + 0 < 2 ^ 31 by omega)
  obtain ⟨m, state, -, -, loaded, result⟩ :=
    reaches.first windows.opened (login.expected small) login.presented
  rw [nextState_healthy, syncMatch_first rfl windows.2] at result
  have ok := serve_done reaches.prepared loaded result login.put
  rcases serve_split crypto
    (some (stateOutput call.request.username.bytes (c2c (UInt64.ofNat n)))) call with
    ⟨-, failed | ⟨exit, early, -⟩⟩ | ⟨m', r, p, state', l, attempt, got⟩
  · rw [failed] at ok
    cases ok
  · cases reaches.prepared.symm.trans early
  · cases reaches.prepared.symm.trans attempt.prepared
    cases loaded.symm.trans got
    cases result.symm.trans attempt.result
    refine ⟨ok, ⟨_, attempt.matched, stepped⟩, ⟨_, attempt.recordIn_saved ok, ?_⟩⟩
    rw [authDone_challenge, if_pos ⟨rfl, rfl⟩]
    exact (congrArg (List.take · _) (congrArg Fin.val clen)).trans stepped

end Login

/-- Whatever line `main` prints for a user, the counter in it has the second passcode, and a
login with the next one is accepted. -/
theorem main_then_login {crypto : Crypto} {md : Buffer 20} {options : Options} {fuel : Nat}
    {line : List Byte} {username : Username}
    (printed : main crypto md options fuel = some (.printed line))
    (named : options.username = username.bytes) :
    ∃ keyblock n, keystring2keyblock options.keystring = some keyblock ∧
      (16 ≤ keyblock.length →
        hmacKeystring2key options.keystring = some (keyblock, keyblock.length)) ∧
      hotp crypto md (c2c n) keyblock = options.pass2 ∧
      ∀ call user, n.toNat < 2 ^ 31 - 1 → call.request.username = username →
        NextLogin crypto md n.toNat call user keyblock → user.password = none →
        SignedWindows call.config user →
        AcceptedNext n.toNat call (serve crypto (some line) call).1 := by
  obtain ⟨keyblock, n, keyed, rfl, -, second⟩ := main_printed printed
  refine ⟨keyblock, n + 1, keyed, keystring2keyblock_eq keyed, second, ?_⟩
  rintro call user small rfl login noPassword windows
  have accepted := login.accepted small noPassword windows
  rw [UInt64.ofNat_toNat] at accepted
  rw [named]
  exact accepted

/-- `state_read` and `state_parse` make of the printed line a state with this counter and
nothing else. -/
def ReadsLastUsed (username : Username) (n : Nat) (fresh : State) : Prop :=
  ∃ buf parsed,
    stateRead true (some (stateOutput username.bytes (c2c (UInt64.ofNat n)))) = some buf ∧
    stateParse buf username fresh = some parsed ∧ parsed.nullstate = false ∧ parsed.clen = eventClen ∧
    beNat (parsed.challenge.bytes.take 8) = n ∧ parsed.csd.bytes = [] ∧ parsed.rd.bytes = [] ∧
    parsed.failcount = 0 ∧ parsed.authtime = 0 ∧ parsed.mincardtime = 0

theorem stateOutput_reads (username : Username) {n : Nat} (small : n < 2 ^ 31 - 1) (fresh : State) :
    ReadsLastUsed username n fresh := by
  obtain ⟨buf, parsed, read, parse, loaded, clen, record⟩ :=
    stateOutput_read username (c2c (UInt64.ofNat n)) fresh
  have challenge : parsed.challenge.bytes.take parsed.clen = (c2c (UInt64.ofNat n)).bytes :=
    congrArg StateRecord.challenge record
  have value : beNat (parsed.challenge.bytes.take 8) = n := by
    rw [clen] at challenge
    rw [show parsed.challenge.bytes.take 8 = _ from challenge, c2c_eq, (c2c_counter _).2,
      UInt64.toNat_ofNat']
    exact Nat.mod_eq_of_lt (by omega)
  have csd : parsed.csd = StateField.empty 63 := congrArg StateRecord.csd record
  have rd : parsed.rd = StateField.empty 31 := congrArg StateRecord.rd record
  exact ⟨buf, parsed, read, parse, loaded, clen, value, congrArg StateField.bytes csd,
    congrArg StateField.bytes rd, congrArg StateRecord.failcount record,
    congrArg StateRecord.authtime record, congrArg StateRecord.mincardtime record⟩

/-- The same OTPs, a state line that the daemon reads, and a login with the next counter. -/
theorem agrees_with_daemon (crypto : Crypto) (md : Buffer 20) :
    (∀ (key : List Byte) (challenge : Buffer 8), HmacSha1 crypto key challenge.bytes →
      hotpMac crypto challenge.bytes key 6 = some (hotp crypto md challenge key)) ∧
    ∀ (username : Username) (n : Nat), n < 2 ^ 31 - 1 →
      (∀ fresh, ReadsLastUsed username n fresh) ∧
      ∀ (call : Call) (user : User) (key : List Byte), call.request.username = username →
        NextLogin crypto md n call user key → user.password = none →
        SignedWindows call.config user →
        AcceptedNext n call (serve crypto
          (some (stateOutput username.bytes (c2c (UInt64.ofNat n)))) call).1 := by
  refine ⟨fun key challenge computed => hotp_eq computed, ?_⟩
  intro username n small
  refine ⟨stateOutput_reads username small, ?_⟩
  rintro call user key rfl login noPassword windows
  exact login.accepted small noPassword windows

/-! ### A user with the RFC key -/

theorem rfcLogin {user : User} (card : user.card = ascii "hotp-d6")
    (keyed : user.keystring = (hmacUser "hotp-d6").keystring) (noPin : user.pinstring = [])
    (clear : user.encryptmode = .clear) :
    NextLogin sampleCrypto (Buffer.zero 20) 0 (papCall user "287082" 1000) user rfcKey where
  found := rfl
  card := by
    rw [card]
    decide +kernel
  keyed := by
    rw [keyed]
    decide +kernel
  noPin := noPin
  clear := clear
  sync := rfl
  computed := ⟨(sampleCrypto.hmac rfcKey (c2c 1).bytes).getD [], by decide +kernel, by decide +kernel⟩
  presented := by
    show compare sampleCrypto ⟨bob, textOf 16 "", .pap (textOf 47 "287082"), false, true, 0, true⟩ _ =
      true
    decide +kernel
  early := show ¬ (11700000000 : Int) - 0 < 500000000 by decide
  inTime := show ¬ (11700000000 : Int) - 0 - 0 < 250000000 by decide
  granted := rfl
  readable := rfl
  put := rfl

theorem agrees_with_daemon_rfc :
    hotpMac sampleCrypto (c2c 1).bytes rfcKey 6 =
        some (hotp sampleCrypto (Buffer.zero 20) (c2c 1) rfcKey) ∧
      AcceptedNext 0 (papCall (hmacUser "hotp-d6") "287082" 1000)
        (serve sampleCrypto (some (stateOutput bob.bytes (c2c 0)))
          (papCall (hmacUser "hotp-d6") "287082" 1000)).1 :=
  ⟨(agrees_with_daemon sampleCrypto (Buffer.zero 20)).1 rfcKey (c2c 1)
      ⟨(sampleCrypto.hmac rfcKey (c2c 1).bytes).getD [], by decide +kernel, by decide +kernel⟩,
    ((agrees_with_daemon sampleCrypto (Buffer.zero 20)).2 bob 0 (by decide)).2 _ _ rfcKey rfl
      (rfcLogin rfl rfl rfl rfl) rfl ⟨by decide +kernel, by decide +kernel⟩⟩

/-- A temporary window that is negative as an `int`, and a static password in force. -/
theorem next_login_refused :
    (windowSource "4294967295").get shippedConfig =
        some (.found { hmacUser "hotp-d6" with rwindowSize := 4294967295 }) ∧
      NextLogin sampleCrypto (Buffer.zero 20) 0
        (papCall { hmacUser "hotp-d6" with rwindowSize := 4294967295 } "287082" 1000)
        { hmacUser "hotp-d6" with rwindowSize := 4294967295 } rfcKey ∧
      (serve sampleCrypto (some (stateOutput bob.bytes (c2c 0)))
        (papCall { hmacUser "hotp-d6" with rwindowSize := 4294967295 } "287082" 1000)).1.rc =
          .authErr ∧
      NextLogin sampleCrypto (Buffer.zero 20) 0
        (papCall { hmacUser "hotp-d6" with password := some (ascii "secret") } "287082" 1000)
        { hmacUser "hotp-d6" with password := some (ascii "secret") } rfcKey ∧
      (serve sampleCrypto (some (stateOutput bob.bytes (c2c 0)))
        (papCall { hmacUser "hotp-d6" with password := some (ascii "secret") } "287082" 1000)).1.rc =
          .authErr :=
  ⟨by decide +kernel, rfcLogin rfl rfl rfl rfl, by decide +kernel, rfcLogin rfl rfl rfl rfl,
    by decide +kernel⟩

end Resynctool

end Otpd

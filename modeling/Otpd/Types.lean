import Otpd.Lib.Numerals

/-!
# Data model of otpd

The records of `otp.h`, `cardops.h` and `extern.h` that passcode verification
reads and writes, and the parameters that stand for what lies outside the
repository: the OpenSSL primitives (`Crypto`), the values C leaves undefined
(`Undef`) and everything one call of `verify` observes of its surroundings (`Env`).
-/

set_option autoImplicit false

namespace Otpd

open CMem

/-! ## `otp.h` -/

inductive Rc where
  | ok
  | userUnknown
  | authinfoUnavail
  | authErr
  | maxtries
  | serviceErr
  | nextpasscode
  | ipin
  deriving DecidableEq, Repr

abbrev Username := CString 31

structure ChapData where
  challenge : Buffer 16
  clen : Fin 17
  response : Buffer 50
  deriving DecidableEq

/-- `otp_request_t.pwe`, after `work_thread` has validated lengths. -/
inductive Pwe where
  | pap (passcode : CString 47)
  | chap (data : ChapData)
  | mschap (data : ChapData)
  | mschap2 (data : ChapData)
  deriving DecidableEq

/-- The bytes of the `pwe.u` union read as `u.pap.passcode`.  Under the CHAP
encodings the string runs over `challenge[16]` into the little-endian `clen`. -/
def Pwe.papPasscode : Pwe → List Byte
  | .pap passcode => passcode.bytes
  | .chap data | .mschap data | .mschap2 data =>
      cstr (data.challenge.bytes ++ [UInt8.ofNat data.clen.val, 0])

def Pwe.isPap : Pwe → Bool
  | .pap _ => true
  | _ => false

structure Request where
  username : Username
  challenge : CString 16
  pwe : Pwe
  allowAsync : Bool
  allowSync : Bool
  challengeDelay : UInt32
  resync : Bool
  deriving DecidableEq

/-! ## `extern.h` -/

inductive EncryptMode where
  | clear
  | pin
  | pinmd5
  | keyid
  deriving DecidableEq, Repr

inductive StateMode where
  | localMode
  | globalMode
  deriving DecidableEq, Repr

structure Config where
  hardfail : UInt32
  softfail : UInt32
  timeout : Int
  prependPin : Bool
  ewindowSize : UInt32
  rwindowSize : UInt32
  siteTransform : Bool
  -- `config_t.key`: the sparse otppasswd key table.
  key : List (Option (List Byte))
  stateMode : StateMode
  deriving DecidableEq

/-! ## `cardops.h` -/

def cfBit (n : UInt32) : UInt32 := 1 <<< n

def otpCfAm : UInt32 := cfBit 1
def otpCfEs : UInt32 := cfBit 2
def otpCfTs : UInt32 := cfBit 3
def otpCfSm : UInt32 := otpCfEs ||| otpCfTs
def otpCfLen0 : UInt32 := cfBit 4
def otpCfLen1 : UInt32 := cfBit 5
def otpCfLen2 : UInt32 := cfBit 6
def otpCfLen3 : UInt32 := cfBit 7
def otpCfLen4 : UInt32 := cfBit 8
def otpCfLen : UInt32 := otpCfLen0 ||| otpCfLen1 ||| otpCfLen2 ||| otpCfLen3 ||| otpCfLen4
def otpCfLenShift : UInt32 := 4
def otpCfFrw : UInt32 := cfBit 9 ||| cfBit 10 ||| cfBit 11 ||| cfBit 12
def otpCfFrwShift : UInt32 := 9
def otpCfVsa0 : UInt32 := cfBit 13
def otpCfVsa1 : UInt32 := cfBit 14
def otpCfVsa2 : UInt32 := cfBit 15

def otpLenOf (featuremask : UInt32) : Nat := ((featuremask &&& otpCfLen) >>> otpCfLenShift).toNat

def hasFeature (featuremask bits : UInt32) : Bool := featuremask &&& bits ≠ 0

def otpMaxPinLen : Nat := 16

/-- `user_t`.  `featuremask`, `key` and `pin` are filled in by `verify`. -/
structure User where
  card : List Byte
  keystring : List Byte
  pinstring : List Byte
  keyid : Nat
  encryptmode : EncryptMode
  password : Option (List Byte)
  passwordHash : Buffer 20
  rwindowSize : UInt32
  ipinstring : List Byte := []
  timeissued : Int := 0
  featuremask : UInt32 := 0
  key : List Byte := []
  pin : List Byte := []
  deriving DecidableEq

/-- A text field of the state line: at most `n` bytes, no NUL and no delimiter. -/
@[ext]
structure StateField (n : Nat) where
  bytes : List Byte
  bound : bytes.length ≤ n
  noColon : (58 : Byte) ∉ bytes
  noNul : (0 : Byte) ∉ bytes

instance (n : Nat) : DecidableEq (StateField n) :=
  fun a b => decidable_of_iff (a.bytes = b.bytes) StateField.ext_iff.symm

def StateField.empty (n : Nat) : StateField n := ⟨[], by simp, by simp, by simp⟩

/-- The part of `state_t` that card modules read and write. -/
structure CardData where
  clen : Fin 17
  challenge : Buffer 16
  csd : StateField 63
  rd : StateField 31
  mincardtime : UInt32
  scratch1 : Nat
  deriving DecidableEq

/-- `state_t`.  The lock handle is represented by `locked` alone. -/
structure State extends CardData where
  locked : Bool
  nullstate : Bool
  updated : Bool
  failcount : UInt32
  authtime : UInt32
  deriving DecidableEq

/-- `state_t state = { .locked = 0 }`: the other members are zero as well. -/
def State.init : State where
  clen := 0
  challenge := Buffer.zero 16
  csd := StateField.empty 63
  rd := StateField.empty 31
  mincardtime := 0
  scratch1 := 0
  locked := false
  nullstate := false
  updated := false
  failcount := 0
  authtime := 0

/-- What the event modules leave in `clen`. -/
def eventClen : Fin 17 := 8

/-- The `clen` of a challenge that fills its array. -/
def fullClen : Fin 17 := 16

def mschapClen : Fin 17 := 8

/-- Seconds since the epoch, as `time()` returns them. -/
abbrev Time := Nat

/-- `(uint32_t) t`, equally the bits of `(int32_t) t`. -/
def Time.toU32 (t : Time) : UInt32 := UInt32.ofNat t

/-- Result of a `challenge` method: 0, -1 and -2 in the source. -/
inductive ChallengeRc where
  | ok
  | error
  | early
  deriving DecidableEq

/-- `cardops_t`.  Methods return what the C ones write through their pointers;
`none` is a failure code.  `response` is also given the value `time(NULL)` has
while it runs, for the time-based modules. -/
structure CardOps where
  cardPrefix : List Byte
  name2fm : List Byte → Option UInt32
  keystring2key : List Byte → Option (List Byte × Nat)
  nullstate : User → CardData → Time → Option CardData
  challenge : User → CardData → Buffer 16 → Time → Nat → Nat → ChallengeRc × CardData × Buffer 16
  response : User → CardData → Buffer 16 → Nat → Time → Option (List Byte)
  updatecsd : CardData → Time → Nat → Nat → Rc → Option CardData
  isconsecutive : User → CardData → Nat → Bool
  maxtwin : User → CardData → Time → Int

/-! ## Outside the repository -/

/-- The OpenSSL functions otpd calls; nothing is assumed of them here.  `hmac` is
`HMAC(EVP_sha1(), key, data)`, with `none` for a NULL result, `desKeyOk` is
`des_set_key_checked(key) == 0`, `desCbc` is `des_cbc_encrypt` with a zero ivec,
which pads a trailing short block, and `desEcb` encrypts one block under an
unchecked key. -/
structure Crypto where
  hmac : List Byte → List Byte → Option (List Byte)
  md4 : List Byte → List Byte
  md5 : List Byte → List Byte
  sha1 : List Byte → List Byte
  desKeyOk : List Byte → Bool
  desCbc : List Byte → List Byte → List Byte
  desEcb : List Byte → List Byte → List Byte

/-- Values the C standard leaves undefined, for one call of `verify`: the initial
contents of the local `challenge`, those of `user->pin` after `a2x` rejected
`pinstring`, the key bytes behind an absent slot of `config->key`, the block
`x99_mac` copies when its block index is out of range, and `(1 << fcount) << 6` for
a negative `fcount`. -/
structure Undef where
  challenge : Buffer 16
  pin : List Byte
  key : List Byte
  block : Buffer 8
  shift : UInt32

inductive UserGet where
  | found (user : User)
  | unknown
  | unavailable

/-- `unacknowledged`: gsmd took the update but its answer was lost. -/
inductive PutResult where
  | done
  | failed
  | unacknowledged
  deriving DecidableEq

/-- How the state transport treats one call.  `granted`: `lock_get` returned a lock
[local], the GET was answered [global].  `readable`: `state_read` hit no I/O error
[local].  `lost`: gsmd granted a GET that `gsmd()` then failed, because the answer did not
arrive or was turned down [global]. -/
structure StateIo where
  granted : Bool
  readable : Bool
  put : PutResult
  lost : Bool := false

/-- What one call of `verify` observes besides its arguments: clocks, the user
database, the state transport and undefined values.  `clock t e` is `time(NULL)`
inside the `response` call for that window position, `asyncClock` the same for the
async response; `hrGet` and `hrState` are the nanoseconds spent up to the first
timeout check and from there to the second. -/
structure Env where
  now : Time
  clock : Nat → Nat → Time
  asyncClock : Time
  get : UserGet
  hrGet : Int
  hrState : Int
  io : StateIo
  undef : Undef

end Otpd

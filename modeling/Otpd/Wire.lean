import Otpd.Lib.Layout
import Otpd.WorkThread

/-!
# Requests and replies as bytes

`otp_request_t`, `otp_request_v1_t` and `otp_reply_t` as they lie in memory on a 64-bit
little-endian machine, the conversion of version 1 in `work_thread`, and the request
that `otpauth` fills in.  What is not written keeps whatever it was: the stack in
`otpauth`, the request before in `work_thread`.
-/

set_option autoImplicit false

namespace Otpd

open CMem

/-! ## Layout -/

/-- `sizeof(otp_request_t)`. -/
abbrev requestSize : Nat := 168

/-- `sizeof(otp_request_v1_t)`. -/
abbrev requestV1Size : Nat := 216

/-- `sizeof(otp_reply_t)`. -/
abbrev replySize : Nat := 56

section Fields

variable {m : Nat} (mem : Buffer m) (off : Nat)

def intAt : Int := (BitVec.ofNat 32 (leNat (peek mem off 4))).toInt

def unsignedAt : UInt32 := UInt32.ofNat (leNat (peek mem off 4))

def sizeAt : Nat := leNat (peek mem off 8)

def arrayAt (n : Nat) : Buffer n := .ofList n (peek mem off n)

end Fields

/-- `pwe.u.chap` starts where `pwe.u.pap` does. -/
def requestAt (mem : Buffer requestSize) : WireRequest where
  version := intAt mem 0
  username := arrayAt mem 4 32
  challenge := arrayAt mem 36 17
  pwe := intAt mem 56
  passcode := arrayAt mem 64 48
  chap := ⟨arrayAt mem 64 16, sizeAt mem 80, arrayAt mem 88 50, sizeAt mem 144⟩
  allowAsync := intAt mem 152
  allowSync := intAt mem 156
  challengeDelay := unsignedAt mem 160
  resync := intAt mem 164

/-- There is no union in version 1. -/
def requestV1At (mem : Buffer requestV1Size) : WireRequest where
  version := intAt mem 0
  username := arrayAt mem 4 32
  challenge := arrayAt mem 36 17
  pwe := intAt mem 56
  passcode := arrayAt mem 60 48
  chap := ⟨arrayAt mem 108 16, sizeAt mem 128, arrayAt mem 136 50, sizeAt mem 192⟩
  allowAsync := intAt mem 200
  allowSync := intAt mem 204
  challengeDelay := unsignedAt mem 208
  resync := intAt mem 212

/-- "Convert to v2"; `request` is what the thread last had there. -/
def convertV1 (request : Buffer requestSize) (v1 : Buffer requestV1Size) : Buffer requestSize :=
  let request := poke request 0 (leBytesOf 4 2)
  let request := poke request 4 (peek v1 4 32)
  let request := poke request 36 (peek v1 36 17)
  let request := poke request 56 (peek v1 56 4)
  let request :=
    if intAt request 56 = 1 then poke request 64 (peek v1 60 48)
    else
      let request := poke request 64 (peek v1 108 16)
      let request := poke request 80 (peek v1 128 8)
      let request := poke request 88 (peek v1 136 50)
      poke request 144 (peek v1 192 8)
  let request := poke request 152 (peek v1 200 4)
  let request := poke request 156 (peek v1 204 4)
  let request := poke request 160 (peek v1 208 4)
  poke request 164 (peek v1 212 4)

def Rc.toNat : Rc → Nat
  | .ok => 0
  | .userUnknown => 1
  | .authinfoUnavail => 2
  | .authErr => 3
  | .maxtries => 4
  | .serviceErr => 5
  | .nextpasscode => 6
  | .ipin => 7

/-- The rest of `passcode` is still zero. -/
def OtpReply.bytes (reply : OtpReply) : List Byte :=
  leBytesOf 4 1 ++ leBytesOf 4 reply.rc.toNat ++ (Buffer.ofList 48 reply.passcode).bytes

/-! ## `otpauth` -/

/-- `verify` in `otpauth.c`, up to the call of `otp_verify`. -/
def otpauthRequest (stack : Buffer requestSize) (username passcode : List Byte) :
    Buffer requestSize :=
  let request := poke stack 0 (leBytesOf 4 2)
  let request := poke request 4 (username ++ [0])
  let request := poke request 36 [0]
  let request := poke request 56 (leBytesOf 4 1)
  let request := poke request 64 (passcode ++ [0])
  let request := poke request 35 [0]
  let request := poke request 52 [0]
  let request := poke request 111 [0]
  let request := poke request 156 (leBytesOf 4 1)
  let request := poke request 152 (leBytesOf 4 0)
  let request := poke request 160 (leBytesOf 4 0)
  poke request 164 (leBytesOf 4 1)

/-! ## What `validate` looks at -/

/-- The fields that `work_thread` reads for this encoding of the passcode. -/
structure SameFields (w w' : WireRequest) : Prop where
  version : w.version = 1 ∨ w.version = 2 ↔ w'.version = 1 ∨ w'.version = 2
  username : w.username = w'.username
  challenge : w.challenge = w'.challenge
  pwe : w.pwe = w'.pwe
  passcode : w.pwe = 1 → w.passcode = w'.passcode
  chap : w.pwe ≠ 1 → w.chap = w'.chap
  allowAsync : w.allowAsync = w'.allowAsync
  allowSync : w.allowSync = w'.allowSync
  challengeDelay : w.challengeDelay = w'.challengeDelay
  resync : w.resync = w'.resync

theorem SameFields.validatePwe {w w' : WireRequest} (same : SameFields w w') :
    validatePwe w = validatePwe w' := by
  by_cases pap : w.pwe = 1
  · rw [Otpd.validatePwe, Otpd.validatePwe, if_pos pap, if_pos (same.pwe ▸ pap), same.passcode pap]
  · have pap' : w'.pwe ≠ 1 := same.pwe ▸ pap
    simp only [Otpd.validatePwe, same.chap pap, same.pwe, if_neg pap']

theorem SameFields.validate {w w' : WireRequest} (same : SameFields w w') :
    validate w = validate w' := by
  have version : (w.version ≠ 1 ∧ w.version ≠ 2) ↔ (w'.version ≠ 1 ∧ w'.version ≠ 2) := by
    have := same.version
    tauto
  rw [Otpd.validate, Otpd.validate, same.username, same.challenge, same.validatePwe,
    same.allowAsync, same.allowSync, same.challengeDelay, same.resync]
  by_cases bad : w.version ≠ 1 ∧ w.version ≠ 2
  · rw [if_pos bad, if_pos (version.mp bad)]
  · rw [if_neg bad, if_neg (version.not.mp bad)]

theorem workThread_congr {crypto : Crypto} {config : Config} {reply : OtpReply} {w w' : WireRequest}
    {env : Env} {store : Store} (same : validate w = validate w') :
    workThread crypto config reply ⟨w, env, store⟩ =
      workThread crypto config reply ⟨w', env, store⟩ := by
  rw [workThread, workThread, same]

/-! ## Version 1 -/

theorem leBytesOf_int (n : Nat) (small : n < 2 ^ 31) :
    (BitVec.ofNat 32 (leNat (leBytesOf 4 n))).toInt = n := by
  rw [leNat_leBytesOf, Nat.mod_eq_of_lt (by omega), BitVec.toInt_eq_toNat_of_lt, BitVec.toNat_ofNat,
    Nat.mod_eq_of_lt (by omega)]
  rw [BitVec.toNat_ofNat, Nat.mod_eq_of_lt (by omega)]
  omega

section Convert

variable (request : Buffer requestSize) (v1 : Buffer requestV1Size)

/-- The fields of `r` are those of `v1`; of the passcode only the ones that are in use. -/
structure Converted (r : Buffer requestSize) (v1 : Buffer requestV1Size) : Prop where
  version : peek r 0 4 = leBytesOf 4 2
  username : peek r 4 32 = peek v1 4 32
  challenge : peek r 36 17 = peek v1 36 17
  pwe : peek r 56 4 = peek v1 56 4
  passcode : intAt v1 56 = 1 → peek r 64 48 = peek v1 60 48
  chap : intAt v1 56 ≠ 1 → peek r 64 16 = peek v1 108 16 ∧ peek r 80 8 = peek v1 128 8 ∧
    peek r 88 50 = peek v1 136 50 ∧ peek r 144 8 = peek v1 192 8
  allowAsync : peek r 152 4 = peek v1 200 4
  allowSync : peek r 156 4 = peek v1 204 4
  challengeDelay : peek r 160 4 = peek v1 208 4
  resync : peek r 164 4 = peek v1 212 4

theorem convertV1_converted : Converted (convertV1 request v1) v1 := by
  by_cases pap : intAt v1 56 = 1
  · have pap' := pap
    rw [intAt] at pap'
    refine ⟨?_, ?_, ?_, ?_, fun _ => ?_, fun other => absurd pap other, ?_, ?_, ?_, ?_⟩
    all_goals
      simp (disch := simp [peek_length, leBytesOf_length, requestSize, requestV1Size]) only
        [convertV1, intAt, peek_poke_other, peek_poke_self, if_pos pap']
  · have pap' := pap
    rw [intAt] at pap'
    refine ⟨?_, ?_, ?_, ?_, fun same => absurd same pap, fun _ => ⟨?_, ?_, ?_, ?_⟩, ?_, ?_, ?_, ?_⟩
    all_goals
      simp (disch := simp [peek_length, leBytesOf_length, requestSize, requestV1Size]) only
        [convertV1, intAt, peek_poke_other, peek_poke_self, if_neg pap']

/-- A version 1 request is handled as the version 2 request with the same fields. -/
theorem convertV1_fields (version : intAt v1 0 = 1) :
    SameFields (requestAt (convertV1 request v1)) (requestV1At v1) := by
  have converted := convertV1_converted request v1
  have pwe : intAt (convertV1 request v1) 56 = intAt v1 56 := by
    rw [intAt, intAt, converted.pwe]
  refine ⟨?_, ?_, ?_, ?_, ?_, ?_, ?_, ?_, ?_, ?_⟩
  · have now : intAt (convertV1 request v1) 0 = 2 := by
      rw [intAt, converted.version]
      exact leBytesOf_int 2 (by decide)
    simp only [requestAt, requestV1At, now, version]
    decide
  · simp only [requestAt, requestV1At, arrayAt, converted.username]
  · simp only [requestAt, requestV1At, arrayAt, converted.challenge]
  · simp only [requestAt, requestV1At, pwe]
  · intro pap
    simp only [requestAt, pwe] at pap
    simp only [requestAt, requestV1At, arrayAt, converted.passcode pap]
  · intro other
    simp only [requestAt, pwe] at other
    obtain ⟨challenge, clen, response, rlen⟩ := converted.chap other
    simp only [requestAt, requestV1At, arrayAt, sizeAt, challenge, clen, response, rlen]
  · simp only [requestAt, requestV1At, intAt, converted.allowAsync]
  · simp only [requestAt, requestV1At, intAt, converted.allowSync]
  · simp only [requestAt, requestV1At, unsignedAt, converted.challengeDelay]
  · simp only [requestAt, requestV1At, intAt, converted.resync]

end Convert

/-! ## What `otpauth` asks for -/

section Otpauth

variable (stack : Buffer requestSize) {username passcode : List Byte}

/-- What `otpauth` writes over the stack. -/
structure Filled (r : Buffer requestSize) (username passcode : List Byte) : Prop where
  version : peek r 0 4 = leBytesOf 4 2
  username : StringAt r 4 username ∧ StringAt r 35 []
  challenge : StringAt r 36 [] ∧ StringAt r 52 []
  pwe : peek r 56 4 = leBytesOf 4 1
  passcode : StringAt r 64 passcode ∧ StringAt r 111 []
  allowAsync : peek r 152 4 = leBytesOf 4 0
  allowSync : peek r 156 4 = leBytesOf 4 1
  challengeDelay : peek r 160 4 = leBytesOf 4 0
  resync : peek r 164 4 = leBytesOf 4 1

theorem otpauthRequest_filled (shortName : username.length ≤ 31)
    (shortCode : passcode.length ≤ 47) :
    Filled (otpauthRequest stack username passcode) username passcode := by
  have size : requestSize = 168 := rfl
  have name : (username ++ [0]).length = username.length + 1 := by simp
  have code : (passcode ++ [0]).length = passcode.length + 1 := by simp
  have nul : ([0] : List Byte).length = 1 := rfl
  have empty : ([] : List Byte).length = 0 := rfl
  have zero := leBytesOf_length 4 0
  have one := leBytesOf_length 4 1
  have two := leBytesOf_length 4 2
  refine ⟨?_, ⟨?_, ?_⟩, ⟨?_, ?_⟩, ?_, ⟨?_, ?_⟩, ?_, ?_, ?_, ?_⟩
  case refine_2 =>
    repeat refine StringAt.poke_other ?_ (by omega) (by omega)
    refine StringAt.poke_nul ?_ (by omega) (by omega)
    repeat refine StringAt.poke_other ?_ (by omega) (by omega)
    exact StringAt.poke (by omega)
  case refine_3 =>
    repeat refine StringAt.poke_other ?_ (by omega) (by omega)
    exact @StringAt.poke requestSize _ [] 35 (by decide)
  case refine_4 =>
    repeat refine StringAt.poke_other ?_ (by omega) (by omega)
    exact @StringAt.poke requestSize _ [] 36 (by decide)
  case refine_5 =>
    repeat refine StringAt.poke_other ?_ (by omega) (by omega)
    exact @StringAt.poke requestSize _ [] 52 (by decide)
  case refine_7 =>
    repeat refine StringAt.poke_other ?_ (by omega) (by omega)
    refine StringAt.poke_nul ?_ (by omega) (by omega)
    repeat refine StringAt.poke_other ?_ (by omega) (by omega)
    exact StringAt.poke (by omega)
  case refine_8 =>
    repeat refine StringAt.poke_other ?_ (by omega) (by omega)
    exact @StringAt.poke requestSize _ [] 111 (by decide)
  all_goals
    simp (disch := omega) only [otpauthRequest, peek_poke_other, peek_poke_self]

end Otpauth

end Otpd

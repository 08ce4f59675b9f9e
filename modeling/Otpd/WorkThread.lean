import Otpd.Session
import Otpd.Lib.Schedule

/-!
# `work_thread`

One connection: requests are read, validated and handed to `verify` one after
another, and every reply is sent from the same `otp_reply_t`.
-/

set_option autoImplicit false

namespace Otpd

open CMem

/-! ## Requests as they are read -/

structure WireChap where
  challenge : Buffer 16
  clen : Nat
  response : Buffer 50
  rlen : Nat

/-- `otp_request_t`, equally an `otp_request_v1_t` once converted.  `passcode` is read
for `PWE_PAP` and `chap` for the other encodings. -/
structure WireRequest where
  version : Int
  username : Buffer 32
  challenge : Buffer 17
  pwe : Int
  passcode : Buffer 48
  chap : WireChap
  allowAsync : Int
  allowSync : Int
  challengeDelay : UInt32
  resync : Int

inductive BadRequest where
  | version
  | usernameLength
  | usernameCharset
  | challengeLength
  | passcode
  | chapChallengeLen
  | chapResponseLen
  | mschapChallengeLen
  | mschapResponseLen
  | mschap2ChallengeLen
  | mschap2ResponseLen
  | pweUnknown
  deriving DecidableEq

/-- `disconnect` is `RETURN`; `lmResponse` sends `OTP_RC_AUTH_ERR` without calling
`verify`. -/
inductive Refused where
  | disconnect (bad : BadRequest)
  | lmResponse
  deriving DecidableEq

theorem cstr_terminated {n : Nat} {buf : Buffer (n + 1)} (last : buf.get n = 0) :
    (cstr buf.bytes).length ≤ n := by
  by_contra long
  have whole : (cstr buf.bytes).length = buf.bytes.length := by
    have := (List.takeWhile_sublist (l := buf.bytes) (· ≠ 0)).length_le
    rw [buf.size] at this ⊢
    rw [cstr] at long ⊢
    omega
  have all : cstr buf.bytes = buf.bytes := (List.takeWhile_prefix _).eq_of_length whole
  have inside : buf.get n ∈ cstr buf.bytes := by
    rw [all, Buffer.get, List.getD, List.getElem?_eq_getElem (by rw [buf.size]; omega)]
    exact List.getElem_mem _
  have := List.mem_takeWhile_imp inside
  simp [last] at this

theorem cstr_noNul (bytes : List Byte) : (0 : Byte) ∉ cstr bytes := by
  intro member
  have := List.mem_takeWhile_imp member
  simp at this

/-- An ASCII field, whose last byte must be NUL. -/
def asciiField {n : Nat} (buf : Buffer (n + 1)) : Option (CString n) :=
  if last : buf.get n = 0 then some ⟨cstr buf.bytes, cstr_terminated last, cstr_noNul _⟩ else none

def chapData (chap : WireChap) (least : Nat) (most : Fin 17) (rlen : Nat)
    (badClen badRlen : BadRequest) : Except Refused ChapData :=
  if fits : least ≤ chap.clen ∧ chap.clen ≤ most then
    if chap.rlen ≠ rlen then .error (.disconnect badRlen)
    else .ok ⟨chap.challenge, ⟨chap.clen, Nat.lt_of_le_of_lt fits.2 most.isLt⟩, chap.response⟩
  else .error (.disconnect badClen)

def validatePwe (w : WireRequest) : Except Refused Pwe :=
  if w.pwe = 1 then
    match asciiField w.passcode with
    | none => .error (.disconnect .passcode)
    | some passcode => .ok (.pap passcode)
  else if w.pwe = 3 then do
    let data ← chapData w.chap 0 fullClen 17 .chapChallengeLen .chapResponseLen
    .ok (.chap data)
  else if w.pwe = 5 then do
    let data ← chapData w.chap 8 mschapClen 50 .mschapChallengeLen .mschapResponseLen
    if data.response.get 1 ≠ 1 then .error .lmResponse else .ok (.mschap data)
  else if w.pwe = 7 then do
    let data ← chapData w.chap 16 fullClen 50 .mschap2ChallengeLen .mschap2ResponseLen
    .ok (.mschap2 data)
  else .error (.disconnect .pweUnknown)

def badUsername (username : Username) : Bool :=
  username.bytes == ascii "!" || (ascii "=<>*~").any fun c => username.bytes.contains c

/-- "Validate the request". -/
def validate (w : WireRequest) : Except Refused Request :=
  if w.version ≠ 1 ∧ w.version ≠ 2 then .error (.disconnect .version)
  else
    match asciiField w.username with
    | none => .error (.disconnect .usernameLength)
    | some username =>
      if badUsername username then .error (.disconnect .usernameCharset)
      else
        match asciiField w.challenge with
        | none => .error (.disconnect .challengeLength)
        | some challenge => do
            let pwe ← validatePwe w
            .ok ⟨username, challenge, pwe, w.allowAsync ≠ 0, w.allowSync ≠ 0, w.challengeDelay,
              w.resync ≠ 0⟩

/-! ## Replies -/

/-- `otp_reply_t`; `passcode` is the array, as far as it was ever written. -/
structure OtpReply where
  rc : Rc
  passcode : List Byte
  deriving DecidableEq

/-- `reply = { .version = 1 }`. -/
def OtpReply.init : OtpReply := ⟨.ok, []⟩

def strcpy (dst src : List Byte) : List Byte := cstr src ++ 0 :: dst.drop ((cstr src).length + 1)

/-- What one iteration finds: the request read, what `verify` observes, and the state
kept for the user, which other connections write as well. -/
structure Incoming where
  wire : WireRequest
  env : Env
  store : Store

/-- One iteration; `none` when the connection is closed. -/
def workThread (crypto : Crypto) (config : Config) (reply : OtpReply) (input : Incoming) :
    Option OtpReply :=
  match validate input.wire with
  | .error (.disconnect _) => none
  | .error .lmResponse => some { reply with rc := .authErr }
  | .ok request =>
      let out := (serve crypto input.store ⟨config, request, input.env⟩).1
      some ⟨out.rc, match out.passcode with
        | some passcode => strcpy reply.passcode passcode
        | none => reply.passcode⟩

section Confirmed

variable {crypto : Crypto} {config : Config} {request : Request} {env : Env} {p : Prepared}

/-- `passcode` is a response of the card with the PIN, and what the request encodes. -/
def Confirmed (crypto : Crypto) (config : Config) (request : Request) (p : Prepared)
    (passcode : List Byte) : Prop :=
  compare crypto request passcode = true ∧
    ∃ data challenge len clock response,
      p.ops.response p.user data challenge len clock = some response ∧
      passcode = expectedPasscode config p.user response

theorem syncAuth_confirmed {fc : Fc} {l l' : Locals}
    (result : syncAuth crypto config request env p fc l = (.authDone, l')) (ok : l'.rc = .ok) :
    Confirmed crypto config request p l'.eResponse := by
  simp only [syncAuth] at result
  split_ifs at result with possible early
  · cases result
  · have verdict := syncLoop_verdict crypto config request env p fc (fun _ _ _ => True)
      (fun _ _ _ _ _ _ _ => trivial)
      (windowPositions (p.ops.maxtwin p.user l.state.toCardData env.now) (eendOf config p.user))
      _ { l with challenge := l.challenge.copy (l.state.challenge.bytes.take l.state.clen) }
      (List.Subset.refl _) trivial
    rw [result] at verdict
    cases verdict with
    | noMatch => cases ok
    | hit t e rest before data after previous challenge response _ _ _ answered equal =>
        exact ⟨equal, _, _, _, _, _, answered, rfl⟩
  · cases result
    cases ok

theorem authenticate_confirmed {state : State} {l : Locals}
    (result : authenticate crypto config request env p state = (.authDone, l)) (ok : l.rc = .ok) :
    Confirmed crypto config request p l.eResponse := by
  simp only [authenticate] at result
  split at result
  · cases result
  · split_ifs at result
    · cases result
    · simp only [responses] at result
      split_ifs at result with possible
      · split at result
        · cases result
        · rename_i response answered
          split_ifs at result with equal
          · cases result
            exact ⟨equal, _, _, _, _, _, answered, rfl⟩
          · exact syncAuth_confirmed result ok
      · exact syncAuth_confirmed result ok

end Confirmed

section Call

variable (crypto : Crypto) (store : Store) (call : Call)

/-- The passcode by which one-time authentication succeeds, before `state_put`. -/
def otpPasscode : Option (List Byte) :=
  match prepareCall crypto call with
  | .error _ => none
  | .ok p =>
    match (stateGet call.config call.request.username call.env.io store p.state).1 with
    | none => none
    | some state =>
      let result := authenticate crypto call.config call.request call.env p state
      if result.1 = .authDone ∧ result.2.rc = .ok then some result.2.eResponse else none

def otpAccepted : Bool := (otpPasscode crypto store call).isSome

def staticAccepted : Bool :=
  match call.env.get with
  | .found user =>
    match cardOf user.card, user.password with
    | some _, some password => (staticPassword crypto call.request user password).rc = .ok
    | _, _ => false
  | _ => false

variable {crypto store call}

theorem otpPasscode_confirmed {passcode : List Byte}
    (accepted : otpPasscode crypto store call = some passcode) :
    ∃ p, prepareCall crypto call = .ok p ∧
      Confirmed crypto call.config call.request p passcode := by
  cases prepared : prepareCall crypto call with
  | error exit => simp [otpPasscode, prepared] at accepted
  | ok p =>
      simp only [otpPasscode, prepared] at accepted
      split at accepted
      · cases accepted
      · split_ifs at accepted with done
        cases accepted
        exact ⟨p, rfl, authenticate_confirmed (Prod.ext done.1 rfl) done.2⟩

theorem finish_passcode (config : Config) (request : Request) (env : Env) (store : Store)
    (events : List Event) (label : Label) (l : Locals) :
    (finish config request env store events label l).passcode =
      if label = .authDone ∧ l.rc = .ok then some l.eResponse else none := by
  simp only [finish, apply_ite Outcome.passcode, ite_self]

theorem staticPassword_label (crypto : Crypto) (request : Request) (user : User)
    (password : List Byte) : (staticPassword crypto request user password).label = .serviceErr := by
  unfold staticPassword
  split
  · rfl
  · rfl

theorem staticAccepted_plain
    (noPassword : ∀ user, call.env.get = .found user → user.password = none) :
    staticAccepted crypto call = false := by
  unfold staticAccepted
  split
  · rename_i user got
    rw [noPassword user got]
    split
    · cases ‹none = some _›
    · rfl
  · rfl

theorem staticAccepted_prepared {p : Prepared} (prepared : prepareCall crypto call = .ok p) :
    staticAccepted crypto call = false := by
  obtain ⟨user, got, noPassword, -⟩ := prepare_ok prepared
  refine staticAccepted_plain ?_
  intro user' got'
  cases got.symm.trans got'
  exact noPassword

/-- An early exit reports success for a static password only. -/
theorem prepareCall_exit {exit : EarlyExit} (failure : prepareCall crypto call = .error exit) :
    (exit.rc = .ok ↔ staticAccepted crypto call = true) ∧
      (exit.rc = .ok → exit.label = .serviceErr) := by
  by_cases static : ∃ user password, call.env.get = .found user ∧ user.password = some password
  · obtain ⟨user, password, got, set⟩ := static
    simp only [prepareCall, prepare, got, findCardops_cardOf, set] at failure
    simp only [staticAccepted, got, set]
    cases card : cardOf user.card with
    | none =>
        rw [card] at failure
        cases failure
        simp
    | some m =>
        rw [card] at failure
        cases failure
        exact ⟨by simp, fun _ => staticPassword_label ..⟩
  · have noPassword : ∀ user, call.env.get = .found user → user.password = none := by
      intro user got
      cases set : user.password with
      | none => rfl
      | some password => exact (static ⟨user, password, got, set⟩).elim
    have notOk : exit.rc ≠ .ok := by
      rcases prepare_error failure noPassword with known | known | known | ⟨known, -⟩
      all_goals rw [known]; decide
    rw [staticAccepted_plain noPassword]
    exact ⟨⟨fun ok => (notOk ok).elim, fun wrong => by cases wrong⟩, fun ok => (notOk ok).elim⟩

theorem serve_passcode (crypto : Crypto) (store : Store) (call : Call) :
    (serve crypto store call).1.passcode = otpPasscode crypto store call := by
  simp only [serve, verify, otpPasscode, prepareCall]
  cases prepared : prepare crypto (cardops crypto call.env.undef) call.config call.request
      call.env with
  | error exit =>
      have exits := (prepareCall_exit prepared).2
      rw [finish_passcode, if_neg]
      rintro ⟨label, ok⟩
      rw [exits ok] at label
      cases label
  | ok p =>
      simp only [Prepared.state]
      cases got : (stateGet call.config call.request.username call.env.io store
          { State.init with scratch1 := p.scratch1 }).1 with
      | none => 
          simp only [finish_passcode]
          rfl
      | some state => simp only [finish_passcode]

theorem serve_rc (crypto : Crypto) (store : Store) (call : Call) :
    (serve crypto store call).1.rc = .ok ↔
      staticAccepted crypto call = true ∨
        (otpAccepted crypto store call = true ∧ call.env.io.put = .done) := by
  have verdict := serve_verdict crypto store call
  generalize (serve crypto store call).1 = out at verdict
  cases verdict with
  | early exit out prepared rc =>
      have failure : prepareCall crypto call = .error exit := prepared
      have notOtp : otpAccepted crypto store call = false := by
        simp [otpAccepted, otpPasscode, failure]
      rw [rc, (prepareCall_exit failure).1, notOtp]
      simp
  | refused p out prepared got rc =>
      have success : prepareCall crypto call = .ok p := prepared
      have notOtp : otpAccepted crypto store call = false := by
        simp [otpAccepted, otpPasscode, success, got]
      rw [rc, staticAccepted_prepared success, notOtp]
      simp
  | aborted p state label l out prepared got result notDone rc =>
      have success : prepareCall crypto call = .ok p := prepared
      have notOtp : otpAccepted crypto store call = false := by
        simp [otpAccepted, otpPasscode, success, got, result, notDone]
      rw [rc, staticAccepted_prepared success, notOtp]
      simp
  | saved p state l out prepared got result put rc =>
      have success : prepareCall crypto call = .ok p := prepared
      have accepted : otpAccepted crypto store call = true ↔ l.rc = .ok := by
        simp [otpAccepted, otpPasscode, success, got, result]
      rw [rc, staticAccepted_prepared success, accepted]
      simp [put]
  | unsaved p state l out prepared got result put rc =>
      have success : prepareCall crypto call = .ok p := prepared
      rw [rc, staticAccepted_prepared success]
      simp [put]

theorem otpPasscode_text {passcode : List Byte}
    (accepted : otpPasscode crypto store call = some passcode) :
    passcode ≠ [] ∧ cstr passcode = passcode ∧ compare crypto call.request passcode = true := by
  obtain ⟨p, prepared, equal, data, challenge, len, clock, response, answered, rfl⟩ :=
    otpPasscode_confirmed accepted
  obtain ⟨user, m, -, -, -, runs, -⟩ := prepare_module prepared
  rw [runs] at answered
  obtain ⟨nonempty, noNul⟩ := CardModule.response_text answered
  refine ⟨?_, ?_, equal⟩
  · intro empty
    simp only [expectedPasscode] at empty
    split at empty
    · exact nonempty (List.append_eq_nil_iff.mp empty).2
    · exact nonempty (List.append_eq_nil_iff.mp empty).1
  · apply List.takeWhile_eq_self_iff.mpr
    intro b member
    have inside : b ∈ cstr p.user.pin ∨ b ∈ response := by
      simp only [expectedPasscode] at member
      split at member
      · exact List.mem_append.mp member
      · exact (List.mem_append.mp member).symm
    have : b ≠ 0 := by
      rintro rfl
      rcases inside with pin | digit
      · exact cstr_noNul _ pin
      · exact noNul digit
    simpa using this

end Call

/-! ## Whose passcode a reply carries -/

theorem cstr_strcpy (dst src : List Byte) : cstr (strcpy dst src) = cstr src := by
  have clean : ∀ b ∈ cstr src, decide (b ≠ 0) = true := by
    intro b member
    rw [decide_eq_true_eq]
    rintro rfl
    exact cstr_noNul src member
  rw [strcpy, cstr, List.takeWhile_append_of_pos clean]
  simp

/-- `passcode` is the plaintext that the request was accepted for. -/
def AcceptedFor (crypto : Crypto) (call : Call) (passcode : List Byte) : Prop :=
  match call.env.get with
  | .found user =>
    match user.password with
    | some _ => passcode = call.request.pwe.papPasscode
    | none => compare crypto call.request passcode = true
  | _ => False

def OwnPasscode (crypto : Crypto) (config : Config) (input : Incoming) (sent : OtpReply) : Prop :=
  if sent.rc = .ok then
    ∃ request, validate input.wire = .ok request ∧
      AcceptedFor crypto ⟨config, request, input.env⟩ (cstr sent.passcode)
  else cstr sent.passcode = []

/-- The reply to `input`, if one is sent, carries its own passcode or none. -/
def RepliesOwn (crypto : Crypto) (config : Config) (reply : OtpReply) (input : Incoming) : Prop :=
  ∀ sent, workThread crypto config reply input = some sent → OwnPasscode crypto config input sent

/-- A one-time passcode that is accepted has its state stored; any other reply finds in
`reply` what it has to carry. -/
def Unstale (crypto : Crypto) (config : Config) (reply : OtpReply) (input : Incoming) : Prop :=
  match validate input.wire with
  | .error (.disconnect _) => True
  | .error .lmResponse => cstr reply.passcode = []
  | .ok request =>
      if otpAccepted crypto input.store ⟨config, request, input.env⟩ then input.env.io.put = .done
      else cstr reply.passcode =
        if staticAccepted crypto ⟨config, request, input.env⟩ then request.pwe.papPasscode else []

theorem staticAccepted_for {crypto : Crypto} {call : Call}
    (static : staticAccepted crypto call = true) (passcode : List Byte) :
    AcceptedFor crypto call passcode ↔ passcode = call.request.pwe.papPasscode := by
  unfold staticAccepted at static
  split at static
  · rename_i user got
    split at static
    · rename_i set
      simp only [AcceptedFor, got, set]
    · cases static
  · cases static

theorem otpAccepted_for {crypto : Crypto} {store : Store} {call : Call} {passcode : List Byte}
    (accepted : otpPasscode crypto store call = some passcode) :
    AcceptedFor crypto call passcode := by
  obtain ⟨p, prepared, -⟩ := otpPasscode_confirmed accepted
  obtain ⟨user, got, noPassword, -⟩ := prepare_ok prepared
  simp only [AcceptedFor, got, noPassword]
  exact (otpPasscode_text accepted).2.2

theorem repliesOwn_iff (crypto : Crypto) (config : Config) (reply : OtpReply) (input : Incoming) :
    RepliesOwn crypto config reply input ↔ Unstale crypto config reply input := by
  cases validated : validate input.wire with
  | error refused =>
      cases refused with
      | disconnect bad => simp [RepliesOwn, Unstale, workThread, validated]
      | lmResponse => simp [RepliesOwn, Unstale, workThread, validated, OwnPasscode]
  | ok request =>
      have rc := serve_rc crypto input.store ⟨config, request, input.env⟩
      have passcode := serve_passcode crypto input.store ⟨config, request, input.env⟩
      simp only [RepliesOwn, Unstale, workThread, validated, OwnPasscode, Option.some.injEq,
        forall_eq', passcode, Except.ok.injEq, exists_eq_left']
      cases otp : otpPasscode crypto input.store ⟨config, request, input.env⟩ with
      | none =>
          have notOtp : otpAccepted crypto input.store ⟨config, request, input.env⟩ = false := by
            simp [otpAccepted, otp]
          simp only [notOtp, Bool.false_eq_true, false_and, or_false, if_false] at rc ⊢
          simp only [rc]
          split
          · exact staticAccepted_for ‹_› _
          · rfl
      | some given =>
          have isOtp : otpAccepted crypto input.store ⟨config, request, input.env⟩ = true := by
            simp [otpAccepted, otp]
          obtain ⟨nonempty, text, -⟩ := otpPasscode_text otp
          obtain ⟨p, prepared, -⟩ := otpPasscode_confirmed otp
          simp only [isOtp, staticAccepted_prepared prepared, Bool.false_eq_true, false_or,
            true_and, if_true] at rc ⊢
          simp only [rc, cstr_strcpy, text]
          by_cases done : input.env.io.put = .done
          · simp only [done, if_true, iff_true]
            exact otpAccepted_for otp
          · simp only [done, if_false, iff_false]
            exact nonempty

theorem replies_own_iff (crypto : Crypto) (config : Config) (inputs : List Incoming) :
    Schedule.Along (workThread crypto config) (RepliesOwn crypto config) OtpReply.init inputs ↔
      Schedule.Along (workThread crypto config) (Unstale crypto config) OtpReply.init inputs :=
  Schedule.along_congr (repliesOwn_iff crypto config)

/-- A version 2 PAP request of `bob`. -/
def papWire (passcode : String) : WireRequest where
  version := 2
  username := Buffer.ofList 32 (ascii "bob")
  challenge := Buffer.zero 17
  pwe := 1
  passcode := Buffer.ofList 48 (ascii passcode)
  chap := ⟨Buffer.zero 16, 0, Buffer.zero 50, 0⟩
  allowAsync := 0
  allowSync := 1
  challengeDelay := 0
  resync := 0

/-- `bob` with the PIN 1234. -/
def pinUser : User := { hmacUser "hotp-d6" with pinstring := ascii "31323334" }

def goodThenWrong : List Incoming :=
  [⟨papWire "1234287082", sampleEnv pinUser 1000, stateLine "5:bob:0000000000000000:::0:0:0:"⟩,
    ⟨papWire "0", sampleEnv pinUser 1001, stateLine "5:bob:0000000000000001:::0:3e8:0:"⟩]

theorem stale_passcode_sent :
    Schedule.run (workThread sampleCrypto defaultConfig) OtpReply.init goodThenWrong =
        some ⟨.authErr, ascii "1234287082" ++ [0]⟩ ∧
      ¬ Schedule.Along (workThread sampleCrypto defaultConfig)
        (RepliesOwn sampleCrypto defaultConfig) OtpReply.init goodThenWrong := by
  have first : workThread sampleCrypto defaultConfig OtpReply.init
      ⟨papWire "1234287082", sampleEnv pinUser 1000, stateLine "5:bob:0000000000000000:::0:0:0:"⟩ =
        some ⟨.ok, ascii "1234287082" ++ [0]⟩ := by decide +kernel
  have second : workThread sampleCrypto defaultConfig ⟨.ok, ascii "1234287082" ++ [0]⟩
      ⟨papWire "0", sampleEnv pinUser 1001, stateLine "5:bob:0000000000000001:::0:3e8:0:"⟩ =
        some ⟨.authErr, ascii "1234287082" ++ [0]⟩ := by decide +kernel
  refine ⟨?_, ?_⟩
  · simp only [goodThenWrong, Schedule.run, first, second, Option.bind_some]
  · intro along
    have own := (along.2 _ first).1 _ second
    rw [OwnPasscode, if_neg (by decide)] at own
    revert own
    decide +kernel

end Otpd

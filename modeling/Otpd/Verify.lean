import Otpd.Cards
import Otpd.StateFile

/-!
# `verify`

`otp.c`, `challenge_transform` of `site.c` and `state_get`/`state_put` of `state.c`.
`verify` is cut where the source has its labels and blocks: `prepare` up to the
first timeout check, `stateGet`, `authenticate` from the null-state handling to
the end of the sync window, `authDone` for the accounting, `statePut`.

`matched` and `events` are not in the source; they record which response the
passcode was equal to and what was done to the lock, so that statements can
refer to them.
-/

set_option autoImplicit false

namespace Otpd

open CMem

/-! ## `decrypt` and `compare` -/

def decryptFrom (key : List Byte) : Nat → List Byte → List Byte
  | _, [] => []
  | j, b :: rest =>
      let j := if j = key.length then 0 else j
      (b ^^^ key.getD j 0) :: decryptFrom key (j + 1) rest

def decrypt (data key : List Byte) : List Byte :=
  if key = [] then data else decryptFrom key 0 data

/-- The 7-to-8 octet spreading loop; `next` carries the bits shifted out. -/
def keyFromHashFrom : Nat → Byte → List Byte → List Byte
  | _, next, [] => [next]
  | i, next, working :: rest =>
      ((working >>> UInt8.ofNat i) ||| next) ::
        keyFromHashFrom (i + 1) (working <<< UInt8.ofNat (7 - i)) rest

def keyFromHash (hashbytes : List Byte) : List Byte := keyFromHashFrom 0 0 hashbytes

/-- The three DES encryptions of an NT_RESPONSE. -/
def ntResponse (crypto : Crypto) (passcode challenge : List Byte) : List Byte :=
  let ntKeys := (Buffer.ofList 21 (crypto.md4 (passcode.flatMap fun c => [c, 0]))).bytes
  (List.range 3).flatMap fun i =>
    crypto.desEcb (keyFromHash ((ntKeys.drop (i * 7)).take 7)) challenge

def compare (crypto : Crypto) (request : Request) (passcode : List Byte) : Bool :=
  match request.pwe with
  | .pap given => given.bytes == passcode
  | .chap data =>
      crypto.md5 (data.response.bytes.take 1 ++ passcode ++ data.challenge.bytes.take data.clen) ==
        (data.response.bytes.drop 1).take 16
  | .mschap data =>
      ntResponse crypto passcode (data.challenge.bytes.take 8) == data.response.bytes.drop 26
  | .mschap2 data =>
      let digest := crypto.sha1 ((data.response.bytes.drop 2).take 16 ++ data.challenge.bytes ++
        request.username.bytes)
      ntResponse crypto passcode (digest.take 8) == data.response.bytes.drop 26

/-! ## Up to `state_get` -/

inductive Label where
  | authDone
  | serviceErr
  | serviceErrTimeout
  deriving DecidableEq

/-- A `goto` taken before any state was loaded. -/
structure EarlyExit where
  label : Label
  rc : Rc
  deriving DecidableEq

/-- The local variables that are live once `state_get` is called. -/
structure Prepared where
  user : User
  ops : CardOps
  scratch1 : Nat

/-- Static password override.  The two `strncmp` results are used as they are,
so a branch is taken when the prefix differs. -/
def staticPassword (crypto : Crypto) (request : Request) (user : User) (password : List Byte) :
    EarlyExit :=
  if password.head? = some 123 ∧ request.pwe.isPap = false then ⟨.serviceErr, .serviceErr⟩
  else
    let matches_ :=
      if password.take 4 ≠ ascii "\x7bMD5" then
        user.passwordHash.bytes.take 16 == (crypto.md5 request.pwe.papPasscode).take 16
      else if password.take 4 ≠ ascii "\x7bSHA" then
        user.passwordHash.bytes == (crypto.sha1 request.pwe.papPasscode).take 20
      else compare crypto request password
    ⟨.serviceErr, if matches_ then .ok else .authErr⟩

/-- PIN encrypt modes: the PIN is cut out of the passcode and opens the key. -/
def decryptWithPin (crypto : Crypto) (config : Config) (request : Request) (md5 : Bool)
    (otpLen : Nat) (pinLen : Int) (key : List Byte) : Except EarlyExit (List Byte × List Byte) :=
  match request.pwe with
  | .pap passcode =>
      if pinLen ≠ 0 then .error ⟨.serviceErr, .serviceErr⟩
      else if (passcode.bytes.length : Int) - otpLen < 0 then .error ⟨.authDone, .authErr⟩
      else if (passcode.bytes.length : Int) - otpLen > otpMaxPinLen then .error ⟨.authDone, .authErr⟩
      else
        let pin := if config.prependPin then passcode.bytes.take (passcode.bytes.length - otpLen)
          else passcode.bytes.drop otpLen
        .ok (decrypt key (if md5 then crypto.md5 pin else pin), pin)
  | _ => .error ⟨.serviceErr, .serviceErr⟩

def passwdKey (config : Config) (undef : Undef) (keyid : Nat) : List Byte :=
  ((config.key[keyid]?).join).getD undef.key

/-- "Early exit if passcode is wrong length". -/
def wrongLength (request : Request) (otpLen : Nat) (pinLen : Int) : Bool :=
  match request.pwe with
  | .pap passcode => (otpLen : Int) + pinLen ≠ passcode.bytes.length
  | _ => false

/-- Decrypt key and PIN, then check the passcode length. -/
def decryptUser (crypto : Crypto) (config : Config) (request : Request) (undef : Undef)
    (user : User) (otpLen : Nat) (pinLen : Int) : Except EarlyExit User :=
  match user.encryptmode with
  | .pin | .pinmd5 => do
      let (key, pin) ← decryptWithPin crypto config request (user.encryptmode = .pinmd5)
        otpLen pinLen user.key
      .ok { user with key := key, pin := pin }
  | .keyid =>
      let k := passwdKey config undef user.keyid
      if wrongLength request otpLen pinLen then .error ⟨.authDone, .authErr⟩
      else .ok { user with key := decrypt user.key k, pin := decrypt user.pin k }
  | .clear =>
      if wrongLength request otpLen pinLen then .error ⟨.authDone, .authErr⟩ else .ok user

/-- `pin_len`: what `a2x` returned for the PIN string. -/
def pinLenOf (pinstring : List Byte) : Int :=
  match a2x pinstring with
  | some bytes => bytes.length
  | none => -1

def decodeUser (crypto : Crypto) (config : Config) (request : Request) (undef : Undef)
    (ops : CardOps) (user : User) : Except EarlyExit Prepared :=
  match ops.name2fm user.card, ops.keystring2key user.keystring with
  | some featuremask, some (key, scratch1) => do
      let pin := (a2x user.pinstring).getD undef.pin
      let user ← decryptUser crypto config request undef
        { user with featuremask := featuremask, key := key, pin := pin } (otpLenOf featuremask)
        (pinLenOf user.pinstring)
      .ok ⟨user, ops, scratch1⟩
  | _, _ => .error ⟨.serviceErr, .serviceErr⟩

def prepare (crypto : Crypto) (mods : List CardOps) (config : Config) (request : Request)
    (env : Env) : Except EarlyExit Prepared :=
  match env.get with
  | .unknown => .error ⟨.serviceErr, .userUnknown⟩
  | .unavailable => .error ⟨.serviceErr, .authinfoUnavail⟩
  | .found user =>
    match findCardops mods user.card with
    | none => .error ⟨.serviceErr, .serviceErr⟩
    | some ops =>
      match user.password with
      | some password => .error (staticPassword crypto request user password)
      | none => do
          let p ← decodeUser crypto config request env.undef ops user
          if config.timeout - env.hrGet < 500000000 then .error ⟨.serviceErr, .serviceErr⟩
          else .ok p

/-! ## `state_get` and `state_put` -/

inductive Event where
  | acquire
  | release
  deriving DecidableEq

/-- `state_get`: the loaded state on success, and what happened to the lock. -/
def stateGet (config : Config) (username : Username) (io : StateIo) (store : Store)
    (state : State) : Option State × List Event :=
  if io.granted = false then
    (none, if config.stateMode = .globalMode ∧ io.lost = true then [.acquire] else [])
  else
    match config.stateMode with
    | .localMode =>
      match deliver .localMode io.readable store with
      | none => (none, [.acquire, .release])
      | some buf =>
        match stateParse buf username { state with locked := false } with
        | none => (none, [.acquire, .release])
        | some state => (some { state with locked := true, updated := false }, [.acquire])
    | .globalMode =>
      match deliver .globalMode io.readable store with
      | none => (none, [.acquire])
      | some buf =>
        match stateParse buf username { state with locked := false } with
        | none => (none, [.acquire])
        | some state => (some { state with locked := true, updated := false }, [.acquire])

structure PutOutcome where
  success : Bool
  store : Store
  events : List Event

/-- `state_put`.  A failed write leaves the old file; an unanswered PUT may have
been carried out by gsmd.  gsmd keeps the lock when no PUT reaches it. -/
def statePut (config : Config) (username : Username) (io : StateIo) (store : Store)
    (state : State) : PutOutcome :=
  if state.locked = false then ⟨true, store, []⟩
  else
    let text := stateUnparse username state.record
    match config.stateMode with
    | .localMode =>
      if state.updated then
        if io.put = .done then ⟨true, persist .localMode text, [.release]⟩
        else ⟨false, store, [.release]⟩
      else ⟨true, store, [.release]⟩
    | .globalMode =>
      let update := if state.updated then persist .globalMode text else store
      match io.put with
      | .done => ⟨true, update, [.release]⟩
      | .failed => ⟨false, store, []⟩
      | .unacknowledged => ⟨false, update, [.release]⟩

/-! ## Fail condition -/

inductive Fc where
  | none
  | hard
  | soft
  deriving DecidableEq

/-- `fcount > 5 ? 32 << 6 : (1 << fcount) << 6` with `fcount` an `int`. -/
def softfailDelay (undef : Undef) (failcount softfail : UInt32) : UInt32 :=
  let fcount := failcount - softfail
  if fcount ≥ 0x80000000 then undef.shift
  else if fcount > 5 then (32 : UInt32) <<< 6
  else ((1 : UInt32) <<< fcount) <<< 6

def failCondition (config : Config) (undef : Undef) (state : State) (now : Time) : Fc :=
  if config.hardfail ≠ 0 ∧ state.failcount ≥ config.hardfail then .hard
  else if config.softfail ≠ 0 ∧ state.nullstate then .soft
  else if config.softfail ≠ 0 ∧ state.failcount ≥ config.softfail then
    if now.toU32 < state.authtime + softfailDelay undef state.failcount config.softfail then .soft
    else .none
  else .none

/-! ## Async and sync responses -/

/-- Which expected response the passcode was equal to.  `clen` is the length with which
`response` was given the challenge. -/
inductive Match where
  | async
  | sync (t e : Nat) (challenge : Buffer 16) (clen : Fin 17)
  deriving DecidableEq

structure Locals where
  rc : Rc
  state : State
  challenge : Buffer 16
  resync : Bool
  eResponse : List Byte
  matched : Option Match

/-- `e_response` after `response()` wrote at `pin_offset` and, unless the PIN is
prepended, `strcat` added it. -/
def expectedPasscode (config : Config) (user : User) (response : List Byte) : List Byte :=
  if config.prependPin then cstr user.pin ++ response else response ++ cstr user.pin

/-- The default site transform: the first two username characters are appended,
over the last ones when there is no room. -/
def challengeTransform (username : Username) (challenge : Buffer 16) (clen : Nat) :
    Buffer 16 × Nat :=
  let clen := if clen = 16 then clen - 2 else if clen = 15 then clen - 1 else clen
  let tail := username.bytes.take 2
  (challenge.copy (challenge.bytes.take clen ++ tail), clen + tail.length)

def asyncChallenge (config : Config) (request : Request) (undef : Undef) : Buffer 16 × Nat :=
  let challenge := undef.challenge.copy request.challenge.bytes
  let clen := request.challenge.bytes.length
  if config.siteTransform then challengeTransform request.username challenge clen
  else (challenge, clen)

def asyncPossible (request : Request) (user : User) : Bool :=
  request.challenge.bytes ≠ [] ∧ hasFeature user.featuremask otpCfAm ∧ request.allowAsync

def asyncRc (request : Request) (fc : Fc) (state : State) (now : Time) : Rc :=
  if fc = .hard then .maxtries
  else if fc = .soft then .maxtries
  else if request.challengeDelay ≠ 0 ∧ now.toU32 - state.authtime < request.challengeDelay then
    .maxtries
  else .ok

def asyncResponse (config : Config) (request : Request) (env : Env) (p : Prepared)
    (data : CardData) : Option (List Byte) :=
  let (challenge, clen) := asyncChallenge config request env.undef
  p.ops.response p.user data challenge clen env.asyncClock

def eendOf (config : Config) (user : User) : Int :=
  if hasFeature user.featuremask otpCfFrw then
    ((user.featuremask &&& otpCfFrw) >>> otpCfFrwShift).toInt32.toInt
  else if hasFeature user.featuremask otpCfEs then
    if user.rwindowSize ≠ 0 then user.rwindowSize.toInt32.toInt
    else if config.rwindowSize ≠ 0 then config.rwindowSize.toInt32.toInt
    else config.ewindowSize.toInt32.toInt
  else 0

def syncRc (config : Config) (p : Prepared) (fc : Fc) (state : State) (now : Time) (e : Nat) : Rc :=
  if fc = .hard then .maxtries
  else if p.ops.isconsecutive p.user state.toCardData e then
    if now.toU32 ≤ state.authtime then .nextpasscode else .ok
  else if fc = .soft then .nextpasscode
  else if hasFeature p.user.featuremask otpCfFrw = false ∧
      (e : Int) > config.ewindowSize.toInt32.toInt then .nextpasscode
  else .ok

/-- "If (passcode is valid)": reply, forced resync, `updatecsd`. -/
def syncMatch (config : Config) (env : Env) (p : Prepared) (fc : Fc) (t e : Nat) (l : Locals) :
    Label × Locals :=
  let rc := syncRc config p fc l.state env.now e
  let l := { l with resync := true, matched := some (.sync t e l.challenge l.state.clen) }
  match p.ops.updatecsd l.state.toCardData env.now t e rc with
  | none => (.serviceErr, { l with rc := .serviceErr })
  | some data => (.authDone, { l with rc := rc, state := { l.state with toCardData := data } })

/-- The two window loops, over the positions still to be tried. -/
def syncLoop (crypto : Crypto) (config : Config) (request : Request) (env : Env) (p : Prepared)
    (fc : Fc) : List (Nat × Nat) → Locals → Label × Locals
  | [], l => (.authDone, { l with rc := .authErr })
  | (t, e) :: rest, l =>
    let step := p.ops.challenge p.user l.state.toCardData l.challenge env.now t e
    let l := { l with state := { l.state with toCardData := step.2.1 }, challenge := step.2.2 }
    match step.1 with
    | .error => (.serviceErr, { l with rc := .serviceErr })
    | .early => syncLoop crypto config request env p fc rest l
    | .ok =>
      match p.ops.response p.user l.state.toCardData l.challenge l.state.clen (env.clock t e) with
      | none => (.serviceErr, { l with rc := .serviceErr })
      | some response =>
        let l := { l with eResponse := expectedPasscode config p.user response }
        if compare crypto request l.eResponse then syncMatch config env p fc t e l
        else syncLoop crypto config request env p fc rest l

def windowPositions (tend eend : Int) : List (Nat × Nat) :=
  (List.range (tend + 1).toNat).flatMap fun t => (List.range (eend + 1).toNat).map fun e => (t, e)

def syncAuth (crypto : Crypto) (config : Config) (request : Request) (env : Env) (p : Prepared)
    (fc : Fc) (l : Locals) : Label × Locals :=
  if hasFeature p.user.featuremask otpCfSm ∧ request.allowSync then
    let l := { l with challenge := l.challenge.copy (l.state.challenge.bytes.take l.state.clen) }
    let tend := p.ops.maxtwin p.user l.state.toCardData env.now
    if tend < 0 then (.serviceErr, { l with rc := .serviceErr })
    else syncLoop crypto config request env p fc (windowPositions tend (eendOf config p.user)) l
  else (.authDone, { l with rc := .authErr })

def responses (crypto : Crypto) (config : Config) (request : Request) (env : Env) (p : Prepared)
    (fc : Fc) (l : Locals) : Label × Locals :=
  let l := { l with challenge := env.undef.challenge.copy request.challenge.bytes }
  if asyncPossible request p.user then
    let l := { l with challenge := (asyncChallenge config request env.undef).1 }
    match asyncResponse config request env p l.state.toCardData with
    | none => (.serviceErr, { l with rc := .serviceErr })
    | some response =>
      let l := { l with eResponse := expectedPasscode config p.user response }
      if compare crypto request l.eResponse then
        (.authDone, { l with rc := asyncRc request fc l.state env.now, matched := some .async })
      else syncAuth crypto config request env p fc l
  else syncAuth crypto config request env p fc l

/-! ## The whole call -/

/-- Null-state handling after `state_get`; a negative `authtime` marks a state
that never saw a success. -/
def resolveNullstate (p : Prepared) (state : State) (now : Time) : Option State :=
  if state.nullstate then
    (p.ops.nullstate p.user state.toCardData now).map fun data => { state with toCardData := data }
  else if state.authtime ≥ 0x80000000 then
    some { state with authtime := -state.authtime, nullstate := true }
  else some state

def Locals.start (request : Request) (env : Env) (rc : Rc) (state : State) : Locals :=
  ⟨rc, state, env.undef.challenge, request.resync, [], none⟩

def authenticate (crypto : Crypto) (config : Config) (request : Request) (env : Env)
    (p : Prepared) (state : State) : Label × Locals :=
  match resolveNullstate p state env.now with
  | none => (.serviceErr, Locals.start request env .serviceErr state)
  | some state =>
    if config.timeout - env.hrGet - env.hrState < 250000000 then
      (.serviceErrTimeout, Locals.start request env .serviceErr state)
    else
      responses crypto config request env p (failCondition config env.undef state env.now)
        (Locals.start request env .authErr state)

/-- `++failcount`, kept below `UINT_MAX`. -/
def bumpFailcount (failcount : UInt32) : UInt32 :=
  if failcount + 1 = 0xffffffff then failcount + 1 - 1 else failcount + 1

def authDone (now : Time) (l : Locals) : State :=
  if l.rc = .ok then
    { l.state with
      challenge := if l.resync then l.state.challenge.copy (l.challenge.bytes.take l.state.clen)
        else l.state.challenge
      failcount := 0
      authtime := now.toU32
      updated := true }
  else
    { l.state with
      failcount := bumpFailcount l.state.failcount
      authtime := if l.state.nullstate then -now.toU32 else now.toU32
      updated := true }

/-- `passcode` is what was copied into `reply->passcode`, if anything was, and
`store` the state kept for the user once the call has returned. -/
structure Outcome where
  rc : Rc
  passcode : Option (List Byte)
  store : Store
  events : List Event
  matched : Option Match

def finish (config : Config) (request : Request) (env : Env) (store : Store)
    (events : List Event) (label : Label) (l : Locals) : Outcome :=
  let state := if label = .authDone then authDone env.now l else l.state
  let passcode := if label = .authDone ∧ l.rc = .ok then some l.eResponse else none
  if state.locked then
    let put := statePut config request.username env.io store state
    ⟨if put.success then l.rc else .serviceErr, passcode, put.store, events ++ put.events,
      l.matched⟩
  else ⟨l.rc, passcode, store, events, l.matched⟩

def verify (crypto : Crypto) (mods : List CardOps) (config : Config) (request : Request)
    (env : Env) (store : Store) : Outcome :=
  match prepare crypto mods config request env with
  | .error exit =>
      finish config request env store [] exit.label
        (Locals.start request env exit.rc State.init)
  | .ok p =>
    let got := stateGet config request.username env.io store
      { State.init with scratch1 := p.scratch1 }
    match got.1 with
    | none =>
        finish config request env store got.2 .serviceErr
          (Locals.start request env .serviceErr State.init)
    | some state =>
        let result := authenticate crypto config request env p state
        finish config request env store got.2 result.1 result.2

end Otpd

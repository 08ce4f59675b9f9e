import Otpd.Lib.Runs
import Otpd.VerifySpec

/-!
# Sessions

A `Call` is one invocation of `verify` with everything it observes; `serve` runs it
against the card modules of this repository.  A session is a run of `serve`: each
call reads the state the previous one left.
-/

set_option autoImplicit false

namespace Otpd

open CMem

structure Call where
  config : Config
  request : Request
  env : Env

def serve (crypto : Crypto) (store : Store) (call : Call) : Outcome × Store :=
  let out := verify crypto (cardops crypto call.env.undef) call.config call.request call.env store
  (out, out.store)

theorem serve_verdict (crypto : Crypto) (store : Store) (call : Call) :
    CallVerdict crypto (cardops crypto call.env.undef) call.config call.request call.env store
      (serve crypto store call).1 :=
  verify_verdict crypto (cardops crypto call.env.undef) call.config call.request call.env store

def prepareCall (crypto : Crypto) (call : Call) : Except EarlyExit Prepared :=
  prepare crypto (cardops crypto call.env.undef) call.config call.request call.env

abbrev Exchange := Runs.Transition Store Call Outcome

def session (crypto : Crypto) (store : Store) (calls : List Call) : List Exchange :=
  Runs.trace (serve crypto) store calls

theorem session_step {crypto : Crypto} {store : Store} {calls : List Call} {x : Exchange}
    (member : x ∈ session crypto store calls) :
    x.call ∈ calls ∧ x.out = (serve crypto x.pre x.call).1 ∧
      x.post = (serve crypto x.pre x.call).2 := by
  have exact := Runs.trace_is_step (serve crypto) member
  exact ⟨Runs.trace_call_mem (serve crypto) member, congrArg Runs.Transition.out exact,
    congrArg Runs.Transition.post exact⟩

/-- Calls for one user in one state mode, without static password override. -/
structure Call.Plain (call : Call) (username : Username) (mode : StateMode) : Prop where
  sameUser : call.request.username = username
  sameMode : call.config.stateMode = mode
  noPassword : ∀ user, call.env.get = .found user → user.password = none

/-! ## Which module serves a card -/

def CardModule.cardPrefix : CardModule → List Byte
  | .c200 => ascii "c200"
  | .cryptocard => ascii "cryptocard"
  | .hotp => ascii "hotp"
  | .totp => ascii "totp"
  | .x99 => ascii "x99"

def cardOf (card : List Byte) : Option CardModule :=
  [CardModule.c200, .cryptocard, .hotp, .totp, .x99].find? fun m => strncasecmpEq m.cardPrefix card

theorem findCardops_cardOf (crypto : Crypto) (undef : Undef) (card : List Byte) :
    findCardops (cardops crypto undef) card = (cardOf card).map (CardModule.ops crypto undef) := by
  rw [findCardops, cardops, cardOf, List.find?_map]
  congr 2
  funext m
  cases m <;> rfl

def Call.Uses (call : Call) (m : CardModule) : Prop :=
  ∀ user, call.env.get = .found user → cardOf user.card = some m

/-! ## What `prepare` establishes -/

theorem decryptUser_fields {crypto : Crypto} {config : Config} {request : Request} {undef : Undef}
    {user user' : User} {otpLen : Nat} {pinLen : Int}
    (success : decryptUser crypto config request undef user otpLen pinLen = .ok user') :
    user'.featuremask = user.featuremask ∧ user'.rwindowSize = user.rwindowSize := by
  unfold decryptUser at success
  have withPin : ∀ md5, (do
      let pair ← decryptWithPin crypto config request md5 otpLen pinLen user.key
      Except.ok { user with key := pair.1, pin := pair.2 } : Except EarlyExit User) = .ok user' →
      user'.featuremask = user.featuremask ∧ user'.rwindowSize = user.rwindowSize := by
    intro md5 run
    cases opened : decryptWithPin crypto config request md5 otpLen pinLen user.key with
    | error exit => rw [opened] at run; cases run
    | ok pair => rw [opened] at run; cases run; exact ⟨rfl, rfl⟩
  split at success
  · exact withPin _ success
  · exact withPin _ success
  · dsimp only at success
    split at success <;> cases success
    exact ⟨rfl, rfl⟩
  · split at success <;> cases success
    exact ⟨rfl, rfl⟩

/-- A PAP passcode of this length is turned down before any state is loaded. -/
def wrongLengthFor (user : User) (otpLen length : Nat) : Bool :=
  match user.encryptmode with
  | .pin | .pinmd5 => pinLenOf user.pinstring = 0 ∧ (length < otpLen ∨ otpLen + otpMaxPinLen < length)
  | .keyid | .clear => (otpLen : Int) + pinLenOf user.pinstring ≠ length

theorem wrongLength_pap {request : Request} {otpLen : Nat} {pinLen : Int}
    (wrong : wrongLength request otpLen pinLen = true) :
    ∃ passcode, request.pwe = .pap passcode ∧ (otpLen : Int) + pinLen ≠ passcode.bytes.length := by
  cases pwe : request.pwe with
  | pap passcode => exact ⟨passcode, rfl, by simpa [wrongLength, pwe] using wrong⟩
  | chap data => simp [wrongLength, pwe] at wrong
  | mschap data => simp [wrongLength, pwe] at wrong
  | mschap2 data => simp [wrongLength, pwe] at wrong

theorem decryptWithPin_error {crypto : Crypto} {config : Config} {request : Request} {md5 : Bool}
    {otpLen : Nat} {pinLen : Int} {key : List Byte} {exit : EarlyExit}
    (failure : decryptWithPin crypto config request md5 otpLen pinLen key = .error exit) :
    exit = ⟨.serviceErr, .serviceErr⟩ ∨ (exit = ⟨.authDone, .authErr⟩ ∧
      ∃ passcode, request.pwe = .pap passcode ∧ pinLen = 0 ∧
        (passcode.bytes.length < otpLen ∨ otpLen + otpMaxPinLen < passcode.bytes.length)) := by
  unfold decryptWithPin at failure
  split at failure
  · rename_i passcode isPap
    split at failure
    · cases failure
      exact Or.inl rfl
    · rename_i noPin
      split at failure
      · rename_i short
        cases failure
        exact Or.inr ⟨rfl, passcode, isPap, not_not.mp noPin, Or.inl (by omega)⟩
      · split at failure <;> cases failure
        rename_i long
        exact Or.inr ⟨rfl, passcode, isPap, not_not.mp noPin, Or.inr (by omega)⟩
  · cases failure
    exact Or.inl rfl

theorem decryptUser_error {crypto : Crypto} {config : Config} {request : Request} {undef : Undef}
    {user : User} {otpLen : Nat} {exit : EarlyExit}
    (failure : decryptUser crypto config request undef user otpLen (pinLenOf user.pinstring) =
      .error exit) :
    exit = ⟨.serviceErr, .serviceErr⟩ ∨ (exit = ⟨.authDone, .authErr⟩ ∧
      ∃ passcode, request.pwe = .pap passcode ∧
        wrongLengthFor user otpLen passcode.bytes.length = true) := by
  unfold decryptUser at failure
  unfold wrongLengthFor
  have withPin : ∀ md5, (do
      let pair ← decryptWithPin crypto config request md5 otpLen (pinLenOf user.pinstring) user.key
      Except.ok { user with key := pair.1, pin := pair.2 } : Except EarlyExit User) = .error exit →
      decryptWithPin crypto config request md5 otpLen (pinLenOf user.pinstring) user.key =
        .error exit := by
    intro md5 run
    cases opened : decryptWithPin crypto config request md5 otpLen (pinLenOf user.pinstring)
        user.key with
    | ok pair => rw [opened] at run; cases run
    | error exit' => rw [opened] at run; cases run; rfl
  split at failure
  · rename_i mode
    rcases decryptWithPin_error (withPin _ failure) with known | ⟨known, passcode, isPap, wrong⟩
    · exact Or.inl known
    · exact Or.inr ⟨known, passcode, isPap, by simpa [mode] using wrong⟩
  · rename_i mode
    rcases decryptWithPin_error (withPin _ failure) with known | ⟨known, passcode, isPap, wrong⟩
    · exact Or.inl known
    · exact Or.inr ⟨known, passcode, isPap, by simpa [mode] using wrong⟩
  · rename_i mode
    dsimp only at failure
    split at failure <;> cases failure
    rename_i wrong
    obtain ⟨passcode, isPap, differs⟩ := wrongLength_pap wrong
    exact Or.inr ⟨rfl, passcode, isPap, by simpa [mode] using differs⟩
  · rename_i mode
    split at failure <;> cases failure
    rename_i wrong
    obtain ⟨passcode, isPap, differs⟩ := wrongLength_pap wrong
    exact Or.inr ⟨rfl, passcode, isPap, by simpa [mode] using differs⟩

section Prepare

variable {crypto : Crypto} {mods : List CardOps} {config : Config} {request : Request} {env : Env}

theorem decodeUser_ok {undef : Undef} {ops : CardOps} {user : User} {p : Prepared}
    (success : decodeUser crypto config request undef ops user = .ok p) :
    p.ops = ops ∧ ops.name2fm user.card = some p.user.featuremask ∧
      p.user.rwindowSize = user.rwindowSize := by
  unfold decodeUser at success
  split at success
  · rename_i featuremask key scratch1 mask _
    dsimp only at success
    cases opened : decryptUser crypto config request undef
        { user with featuremask := featuremask, key := key,
                    pin := (a2x user.pinstring).getD undef.pin } (otpLenOf featuremask)
        (pinLenOf user.pinstring) with
    | error exit => rw [opened] at success; cases success
    | ok user' =>
        rw [opened] at success
        cases success
        obtain ⟨sameMask, sameWindow⟩ := decryptUser_fields opened
        exact ⟨rfl, by rw [mask, sameMask], sameWindow⟩
  · cases success

theorem decodeUser_error {undef : Undef} {ops : CardOps} {user : User} {exit : EarlyExit}
    (failure : decodeUser crypto config request undef ops user = .error exit) :
    exit = ⟨.serviceErr, .serviceErr⟩ ∨ (exit = ⟨.authDone, .authErr⟩ ∧
      ∃ fm key passcode, ops.name2fm user.card = some fm ∧
        ops.keystring2key user.keystring = some key ∧ request.pwe = .pap passcode ∧
        wrongLengthFor user (otpLenOf fm) passcode.bytes.length = true) := by
  unfold decodeUser at failure
  split at failure
  · rename_i featuremask key scratch1 mask isKey
    dsimp only at failure
    cases opened : decryptUser crypto config request undef
        { user with featuremask := featuremask, key := key,
                    pin := (a2x user.pinstring).getD undef.pin } (otpLenOf featuremask)
        (pinLenOf user.pinstring) with
    | error exit' =>
        rw [opened] at failure
        cases failure
        rcases decryptUser_error opened with known | ⟨known, passcode, isPap, wrong⟩
        · exact Or.inl known
        · exact Or.inr ⟨known, featuremask, _, passcode, mask, isKey, isPap, wrong⟩
    | ok user' => rw [opened] at failure; cases failure
  · cases failure
    exact Or.inl rfl

/-- A call that gets as far as `state_get` found a user without static password,
a module for its card and a feature mask for its name. -/
theorem prepare_ok {p : Prepared} (success : prepare crypto mods config request env = .ok p) :
    ∃ user, env.get = .found user ∧ user.password = none ∧
      findCardops mods user.card = some p.ops ∧
      p.ops.name2fm user.card = some p.user.featuremask ∧
      p.user.rwindowSize = user.rwindowSize := by
  unfold prepare at success
  split at success
  · cases success
  · cases success
  · rename_i user got
    split at success
    · cases success
    · rename_i ops found
      split at success
      · cases success
      · rename_i noPassword
        cases decoded : decodeUser crypto config request env.undef ops user with
        | error exit => rw [decoded] at success; cases success
        | ok p' =>
            rw [decoded] at success
            dsimp only [bind, Except.bind] at success
            split at success <;> cases success
            obtain ⟨same, mask, window⟩ := decodeUser_ok decoded
            exact ⟨user, got, noPassword, by rw [found, same], by rw [same]; exact mask, window⟩

/-- Without static password an early exit never reports success; the one that
reports a failed authentication is for the length of the passcode. -/
theorem prepare_error {exit : EarlyExit}
    (failure : prepare crypto mods config request env = .error exit)
    (noPassword : ∀ user, env.get = .found user → user.password = none) :
    exit.rc = .userUnknown ∨ exit.rc = .authinfoUnavail ∨ exit.rc = .serviceErr ∨
      (exit.rc = .authErr ∧ ∃ user ops fm key passcode, env.get = .found user ∧
        findCardops mods user.card = some ops ∧ ops.name2fm user.card = some fm ∧
        ops.keystring2key user.keystring = some key ∧ request.pwe = .pap passcode ∧
        wrongLengthFor user (otpLenOf fm) passcode.bytes.length = true) := by
  unfold prepare at failure
  split at failure
  · cases failure
    exact Or.inl rfl
  · cases failure
    exact Or.inr (Or.inl rfl)
  · rename_i user got
    split at failure
    · cases failure
      exact Or.inr (Or.inr (Or.inl rfl))
    · rename_i ops found
      rw [noPassword user got] at failure
      dsimp only at failure
      cases decoded : decodeUser crypto config request env.undef ops user with
      | error exit' =>
          rw [decoded] at failure
          cases failure
          rcases decodeUser_error decoded with rfl | ⟨rfl, fm, key, passcode, rejected⟩
          · exact Or.inr (Or.inr (Or.inl rfl))
          · exact Or.inr (Or.inr (Or.inr ⟨rfl, user, ops, fm, key, passcode, got, found, rejected⟩))
      | ok p' =>
          rw [decoded] at failure
          dsimp only [bind, Except.bind] at failure
          split at failure <;> cases failure
          exact Or.inr (Or.inr (Or.inl rfl))

end Prepare

/-! ## Feature masks -/

theorem lookupCard_mem {table : List (String × UInt32)} {name : List Byte} {fm : UInt32}
    (found : lookupCard table name = some fm) : fm ∈ table.map Prod.snd := by
  obtain ⟨entry, hit, rfl⟩ := Option.map_eq_some_iff.mp found
  exact List.mem_map_of_mem (List.mem_of_find?_eq_some hit)

def CardModule.table : CardModule → List (String × UInt32)
  | .c200 => c200Card
  | .cryptocard => cryptocardCard
  | .hotp => hotpCard
  | .totp => totpCard
  | .x99 => x99Card

def CardModule.masks (m : CardModule) : List UInt32 := m.table.map Prod.snd

theorem CardModule.name2fm_eq (crypto : Crypto) (undef : Undef) (m : CardModule) :
    (m.ops crypto undef).name2fm = lookupCard m.table := by
  cases m <;> rfl

theorem CardModule.name2fm_mem (crypto : Crypto) (undef : Undef) (m : CardModule)
    {name : List Byte} {fm : UInt32} (found : (m.ops crypto undef).name2fm name = some fm) :
    fm ∈ m.masks := by
  rw [m.name2fm_eq] at found
  exact lookupCard_mem found

def CardModule.keyOf : CardModule → List Byte → Option (List Byte × Nat)
  | .c200 | .hotp | .totp => hmacKeystring2key
  | .cryptocard | .x99 => desKeystring2key

theorem CardModule.keystring2key_eq (crypto : Crypto) (undef : Undef) (m : CardModule) :
    (m.ops crypto undef).keystring2key = m.keyOf := by
  cases m <;> rfl

/-- The call is turned down for the length of its passcode, before any state is
loaded. -/
def lengthRejected (call : Call) : Bool :=
  match call.env.get, call.request.pwe with
  | .found user, .pap passcode =>
    match cardOf user.card with
    | none => false
    | some m =>
      match lookupCard m.table user.card, m.keyOf user.keystring with
      | some fm, some _ => wrongLengthFor user (otpLenOf fm) passcode.bytes.length
      | _, _ => false
  | _, _ => false

/-- No module of the repository uses the fixed-window bits. -/
theorem CardModule.masks_noFrw (m : CardModule) : ∀ fm ∈ m.masks, hasFeature fm otpCfFrw = false := by
  have all : (m.masks.all fun fm => hasFeature fm otpCfFrw == false) = true := by
    cases m <;> decide +kernel
  simpa using all

/-- The event and time modules are all flagged event synchronous and nothing else. -/
theorem CardModule.masks_event (m : CardModule) (kind : m = .hotp ∨ m = .totp ∨ m = .c200) :
    ∀ fm ∈ m.masks, hasFeature fm otpCfAm = false ∧ hasFeature fm otpCfEs = true := by
  have all : (m.masks.all fun fm => hasFeature fm otpCfAm == false && hasFeature fm otpCfEs) =
      true := by
    rcases kind with rfl | rfl | rfl <;> decide +kernel
  simpa using all

theorem CardModule.masks_x99 : ∀ fm ∈ CardModule.x99.masks, hasFeature fm otpCfSm = false := by
  have all : (CardModule.x99.masks.all fun fm => hasFeature fm otpCfSm == false) = true := by
    decide +kernel
  simpa using all

/-- A prepared call runs one of the five modules, with a mask from its table. -/
theorem prepare_module {crypto : Crypto} {config : Config} {request : Request} {env : Env}
    {p : Prepared}
    (success : prepare crypto (cardops crypto env.undef) config request env = .ok p) :
    ∃ user m, env.get = .found user ∧ user.password = none ∧ cardOf user.card = some m ∧
      p.ops = m.ops crypto env.undef ∧ p.user.featuremask ∈ m.masks ∧
      p.user.rwindowSize = user.rwindowSize := by
  obtain ⟨user, got, noPassword, found, mask, window⟩ := prepare_ok success
  rw [findCardops_cardOf] at found
  obtain ⟨m, isCard, exact⟩ := Option.map_eq_some_iff.mp found
  rw [← exact] at mask
  exact ⟨user, m, got, noPassword, isCard, exact.symm, m.name2fm_mem crypto env.undef mask, window⟩

theorem prepare_exit {crypto : Crypto} {call : Call} {exit : EarlyExit}
    (failure : prepareCall crypto call = .error exit)
    (noPassword : ∀ user, call.env.get = .found user → user.password = none) :
    exit.rc = .userUnknown ∨ exit.rc = .authinfoUnavail ∨ exit.rc = .serviceErr ∨
      (exit.rc = .authErr ∧ lengthRejected call = true) := by
  rcases prepare_error failure noPassword with known | known | known |
    ⟨known, user, ops, fm, key, passcode, got, found, mask, isKey, isPap, wrong⟩
  · exact Or.inl known
  · exact Or.inr (Or.inl known)
  · exact Or.inr (Or.inr (Or.inl known))
  · refine Or.inr (Or.inr (Or.inr ⟨known, ?_⟩))
    rw [findCardops_cardOf] at found
    obtain ⟨m, card, rfl⟩ := Option.map_eq_some_iff.mp found
    rw [m.name2fm_eq] at mask
    rw [m.keystring2key_eq] at isKey
    simpa [lengthRejected, got, isPap, card, mask, isKey] using wrong

/-! ## Sample cards

The key of RFC 4226, appendix D, and the DES key 0123456789abcdef, with the MAC
values that concrete runs use. -/

def rfcKey : List Byte := ascii "12345678901234567890"

def bytesOf (size number : Nat) : List Byte :=
  (List.range size).map fun i => UInt8.ofNat (number / 256 ^ (size - 1 - i))

/-- HMAC-SHA-1 under `rfcKey`, by counter. -/
def rfcMacs : List Nat :=
  [0xcc93cf18508d94934c64b65d8ba7667fb7cde4b0, 0x75a48a19d4cbe100644e8ac1397eea747a2d33ab,
   0x0bacb7fa082fef30782211938bc1c5e70416ff44, 0x66c28227d03a2d5529262ff016a1e6ef76557ece,
   0xa904c900a64b35909874b33e61c5938a8e15ed1c, 0xa37e783d7b7233c083d4f62926c7a25f238d0316,
   0xbc9cd28561042c83f219324d3c607256c03272ae, 0xa4fb960c0bc06e1eabb804e5b397cdc4b45596fa,
   0x1b3c89f65e6c9e883012052823443f048b4332db, 0x1637409809a679dc698207310c8c7fc07290d9e5,
   0x9b9dd5ef9a9ad25dd73bf9accea66f89a125e873, 0xca1e0402c19edb6825339ea0143f0bee54fc0dc0,
   0x1adaf4b0bf4046d056d8f00e4a6a96a36bc99807, 0x3fba7f8a248d87f8a6bf079a443135e490a2bbc6,
   0x056d10dc2c052000cc4f95fdcfd922043372be99, 0x749e3f882d4edacdcbe99fb8ad2984928d88fba6]

def desKey : List Byte := [0x01, 0x23, 0x45, 0x67, 0x89, 0xab, 0xcd, 0xef]

/-- DES-CBC under `desKey`: the chain of challenges from the text 12345678, that
challenge with the first letters of the username appended, and the chain from the
four bytes 12 34 56 78. -/
def desBlocks : List (String × Nat × Nat) :=
  [("12345678", 8, 0xbd0b1a49070ac376), ("31097036", 8, 0xd1240207f17e90f9),
   ("14271409", 8, 0xeda6ef25830ee986), ("36553496", 8, 0xccebaeb946ef3b02),
   ("21496512", 8, 0x8b4e4ec2931f3870), ("14423580", 8, 0x976a8fc5aa37c0f1),
   ("70550701", 8, 0x3f7f8689f14b9b0a), ("55691110", 8, 0x6994ca6e21f05ff5),
   ("94041055", 8, 0x97b19cb6e11d0db3), ("71261333", 8, 0x3122366b096d9339),
   ("12619339", 8, 0xee69f3a826c31e53), ("49386343", 8, 0x22035e24b3bfd771),
   ("12345678bo", 16, 0xbd0b1a49070ac376f5f078bf5f7ba0a3),
   ("\x124Vx", 8, 0xe4804773291a8ed3), ("40739043", 8, 0xa2eb66192d93b947),
   ("21693397", 8, 0x62f191ef3098fbbb)]

def sampleCrypto : Crypto where
  hmac key counter := if key = rfcKey then rfcMacs[beNat counter]?.map (bytesOf 20) else none
  md4 _ := []
  md5 _ := []
  sha1 _ := []
  desKeyOk key := key = desKey
  desCbc _ block :=
    ((desBlocks.find? (ascii ·.1 = block)).map fun entry => bytesOf entry.2.1 entry.2.2).getD []
  desEcb _ _ := []

def bob : Username := ⟨ascii "bob", by decide +kernel, by decide +kernel⟩

def textOf (n : Nat) (text : String) : CString n where
  bytes := ((ascii text).filter (· ≠ 0)).take n
  bound := List.length_take_le n _
  noNul member := by simpa using List.mem_of_mem_take member

/-- The settings of `otpd.conf` as shipped, in local state mode. -/
def defaultConfig : Config where
  hardfail := 0
  softfail := 5
  timeout := 11700000000
  prependPin := true
  ewindowSize := 5
  rwindowSize := 25
  siteTransform := true
  key := []
  stateMode := .localMode

def hmacUser (card : String) : User where
  card := ascii card
  keystring := ascii "3132333435363738393031323334353637383930"
  pinstring := []
  keyid := 0
  encryptmode := .clear
  password := none
  passwordHash := Buffer.zero 20
  rwindowSize := 7

def desUser (card : String) : User :=
  { hmacUser card with keystring := ascii "0123456789abcdef" }

def sampleEnv (user : User) (now : Time) : Env where
  now := now
  clock _ _ := now
  asyncClock := now
  get := .found user
  hrGet := 0
  hrState := 0
  io := { granted := true, readable := true, put := .done }
  undef := ⟨Buffer.zero 16, [], [], Buffer.zero 8, 0⟩

def papCall (user : User) (passcode : String) (now : Time) : Call where
  config := defaultConfig
  request := ⟨bob, textOf 16 "", .pap (textOf 47 passcode), false, true, 0, true⟩
  env := sampleEnv user now

/-- The response to a challenge, with async mode allowed. -/
def asyncCall (user : User) (challenge passcode : String) (now : Time) : Call :=
  { papCall user passcode now with
    request := ⟨bob, textOf 16 challenge, .pap (textOf 47 passcode), true, true, 0, true⟩ }

theorem papCall_plain (user : User) (passcode : String) (now : Time)
    (noPassword : user.password = none) : (papCall user passcode now).Plain bob .localMode :=
  ⟨rfl, rfl, fun _ found => by cases found; exact noPassword⟩

theorem asyncCall_plain (user : User) (challenge passcode : String) (now : Time)
    (noPassword : user.password = none) :
    (asyncCall user challenge passcode now).Plain bob .localMode :=
  ⟨rfl, rfl, fun _ found => by cases found; exact noPassword⟩

def stateLine (text : String) : Store := some (ascii text ++ [10])

end Otpd

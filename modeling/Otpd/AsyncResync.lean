import Otpd.Attempt

/-!
# Resynchronising with an async challenge

A card in an rs mode answers challenges and keeps a chain of them of its own.  With
`resync` set, the challenge answered is to be the new start of that chain; it is copied
with the length of the challenge stored before.
-/

set_option autoImplicit false

namespace Otpd

open CMem

/-- The challenge of the request after `challenge_transform`. -/
def answeredChallenge (call : Call) : List Byte :=
  let (challenge, clen) := asyncChallenge call.config call.request call.env.undef
  challenge.bytes.take clen

/-- The digits that `cryptocard_challenge` makes of a challenge. -/
def cryptocardNext (crypto : Crypto) (undef : Undef) (user : User) (challenge : List Byte) :
    Option (List Byte) :=
  (x99Mac crypto undef challenge (user.key.take 8)).map fun output => output.bytes.map macDigit

/-- The challenge of the first position of the window, in a state loaded from a line.
`challenge` is the buffer that the state's is copied to. -/
def syncChallenge (crypto : Crypto) (undef : Undef) (user : User) (state : State)
    (challenge : Buffer 16) (now : Time) : Option (List Byte) :=
  match cryptocardChallenge crypto undef user state.toCardData
      (challenge.copy (state.challenge.bytes.take state.clen)) now 0 0 with
  | (.ok, data, challenge) => some (challenge.bytes.take data.clen)
  | _ => none

/-- A cryptocard in an rs mode, a stored challenge, and a request with `resync` that is
accepted for its response to a challenge. -/
structure AsyncResync (crypto : Crypto) (call : Call) (store : Store) (r : StateRecord) :
    Prop where
  card : ∃ user featuremask, call.env.get = .found user ∧ cardOf user.card = some .cryptocard ∧
    lookupCard cryptocardCard user.card = some featuremask ∧
    hasFeature featuremask otpCfAm = true ∧ hasFeature featuremask otpCfEs = true
  stored : recordIn call.config.stateMode call.request.username store = some r
  resync : call.request.resync = true
  accepted : (serve crypto store call).1.rc = .ok
  async : (serve crypto store call).1.matched = some .async

/-- The challenge answered is what is stored, and what the next one is made of. -/
structure ResyncStored (crypto : Crypto) (call : Call) (out : Outcome) : Prop where
  stored : ∃ r, recordIn call.config.stateMode call.request.username out.store = some r ∧
    r.challenge = answeredChallenge call
  next : ∀ r undef user state challenge now,
    recordIn call.config.stateMode call.request.username out.store = some r →
    syncChallenge crypto undef user (loadedState state r) challenge now =
      cryptocardNext crypto undef user (answeredChallenge call)

section Resync

variable {crypto : Crypto} {call : Call} {store : Store} {r : StateRecord}

theorem challengeTransform_length (username : Username) (challenge : Buffer 16) {clen : Nat}
    (short : clen ≤ 16) : (challengeTransform username challenge clen).2 ≤ 16 := by
  have two : (username.bytes.take 2).length ≤ 2 := List.length_take_le 2 _
  simp only [challengeTransform]
  split
  · omega
  · split
    · omega
    · omega

theorem asyncChallenge_length (config : Config) (request : Request) (undef : Undef) :
    (asyncChallenge config request undef).2 ≤ 16 := by
  have short := request.challenge.bound
  simp only [asyncChallenge]
  split
  · exact challengeTransform_length _ _ short
  · exact short

theorem answeredChallenge_length (call : Call) :
    (answeredChallenge call).length =
      (asyncChallenge call.config call.request call.env.undef).2 := by
  have short := asyncChallenge_length call.config call.request call.env.undef
  rw [answeredChallenge, List.length_take, Buffer.size]
  omega

/-- The first sync challenge is made of the stored one. -/
theorem syncChallenge_loaded (undef : Undef) (user : User) (state : State) (r : StateRecord)
    (challenge : Buffer 16) (now : Time) :
    syncChallenge crypto undef user (loadedState state r) challenge now =
      cryptocardNext crypto undef user r.challenge := by
  have loaded : (loadedState state r).challenge.bytes.take (loadedState state r).clen =
      r.challenge := congrArg StateRecord.challenge (State.record_fill state r)
  have input : (challenge.copy r.challenge).bytes.take (loadedState state r).clen = r.challenge :=
    Buffer.copy_take challenge _ r.challengeBound
  rw [syncChallenge, loaded, cryptocardChallenge, input, cryptocardNext]
  cases x99Mac crypto undef r.challenge (user.key.take 8) with
  | none => rfl
  | some output =>
      have digits : (output.bytes.map macDigit).length = 8 := by
        rw [List.length_map, Buffer.size]
      have eight : 8 ≤ 16 := by decide
      exact congrArg some (Buffer.copy_take_of_eq _ eight digits)

theorem early_unmatched {exit : EarlyExit} (early : prepareCall crypto call = .error exit) :
    (serve crypto store call).1.matched = none := by
  have verdict := serve_verdict crypto store call
  generalize (serve crypto store call).1 = out at verdict ⊢
  cases verdict with
  | early _ _ _ _ _ _ matched => exact matched
  | refused _ _ prepared => cases early.symm.trans prepared
  | aborted _ _ _ _ _ prepared => cases early.symm.trans prepared
  | saved _ _ _ _ prepared => cases early.symm.trans prepared
  | unsaved _ _ _ _ prepared => cases early.symm.trans prepared

/-- What is stored is as much of the challenge answered as the old one was long. -/
theorem AsyncResync.stored_after (request : AsyncResync crypto call store r) :
    ∃ r', recordIn call.config.stateMode call.request.username (serve crypto store call).1.store =
        some r' ∧
      r'.challenge = (asyncChallenge call.config call.request call.env.undef).1.bytes.take
        r.challenge.length := by
  have accepted := request.accepted
  have async := request.async
  rcases serve_split crypto store call with ⟨-, failed | ⟨exit, early, -⟩⟩ |
    ⟨m, r', p, state, l, attempt, -⟩
  · rw [failed] at accepted
    cases accepted
  · rw [early_unmatched early] at async
    cases async
  · have same : r' = r :=
      Option.some.inj (attempt.stored.symm.trans (kept_of_recordIn request.stored))
    subst same
    have ok := attempt.ok_rc accepted
    rcases attempt.written with ⟨-, -, written⟩ | ⟨failed, -⟩
    · refine ⟨_, by rw [written, recordIn_persist], ?_⟩
      rw [attempt.matched] at async
      have clen := attempt.clen_eq
      cases attempt.ending with
      | async resolved response resolves =>
          rw [authDone_challenge, if_pos ⟨ok, request.resync⟩]
          show List.take resolved.clen _ = _
          rw [← clen, resolves.data]
      | wrong => cases async
      | hit => cases async
    · rw [failed] at accepted
      cases accepted

end Resync

theorem async_resync_iff (crypto : Crypto) (call : Call) (store : Store) (r : StateRecord)
    (request : AsyncResync crypto call store r) :
    ResyncStored crypto call (serve crypto store call).1 ↔
      r.challenge.length = (answeredChallenge call).length := by
  obtain ⟨r', stored, copied⟩ := request.stored_after
  have inside := asyncChallenge_length call.config call.request call.env.undef
  constructor
  · rintro ⟨⟨r'', stored', same⟩, -⟩
    cases stored.symm.trans stored'
    have bound := r.challengeBound
    rw [← same, copied, List.length_take, Buffer.size]
    omega
  · intro fits
    have same : r'.challenge = answeredChallenge call := by
      rw [copied, fits, answeredChallenge_length]
      rfl
    refine ⟨⟨r', stored, same⟩, ?_⟩
    intro r'' undef user state challenge now stored'
    cases stored.symm.trans stored'
    rw [syncChallenge_loaded, same]

/-- The response to the challenge 12345678, which bo is appended to. -/
def resyncCall : Call := asyncCall (desUser "cryptocard-h8-rs") "12345678" "f5f078bf" 1001

theorem resyncCall_card :
    ∃ user featuremask, resyncCall.env.get = .found user ∧ cardOf user.card = some .cryptocard ∧
      lookupCard cryptocardCard user.card = some featuremask ∧
      hasFeature featuremask otpCfAm = true ∧ hasFeature featuremask otpCfEs = true :=
  ⟨desUser "cryptocard-h8-rs", cryptocardH8 ||| otpCfAm ||| otpCfEs, rfl, by decide +kernel,
    by decide +kernel, by decide +kernel, by decide +kernel⟩

def storedDigits (digits : List Byte) (bound : digits.length ≤ 16) : StateRecord where
  challenge := digits
  challengeBound := bound
  csd := StateField.empty 63
  rd := StateField.empty 31
  failcount := 0
  authtime := 0
  mincardtime := 0

theorem async_resync_ten :
    ResyncStored sampleCrypto resyncCall
      (serve sampleCrypto (stateLine "5:bob:31323334353637383930:::0:0:0:") resyncCall).1 :=
  (async_resync_iff sampleCrypto resyncCall (stateLine "5:bob:31323334353637383930:::0:0:0:")
    (storedDigits (ascii "1234567890") (by decide +kernel))
    ⟨resyncCall_card, by decide +kernel, rfl, by decide +kernel, by decide +kernel⟩).mpr
    (by decide +kernel)

/-- With eight stored digits the two letters are cut off. -/
theorem async_resync_cut :
    AsyncResync sampleCrypto resyncCall (stateLine "5:bob:3132333435363738:::0:0:0:")
        (storedDigits (ascii "12345678") (by decide +kernel)) ∧
      answeredChallenge resyncCall = ascii "12345678bo" ∧
      (recordIn .localMode bob (serve sampleCrypto
        (stateLine "5:bob:3132333435363738:::0:0:0:") resyncCall).1.store).map
          StateRecord.challenge = some (ascii "12345678") ∧
      ¬ ResyncStored sampleCrypto resyncCall
        (serve sampleCrypto (stateLine "5:bob:3132333435363738:::0:0:0:") resyncCall).1 := by
  have answered : answeredChallenge resyncCall = ascii "12345678bo" := by decide +kernel
  have kept : (recordIn .localMode bob (serve sampleCrypto
      (stateLine "5:bob:3132333435363738:::0:0:0:") resyncCall).1.store).map
        StateRecord.challenge = some (ascii "12345678") := by decide +kernel
  refine ⟨⟨resyncCall_card, by decide +kernel, rfl, by decide +kernel, by decide +kernel⟩,
    answered, kept, ?_⟩
  rintro ⟨⟨r, stored, same⟩, -⟩
  have found : recordIn .localMode bob (serve sampleCrypto
      (stateLine "5:bob:3132333435363738:::0:0:0:") resyncCall).1.store = some r := stored
  rw [found, Option.map_some, same, answered] at kept
  revert kept
  decide +kernel

end Otpd

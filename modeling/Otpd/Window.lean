import Otpd.Attempt

/-!
# The event window, position by position

All modules of this repository search one time position.  `passcodeAt` is the
passcode that is expected at an event position when the loop gets that far, and
`syncLoop_spec` says at which position the loop ends.
-/

set_option autoImplicit false

namespace Otpd

open CMem

section Loop

variable (crypto : Crypto) (config : Config) (request : Request) (env : Env) (p : Prepared)
  (fc : Fc) (data : CardData) (challenge : Buffer 16)

/-- What the `challenge` call at event position `e` returns, from the card data and the
buffer that the loop starts with. -/
def positionAt : Nat → ChallengeRc × CardData × Buffer 16
  | 0 => p.ops.challenge p.user data challenge env.now 0 0
  | e + 1 =>
      let previous := positionAt e
      p.ops.challenge p.user previous.2.1 previous.2.2 env.now 0 (e + 1)

/-- The card data and the buffer with which the loop comes to position `e`. -/
def positionBefore : Nat → CardData × Buffer 16
  | 0 => (data, challenge)
  | e + 1 => (positionAt env p data challenge e).2

theorem positionAt_eq (e : Nat) :
    positionAt env p data challenge e =
      p.ops.challenge p.user (positionBefore env p data challenge e).1
        (positionBefore env p data challenge e).2 env.now 0 e := by
  cases e with
  | zero => rfl
  | succ e => rfl

/-- `none`: the `challenge` or the `response` call fails. -/
def passcodeAt (e : Nat) : Option (List Byte) :=
  let position := positionAt env p data challenge e
  match position.1 with
  | .ok =>
      (p.ops.response p.user position.2.1 position.2.2 position.2.1.clen (env.clock 0 e)).map
        (expectedPasscode config p.user)
  | _ => none

/-- The given passcode is not the one of position `e`, which could be computed. -/
def wrongAt (e : Nat) : Prop :=
  ∃ passcode, passcodeAt config env p data challenge e = some passcode ∧
    compare crypto request passcode = false

/-- The locals when the loop comes to position `e`, and after a match there. -/
def arriveAt (l : Locals) (e : Nat) (eResponse : List Byte) : Locals :=
  { l with
    state := { l.state with toCardData := (positionBefore env p data challenge e).1 }
    challenge := (positionBefore env p data challenge e).2
    eResponse := eResponse }

def matchAt (l : Locals) (e : Nat) (passcode : List Byte) : Locals :=
  { l with
    state := { l.state with toCardData := (positionAt env p data challenge e).2.1 }
    challenge := (positionAt env p data challenge e).2.2
    eResponse := passcode }

inductive LoopEnd (first count : Nat) (l : Locals) : Label × Locals → Prop where
  | failed (e : Nat) (result : Label × Locals) (least : first ≤ e) (inside : e < first + count)
      (earlier : ∀ k, first ≤ k → k < e → wrongAt crypto config request env p data challenge k)
      (failure : passcodeAt config env p data challenge e = none)
      (label : result.1 = .serviceErr) : LoopEnd first count l result
  | hit (e : Nat) (passcode : List Byte) (least : first ≤ e) (inside : e < first + count)
      (earlier : ∀ k, first ≤ k → k < e → wrongAt crypto config request env p data challenge k)
      (expected : passcodeAt config env p data challenge e = some passcode)
      (equal : compare crypto request passcode = true) :
      LoopEnd first count l
        (syncMatch config env p fc 0 e (matchAt env p data challenge l e passcode))
  | wrong (result : Label × Locals)
      (all : ∀ k, first ≤ k → k < first + count →
        wrongAt crypto config request env p data challenge k)
      (label : result.1 = .authDone) (rc : result.2.rc = .authErr) : LoopEnd first count l result

variable {crypto config request env p fc data challenge}

theorem LoopEnd.later {first count : Nat} {l : Locals} {result : Label × Locals}
    (ended : LoopEnd crypto config request env p fc data challenge (first + 1) count l result)
    (here : wrongAt crypto config request env p data challenge first) :
    LoopEnd crypto config request env p fc data challenge first (count + 1) l result := by
  have all : ∀ {n : Nat}, (∀ k, first + 1 ≤ k → k < n →
      wrongAt crypto config request env p data challenge k) →
      ∀ k, first ≤ k → k < n → wrongAt crypto config request env p data challenge k := by
    intro n later k least below
    rcases Nat.eq_or_lt_of_le least with rfl | after
    · exact here
    · exact later k after below
  cases ended with
  | failed e result least inside earlier failure label =>
      exact .failed e _ (by omega) (by omega) (all earlier) failure label
  | hit e passcode least inside earlier expected equal =>
      exact .hit e passcode (by omega) (by omega) (all earlier) expected equal
  | wrong result wrong label rc =>
      refine .wrong _ (all fun k least below => wrong k least ?_) label rc
      omega

variable (crypto config request env p fc data challenge)

theorem syncLoop_spec
    (noEarly : ∀ user data challenge now t e,
      (p.ops.challenge user data challenge now t e).1 ≠ .early) (l : Locals) :
    ∀ (count first : Nat) (eResponse : List Byte),
      LoopEnd crypto config request env p fc data challenge first count l
        (syncLoop crypto config request env p fc ((List.range' first count).map fun e => (0, e))
          (arriveAt env p data challenge l first eResponse)) := by
  intro count
  induction count with
  | zero =>
      intro first eResponse
      refine .wrong _ ?_ rfl rfl
      intro k _ _
      omega
  | succ count ih =>
      intro first eResponse
      have step := positionAt_eq env p data challenge first
      simp only [List.range'_succ, List.map_cons, syncLoop, arriveAt, ← step]
      cases rc : (positionAt env p data challenge first).1 with
      | error =>
          exact .failed first _ (Nat.le_refl _) (by omega) (fun k _ _ => by omega)
            (by simp [passcodeAt, rc]) rfl
      | early =>
          rw [step] at rc
          exact (noEarly _ _ _ _ _ _ rc).elim
      | ok =>
          cases answered : p.ops.response p.user (positionAt env p data challenge first).2.1
              (positionAt env p data challenge first).2.2
              (positionAt env p data challenge first).2.1.clen (env.clock 0 first) with
          | none =>
              exact .failed first _ (Nat.le_refl _) (by omega) (fun k _ _ => by omega)
                (by simp [passcodeAt, rc, answered]) rfl
          | some response =>
              have expected : passcodeAt config env p data challenge first =
                  some (expectedPasscode config p.user response) := by
                simp [passcodeAt, rc, answered]
              dsimp only
              by_cases equal : compare crypto request (expectedPasscode config p.user response) = true
              · rw [if_pos equal]
                exact .hit first _ (Nat.le_refl _) (by omega) (fun k _ _ => by omega) expected equal
              · rw [if_neg equal]
                -- the next iteration starts where this one left the card data and the buffer
                exact (ih (first + 1) (expectedPasscode config p.user response)).later
                  ⟨_, expected, by simpa using equal⟩

end Loop

/-! ## Positions of an HOTP card -/

theorem hotp_masks_sync {featuremask : UInt32} (mask : featuremask ∈ CardModule.hotp.masks) :
    hasFeature featuremask otpCfSm = true := by
  have all : (CardModule.hotp.masks.all fun fm => hasFeature fm otpCfSm) = true := by
    decide +kernel
  exact List.all_eq_true.mp all _ mask

/-- The counter that `hotp_challenge` steps to. -/
def nextCounter (challenge : Buffer 16) : UInt64 :=
  ((intToU64 (challenge.get 0) (challenge.get 1) (challenge.get 2) (challenge.get 3) <<< 32) |||
    intToU64 (challenge.get 4) (challenge.get 5) (challenge.get 6) (challenge.get 7)) + 1

theorem hotpChallenge_eq (user : User) (data : CardData) (challenge : Buffer 16) (now : Time)
    (t e : Nat) :
    hotpChallenge user data challenge now t e =
      (.ok, { data with clen := eventClen }, challenge.copy (c2c (nextCounter challenge))) := rfl

theorem passcodeAt_hotp {crypto : Crypto} {undef : Undef} {config : Config} {env : Env}
    {p : Prepared} {data : CardData} {challenge : Buffer 16} {e : Nat}
    (runs : p.ops = CardModule.hotp.ops crypto undef) :
    passcodeAt config env p data challenge e =
      (hotpMac crypto (c2c (nextCounter (positionBefore env p data challenge e).2))
        (p.user.key.take (positionBefore env p data challenge e).1.scratch1)
        (otpLenOf p.user.featuremask)).map (expectedPasscode config p.user) := by
  have size : ∀ counter, (c2c counter).length = 8 := fun _ => rfl
  simp only [passcodeAt, positionAt_eq, runs, CardModule.ops, hotpCardops, hotpChallenge_eq,
    hotpResponse]
  rw [Buffer.copy_take_of_eq _ (by decide) (size _)]

/-! ## Up to the loop -/

theorem windowPositions_zero (eend : Int) :
    windowPositions 0 eend = (List.range' 0 (eend + 1).toNat).map fun e => (0, e) := by
  simp [windowPositions, List.range_eq_range']

theorem CardModule.noEarly (crypto : Crypto) (undef : Undef) (m : CardModule) (user : User)
    (data : CardData) (challenge : Buffer 16) (now : Time) (t e : Nat) :
    ((m.ops crypto undef).challenge user data challenge now t e).1 ≠ .early := by
  cases m with
  | c200 => exact fun wrong => by cases wrong
  | hotp => exact fun wrong => by cases wrong
  | totp => exact fun wrong => by cases wrong
  | x99 => exact fun wrong => by cases wrong
  | cryptocard =>
      simp only [CardModule.ops, cryptocardCardops, cryptocardChallenge]
      split
      · exact fun wrong => by cases wrong
      · exact fun wrong => by cases wrong

section Authenticate

variable {crypto : Crypto} {config : Config} {request : Request} {env : Env} {p : Prepared}

/-- What the loop starts with. -/
def windowBase (config : Config) (request : Request) (env : Env) (p : Prepared)
    (data : CardData) : Buffer 16 :=
  (syncBase config request env p).copy (data.challenge.bytes.take data.clen)

theorem responses_sync (fc : Fc) {l : Locals}
    (notAsync : asyncMatches crypto config request env p l.state.toCardData = false)
    (answers : asyncPossible request p.user = true →
      asyncResponse config request env p l.state.toCardData ≠ none) :
    ∃ eResponse, responses crypto config request env p fc l =
      syncAuth crypto config request env p fc
        { l with challenge := syncBase config request env p, eResponse := eResponse } := by
  simp only [responses]
  by_cases possible : asyncPossible request p.user = true
  · cases answered : asyncResponse config request env p l.state.toCardData with
    | none => exact (answers possible answered).elim
    | some response =>
        have wrong : compare crypto request (expectedPasscode config p.user response) = false := by
          simpa [asyncMatches, possible, answered] using notAsync
        refine ⟨expectedPasscode config p.user response, ?_⟩
        simp only [if_pos possible, syncBase, wrong, Bool.false_eq_true, if_false]
  · refine ⟨l.eResponse, ?_⟩
    simp only [syncBase, if_neg possible]

theorem authenticate_window {state resolved : State}
    (noEarly : ∀ user data challenge now t e,
      (p.ops.challenge user data challenge now t e).1 ≠ .early)
    (found : resolveNullstate p state env.now = some resolved)
    (inTime : ¬ config.timeout - env.hrGet - env.hrState < 250000000)
    (on : syncPossible request p = true)
    (oneTwin : p.ops.maxtwin p.user resolved.toCardData env.now = 0)
    (notAsync : asyncMatches crypto config request env p resolved.toCardData = false)
    (answers : asyncPossible request p.user = true →
      asyncResponse config request env p resolved.toCardData ≠ none) :
    LoopEnd crypto config request env p (failCondition config env.undef resolved env.now)
      resolved.toCardData (windowBase config request env p resolved.toCardData) 0
      (eendOf config p.user + 1).toNat (Locals.start request env .authErr resolved)
      (authenticate crypto config request env p state) := by
  have enabled : hasFeature p.user.featuremask otpCfSm = true ∧ request.allowSync = true := by
    simpa [syncPossible] using on
  obtain ⟨eResponse, same⟩ := responses_sync (failCondition config env.undef resolved env.now)
    (l := Locals.start request env .authErr resolved) notAsync answers
  have start : (Locals.start request env .authErr resolved).state = resolved := rfl
  simp only [authenticate, found, if_neg inTime, same, syncAuth, if_pos enabled, start, oneTwin,
    windowPositions_zero, Int.lt_irrefl, if_false]
  exact syncLoop_spec crypto config request env p _ resolved.toCardData _ noEarly
    (Locals.start request env .authErr resolved) _ 0 eResponse

/-- What is behind a call that came to `auth_done`. -/
theorem authenticate_reached {state : State} {l : Locals}
    (result : authenticate crypto config request env p state = (.authDone, l)) :
    ∃ resolved, resolveNullstate p state env.now = some resolved ∧
      ¬ config.timeout - env.hrGet - env.hrState < 250000000 ∧
      (asyncPossible request p.user = true →
        asyncResponse config request env p resolved.toCardData ≠ none) := by
  obtain ⟨resolved, found⟩ := authenticate_resolved crypto config request env p result
  simp only [authenticate, found] at result
  split at result
  · cases result
  · rename_i inTime
    refine ⟨resolved, found, inTime, ?_⟩
    intro possible unanswered
    simp only [responses, Locals.start, if_pos possible, unanswered] at result
    cases result

theorem syncMatch_reply {fc : Fc} {t e : Nat} {l l' : Locals}
    (result : syncMatch config env p fc t e l = (.authDone, l')) :
    l'.rc = syncRc config p fc l.state env.now e ∧ l'.challenge = l.challenge ∧
      l'.resync = true := by
  simp only [syncMatch] at result
  split at result
  · cases result
  · cases result
    exact ⟨rfl, rfl, rfl⟩

end Authenticate

/-! ## A stored line is loaded -/

section Stored

variable {username : Username} {store : Store} {record : StateRecord}

theorem stateGet_stored {config : Config} {io : StateIo} {state : State}
    (stored : recordIn config.stateMode username store = some record) (granted : io.granted = true)
    (readable : io.readable = true) :
    (stateGet config username io store state).1 = some (loadedState state record) := by
  unfold recordIn at stored
  cases delivered : deliver config.stateMode true store with
  | none =>
      rw [delivered] at stored
      cases stored
  | some buf =>
      simp only [delivered] at stored
      split_ifs at stored with empty
      cases mode : config.stateMode with
      | localMode =>
          rw [mode] at delivered
          simp only [stateGet, granted, mode, readable, delivered, stateParse, if_neg empty, stored,
            Option.map_some, Bool.true_eq_false, if_false]
          rfl
      | globalMode =>
          rw [mode] at delivered
          simp only [stateGet, granted, mode, readable, delivered, stateParse, if_neg empty, stored,
            Option.map_some, Bool.true_eq_false, if_false]
          rfl

theorem stateGet_null {config : Config} {username : Username} {io : StateIo} {store : Store}
    {state : State} (empty : NullStore config.stateMode store) (granted : io.granted = true)
    (readable : io.readable = true) :
    (stateGet config username io store state).1 = some (nullState state) := by
  cases mode : config.stateMode with
  | localMode =>
      rw [mode] at empty
      simp only [stateGet, granted, mode, readable, show deliver .localMode true store = some [] from
        empty, stateParse, Bool.true_eq_false, if_true, if_false]
      rfl
  | globalMode =>
      rw [mode] at empty
      simp only [stateGet, granted, mode, readable, show deliver .globalMode true store = some [] from
        empty, stateParse, Bool.true_eq_false, if_true, if_false]
      rfl

theorem resolveNullstate_loaded (p : Prepared) (state : State) (now : Time)
    (loaded : state.nullstate = false) :
    ∃ resolved, resolveNullstate p state now = some resolved ∧
      resolved.toCardData = state.toCardData := by
  simp only [resolveNullstate, loaded, Bool.false_eq_true, if_false]
  split
  · exact ⟨_, rfl, rfl⟩
  · exact ⟨_, rfl, rfl⟩

end Stored

/-! ## A correct passcode is accepted -/

theorem syncRc_normal {config : Config} {p : Prepared} {state : State} {now : Time} {e : Nat}
    (later : state.authtime < now.toU32) (small : (e : Int) ≤ config.ewindowSize.toInt32.toInt) :
    syncRc config p .none state now e = .ok := by
  have notSoon : ¬ now.toU32 ≤ state.authtime := UInt32.not_le.mpr later
  have inside : ¬ (hasFeature p.user.featuremask otpCfFrw = false ∧
      (e : Int) > config.ewindowSize.toInt32.toInt) := by
    rintro ⟨-, beyond⟩
    omega
  simp [syncRc, notSoon, inside]

theorem syncMatch_recorded {config : Config} {env : Env} {p : Prepared} {fc : Fc} {t e : Nat}
    {l : Locals} {rc : Rc} {after : CardData} (reply : syncRc config p fc l.state env.now e = rc)
    (recorded : p.ops.updatecsd l.state.toCardData env.now t e rc = some after) :
    syncMatch config env p fc t e l =
      (.authDone, { l with
        rc := rc
        state := { l.state with toCardData := after }
        resync := true
        matched := some (.sync t e l.challenge l.state.clen) }) := by
  simp only [syncMatch, reply, recorded]

theorem syncMatch_done {config : Config} {env : Env} {p : Prepared} {fc : Fc} {t e : Nat}
    {l l' : Locals} (result : syncMatch config env p fc t e l = (.authDone, l')) :
    l'.challenge = l.challenge ∧ l'.resync = true ∧
      ∃ rc, p.ops.updatecsd l.state.toCardData env.now t e rc = some l'.state.toCardData := by
  simp only [syncMatch] at result
  split at result
  · cases result
  · rename_i after updated
    cases result
    exact ⟨rfl, rfl, _, updated⟩

theorem CardModule.updatecsd_some (crypto : Crypto) (undef : Undef) {m : CardModule}
    (sync : m ≠ .x99) (data : CardData) (now : Time) (t e : Nat) (rc : Rc) :
    ∃ after, (m.ops crypto undef).updatecsd data now t e rc = some after := by
  cases m with
  | x99 => exact (sync rfl).elim
  | c200 => exact ⟨_, rfl⟩
  | totp => exact ⟨_, rfl⟩
  | hotp =>
      simp only [CardModule.ops, hotpCardops, hotpUpdatecsd, eventUpdatecsd]
      split
      · exact ⟨_, rfl⟩
      · exact ⟨_, rfl⟩
  | cryptocard =>
      simp only [CardModule.ops, cryptocardCardops, cryptocardUpdatecsd, eventUpdatecsd]
      split
      · exact ⟨_, rfl⟩
      · exact ⟨_, rfl⟩

/-- Where the first sync challenge can be computed, so can the async response. -/
theorem CardModule.async_answers {crypto : Crypto} {undef : Undef} {config : Config}
    {request : Request} {env : Env} {p : Prepared} {m : CardModule} {data : CardData}
    {challenge : Buffer 16} (runs : p.ops = m.ops crypto undef)
    (mask : p.user.featuremask ∈ m.masks) (sync : m ≠ .x99)
    (first : (positionAt env p data challenge 0).1 = .ok) (data' : CardData)
    (possible : asyncPossible request p.user = true) :
    asyncResponse config request env p data' ≠ none := by
  have never : hasFeature p.user.featuremask otpCfAm = false → False := by
    intro off
    simp [asyncPossible, off] at possible
  cases m with
  | x99 => exact (sync rfl).elim
  | hotp => exact (never (CardModule.hotp.masks_event (by decide) _ mask).1).elim
  | totp => exact (never (CardModule.totp.masks_event (by decide) _ mask).1).elim
  | c200 => exact (never (CardModule.c200.masks_event (by decide) _ mask).1).elim
  | cryptocard =>
      have keyed : crypto.desKeyOk (p.user.key.take 8) = true := by
        by_contra bad
        simp [positionAt, runs, CardModule.ops, cryptocardCardops, cryptocardChallenge, x99Mac, bad]
          at first
      simp only [asyncResponse, runs, CardModule.ops, cryptocardCardops, cryptocardResponse, x99Mac,
        keyed, if_true]
      split
      · simp
      · simp

/-- Nothing keeps the request from the event window: user and state are there, time is
left, sync mode is on, the passcode is not an async response, and the state can be put. -/
structure ReachesWindow (crypto : Crypto) (store : Store) (call : Call) (p : Prepared)
    (resolved : State) : Prop where
  prepared : prepareCall crypto call = .ok p
  loaded : ∃ state,
    (stateGet call.config call.request.username call.env.io store p.state).1 = some state ∧
      resolveNullstate p state call.env.now = some resolved
  inTime : ¬ call.config.timeout - call.env.hrGet - call.env.hrState < 250000000
  on : syncPossible call.request p = true
  notAsync : asyncMatches crypto call.config call.request call.env p resolved.toCardData = false
  stored : call.env.io.put = .done

theorem serve_done {crypto : Crypto} {store : Store} {call : Call} {p : Prepared} {state : State}
    {l : Locals} (prepared : prepareCall crypto call = .ok p)
    (loaded : (stateGet call.config call.request.username call.env.io store p.state).1 = some state)
    (result : authenticate crypto call.config call.request call.env p state = (.authDone, l))
    (stored : call.env.io.put = .done) : (serve crypto store call).1.rc = l.rc := by
  have verdict := serve_verdict crypto store call
  generalize (serve crypto store call).1 = out at verdict ⊢
  cases verdict with
  | early exit out prepared' => cases prepared.symm.trans prepared'
  | refused p' out prepared' got =>
      cases prepared.symm.trans prepared'
      cases loaded.symm.trans got
  | aborted p' state' label l' out prepared' got result' notDone =>
      cases prepared.symm.trans prepared'
      cases loaded.symm.trans got
      cases result.symm.trans result'
      exact (notDone rfl).elim
  | saved p' state' l' out prepared' got result' put rc =>
      cases prepared.symm.trans prepared'
      cases loaded.symm.trans got
      cases result.symm.trans result'
      exact rc
  | unsaved p' state' l' out prepared' got result' put => exact (put stored).elim

section Accepts

variable {crypto : Crypto} {store : Store} {call : Call} {p : Prepared} {resolved : State}

/-- The passcode expected at event position `e` of this call. -/
def windowPasscode (call : Call) (p : Prepared) (resolved : State) (e : Nat) :
    Option (List Byte) :=
  passcodeAt call.config call.env p resolved.toCardData
    (windowBase call.config call.request call.env p resolved.toCardData) e

theorem right_not_wrong {e : Nat} {passcode : List Byte}
    (expected : windowPasscode call p resolved e = some passcode)
    (equal : compare crypto call.request passcode = true) :
    ¬ wrongAt crypto call.config call.request call.env p resolved.toCardData
      (windowBase call.config call.request call.env p resolved.toCardData) e := by
  rintro ⟨other, same, different⟩
  cases expected.symm.trans same
  rw [equal] at different
  cases different

/-- How the loop of such a call ends, if its first position has a passcode. -/
theorem ReachesWindow.ended (reaches : ReachesWindow crypto store call p resolved)
    (answered : windowPasscode call p resolved 0 ≠ none) :
    ∃ m state, m ≠ .x99 ∧ p.ops = CardModule.ops crypto call.env.undef m ∧
      (stateGet call.config call.request.username call.env.io store p.state).1 = some state ∧
      LoopEnd crypto call.config call.request call.env p
        (failCondition call.config call.env.undef resolved call.env.now) resolved.toCardData
        (windowBase call.config call.request call.env p resolved.toCardData) 0
        (eendOf call.config p.user + 1).toNat (Locals.start call.request call.env .authErr resolved)
        (authenticate crypto call.config call.request call.env p state) := by
  obtain ⟨state, loaded, found⟩ := reaches.loaded
  obtain ⟨user, m, -, -, -, runs, mask, -⟩ := prepare_module reaches.prepared
  have sync : m ≠ .x99 := by
    rintro rfl
    have on := reaches.on
    simp [syncPossible, CardModule.masks_x99 _ mask] at on
  have first : (positionAt call.env p resolved.toCardData
      (windowBase call.config call.request call.env p resolved.toCardData) 0).1 = .ok := by
    cases rc : (positionAt call.env p resolved.toCardData
        (windowBase call.config call.request call.env p resolved.toCardData) 0).1 with
    | ok => rfl
    | error => exact (answered (by simp [windowPasscode, passcodeAt, rc])).elim
    | early => exact (answered (by simp [windowPasscode, passcodeAt, rc])).elim
  refine ⟨m, state, sync, runs, loaded, ?_⟩
  exact authenticate_window (p := p) (by rw [runs]; exact m.noEarly crypto call.env.undef) found
    reaches.inTime reaches.on (by rw [runs]; exact m.maxtwin_eq ..) reaches.notAsync
    (CardModule.async_answers runs mask sync first resolved.toCardData)

theorem ReachesWindow.accepts (reaches : ReachesWindow crypto store call p resolved)
    (healthy : failCondition call.config call.env.undef resolved call.env.now = .none)
    (later : resolved.authtime < call.env.now.toU32) {e : Nat} {passcode : List Byte}
    (small : (e : Int) ≤ call.config.ewindowSize.toInt32.toInt)
    (within : (e : Int) ≤ eendOf call.config p.user)
    (computed : ∀ k < e, windowPasscode call p resolved k ≠ none)
    (expected : windowPasscode call p resolved e = some passcode)
    (equal : compare crypto call.request passcode = true) :
    (serve crypto store call).1.rc = .ok := by
  have answered : windowPasscode call p resolved 0 ≠ none := by
    rcases Nat.eq_zero_or_pos e with rfl | positive
    · rw [expected]
      exact Option.some_ne_none _
    · exact computed 0 positive
  obtain ⟨m, state, sync, runs, loaded, ended⟩ := reaches.ended answered
  have notWrong := right_not_wrong expected equal
  generalize result : authenticate crypto call.config call.request call.env p state = ending at ended
  cases ended with
  | failed e' ending _ _ earlier failure =>
      rcases Nat.lt_trichotomy e' e with before | rfl | after
      · exact (computed e' before failure).elim
      · cases expected.symm.trans failure
      · exact (notWrong (earlier e (Nat.zero_le _) after)).elim
  | hit e' passcode' _ _ earlier =>
      have least : e' ≤ e := by
        by_contra beyond
        exact notWrong (earlier e (Nat.zero_le _) (by omega))
      obtain ⟨after, recorded⟩ := CardModule.updatecsd_some crypto call.env.undef sync
        (positionAt call.env p resolved.toCardData
          (windowBase call.config call.request call.env p resolved.toCardData) e').2.1
        call.env.now 0 e' .ok
      rw [← runs] at recorded
      rw [healthy, syncMatch_recorded (syncRc_normal later (by omega)) recorded] at result
      exact serve_done reaches.prepared loaded result reaches.stored
  | wrong ending all => exact (notWrong (all e (Nat.zero_le _) (by omega))).elim

/-- A passcode that is the one of the first position decides there. -/
theorem ReachesWindow.first (reaches : ReachesWindow crypto store call p resolved)
    (opened : 0 ≤ eendOf call.config p.user) {passcode : List Byte}
    (expected : windowPasscode call p resolved 0 = some passcode)
    (equal : compare crypto call.request passcode = true) :
    ∃ m state, m ≠ .x99 ∧ p.ops = CardModule.ops crypto call.env.undef m ∧
      (stateGet call.config call.request.username call.env.io store p.state).1 = some state ∧
      authenticate crypto call.config call.request call.env p state =
        syncMatch call.config call.env p
          (failCondition call.config call.env.undef resolved call.env.now) 0 0
          (matchAt call.env p resolved.toCardData
            (windowBase call.config call.request call.env p resolved.toCardData)
            (Locals.start call.request call.env .authErr resolved) 0 passcode) := by
  obtain ⟨m, state, sync, runs, loaded, ended⟩ :=
    reaches.ended (by rw [expected]; exact Option.some_ne_none _)
  refine ⟨m, state, sync, runs, loaded, ?_⟩
  have notWrong := right_not_wrong expected equal
  generalize authenticate crypto call.config call.request call.env p state = ending at ended
  cases ended with
  | failed e ending _ _ earlier failure =>
      rcases Nat.eq_zero_or_pos e with rfl | later
      · cases expected.symm.trans failure
      · exact (notWrong (earlier 0 (Nat.le_refl _) later)).elim
  | hit e passcode' _ _ earlier expected' =>
      rcases Nat.eq_zero_or_pos e with rfl | later
      · cases expected.symm.trans expected'
        rfl
      · exact (notWrong (earlier 0 (Nat.le_refl _) later)).elim
  | wrong ending all => exact (notWrong (all 0 (Nat.le_refl _) (by omega))).elim

theorem syncRc_not_authErr (config : Config) (p : Prepared) (fc : Fc) (state : State) (now : Time)
    (e : Nat) : syncRc config p fc state now e ≠ .authErr := by
  unfold syncRc
  split_ifs
  all_goals decide

/-- A call that can try one position only is turned down exactly if the passcode is not
the one of that position. -/
theorem ReachesWindow.single (reaches : ReachesWindow crypto store call p resolved)
    (only : eendOf call.config p.user = 0) {passcode : List Byte}
    (expected : windowPasscode call p resolved 0 = some passcode) :
    (serve crypto store call).1.rc = .authErr ↔ compare crypto call.request passcode = false := by
  obtain ⟨m, state, sync, runs, loaded, ended⟩ :=
    reaches.ended (by rw [expected]; exact Option.some_ne_none _)
  rw [only] at ended
  generalize result : authenticate crypto call.config call.request call.env p state = ending at ended
  cases ended with
  | failed e ending _ inside _ failure =>
      have zero : e = 0 := by omega
      rw [zero] at failure
      cases expected.symm.trans failure
  | hit e passcode' _ inside _ expected' equal =>
      have zero : e = 0 := by omega
      subst zero
      cases expected.symm.trans expected'
      obtain ⟨after, recorded⟩ := CardModule.updatecsd_some crypto call.env.undef sync
        (positionAt call.env p resolved.toCardData
          (windowBase call.config call.request call.env p resolved.toCardData) 0).2.1
        call.env.now 0 0 (syncRc call.config p
          (failCondition call.config call.env.undef resolved call.env.now)
          (matchAt call.env p resolved.toCardData
            (windowBase call.config call.request call.env p resolved.toCardData)
            (Locals.start call.request call.env .authErr resolved) 0 passcode).state call.env.now 0)
      rw [← runs] at recorded
      rw [syncMatch_recorded rfl recorded] at result
      rw [serve_done reaches.prepared loaded result reaches.stored, equal]
      simp [syncRc_not_authErr]
  | wrong ending all label rc =>
      obtain ⟨other, same, different⟩ := all 0 (Nat.le_refl _) (by decide)
      cases expected.symm.trans same
      have exact : ending = (.authDone, ending.2) := Prod.ext label rfl
      rw [exact] at result
      rw [serve_done reaches.prepared loaded result reaches.stored, rc, different]
      simp

end Accepts

end Otpd

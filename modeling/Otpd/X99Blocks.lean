import Otpd.AsyncResync
import Otpd.Window

/-!
# Which cipher block `x99_mac` copies

`x99_mac` copies the block `(len - 1) / 8` of two, `len` being a `size_t`.  The stages of
`verify` are repeated here with a log of the lengths it is called with; what they return is
what the stages return.  Only a walk that starts from a blank challenge logs a length that
is out of range.
-/

set_option autoImplicit false

namespace Otpd

open CMem

/-! ## The index -/

/-- `(len - 1) / 8` for a `size_t`. -/
def blockIndex (len : Nat) : Nat := (len + (2 ^ 64 - 1)) % 2 ^ 64 / 8

/-- `l_output[OTP_MAX_CHALLENGE_LEN / sizeof(des_cblock)]` -/
def allocatedBlocks : Nat := 16 / 8

/-- What CBC encryption makes of `len` bytes, a short last block being padded. -/
def cbcBlocks (len : Nat) : Nat := (len + 7) / 8

def BlockSafe (len : Nat) : Prop := blockIndex len < allocatedBlocks ∧ blockIndex len < cbcBlocks len

instance (len : Nat) : Decidable (BlockSafe len) :=
  inferInstanceAs (Decidable (blockIndex len < allocatedBlocks ∧ blockIndex len < cbcBlocks len))

theorem blockSafe_iff {len : Nat} (bound : len ≤ 16) : BlockSafe len ↔ len ≠ 0 := by
  unfold BlockSafe blockIndex allocatedBlocks cbcBlocks
  omega

/-! ## The log -/

/-- With a key that is turned down no block is copied. -/
def x99Log (crypto : Crypto) (user : User) (len : Nat) : List Nat :=
  if crypto.desKeyOk (user.key.take 8) then [len] else []

/-- `x99_mac` in the `challenge` method. -/
def CardModule.challengeLog (m : CardModule) (crypto : Crypto) (user : User) (data : CardData) :
    List Nat :=
  match m with
  | .cryptocard => x99Log crypto user data.clen
  | _ => []

/-- `x99_mac` in the `response` method. -/
def CardModule.responseLog (m : CardModule) (crypto : Crypto) (user : User) (len : Nat) : List Nat :=
  match m with
  | .cryptocard | .x99 => x99Log crypto user len
  | _ => []

section Logged

variable (crypto : Crypto) (config : Config) (request : Request) (env : Env) (p : Prepared)
  (m : CardModule) (fc : Fc)

/-- `syncLoop`. -/
def loggedLoop : List (Nat × Nat) → Locals → List Nat × (Label × Locals)
  | [], l => ([], (.authDone, { l with rc := .authErr }))
  | (t, e) :: rest, l =>
    let step := p.ops.challenge p.user l.state.toCardData l.challenge env.now t e
    let log := m.challengeLog crypto p.user l.state.toCardData
    let l := { l with state := { l.state with toCardData := step.2.1 }, challenge := step.2.2 }
    match step.1 with
    | .error => (log, (.serviceErr, { l with rc := .serviceErr }))
    | .early =>
      let later := loggedLoop rest l
      (log ++ later.1, later.2)
    | .ok =>
      let log := log ++ m.responseLog crypto p.user l.state.clen
      match p.ops.response p.user l.state.toCardData l.challenge l.state.clen (env.clock t e) with
      | none => (log, (.serviceErr, { l with rc := .serviceErr }))
      | some response =>
        let l := { l with eResponse := expectedPasscode config p.user response }
        if compare crypto request l.eResponse then (log, syncMatch config env p fc t e l)
        else
          let later := loggedLoop rest l
          (log ++ later.1, later.2)

/-- `syncAuth`. -/
def loggedSync (l : Locals) : List Nat × (Label × Locals) :=
  if hasFeature p.user.featuremask otpCfSm ∧ request.allowSync then
    let l := { l with challenge := l.challenge.copy (l.state.challenge.bytes.take l.state.clen) }
    let tend := p.ops.maxtwin p.user l.state.toCardData env.now
    if tend < 0 then ([], (.serviceErr, { l with rc := .serviceErr }))
    else loggedLoop crypto config request env p m fc (windowPositions tend (eendOf config p.user)) l
  else ([], (.authDone, { l with rc := .authErr }))

/-- `responses`. -/
def loggedResponses (l : Locals) : List Nat × (Label × Locals) :=
  let l := { l with challenge := env.undef.challenge.copy request.challenge.bytes }
  if asyncPossible request p.user then
    let l := { l with challenge := (asyncChallenge config request env.undef).1 }
    let log := m.responseLog crypto p.user (asyncChallenge config request env.undef).2
    match asyncResponse config request env p l.state.toCardData with
    | none => (log, (.serviceErr, { l with rc := .serviceErr }))
    | some response =>
      let l := { l with eResponse := expectedPasscode config p.user response }
      if compare crypto request l.eResponse then
        (log, (.authDone,
          { l with rc := asyncRc request fc l.state env.now, matched := some .async }))
      else
        let later := loggedSync crypto config request env p m fc l
        (log ++ later.1, later.2)
  else loggedSync crypto config request env p m fc l

/-- `authenticate`. -/
def loggedAuthenticate (state : State) : List Nat × (Label × Locals) :=
  match resolveNullstate p state env.now with
  | none => ([], (.serviceErr, Locals.start request env .serviceErr state))
  | some state =>
    if config.timeout - env.hrGet - env.hrState < 250000000 then
      ([], (.serviceErrTimeout, Locals.start request env .serviceErr state))
    else
      loggedResponses crypto config request env p m (failCondition config env.undef state env.now)
        (Locals.start request env .authErr state)

end Logged

/-- `verify`, the user's card being one of the module `m`. -/
def loggedVerify (crypto : Crypto) (m : CardModule) (call : Call) (store : Store) :
    List Nat × Outcome :=
  match prepareCall crypto call with
  | .error exit =>
      ([], finish call.config call.request call.env store [] exit.label
        (Locals.start call.request call.env exit.rc State.init))
  | .ok p =>
    let got := stateGet call.config call.request.username call.env.io store
      { State.init with scratch1 := p.scratch1 }
    match got.1 with
    | none =>
        ([], finish call.config call.request call.env store got.2 .serviceErr
          (Locals.start call.request call.env .serviceErr State.init))
    | some state =>
        let result := loggedAuthenticate crypto call.config call.request call.env p m state
        (result.1, finish call.config call.request call.env store got.2 result.2.1 result.2.2)

/-! ## What is returned is what `verify` returns -/

section Run

variable {crypto : Crypto} {config : Config} {request : Request} {env : Env} {p : Prepared}
  {m : CardModule} {fc : Fc}

theorem loggedLoop_run (positions : List (Nat × Nat)) (l : Locals) :
    (loggedLoop crypto config request env p m fc positions l).2 =
      syncLoop crypto config request env p fc positions l := by
  induction positions generalizing l with
  | nil => rfl
  | cons position rest ih =>
      obtain ⟨t, e⟩ := position
      simp only [loggedLoop, syncLoop]
      generalize p.ops.challenge p.user l.state.toCardData l.challenge env.now t e = step
      obtain ⟨rc, data, challenge⟩ := step
      cases rc with
      | error => rfl
      | early => exact ih _
      | ok =>
          dsimp only
          cases p.ops.response p.user data challenge data.clen (env.clock t e) with
          | none => rfl
          | some response =>
              dsimp only
              split
              · rfl
              · exact ih _

theorem loggedSync_run (l : Locals) :
    (loggedSync crypto config request env p m fc l).2 =
      syncAuth crypto config request env p fc l := by
  simp only [loggedSync, syncAuth]
  split
  · split
    · rfl
    · exact loggedLoop_run _ _
  · rfl

theorem loggedAuthenticate_run (state : State) :
    (loggedAuthenticate crypto config request env p m state).2 =
      authenticate crypto config request env p state := by
  unfold loggedAuthenticate authenticate
  cases resolveNullstate p state env.now with
  | none => rfl
  | some resolved =>
      dsimp only
      split
      · rfl
      · simp only [loggedResponses, responses]
        split
        · cases asyncResponse config request env p (Locals.start request env .authErr
              resolved).state.toCardData with
          | none => rfl
          | some response =>
              dsimp only
              split
              · rfl
              · exact loggedSync_run _
        · exact loggedSync_run _

end Run

theorem loggedVerify_run (crypto : Crypto) (m : CardModule) (call : Call) (store : Store) :
    (loggedVerify crypto m call store).2 = (serve crypto store call).1 := by
  simp only [loggedVerify, serve, verify, prepareCall]
  cases prepare crypto (cardops crypto call.env.undef) call.config call.request call.env with
  | error exit => rfl
  | ok p =>
      dsimp only
      cases (stateGet call.config call.request.username call.env.io store
          { State.init with scratch1 := p.scratch1 }).1 with
      | none => rfl
      | some state =>
          dsimp only
          rw [loggedAuthenticate_run]

/-! ## Which lengths are safe -/

/-- Every block copied lies inside the array, and was written. -/
def LogSafe (log : List Nat) : Prop := ∀ len ∈ log, BlockSafe len

theorem logSafe_nil : LogSafe [] := by
  intro len member
  cases member

theorem logSafe_append {log more : List Nat} :
    LogSafe (log ++ more) ↔ LogSafe log ∧ LogSafe more := List.forall_mem_append

theorem x99Log_safe_iff {crypto : Crypto} {user : User} {len : Nat} (bound : len ≤ 16) :
    LogSafe (x99Log crypto user len) ↔ (crypto.desKeyOk (user.key.take 8) = true → len ≠ 0) := by
  unfold LogSafe x99Log
  split
  · rename_i accepted
    simp [accepted, blockSafe_iff bound]
  · rename_i refused
    simp [refused]

theorem responseLog_safe (m : CardModule) (crypto : Crypto) (user : User) {len : Nat}
    (positive : len ≠ 0) (bound : len ≤ 16) : LogSafe (m.responseLog crypto user len) := by
  have des : LogSafe (x99Log crypto user len) := (x99Log_safe_iff bound).mpr fun _ => positive
  cases m with
  | cryptocard => exact des
  | x99 => exact des
  | hotp => exact logSafe_nil
  | totp => exact logSafe_nil
  | c200 => exact logSafe_nil

/-- The challenge that async mode answers has one to sixteen bytes, transformed or not. -/
theorem asyncChallenge_bounds (config : Config) (request : Request) (undef : Undef)
    (given : request.challenge.bytes ≠ []) :
    (asyncChallenge config request undef).2 ≠ 0 ∧ (asyncChallenge config request undef).2 ≤ 16 := by
  refine ⟨?_, asyncChallenge_length config request undef⟩
  have positive : request.challenge.bytes.length ≠ 0 := by simpa using given
  unfold asyncChallenge
  split
  · simp only [challengeTransform]
    split
    · omega
    · split
      · omega
      · omega
  · exact positive

section Safe

variable {crypto : Crypto} {config : Config} {request : Request} {env : Env} {p : Prepared}
  {m : CardModule} {fc : Fc}

/-- The first `challenge` call of a walk is given a blank challenge, and its key is good. -/
def BlankStart (crypto : Crypto) (p : Prepared) (m : CardModule) (data : CardData) : Prop :=
  m = .cryptocard ∧ crypto.desKeyOk (p.user.key.take 8) = true ∧ data.clen.val = 0

theorem challengeLog_safe_iff {data : CardData} :
    LogSafe (m.challengeLog crypto p.user data) ↔ ¬ BlankStart crypto p m data := by
  cases m with
  | cryptocard =>
      have bound : data.clen.val ≤ 16 := by omega
      refine (x99Log_safe_iff bound).trans ?_
      simp [BlankStart]
  | x99 => exact iff_of_true logSafe_nil (by simp [BlankStart])
  | hotp => exact iff_of_true logSafe_nil (by simp [BlankStart])
  | totp => exact iff_of_true logSafe_nil (by simp [BlankStart])
  | c200 => exact iff_of_true logSafe_nil (by simp [BlankStart])

/-- After the first `challenge` call the challenge is eight bytes long. -/
theorem loop_safe (runs : p.ops = m.ops crypto env.undef) (des : m = .cryptocard ∨ m = .x99)
    (positions : List (Nat × Nat)) (l : Locals)
    (start : ¬ BlankStart crypto p m l.state.toCardData) :
    LogSafe (loggedLoop crypto config request env p m fc positions l).1 := by
  induction positions generalizing l with
  | nil => exact logSafe_nil
  | cons position rest ih =>
      obtain ⟨t, e⟩ := position
      have first : LogSafe (m.challengeLog crypto p.user l.state.toCardData) :=
        challengeLog_safe_iff.mpr start
      have data : (p.ops.challenge p.user l.state.toCardData l.challenge env.now t e).1 ≠ .error →
          m = .cryptocard ∧
            (p.ops.challenge p.user l.state.toCardData l.challenge env.now t e).2.1.clen.val = 8 := by
        rw [runs]
        intro success
        rw [m.challenge_data crypto env.undef success]
        rcases des with rfl | rfl
        · exact ⟨rfl, rfl⟩
        · exact absurd rfl success
      simp only [loggedLoop]
      generalize p.ops.challenge p.user l.state.toCardData l.challenge env.now t e = step at data
      obtain ⟨rc, after, challenge⟩ := step
      cases rc with
      | error => exact first
      | early =>
          have eight : after.clen.val = 8 := (data fun wrong => by cases wrong).2
          refine logSafe_append.mpr ⟨first, ih _ ?_⟩
          rintro ⟨-, -, blank⟩
          rw [show after.clen.val = 0 from blank] at eight
          cases eight
      | ok =>
          have eight : after.clen.val = 8 := (data fun wrong => by cases wrong).2
          have log : LogSafe (m.challengeLog crypto p.user l.state.toCardData ++
              m.responseLog crypto p.user after.clen) :=
            logSafe_append.mpr ⟨first, responseLog_safe m crypto p.user (by omega) (by omega)⟩
          dsimp only
          cases p.ops.response p.user after challenge after.clen (env.clock t e) with
          | none => exact log
          | some response =>
              dsimp only
              split
              · exact log
              · refine logSafe_append.mpr ⟨log, ih _ ?_⟩
                rintro ⟨-, -, blank⟩
                rw [show after.clen.val = 0 from blank] at eight
                cases eight

/-- A walk that takes a step logs its start. -/
theorem loop_outside {positions : List (Nat × Nat)} (some : positions ≠ []) (l : Locals)
    (start : BlankStart crypto p m l.state.toCardData) :
    ¬ LogSafe (loggedLoop crypto config request env p m fc positions l).1 := by
  have first : ¬ LogSafe (m.challengeLog crypto p.user l.state.toCardData) :=
    fun safe => challengeLog_safe_iff.mp safe start
  obtain ⟨⟨t, e⟩, rest, rfl⟩ := List.exists_cons_of_ne_nil some
  simp only [loggedLoop]
  generalize p.ops.challenge p.user l.state.toCardData l.challenge env.now t e = step
  obtain ⟨rc, after, challenge⟩ := step
  cases rc with
  | error => exact first
  | early => exact fun safe => first (logSafe_append.mp safe).1
  | ok =>
      dsimp only
      cases p.ops.response p.user after challenge after.clen (env.clock t e) with
      | none => exact fun safe => first (logSafe_append.mp safe).1
      | some response =>
          dsimp only
          split
          · exact fun safe => first (logSafe_append.mp safe).1
          · exact fun safe => first (logSafe_append.mp (logSafe_append.mp safe).1).1

theorem sync_safe_iff (runs : p.ops = m.ops crypto env.undef) (des : m = .cryptocard ∨ m = .x99)
    (l : Locals) : LogSafe (loggedSync crypto config request env p m fc l).1 ↔
      ¬ (syncPossible request p = true ∧ 0 ≤ eendOf config p.user ∧
        BlankStart crypto p m l.state.toCardData) := by
  have single : p.ops.maxtwin p.user l.state.toCardData env.now = 0 := by
    rw [runs, m.maxtwin_eq]
  simp only [loggedSync, single]
  split
  · rename_i enabled
    have on : syncPossible request p = true := by simpa [syncPossible] using enabled
    rw [if_neg (by decide), windowPositions_zero]
    by_cases window : 0 ≤ eendOf config p.user
    · have some : (List.range' 0 (eendOf config p.user + 1).toNat).map (fun e => (0, e)) ≠ [] := by
        simp only [ne_eq, List.map_eq_nil_iff, List.range'_eq_nil_iff]
        omega
      by_cases start : BlankStart crypto p m l.state.toCardData
      · exact iff_of_false (loop_outside some _ start) (by simp [on, window, start])
      · exact iff_of_true (loop_safe runs des _ _ start) (by simp [start])
    · have empty : (List.range' 0 (eendOf config p.user + 1).toNat).map (fun e => (0, e)) = [] := by
        simp only [List.map_eq_nil_iff, List.range'_eq_nil_iff]
        omega
      rw [empty]
      exact iff_of_true logSafe_nil fun all => window all.2.1
  · rename_i disabled
    refine iff_of_true logSafe_nil ?_
    rintro ⟨on, -, -⟩
    exact disabled (by simpa [syncPossible] using on)

/-- The window is walked from a blank challenge: a CRYPTOCard user with a good key, whose
stored challenge is blank, and no async response has settled the matter. -/
structure BlankWalk (crypto : Crypto) (config : Config) (request : Request) (env : Env)
    (p : Prepared) (m : CardModule) (state : State) : Prop where
  start : BlankStart crypto p m state.toCardData
  loaded : state.nullstate = false
  inTime : ¬ config.timeout - env.hrGet - env.hrState < 250000000
  notAsync : asyncMatches crypto config request env p state.toCardData = false
  sync : syncPossible request p = true
  window : 0 ≤ eendOf config p.user

theorem cryptocard_answers (runs : p.ops = CardModule.cryptocard.ops crypto env.undef)
    (accepted : crypto.desKeyOk (p.user.key.take 8) = true) (data : CardData) :
    ∃ response, asyncResponse config request env p data = some response := by
  obtain ⟨output, mac⟩ := x99Mac_some accepted env.undef
    ((asyncChallenge config request env.undef).1.bytes.take
      (asyncChallenge config request env.undef).2)
  rw [asyncResponse, runs]
  simp only [CardModule.ops, cryptocardCardops, cryptocardResponse, mac, Option.map_some]
  exact ⟨_, rfl⟩

theorem responses_safe_iff (runs : p.ops = m.ops crypto env.undef)
    (des : m = .cryptocard ∨ m = .x99) (l : Locals) :
    LogSafe (loggedResponses crypto config request env p m fc l).1 ↔
      ¬ (asyncMatches crypto config request env p l.state.toCardData = false ∧
        syncPossible request p = true ∧ 0 ≤ eendOf config p.user ∧
        BlankStart crypto p m l.state.toCardData) := by
  simp only [loggedResponses]
  by_cases possible : asyncPossible request p.user = true
  · have given : request.challenge.bytes ≠ [] := by
      simp only [asyncPossible, decide_eq_true_eq] at possible
      exact possible.1
    obtain ⟨positive, bound⟩ := asyncChallenge_bounds config request env.undef given
    have async := responseLog_safe m crypto p.user positive bound
    rw [if_pos possible]
    cases answered : asyncResponse config request env p l.state.toCardData with
    | none =>
        refine iff_of_true async ?_
        rintro ⟨-, -, -, rfl, accepted, -⟩
        obtain ⟨response, known⟩ := cryptocard_answers runs accepted l.state.toCardData
        rw [answered] at known
        cases known
    | some response =>
        dsimp only
        by_cases equal : compare crypto request (expectedPasscode config p.user response) = true
        · rw [if_pos equal]
          exact iff_of_true async (by simp [asyncMatches, possible, answered, equal])
        · rw [if_neg equal, logSafe_append, sync_safe_iff runs des]
          simp [async, asyncMatches, possible, answered, equal]
  · rw [if_neg possible, sync_safe_iff runs des]
    simp [asyncMatches, possible]

theorem authenticate_safe_iff (runs : p.ops = m.ops crypto env.undef)
    (des : m = .cryptocard ∨ m = .x99) (state : State) :
    LogSafe (loggedAuthenticate crypto config request env p m state).1 ↔
      ¬ BlankWalk crypto config request env p m state := by
  have walk : BlankWalk crypto config request env p m state ↔
      ¬ config.timeout - env.hrGet - env.hrState < 250000000 ∧ state.nullstate = false ∧
        (asyncMatches crypto config request env p state.toCardData = false ∧
          syncPossible request p = true ∧ 0 ≤ eendOf config p.user ∧
          BlankStart crypto p m state.toCardData) :=
    ⟨fun walk => ⟨walk.inTime, walk.loaded, walk.notAsync, walk.sync, walk.window, walk.start⟩,
      fun ⟨inTime, loaded, notAsync, sync, window, start⟩ =>
        ⟨start, loaded, inTime, notAsync, sync, window⟩⟩
  rw [walk]
  unfold loggedAuthenticate
  cases found : resolveNullstate p state env.now with
  | none =>
      refine iff_of_true logSafe_nil ?_
      rintro ⟨-, loaded, -⟩
      simp only [resolveNullstate, loaded, Bool.false_eq_true, if_false] at found
      split at found <;> cases found
  | some resolved =>
      have same : resolved.toCardData = state.toCardData := by
        unfold resolveNullstate at found
        split at found
        · obtain ⟨data, nulled, rfl⟩ := Option.map_eq_some_iff.mp found
          rw [runs] at nulled
          exact m.nullstate_data crypto env.undef nulled
        · split at found <;> cases found <;> rfl
      dsimp only
      by_cases late : config.timeout - env.hrGet - env.hrState < 250000000
      · rw [if_pos late]
        exact iff_of_true logSafe_nil fun all => all.1 late
      · rw [if_neg late, responses_safe_iff runs des]
        simp only [Locals.start, same, late, not_false_eq_true, true_and]
        -- in null state a CRYPTOCard user does not come this far
        by_cases loaded : state.nullstate = false
        · simp only [loaded, true_and]
        · refine iff_of_true ?_ fun all => loaded all.1
          rintro ⟨-, -, -, rfl, -⟩
          simp only [resolveNullstate, Bool.eq_true_of_not_eq_false loaded, if_true, runs,
            CardModule.ops, cryptocardCardops, noNullstate, Option.map_none] at found
          cases found

end Safe

/-- Every block is inside the two allocated and the ones encrypted, unless the call walks the
window from a blank challenge; and the log is one of the call itself. -/
theorem x99_blocks_safe_iff (crypto : Crypto) (m : CardModule) (call : Call) (store : Store)
    (des : m = .cryptocard ∨ m = .x99) (uses : call.Uses m) :
    (loggedVerify crypto m call store).2 = (serve crypto store call).1 ∧
      ((∀ len ∈ (loggedVerify crypto m call store).1, BlockSafe len) ↔
        ∀ p state, prepareCall crypto call = .ok p →
          (stateGet call.config call.request.username call.env.io store p.state).1 = some state →
          ¬ BlankWalk crypto call.config call.request call.env p m state) := by
  refine ⟨loggedVerify_run crypto m call store, ?_⟩
  unfold loggedVerify
  cases prepared : prepareCall crypto call with
  | error exit => exact iff_of_true logSafe_nil fun _ _ wrong => by cases wrong
  | ok p =>
      obtain ⟨user, m', found, -, card, runs, -⟩ := prepare_module prepared
      obtain rfl : m' = m := Option.some.inj (card.symm.trans (uses user found))
      dsimp only
      rw [← Prepared.state]
      cases got : (stateGet call.config call.request.username call.env.io store p.state).1 with
      | none =>
          refine iff_of_true logSafe_nil ?_
          rintro p' state ⟨⟩ wrong
          rw [got] at wrong
          cases wrong
      | some state =>
          refine (authenticate_safe_iff runs des state).trans ?_
          constructor
          · rintro safe p' state' ⟨⟩ again
            cases got.symm.trans again
            exact safe
          · intro all
            exact all p state rfl got

theorem x99_blocks_safe_x99 :
    (loggedVerify sampleCrypto .x99 (asyncCall (desUser "x99-h8") "12345678" "f5f078bf" 1000)
      (stateLine "5:bob::::0:0:0:")).1 = [10] ∧
    ∀ len ∈ (loggedVerify sampleCrypto .x99
        (asyncCall (desUser "x99-h8") "12345678" "f5f078bf" 1000) (stateLine "5:bob::::0:0:0:")).1,
      BlockSafe len := by
  refine ⟨by decide +kernel, ?_⟩
  have uses : (asyncCall (desUser "x99-h8") "12345678" "f5f078bf" 1000).Uses .x99 := by
    intro user found
    cases found
    decide +kernel
  refine (x99_blocks_safe_iff sampleCrypto .x99
    (asyncCall (desUser "x99-h8") "12345678" "f5f078bf" 1000) (stateLine "5:bob::::0:0:0:")
    (Or.inr rfl) uses).2.mpr ?_
  intro p state _ _ walk
  cases walk.start.1

/-- The blank challenge field that the README asks for. -/
theorem x99_block_outside :
    0 ∈ (loggedVerify sampleCrypto .cryptocard
      (papCall (desUser "cryptocard-h8-es") "12345678" 1000) (stateLine "5:bob::::0:0:0:")).1 ∧
    blockIndex 0 = 2305843009213693951 ∧ ¬ BlockSafe 0 := by
  decide +kernel

end Otpd

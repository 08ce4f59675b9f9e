import Otpd.Resync
import Otpd.Window

/-!
# Async users after a wait

An x99 card has no sync mode, so its user has nothing to resynchronise; what the state
line keeps for it is the failure count and the time of the last attempt.  A user without
a state line is still in null state, which only a success ends.
-/

set_option autoImplicit false

namespace Otpd

open CMem

/-- A call for one user in one state mode. -/
structure Call.For (call : Call) (username : Username) (mode : StateMode) : Prop where
  sameUser : call.request.username = username
  sameMode : call.config.stateMode = mode

/-- The longest delay of the soft limit and the one asked for have passed since `t`. -/
def Call.WaitedSince (call : Call) (t : Nat) : Prop :=
  t + 2048 ≤ call.env.now ∧ t + call.request.challengeDelay.toNat ≤ call.env.now

/-- No state yet, or a line whose last attempt was at a time that satisfies `At`. -/
def LastTried (mode : StateMode) (username : Username) (At : Nat → Prop) (store : Store) : Prop :=
  NullStore mode store ∨
    ∃ r, recordIn mode username store = some r ∧ At (absTime r.authtime).toNat

/-- The correct response to a challenge of an x99 card, without a hard limit and with
the services at hand. -/
structure AsyncRequest (crypto : Crypto) (call : Call) (username : Username) (mode : StateMode) :
    Prop where
  same : call.For username mode
  x99 : call.Uses .x99
  unlimited : call.config.hardfail = 0
  correct : answersChallenge crypto call = true
  granted : call.env.io.granted = true
  readable : call.env.io.readable = true
  inTime : ¬ call.config.timeout - call.env.hrGet - call.env.hrState < 250000000
  stored : call.env.io.put = .done
  clock : call.env.now < 2 ^ 32

/-- With a soft limit there has to be a state line, without the null state mark; the
second alternative is a negative `fcount`. -/
def SoftfailPasses (mode : StateMode) (username : Username) (call : Call) (store : Store) : Prop :=
  match recordIn mode username store with
  | none => call.config.softfail = 0 ∧ call.request.challengeDelay.toNat ≤ call.env.now
  | some r => call.config.softfail = 0 ∨ r.authtime < 0x80000000 ∧
      (r.failcount.toNat - call.config.softfail.toNat < 2 ^ 31 ∨
        r.authtime + call.env.undef.shift ≤ call.env.now.toU32)

/-! ## The state before the request -/

theorem lastTried_step (crypto : Crypto) {mode : StateMode} {username : Username}
    {At : Nat → Prop} {store : Store} {call : Call} (tried : LastTried mode username At store)
    (same : call.For username mode) (inRange : call.env.now < 2 ^ 31) (now : At call.env.now) :
    LastTried mode username At (serve crypto store call).2 := by
  apply serve_keeps crypto tried
  intro m r p state l attempt got
  refine Or.inr ⟨(authDone call.env.now l).record, ?_, ?_⟩
  · rw [same.sameUser]
    exact recordIn_persist _ _ _ _
  · rw [authDone_authtime, absTime_stamp call.env.now inRange]
    exact now

theorem lastTried_run (crypto : Crypto) {mode : StateMode} {username : Username}
    {At : Nat → Prop} {start : Store} (begins : LastTried mode username At start)
    (calls : List Call) (attempts : ∀ call ∈ calls,
      call.For username mode ∧ call.env.now < 2 ^ 31 ∧ At call.env.now) :
    LastTried mode username At (Runs.final (serve crypto) start calls) := by
  refine (Runs.state_invariant (serve crypto) (LastTried mode username At)
    (fun _ call => call.For username mode ∧ call.env.now < 2 ^ 31 ∧ At call.env.now) ?_ begins
    ?_).1
  · rintro store call tried ⟨same, inRange, now⟩
    exact lastTried_step crypto tried same inRange now
  · intro x member
    exact attempts x.call (session_step member).1

/-! ## How the request is judged -/

theorem toU32_toNat {now : Nat} (clock : now < 2 ^ 32) : (Time.toU32 now).toNat = now := by
  rw [Time.toU32, UInt32.toNat_ofNat']
  exact Nat.mod_eq_of_lt clock

theorem failCondition_none_iff {config : Config} (unlimited : config.hardfail = 0) (undef : Undef)
    (state : State) (now : Time) :
    failCondition config undef state now = .none ↔ config.softfail = 0 ∨
      state.nullstate = false ∧ (config.softfail ≤ state.failcount →
        state.authtime + softfailDelay undef state.failcount config.softfail ≤ now.toU32) := by
  have noHard : ¬ (config.hardfail ≠ 0 ∧ state.failcount ≥ config.hardfail) := fun hard =>
    hard.1 unlimited
  rw [failCondition, if_neg noHard]
  by_cases off : config.softfail = 0
  · simp [off]
  · cases null : state.nullstate with
    | true => simp [off]
    | false =>
        simp only [ne_eq, off, not_false_eq_true, true_and, Bool.false_eq_true, if_false, false_or]
        by_cases reached : config.softfail ≤ state.failcount
        · rw [if_pos reached]
          by_cases early : now.toU32 <
              state.authtime + softfailDelay undef state.failcount config.softfail
          · simp [early, reached]
          · simp [early, reached, UInt32.not_lt.mp early]
        · simp [reached]

theorem authenticate_async {crypto : Crypto} {config : Config} {request : Request} {env : Env}
    {p : Prepared} {state resolved : State} (found : resolveNullstate p state env.now = some resolved)
    (inTime : ¬ config.timeout - env.hrGet - env.hrState < 250000000)
    (isAsync : asyncMatches crypto config request env p resolved.toCardData = true) :
    ∃ l, authenticate crypto config request env p state = (.authDone, l) ∧
      l.rc = asyncRc request (failCondition config env.undef resolved env.now) resolved env.now := by
  simp only [asyncMatches, Bool.and_eq_true] at isAsync
  obtain ⟨possible, answers⟩ := isAsync
  cases answered : asyncResponse config request env p resolved.toCardData with
  | none => simp [answered] at answers
  | some response =>
      simp only [answered] at answers
      simp only [authenticate, found, if_neg inTime, responses, Locals.start, if_pos possible,
        answered, if_pos answers]
      exact ⟨_, rfl, rfl⟩

/-- The modules with a null state of their own; the event modules refuse it. -/
def CardModule.hasNullstate (m : CardModule) : Bool := m = .x99 ∨ m = .totp ∨ m = .c200

theorem resolveNullstate_some {crypto : Crypto} {undef : Undef} {p : Prepared} {m : CardModule}
    (kind : m.hasNullstate = true) (runs : p.ops = m.ops crypto undef) (state : State)
    (now : Time) : ∃ resolved, resolveNullstate p state now = some resolved := by
  unfold resolveNullstate
  split
  · rw [runs]
    cases m with
    | x99 => exact ⟨_, rfl⟩
    | totp => exact ⟨_, rfl⟩
    | c200 => exact ⟨_, rfl⟩
    | hotp => cases kind
    | cryptocard => cases kind
  · split
    · exact ⟨_, rfl⟩
    · exact ⟨_, rfl⟩

section Judged

variable {crypto : Crypto} {call : Call} {username : Username} {mode : StateMode} {store : Store}

theorem AsyncRequest.reply (request : AsyncRequest crypto call username mode) (store : Store) :
    ∃ p : Prepared, ∀ state, (stateGet call.config call.request.username call.env.io store
        p.state).1 = some state →
      ∃ resolved, Resolves state resolved ∧ (serve crypto store call).1.rc = asyncRc call.request
        (failCondition call.config call.env.undef resolved call.env.now) resolved
        call.env.now := by
  have correct := request.correct
  unfold answersChallenge at correct
  cases prepared : prepareCall crypto call with
  | error exit => simp [prepared] at correct
  | ok p =>
      simp only [prepared] at correct
      refine ⟨p, ?_⟩
      intro state got
      obtain ⟨user, m, found, -, card, runs, mask, -⟩ := prepare_module prepared
      obtain rfl : m = .x99 := Option.some.inj (card.symm.trans (request.x99 user found))
      obtain ⟨r, -, loads⟩ := stateGet_kept got
      obtain ⟨resolved, exact⟩ := resolveNullstate_some rfl runs state call.env.now
      rw [CardModule.x99.asyncMatches_data runs mask _ resolved.toCardData] at correct
      obtain ⟨l, result, rc⟩ := authenticate_async exact request.inTime correct
      exact ⟨resolved, loads.resolves runs exact,
        (serve_done prepared got result request.stored).trans rc⟩

/-- In null state the last attempt counts as made at the epoch. -/
theorem AsyncRequest.null (request : AsyncRequest crypto call username mode)
    (empty : NullStore mode store) : (serve crypto store call).1.rc = .ok ↔
      call.config.softfail = 0 ∧ call.request.challengeDelay.toNat ≤ call.env.now := by
  obtain ⟨p, reply⟩ := request.reply store
  rw [← request.same.sameMode] at empty
  obtain ⟨resolved, resolves, rc⟩ :=
    reply _ (stateGet_null empty request.granted request.readable)
  have authtime : resolved.authtime = 0 := resolves.authtime
  have nullstate : resolved.nullstate = true := resolves.nullstate
  rw [rc, asyncRc_ok_iff, failCondition_none_iff request.unlimited, authtime, nullstate,
    UInt32.sub_zero]
  simp only [Bool.true_eq_false, false_and, or_false]
  refine and_congr_right fun _ => ?_
  rw [UInt32.le_iff_toNat_le, toU32_toNat request.clock]
  constructor
  · rintro (none | waited)
    · rw [none]
      exact Nat.zero_le _
    · exact waited
  · exact Or.inr

/-- A line whose last attempt is far enough back: only the null state mark and a negative
`fcount` can make the condition soft. -/
theorem AsyncRequest.line (request : AsyncRequest crypto call username mode) {r : StateRecord}
    (stored : recordIn mode username store = some r)
    (waited : call.WaitedSince (absTime r.authtime).toNat) :
    (serve crypto store call).1.rc = .ok ↔ call.config.softfail = 0 ∨ r.authtime < 0x80000000 ∧
      (r.failcount.toNat - call.config.softfail.toNat < 2 ^ 31 ∨
        r.authtime + call.env.undef.shift ≤ call.env.now.toU32) := by
  obtain ⟨p, reply⟩ := request.reply store
  rw [← request.same.sameMode, ← request.same.sameUser] at stored
  obtain ⟨resolved, resolves, rc⟩ :=
    reply _ (stateGet_stored stored request.granted request.readable)
  have authtime : resolved.authtime = absTime r.authtime := resolves.authtime
  have failcount : resolved.failcount = r.failcount := resolves.failcount
  have nullstate : resolved.nullstate = decide (r.authtime ≥ 0x80000000) := by
    rw [resolves.nullstate]
    rfl
  have now := toU32_toNat request.clock
  have later : absTime r.authtime ≤ call.env.now.toU32 := by
    rw [UInt32.le_iff_toNat_le, now]
    have := waited.1
    omega
  have notSoon : call.request.challengeDelay ≤ call.env.now.toU32 - resolved.authtime := by
    rw [authtime, UInt32.le_iff_toNat_le, UInt32.toNat_sub_of_le _ _ later, now]
    have := waited.2
    omega
  rw [rc, asyncRc_ok_iff, failCondition_none_iff request.unlimited, nullstate, failcount]
  simp only [notSoon, or_true, and_true, decide_eq_false_iff_not, UInt32.not_le, ge_iff_le]
  refine or_congr_right (and_congr_right fun positive => ?_)
  have plain : absTime r.authtime = r.authtime := if_neg (UInt32.not_le.mpr positive)
  rw [authtime, plain]
  rw [plain] at waited later
  by_cases small : r.failcount.toNat - call.config.softfail.toNat < 2 ^ 31
  · simp only [small, true_or, iff_true]
    intro reached
    have bound := delay_le (r.failcount.toNat - call.config.softfail.toNat)
    have size := softfailDelay_toNat call.env.undef reached small
    have := waited.1
    have := request.clock
    rw [UInt32.le_iff_toNat_le, UInt32.toNat_add, size, now]
    omega
  · have reached : call.config.softfail ≤ r.failcount := by
      rw [UInt32.le_iff_toNat_le]
      omega
    have large : r.failcount - call.config.softfail ≥ 0x80000000 := by
      rw [ge_iff_le, UInt32.le_iff_toNat_le, UInt32.toNat_sub_of_le _ _ reached]
      simp only [UInt32.reduceToNat]
      omega
    simp only [small, false_or, reached, true_implies, softfailDelay, if_pos large]

end Judged

/-! ## Who stays in null state -/

/-- No state line, or one that carries the mark. -/
def InNullstate (mode : StateMode) (username : Username) (store : Store) : Prop :=
  NullStore mode store ∨
    ∃ r, recordIn mode username store = some r ∧ r.authtime ≥ 0x80000000

def HasSucceeded (mode : StateMode) (username : Username) (store : Store) : Prop :=
  ∃ r, recordIn mode username store = some r ∧ ¬ r.authtime ≥ 0x80000000

theorem Attempt.nullstate {crypto : Crypto} {call : Call} {store : Store} {out : Outcome}
    {m : CardModule} {r : StateRecord} {p : Prepared} {state : State} {l : Locals}
    (attempt : Attempt crypto call store out m r p state l) :
    l.state.nullstate = (state.nullstate || decide (state.authtime ≥ 0x80000000)) := by
  cases attempt.ending with
  | async _ _ resolves => exact resolves.nullstate
  | wrong _ _ _ _ resolves => exact resolves.nullstate
  | hit _ _ _ _ _ resolves => exact resolves.nullstate

theorem toU32_notNegative {now : Nat} (inRange : now < 2 ^ 31) :
    ¬ Time.toU32 now ≥ 0x80000000 := by
  rw [ge_iff_le, UInt32.le_iff_toNat_le, toU32_toNat (by omega)]
  simp only [UInt32.reduceToNat]
  omega

theorem neg_toU32_negative {now : Nat} (positive : 0 < now) (inRange : now < 2 ^ 31) :
    -Time.toU32 now ≥ 0x80000000 := by
  rw [ge_iff_le, UInt32.le_iff_toNat_le, UInt32.toNat_neg, toU32_toNat (by omega)]
  simp only [UInt32.reduceToNat, UInt32.size]
  omega

section Nullstate

variable {mode : StateMode} {username : Username} {store : Store} {call : Call}

theorem InNullstate.loaded (null : InNullstate mode username store)
    (same : call.For username mode) {p : Prepared} {state : State}
    (got : (stateGet call.config call.request.username call.env.io store p.state).1 = some state) :
    (state.nullstate || decide (state.authtime ≥ 0x80000000)) = true := by
  rw [← same.sameMode, ← same.sameUser] at null
  rcases (stateGet_loaded got).2 with ⟨record, stored, rfl⟩ | ⟨-, rfl⟩
  · rcases null with empty | ⟨r, line, marked⟩
    · rw [NullStore] at empty
      simp [recordIn, empty] at stored
    · cases line.symm.trans stored
      simp only [loadedState, State.fill, marked, decide_true, Bool.or_true]
  · rfl

theorem HasSucceeded.loaded (succeeded : HasSucceeded mode username store)
    (same : call.For username mode) {p : Prepared} {state : State}
    (got : (stateGet call.config call.request.username call.env.io store p.state).1 = some state) :
    (state.nullstate || decide (state.authtime ≥ 0x80000000)) = false := by
  rw [← same.sameMode, ← same.sameUser] at succeeded
  obtain ⟨r, line, unmarked⟩ := succeeded
  rcases (stateGet_loaded got).2 with ⟨record, stored, rfl⟩ | ⟨empty, rfl⟩
  · cases line.symm.trans stored
    simp only [loadedState, State.fill, unmarked, decide_false, Bool.or_false]
  · rw [NullStore] at empty
    simp [recordIn, empty] at line

theorem failCondition_nullstate {config : Config} (limited : config.softfail ≠ 0) (undef : Undef)
    {state : State} (null : state.nullstate = true) (now : Time) :
    failCondition config undef state now ≠ .none := by
  unfold failCondition
  split
  · decide
  · rw [if_pos ⟨limited, null⟩]
    decide

theorem succeeded_step (crypto : Crypto) (succeeded : HasSucceeded mode username store)
    (same : call.For username mode) (inRange : call.env.now < 2 ^ 31) :
    HasSucceeded mode username (serve crypto store call).2 := by
  apply serve_keeps crypto succeeded
  intro m r p state l attempt got
  refine ⟨(authDone call.env.now l).record, ?_, ?_⟩
  · rw [same.sameUser]
    exact recordIn_persist _ _ _ _
  · have unmarked : l.state.nullstate = false :=
      attempt.nullstate.trans (succeeded.loaded same got)
    rw [authDone_authtime, if_neg (by simp [unmarked])]
    exact toU32_notNegative inRange

/-- A state line without the mark stays one, whatever the attempts. -/
theorem succeeded_run (crypto : Crypto) (succeeded : HasSucceeded mode username store)
    (calls : List Call)
    (attempts : ∀ call ∈ calls, call.For username mode ∧ call.env.now < 2 ^ 31) :
    HasSucceeded mode username (Runs.final (serve crypto) store calls) :=
  (Runs.state_invariant (serve crypto) (HasSucceeded mode username)
    (fun _ call => call.For username mode ∧ call.env.now < 2 ^ 31)
    (fun _ _ succeeded attempt => succeeded_step crypto succeeded attempt.1 attempt.2) succeeded
    fun x member => attempts x.call (session_step member).1).1

theorem InNullstate.refused {crypto : Crypto} {out : Outcome} {m : CardModule} {r : StateRecord}
    {p : Prepared} {state : State} {l : Locals}
    (null : InNullstate mode username store) (same : call.For username mode)
    (x99 : call.Uses .x99) (limited : call.config.softfail ≠ 0)
    (attempt : Attempt crypto call store out m r p state l)
    (got : (stateGet call.config call.request.username call.env.io store p.state).1 = some state) :
    l.rc ≠ .ok := by
  obtain rfl := attempt.module_eq x99
  have marked := null.loaded same got
  cases attempt.ending with
  | async resolved _ resolves =>
      intro success
      exact failCondition_nullstate limited call.env.undef (resolves.nullstate.trans marked)
        call.env.now ((asyncRc_ok_iff ..).mp success).1
  | wrong => simp
  | hit _ _ _ _ _ _ _ on => simp [syncPossible, CardModule.masks_x99 _ attempt.mask] at on

theorem nullstate_step (crypto : Crypto) (null : InNullstate mode username store)
    (plain : call.Plain username mode) (x99 : call.Uses .x99) (limited : call.config.softfail ≠ 0)
    (positive : 0 < call.env.now) (inRange : call.env.now < 2 ^ 31) :
    (serve crypto store call).1.rc ≠ .ok ∧
      InNullstate mode username (serve crypto store call).2 := by
  have same : call.For username mode := ⟨plain.sameUser, plain.sameMode⟩
  constructor
  · rcases serve_split crypto store call with ⟨-, rc⟩ | ⟨m, r, p, state, l, attempt, got⟩
    · rcases rc with rc | ⟨exit, prepared, rc⟩
      · rw [rc]
        decide
      · rw [rc]
        rcases prepare_exit prepared plain.noPassword with known | known | known | ⟨known, -⟩ <;>
          rw [known] <;> decide
    · intro success
      exact null.refused same x99 limited attempt got (attempt.ok_rc success)
  · apply serve_keeps crypto null
    intro m r p state l attempt got
    refine Or.inr ⟨(authDone call.env.now l).record, ?_, ?_⟩
    · rw [same.sameUser]
      exact recordIn_persist _ _ _ _
    · have refused := null.refused same x99 limited attempt got
      rw [authDone_authtime, if_pos ⟨refused, attempt.nullstate.trans (null.loaded same got)⟩]
      exact neg_toU32_negative positive inRange

/-- With a soft limit an x99 user who never got in never will. -/
theorem nullstate_run (crypto : Crypto) (null : InNullstate mode username store)
    (calls : List Call)
    (attempts : ∀ call ∈ calls, call.Plain username mode ∧ call.Uses .x99 ∧
      call.config.softfail ≠ 0 ∧ 0 < call.env.now ∧ call.env.now < 2 ^ 31) :
    ∀ x ∈ session crypto store calls, x.out.rc ≠ .ok := by
  have invariant := (Runs.state_invariant (serve crypto) (InNullstate mode username)
    (fun _ call => call.Plain username mode ∧ call.Uses .x99 ∧ call.config.softfail ≠ 0 ∧
      0 < call.env.now ∧ call.env.now < 2 ^ 31)
    (fun _ _ null ⟨plain, x99, limited, positive, inRange⟩ =>
      (nullstate_step crypto null plain x99 limited positive inRange).2) null
    fun x member => attempts x.call (session_step member).1).2
  intro x member
  obtain ⟨inCalls, out, -⟩ := session_step member
  obtain ⟨plain, x99, limited, positive, inRange⟩ := attempts x.call inCalls
  rw [out]
  exact (nullstate_step crypto (invariant x member) plain x99 limited positive inRange).1

end Nullstate

/-! ## After a wait -/

/-- After any run of attempts that the wait has outlasted, the correct response is
accepted exactly when the state line stands as `SoftfailPasses` says. -/
theorem async_after_wait_iff (crypto : Crypto) (username : Username) (mode : StateMode)
    (start : Store) (calls : List Call) (call : Call)
    (begins : LastTried mode username call.WaitedSince start)
    (attempts : ∀ before ∈ calls, before.For username mode ∧ before.env.now < 2 ^ 31 ∧
      call.WaitedSince before.env.now)
    (request : AsyncRequest crypto call username mode) :
    (serve crypto (Runs.final (serve crypto) start calls) call).1.rc = .ok ↔
      SoftfailPasses mode username call (Runs.final (serve crypto) start calls) := by
  rcases lastTried_run crypto begins calls attempts with empty | ⟨r, stored, waited⟩
  · have noLine : recordIn mode username (Runs.final (serve crypto) start calls) = none := by
      rw [NullStore] at empty
      simp [recordIn, empty]
    rw [SoftfailPasses, noLine]
    exact request.null empty
  · rw [SoftfailPasses, stored]
    exact request.line stored waited

def x99User : User := desUser "x99-h8"

def wrongResponse : Call := asyncCall x99User "12345678" "00000000" 1000

def rightResponse : Call := asyncCall x99User "12345678" "f5f078bf" 10000

theorem wrongResponse_before : ∀ before ∈ [wrongResponse], before.For bob .localMode ∧
    before.env.now < 2 ^ 31 ∧ rightResponse.WaitedSince before.env.now := by
  intro before member
  rw [List.mem_singleton.mp member]
  exact ⟨⟨rfl, rfl⟩, by decide, by decide, by decide⟩

theorem rightResponse_request : AsyncRequest sampleCrypto rightResponse bob .localMode where
  same := ⟨rfl, rfl⟩
  x99 := fun _ found => by
    cases found
    decide +kernel
  unlimited := rfl
  correct := by decide +kernel
  granted := rfl
  readable := rfl
  inTime := by decide
  stored := rfl
  clock := by decide

theorem async_after_wait_accepted :
    (serve sampleCrypto (Runs.final (serve sampleCrypto) (stateLine "5:bob::::5:3e8:0:")
      [wrongResponse]) rightResponse).1.rc = .ok :=
  have waited : rightResponse.WaitedSince 1000 := ⟨by decide, by decide⟩
  have line : recordIn .localMode bob (stateLine "5:bob::::5:3e8:0:") =
      some ⟨[], by decide, StateField.empty 63, StateField.empty 31, 5, 1000, 0⟩ := by
    decide +kernel
  (async_after_wait_iff sampleCrypto bob .localMode (stateLine "5:bob::::5:3e8:0:") [wrongResponse]
    rightResponse (Or.inr ⟨_, line, waited⟩) wrongResponse_before rightResponse_request).mpr (by
      have after : recordIn .localMode bob (Runs.final (serve sampleCrypto)
          (stateLine "5:bob::::5:3e8:0:") [wrongResponse]) =
          some ⟨[], by decide, StateField.empty 63, StateField.empty 31, 6, 1000, 0⟩ := by
        decide +kernel
      rw [SoftfailPasses, after]
      exact Or.inr ⟨by decide, Or.inl (by decide)⟩)

/-- Without a state line the user is turned down, however long the wait. -/
theorem async_null_state_refused :
    LastTried .localMode bob rightResponse.WaitedSince none ∧
      (∀ before ∈ [wrongResponse], before.For bob .localMode ∧ before.env.now < 2 ^ 31 ∧
        rightResponse.WaitedSince before.env.now) ∧
      AsyncRequest sampleCrypto rightResponse bob .localMode ∧
      (serve sampleCrypto (Runs.final (serve sampleCrypto) none [wrongResponse])
        rightResponse).1.rc = .maxtries :=
  ⟨Or.inl rfl, wrongResponse_before, rightResponse_request, by decide +kernel⟩

end Otpd

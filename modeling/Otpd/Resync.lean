import Otpd.Lockout

/-!
# Resync candidates

The event modules keep one candidate window position in `rd`; a passcode at the
next position then counts as the second of two consecutive ones.  The lemmas here
tie a non-empty `rd` to the exchange that saved it.
-/

set_option autoImplicit false

namespace Otpd

open CMem

def SavesCandidate (mode : StateMode) (username : Username) (e : Nat) (x : Exchange) : Prop :=
  x.out.rc ≠ .ok ∧ (∃ challenge clen, x.out.matched = some (.sync 0 e challenge clen)) ∧
    ∃ r, kept mode username x.post = some r ∧ r.rd = rdOfEwin e

theorem rdOfEwin_ne_empty (e : Nat) : rdOfEwin e ≠ StateField.empty 31 := by
  intro same
  exact printHex_ne_nil (UInt32.ofNat e) (congrArg StateField.bytes same)

theorem eventIsconsecutive_rd {user : User} {data : CardData} {e : Nat}
    (consecutive : eventIsconsecutive user data e = true) : data.rd ≠ StateField.empty 31 := by
  intro empty
  simp [eventIsconsecutive, empty, StateField.empty] at consecutive

/-! ## The judgement of the fail condition -/

/-- The fields of the state that the fail condition and `challenge_delay` read. -/
def judged (r : StateRecord) : State :=
  { State.init with
    failcount := r.failcount
    authtime := absTime r.authtime
    nullstate := decide (r.authtime ≥ 0x80000000) }

theorem failCondition_congr (config : Config) (undef : Undef) (now : Time) {s s' : State}
    (failcount : s.failcount = s'.failcount) (authtime : s.authtime = s'.authtime)
    (nullstate : s.nullstate = s'.nullstate) :
    failCondition config undef s now = failCondition config undef s' now := by
  simp only [failCondition, failcount, authtime, nullstate]

def answersChallenge (crypto : Crypto) (call : Call) : Bool :=
  match prepareCall crypto call with
  | .error _ => false
  | .ok p => asyncMatches crypto call.config call.request call.env p p.state.toCardData

def asyncSucceeds (crypto : Crypto) (call : Call) (r : StateRecord) : Bool :=
  answersChallenge crypto call &&
    asyncRc call.request (failCondition call.config call.env.undef (judged r) call.env.now)
      (judged r) call.env.now == .ok

/-- Async responses do not depend on the stored state. -/
theorem CardModule.asyncMatches_data {crypto : Crypto} {config : Config} {request : Request}
    {env : Env} {p : Prepared} (m : CardModule) (runs : p.ops = m.ops crypto env.undef)
    (mask : p.user.featuremask ∈ m.masks) (data data' : CardData) :
    asyncMatches crypto config request env p data =
      asyncMatches crypto config request env p data' := by
  have never : hasFeature p.user.featuremask otpCfAm = false →
      ∀ data, asyncMatches crypto config request env p data = false := by
    intro off data
    simp [asyncMatches, asyncPossible, off]
  cases m with
  | hotp =>
      have off := (CardModule.hotp.masks_event (by decide) _ mask).1
      rw [never off, never off]
  | totp =>
      have off := (CardModule.totp.masks_event (by decide) _ mask).1
      rw [never off, never off]
  | c200 =>
      have off := (CardModule.c200.masks_event (by decide) _ mask).1
      rw [never off, never off]
  | cryptocard => simp only [asyncMatches, asyncResponse, runs]; rfl
  | x99 => simp only [asyncMatches, asyncResponse, runs]; rfl

theorem asyncRc_ok_iff (request : Request) (fc : Fc) (state : State) (now : Time) :
    asyncRc request fc state now = .ok ↔ fc = .none ∧
      (request.challengeDelay = 0 ∨ request.challengeDelay ≤ now.toU32 - state.authtime) := by
  cases fc with
  | none =>
      simp only [asyncRc, reduceCtorEq, if_false, true_and]
      split
      · rename_i soon
        simp [soon.1, UInt32.not_le.mpr soon.2]
      · rename_i later
        simp only [true_iff]
        by_cases none : request.challengeDelay = 0
        · exact Or.inl none
        · exact Or.inr (UInt32.not_lt.mp fun soon => later ⟨none, soon⟩)
  | hard => simp [asyncRc]
  | soft => simp [asyncRc]

/-- A right passcode of this position is the user's turn: as the second of two it comes after
the second of the first one, else no limit is in force and the event window holds it. -/
def InTurn (config : Config) (p : Prepared) (fc : Fc) (state : State) (now : Time) (e : Nat) : Prop :=
  fc ≠ .hard ∧
    if p.ops.isconsecutive p.user state.toCardData e = true then state.authtime < now.toU32
    else fc = .none ∧ (hasFeature p.user.featuremask otpCfFrw = true ∨
      (e : Int) ≤ config.ewindowSize.toInt32.toInt)

theorem syncRc_ok_iff (config : Config) (p : Prepared) (fc : Fc) (state : State) (now : Time)
    (e : Nat) : syncRc config p fc state now e = .ok ↔ InTurn config p fc state now e := by
  rw [syncRc, InTurn]
  cases fc with
  | hard => simp
  | soft =>
      by_cases consecutive : p.ops.isconsecutive p.user state.toCardData e = true
      · simp [consecutive, UInt32.not_le]
      · simp [consecutive]
  | none =>
      by_cases consecutive : p.ops.isconsecutive p.user state.toCardData e = true
      · simp [consecutive, UInt32.not_le]
      · cases hasFeature p.user.featuremask otpCfFrw <;> simp [consecutive]

/-- A sync match succeeds as the second of two, or inside the event window with no
fail condition. -/
theorem syncRc_ok {config : Config} {p : Prepared} {fc : Fc} {state : State} {now : Time} {e : Nat}
    (success : syncRc config p fc state now e = .ok) :
    p.ops.isconsecutive p.user state.toCardData e = true ∨
      (fc = .none ∧ ¬ (hasFeature p.user.featuremask otpCfFrw = false ∧
        (e : Int) > config.ewindowSize.toInt32.toInt)) := by
  obtain ⟨-, turn⟩ := (syncRc_ok_iff config p fc state now e).mp success
  by_cases consecutive : p.ops.isconsecutive p.user state.toCardData e = true
  · exact Or.inl consecutive
  · rw [if_neg consecutive] at turn
    obtain ⟨none, inside⟩ := turn
    refine Or.inr ⟨none, ?_⟩
    rintro ⟨noFrw, beyond⟩
    rcases inside with frw | within
    · rw [noFrw] at frw
      cases frw
    · omega

namespace Attempt

variable {crypto : Crypto} {call : Call} {store : Store} {out : Outcome} {m : CardModule}
  {r : StateRecord} {p : Prepared} {state : State} {l : Locals}

theorem loaded_line (attempt : Attempt crypto call store out m r p state l)
    (candidate : r.rd ≠ StateField.empty 31) : state = loadedState p.state r := by
  rcases attempt.loads with exact | ⟨blank, -⟩
  · exact exact
  · rw [blank] at candidate
    exact absurd rfl candidate

theorem fields (attempt : Attempt crypto call store out m r p state l) {resolved : State}
    (resolves : Resolves state resolved) :
    resolved.rd = r.rd ∧ resolved.failcount = r.failcount ∧
      resolved.authtime = absTime r.authtime := by
  rw [← attempt.loaded]
  exact ⟨congrArg CardData.rd resolves.data, resolves.failcount, resolves.authtime⟩

theorem answers_iff (attempt : Attempt crypto call store out m r p state l) (data : CardData) :
    answersChallenge crypto call =
      asyncMatches crypto call.config call.request call.env p data := by
  simp only [answersChallenge, attempt.prepared]
  exact m.asyncMatches_data attempt.runs attempt.mask _ _

theorem async_iff (attempt : Attempt crypto call store out m r p state l) :
    l.matched = some .async ↔ answersChallenge crypto call = true := by
  rw [attempt.answers_iff state.toCardData]
  cases attempt.ending with
  | async _ _ _ isAsync => simp [isAsync]
  | wrong _ _ _ _ _ notAsync => simp [notAsync]
  | hit _ _ _ _ _ _ notAsync => simp [notAsync]

theorem failCondition_judged (attempt : Attempt crypto call store out m r p state l)
    (line : state = loadedState p.state r) {resolved : State}
    (resolves : Resolves state resolved) :
    failCondition call.config call.env.undef resolved call.env.now =
      failCondition call.config call.env.undef (judged r) call.env.now := by
  obtain ⟨-, failcount, authtime⟩ := attempt.fields resolves
  have nullstate : resolved.nullstate = (judged r).nullstate := by
    rw [resolves.nullstate, line]
    rfl
  exact failCondition_congr _ _ _ failcount authtime nullstate

theorem async_ok (attempt : Attempt crypto call store out m r p state l)
    (candidate : r.rd ≠ StateField.empty 31) (isAsync : l.matched = some .async)
    (success : l.rc = .ok) : asyncSucceeds crypto call r = true := by
  have line := attempt.loaded_line candidate
  cases attempt.ending with
  | wrong => cases isAsync
  | hit => cases isAsync
  | async resolved eResponse resolves =>
      have reply : asyncRc call.request
          (failCondition call.config call.env.undef (judged r) call.env.now) (judged r)
          call.env.now = .ok := by
        rw [← success, ← attempt.failCondition_judged line resolves]
        simp only [asyncRc, (attempt.fields resolves).2.2]
        rfl
      simp only [asyncSucceeds, Bool.and_eq_true, beq_iff_eq]
      exact ⟨attempt.async_iff.mp rfl, reply⟩

theorem isEvent (attempt : Attempt crypto call store out m r p state l)
    (timeless : m ≠ .totp ∧ m ≠ .c200) (on : syncPossible call.request p = true) :
    m.isEvent = true := by
  cases m with
  | hotp => rfl
  | cryptocard => rfl
  | totp => exact absurd rfl timeless.1
  | c200 => exact absurd rfl timeless.2
  | x99 => simp [syncPossible, CardModule.masks_x99 _ attempt.mask] at on

theorem candidate (attempt : Attempt crypto call store out m r p state l)
    (timeless : m ≠ .totp ∧ m ≠ .c200) :
    (l.state.rd = r.rd ∧ (l.matched = some .async ∨ (l.matched = none ∧ l.rc = .authErr))) ∨
      ∃ (e : Nat) (challenge : Buffer 16) (clen : Fin 17), m.isEvent = true ∧
        (e : Int) ≤ eendOf call.config p.user ∧ l.matched = some (.sync 0 e challenge clen) ∧
        l.state.rd = if l.rc = .ok then StateField.empty 31 else rdOfEwin e := by
  have rd : state.rd = r.rd := congrArg StateRecord.rd attempt.loaded
  cases attempt.ending with
  | async resolved _ resolves => exact Or.inl ⟨(attempt.fields resolves).1, Or.inl rfl⟩
  | wrong resolved data _ _ resolves _ searched =>
      refine Or.inl ⟨?_, Or.inr ⟨rfl, rfl⟩⟩
      rcases searched with ⟨rfl, -⟩ | ⟨rfl, -⟩
      · exact (m.stepped_fields state.toCardData).1.trans rd
      · exact rd
  | hit resolved e challenge _ rc resolves _ on position _ _ reply =>
      have kind := attempt.isEvent timeless on
      exact Or.inr ⟨e, challenge, _, kind, position, rfl, m.recorded_event kind _ rc e⟩

end Attempt

/-! ## The soft limit -/

/-- A candidate was saved and nobody got in since; it may be one the session
started with. -/
def CandidateSince (mode : StateMode) (username : Username) (start : StateRecord)
    (past : List Exchange) : Prop :=
  (start.rd ≠ StateField.empty 31 ∧ ∀ x ∈ past, x.out.rc ≠ .ok) ∨
    Runs.Since (fun x => ∃ e, SavesCandidate mode username e x) (fun x => x.out.rc ≠ .ok) past

theorem CandidateSince.keep {mode : StateMode} {username : Username} {start : StateRecord}
    {past : List Exchange} {x : Exchange} (since : CandidateSince mode username start past)
    (rejected : x.out.rc ≠ .ok) : CandidateSince mode username start (past ++ [x]) := by
  rcases since with ⟨atStart, all⟩ | since
  · refine Or.inl ⟨atStart, ?_⟩
    intro y member
    rcases List.mem_append.mp member with earlier | last
    · exact all y earlier
    · rw [List.mem_singleton.mp last]
      exact rejected
  · exact Or.inr (since.keep rejected)

def delay (fcount : Nat) : Nat := if fcount > 5 then 32 * 64 else 2 ^ fcount * 64

def inDelay (mode : StateMode) (username : Username) (store : Store) (call : Call) : Bool :=
  match kept mode username store with
  | none => false
  | some r => call.config.softfail ≠ 0 ∧ call.config.softfail ≤ r.failcount ∧
      (call.env.now : Nat) < (absTime r.authtime).toNat +
        delay (r.failcount.toNat - call.config.softfail.toNat)

/-- The passcode is the one of a position of the window, computed without a challenge. -/
def presentsTime (crypto : Crypto) (call : Call) : Bool :=
  match prepareCall crypto call with
  | .error _ => false
  | .ok p =>
      (List.range (eendOf call.config p.user + 1).toNat).any fun e =>
        (p.ops.response p.user p.state.toCardData (Buffer.zero 16) 0 (call.env.clock 0 e)).any
          fun response => compare crypto call.request (expectedPasscode call.config p.user response)

/-- A call that cannot break the tie between `rd` and the last success: a time-based card
gets no right passcode during the delay or while there is a candidate, no call succeeds by
async response while there is one, and the delay is not computed by a negative shift. -/
structure Call.Guarded (crypto : Crypto) (call : Call) (username : Username) (mode : StateMode)
    (store : Store) : Prop where
  plain : call.Plain username mode
  timely : ∀ user, call.env.get = .found user →
    cardOf user.card = some .totp ∨ cardOf user.card = some .c200 →
    presentsTime crypto call = true →
    inDelay mode username store call = false ∧
      ∀ r, kept mode username store = some r → r.rd = StateField.empty 31
  noAsync : ∀ r, kept mode username store = some r → r.rd ≠ StateField.empty 31 →
    asyncSucceeds crypto call r = false
  shift : ∀ r, kept mode username store = some r → call.config.softfail ≠ 0 →
    r.failcount.toNat - call.config.softfail.toNat < 2 ^ 31

theorem Attempt.timeless {crypto : Crypto} {call : Call} {store : Store} {out : Outcome}
    {m : CardModule} {r : StateRecord} {p : Prepared} {state : State} {l : Locals}
    (attempt : Attempt crypto call store out m r p state l)
    (counted : ∀ user, call.env.get = .found user →
      cardOf user.card ≠ some .totp ∧ cardOf user.card ≠ some .c200) : m ≠ .totp ∧ m ≠ .c200 := by
  obtain ⟨user, found, card, -⟩ := attempt.card
  have := counted user found
  rw [card] at this
  simpa using this

/-- A time-based card keeps `rd`, and lets in on a right passcode only. -/
theorem Attempt.time_ending {crypto : Crypto} {call : Call} {store : Store} {out : Outcome}
    {m : CardModule} {r : StateRecord} {p : Prepared} {state : State} {l : Locals}
    (attempt : Attempt crypto call store out m r p state l) (kind : m = .totp ∨ m = .c200) :
    l.state.rd = r.rd ∧ (l.rc = .ok → presentsTime crypto call = true) := by
  have masks := m.masks_event (Or.inr kind) _ attempt.mask
  have rd : state.rd = r.rd := congrArg StateRecord.rd attempt.loaded
  have stays : m.stepped state.toCardData = state.toCardData := by
    rcases kind with rfl | rfl <;> rfl
  cases attempt.ending with
  | async _ _ _ isAsync => simp [asyncMatches, asyncPossible, masks.1] at isAsync
  | wrong resolved data _ _ resolves _ searched =>
      refine ⟨?_, fun success => by cases success⟩
      rcases searched with ⟨rfl, -⟩ | ⟨rfl, -⟩
      · exact (m.stepped_fields state.toCardData).1.trans rd
      · exact rd
  | hit resolved e challenge response rc resolves _ _ position answered equal =>
      refine ⟨?_, fun _ => ?_⟩
      · have same : m.recorded (m.stepped state.toCardData) rc e = m.stepped state.toCardData := by
          rcases kind with rfl | rfl <;> rfl
        rw [same, stays, rd]
      · have scratch : state.scratch1 = p.scratch1 := by
          rcases attempt.loads with rfl | ⟨-, rfl⟩ <;> rfl
        have blind : p.ops.response p.user p.state.toCardData (Buffer.zero 16) 0
            (call.env.clock 0 e) = some response := by
          rw [← answered, attempt.runs, stays]
          rcases kind with rfl | rfl
          all_goals
            simp only [CardModule.ops, totpCardops, c200Cardops, timeResponse, scratch]
            rfl
        simp only [presentsTime, attempt.prepared, List.any_eq_true, List.mem_range]
        exact ⟨e, by omega, by rw [blind]; exact equal⟩

theorem Attempt.timely {crypto : Crypto} {call : Call} {store : Store} {out : Outcome}
    {m : CardModule} {r : StateRecord} {p : Prepared} {state : State} {l : Locals}
    {username : Username} {mode : StateMode}
    (attempt : Attempt crypto call store out m r p state l) (kind : m = .totp ∨ m = .c200)
    (guarded : call.Guarded crypto username mode store) (success : l.rc = .ok) :
    inDelay mode username store call = false ∧ r.rd = StateField.empty 31 := by
  obtain ⟨user, found, card, -⟩ := attempt.card
  have timed : cardOf user.card = some .totp ∨ cardOf user.card = some .c200 := by
    rw [card]
    simpa using kind
  obtain ⟨outside, none⟩ := guarded.timely user found timed ((attempt.time_ending kind).2 success)
  exact ⟨outside, none r (attempt.stored_plain guarded.plain)⟩

theorem candidateSince_step (crypto : Crypto) {username : Username} {mode : StateMode}
    {start : StateRecord} {past : List Exchange} {store : Store} {call : Call}
    (since : ∀ r, kept mode username store = some r → r.rd ≠ StateField.empty 31 →
      CandidateSince mode username start past)
    (guarded : call.Guarded crypto username mode store) :
    ∀ r, kept mode username (serve crypto store call).2 = some r → r.rd ≠ StateField.empty 31 →
      CandidateSince mode username start
        (past ++ [Runs.transition (serve crypto) store call]) := by
  intro r' kept' candidate
  rcases serve_plain crypto store guarded.plain with
    unchanged | ⟨m, r, p, state, l, attempt, written⟩
  · rw [unchanged.same] at kept'
    exact (since r' kept' candidate).keep unchanged.notOk
  · have stored := attempt.stored_plain guarded.plain
    obtain rfl : (authDone call.env.now l).record = r' := Option.some.inj (written.symm.trans kept')
    rw [authDone_rd] at candidate
    by_cases kind : m = .totp ∨ m = .c200
    · rw [(attempt.time_ending kind).1] at candidate
      refine (since r stored candidate).keep ?_
      intro success
      exact candidate (attempt.timely kind guarded (attempt.ok_rc success)).2
    · rcases attempt.candidate (not_or.mp kind) with
        ⟨unchanged, how⟩ | ⟨e, challenge, clen, -, -, matched, saved⟩
      · rw [unchanged] at candidate
        refine (since r stored candidate).keep ?_
        intro success
        have success := attempt.ok_rc success
        rcases how with isAsync | ⟨-, wrong⟩
        · have := attempt.async_ok candidate isAsync success
          rw [guarded.noAsync r stored candidate] at this
          cases this
        · rw [success] at wrong
          cases wrong
      · have rejected : l.rc ≠ .ok := by
          intro success
          rw [if_pos success] at saved
          exact candidate saved
        rw [if_neg rejected] at saved
        refine Or.inr (Runs.Since.here ⟨e, fun success => rejected (attempt.ok_rc success),
          ⟨challenge, clen, attempt.matched.trans matched⟩, _, kept', ?_⟩)
        rw [authDone_rd, saved]

theorem delay_le (fcount : Nat) : delay fcount ≤ 2048 := by
  unfold delay
  split
  · decide
  · have small : fcount ≤ 5 := by omega
    calc 2 ^ fcount * 64 ≤ 2 ^ 5 * 64 :=
          Nat.mul_le_mul_right 64 (Nat.pow_le_pow_right (by omega) small)
      _ = 2048 := by norm_num

theorem softfailDelay_toNat (undef : Undef) {failcount softfail : UInt32}
    (atLeast : softfail ≤ failcount) (small : failcount.toNat - softfail.toNat < 2 ^ 31) :
    (softfailDelay undef failcount softfail).toNat = delay (failcount.toNat - softfail.toNat) := by
  have value : (failcount - softfail).toNat = failcount.toNat - softfail.toNat :=
    UInt32.toNat_sub_of_le _ _ atLeast
  rw [← value] at small ⊢
  unfold softfailDelay delay
  generalize failcount - softfail = fcount at small ⊢
  have notNegative : ¬ fcount ≥ 0x80000000 := by
    rw [ge_iff_le, UInt32.le_iff_toNat_le]
    simp only [UInt32.reduceToNat]
    omega
  simp only [if_neg notNegative]
  by_cases many : fcount.toNat > 5
  · have many' : fcount > 5 := by
      rw [gt_iff_lt, UInt32.lt_iff_toNat_lt]
      simpa using many
    rw [if_pos many', if_pos many]
    rfl
  · have few : ¬ fcount > 5 := by
      rw [gt_iff_lt, UInt32.lt_iff_toNat_lt]
      simpa using many
    rw [if_neg few, if_neg many]
    have table : ∀ n : Fin 6, (((1 : UInt32) <<< UInt32.ofNat n.val) <<< 6).toNat =
        2 ^ n.val * 64 := by decide
    have entry := table ⟨fcount.toNat, by omega⟩
    rwa [UInt32.ofNat_toNat] at entry

theorem failCondition_delayed {config : Config} (undef : Undef) {state : State} (now : Nat)
    (enabled : config.softfail ≠ 0) (atLeast : config.softfail ≤ state.failcount)
    (small : state.failcount.toNat - config.softfail.toNat < 2 ^ 31)
    (positive : state.nullstate = true ∨ state.authtime.toNat < 2 ^ 31)
    (early : now < state.authtime.toNat + delay (state.failcount.toNat - config.softfail.toNat)) :
    failCondition config undef state now ≠ .none := by
  unfold failCondition
  by_cases hard : config.hardfail ≠ 0 ∧ state.failcount ≥ config.hardfail
  · rw [if_pos hard]
    decide
  · rw [if_neg hard]
    by_cases null : state.nullstate = true
    · rw [if_pos ⟨enabled, null⟩]
      decide
    · have below := positive.resolve_left null
      have bound := delay_le (state.failcount.toNat - config.softfail.toNat)
      rw [if_neg (fun both => null both.2), if_pos ⟨enabled, atLeast⟩]
      have before : Time.toU32 now <
          state.authtime + softfailDelay undef state.failcount config.softfail := by
        rw [UInt32.lt_iff_toNat_lt, UInt32.toNat_add, softfailDelay_toNat undef atLeast small,
          Time.toU32, UInt32.toNat_ofNat']
        omega
      rw [if_pos before]
      decide

theorem Attempt.delayed_candidate {crypto : Crypto} {call : Call} {store : Store} {out : Outcome}
    {m : CardModule} {r : StateRecord} {p : Prepared} {state : State} {l : Locals}
    (attempt : Attempt crypto call store out m r p state l) (timeless : m ≠ .totp ∧ m ≠ .c200)
    (delayed : ∀ resolved, Resolves state resolved →
      failCondition call.config call.env.undef resolved call.env.now ≠ .none)
    (success : l.rc = .ok) : r.rd ≠ StateField.empty 31 := by
  have rd : state.rd = r.rd := congrArg StateRecord.rd attempt.loaded
  cases attempt.ending with
  | async resolved _ resolves => exact absurd ((asyncRc_ok_iff ..).mp success).1 (delayed resolved resolves)
  | wrong => cases success
  | hit resolved e _ _ rc resolves _ on _ _ _ reply =>
      rw [reply] at success
      rcases syncRc_ok success with consecutive | ⟨none, -⟩
      · rw [attempt.runs, m.isconsecutive_event crypto _ (attempt.isEvent timeless on)]
          at consecutive
        have candidate := eventIsconsecutive_rd consecutive
        rwa [show (m.stepped state.toCardData).rd = r.rd from
          (m.stepped_fields state.toCardData).1.trans rd] at candidate
      · exact absurd none (delayed resolved resolves)

theorem Attempt.delayed {crypto : Crypto} {call : Call} {store : Store} {out : Outcome}
    {m : CardModule} {r : StateRecord} {p : Prepared} {state : State} {l : Locals}
    (attempt : Attempt crypto call store out m r p state l) {username : Username} {mode : StateMode}
    (plain : call.Plain username mode) (during : inDelay mode username store call = true)
    (small : call.config.softfail ≠ 0 → r.failcount.toNat - call.config.softfail.toNat < 2 ^ 31)
    (resolved : State) (resolves : Resolves state resolved) :
    failCondition call.config call.env.undef resolved call.env.now ≠ .none := by
  simp only [inDelay, attempt.stored_plain plain, decide_eq_true_eq] at during
  obtain ⟨enabled, atLeast, early⟩ := during
  obtain ⟨-, failcount, authtime⟩ := attempt.fields resolves
  have positive : resolved.nullstate = true ∨ resolved.authtime.toNat < 2 ^ 31 := by
    rw [resolves.nullstate, resolves.authtime, absTime]
    by_cases negative : state.authtime ≥ 0x80000000
    · exact Or.inl (by simp [negative])
    · rw [if_neg negative]
      rw [ge_iff_le, UInt32.le_iff_toNat_le] at negative
      simp only [UInt32.reduceToNat] at negative
      exact Or.inr (by omega)
  apply failCondition_delayed call.env.undef call.env.now enabled
  · rw [failcount]
    exact atLeast
  · rw [failcount]
    exact small enabled
  · exact positive
  · rw [failcount, authtime]
    exact early

/-- In a session of guarded calls nobody gets in during the delay on one passcode
alone: a candidate was saved since the last success. -/
theorem softfail_delay_enforced (crypto : Crypto) (username : Username) (mode : StateMode)
    (store : Store) (start : StateRecord) (stored : kept mode username store = some start)
    (calls : List Call)
    (guarded : ∀ x ∈ session crypto store calls, x.call.Guarded crypto username mode x.pre) :
    ∀ before x after, session crypto store calls = before ++ x :: after →
      inDelay mode username x.pre x.call = true → x.out.rc = .ok →
      CandidateSince mode username start before := by
  intro before x after split during success
  have invariant := (Runs.history_invariant (serve crypto)
    (fun past s => ∀ r, kept mode username s = some r → r.rd ≠ StateField.empty 31 →
      CandidateSince mode username start past)
    (fun s call => call.Guarded crypto username mode s)
    (fun past s call since ok => candidateSince_step crypto since ok) calls [] store
    (fun r kept' candidate => by
      cases Option.some.inj (stored.symm.trans kept')
      exact Or.inl ⟨candidate, by simp⟩)
    guarded).2 before x after split
  have member : x ∈ session crypto store calls := by
    rw [split]
    simp
  obtain ⟨-, out, -⟩ := session_step member
  have ok := guarded x member
  rcases serve_cases crypto x.pre x.call ok.plain.noPassword with
    untouched | ⟨m, r, p, state, l, attempt⟩
  · rw [out] at success
    exact absurd success untouched.not_ok
  · have here := attempt.stored_plain ok.plain
    rw [out] at success
    by_cases kind : m = .totp ∨ m = .c200
    · have outside := (attempt.timely kind ok (attempt.ok_rc success)).1
      rw [during] at outside
      cases outside
    · exact invariant r here (attempt.delayed_candidate (not_or.mp kind)
        (attempt.delayed ok.plain during (ok.shift r here)) (attempt.ok_rc success))

theorem asyncSucceeds_off {call : Call} (off : call.request.allowAsync = false) (crypto : Crypto)
    (r : StateRecord) : asyncSucceeds crypto call r = false := by
  unfold asyncSucceeds answersChallenge
  split
  · rfl
  · simp [asyncMatches, asyncPossible, off]

/-- Two consecutive HOTP passcodes during the delay. -/
def resyncCalls : List Call :=
  [papCall (hmacUser "hotp-d6") "287082" 1001, papCall (hmacUser "hotp-d6") "359152" 1002]

theorem resyncCalls_guarded :
    ∀ x ∈ session sampleCrypto (stateLine "5:bob:0000000000000000:::5:3e8:0:") resyncCalls,
      x.call.Guarded sampleCrypto bob .localMode x.pre := by
  intro x member
  obtain ⟨inCalls, -, -⟩ := session_step member
  have counts : ∀ x ∈ session sampleCrypto (stateLine "5:bob:0000000000000000:::5:3e8:0:")
      resyncCalls, (kept .localMode bob x.pre).all (·.failcount < 0x80000000) = true := by
    decide +kernel
  have small := counts x member
  simp only [resyncCalls, List.mem_cons, List.not_mem_nil, or_false] at inCalls
  have common : x.call.Plain bob .localMode ∧ x.call.request.allowAsync = false ∧
      x.call.env.get = .found (hmacUser "hotp-d6") := by
    rcases inCalls with same | same <;> rw [same] <;>
      exact ⟨papCall_plain _ _ _ rfl, rfl, rfl⟩
  obtain ⟨plain, off, found⟩ := common
  refine ⟨plain, ?_, fun r _ _ => asyncSucceeds_off off _ r, ?_⟩
  · intro user isUser timed
    cases found.symm.trans isUser
    exact absurd timed (by decide +kernel)
  · intro r stored _
    rw [stored, Option.all_some, decide_eq_true_eq, UInt32.lt_iff_toNat_lt] at small
    simp only [UInt32.reduceToNat] at small
    omega

theorem softfail_delay_two_passcodes :
    (session sampleCrypto (stateLine "5:bob:0000000000000000:::5:3e8:0:") resyncCalls).map
        (·.out.rc) = [.nextpasscode, .ok] ∧
      CandidateSince .localMode bob
        ⟨List.replicate 8 0, by decide, StateField.empty 63, StateField.empty 31, 5, 1000, 0⟩
        [Runs.transition (serve sampleCrypto) (stateLine "5:bob:0000000000000000:::5:3e8:0:")
          (papCall (hmacUser "hotp-d6") "287082" 1001)] :=
  ⟨by decide +kernel,
    softfail_delay_enforced sampleCrypto bob .localMode
      (stateLine "5:bob:0000000000000000:::5:3e8:0:") _ (by decide +kernel) resyncCalls
      resyncCalls_guarded [_] _ [] rfl (by decide +kernel) (by decide +kernel)⟩

/-- A time-based card gets in during the delay on its first passcode. -/
theorem softfail_delay_ignored :
    (papCall (hmacUser "totp-d6") "287082" 45).Plain bob .localMode ∧
      kept .localMode bob (stateLine "5:bob::::5:1f:0:") =
        some ⟨[], by decide, StateField.empty 63, StateField.empty 31, 5, 31, 0⟩ ∧
      inDelay .localMode bob (stateLine "5:bob::::5:1f:0:")
        (papCall (hmacUser "totp-d6") "287082" 45) = true ∧
      (session sampleCrypto (stateLine "5:bob::::5:1f:0:")
        [papCall (hmacUser "totp-d6") "287082" 45]).map (·.out.rc) = [.ok] :=
  ⟨papCall_plain _ _ _ rfl, by decide +kernel, by decide +kernel, by decide +kernel⟩

/-! ## Candidates after a success -/

def Call.Event (call : Call) : Prop :=
  ∀ user, call.env.get = .found user →
    cardOf user.card = some .hotp ∨ cardOf user.card = some .cryptocard

theorem Call.Event.timeless {call : Call} (event : call.Event) (user : User)
    (found : call.env.get = .found user) :
    cardOf user.card ≠ some .totp ∧ cardOf user.card ≠ some .c200 := by
  rcases event user found with card | card <;> rw [card] <;> decide

/-- A successful call leaves no candidate exactly when there was none or when it
did not succeed by async response. -/
theorem candidate_cleared_iff (crypto : Crypto) (username : Username) (mode : StateMode)
    (store : Store) (r : StateRecord) (stored : kept mode username store = some r) (call : Call)
    (plain : call.Plain username mode) (event : call.Event)
    (success : (serve crypto store call).1.rc = .ok) :
    (∃ r', kept mode username (serve crypto store call).2 = some r' ∧
        r'.rd = StateField.empty 31) ↔
      (r.rd = StateField.empty 31 ∨ answersChallenge crypto call = false) := by
  rcases serve_cases crypto store call plain.noPassword with
    untouched | ⟨m, r', p, state, l, attempt⟩
  · exact absurd success untouched.not_ok
  · obtain rfl := attempt.same_record plain stored
    have isOk := attempt.ok_rc success
    have written : kept mode username (serve crypto store call).2 =
        some (authDone call.env.now l).record :=
      (attempt.saved plain (by rw [success]; decide)).2
    have cleared : (∃ r', kept mode username (serve crypto store call).2 = some r' ∧
        r'.rd = StateField.empty 31) ↔ l.state.rd = StateField.empty 31 := by
      rw [written, ← authDone_rd call.env.now l]
      exact ⟨fun ⟨_, same, empty⟩ => by rwa [Option.some.inj same], fun empty => ⟨_, rfl, empty⟩⟩
    have async := attempt.async_iff
    rw [cleared]
    rcases attempt.candidate (attempt.timeless event.timeless) with
      ⟨unchanged, isAsync | ⟨-, wrong⟩⟩ | ⟨e, challenge, clen, -, -, matched, saved⟩
    · rw [unchanged, async.mp isAsync]
      simp
    · rw [isOk] at wrong
      cases wrong
    · have notAsync : answersChallenge crypto call = false := by
        rw [matched] at async
        simpa using async
      rw [saved, if_pos isOk, notAsync]
      simp

/-- A candidate from position 6, then the answer to an async challenge. -/
def candidateThenAsync : List Call :=
  [papCall (desUser "cryptocard-h8-rs") "6994ca6e" 1000,
   asyncCall (desUser "cryptocard-h8-rs") "12345678" "f5f078bf" 1001]

theorem candidate_cleared_hotp :
    (∃ r', kept .localMode bob (serve sampleCrypto
        (stateLine "5:bob:0000000000000000::6:1:3e8:0:")
        (papCall (hmacUser "hotp-d6") "399871" 1001)).2 = some r' ∧
        r'.rd = StateField.empty 31) ↔
      (rdOfEwin 6 = StateField.empty 31 ∨
        answersChallenge sampleCrypto (papCall (hmacUser "hotp-d6") "399871" 1001) = false) :=
  candidate_cleared_iff sampleCrypto bob .localMode
    (stateLine "5:bob:0000000000000000::6:1:3e8:0:")
    ⟨List.replicate 8 0, by decide, StateField.empty 63, rdOfEwin 6, 1, 1000, 0⟩
    (by decide +kernel) (papCall (hmacUser "hotp-d6") "399871" 1001) (papCall_plain _ _ _ rfl)
    (fun _ found => by cases found; decide +kernel) (by decide +kernel)

/-- The candidate is still there after the async success. -/
theorem candidate_survives_async :
    (∀ call ∈ candidateThenAsync, call.Plain bob .localMode ∧ call.Event) ∧
      (session sampleCrypto (stateLine "5:bob:3132333435363738:::0:0:0:")
        candidateThenAsync).map (fun x => (x.out.rc, (kept .localMode bob x.post).map
          StateRecord.rd)) = [(.nextpasscode, some (rdOfEwin 6)), (.ok, some (rdOfEwin 6))] ∧
      rdOfEwin 6 ≠ StateField.empty 31 := by
  refine ⟨?_, by decide +kernel, rdOfEwin_ne_empty 6⟩
  intro call member
  simp only [candidateThenAsync, List.mem_cons, List.not_mem_nil, or_false] at member
  rcases member with rfl | rfl
  · exact ⟨papCall_plain _ _ _ rfl, fun _ found => by cases found; decide +kernel⟩
  · exact ⟨asyncCall_plain _ _ _ _ rfl, fun _ found => by cases found; decide +kernel⟩

/-! ## Two adjacent passcodes -/

/-- While a candidate is saved, the passcode is one of the window and not the
answer to an async challenge. -/
def keepsCandidate (crypto : Crypto) (call : Call) (r : StateRecord) : Bool :=
  !lengthRejected call && !answersChallenge crypto call &&
    match prepareCall crypto call with
    | .error _ => true
    | .ok p =>
        inWindow crypto call.config call.request call.env p (loadedState p.state r).toCardData

structure Call.Steady (crypto : Crypto) (call : Call) (username : Username) (mode : StateMode)
    (store : Store) : Prop where
  plain : call.Plain username mode
  event : call.Event
  correct : ∀ r, kept mode username store = some r → r.rd ≠ StateField.empty 31 →
    keepsCandidate crypto call r = true

def SavedOver (mode : StateMode) (username : Username) (challenge : List Byte) (e : Nat)
    (x : Exchange) : Prop :=
  SavesCandidate mode username e x ∧
    ∃ r, kept mode username x.pre = some r ∧ r.challenge = challenge

/-- The candidate in `r` comes from the last exchange that judged a passcode. -/
def FreshCandidate (mode : StateMode) (username : Username) (past : List Exchange)
    (r : StateRecord) : Prop :=
  ∃ e, e < 2 ^ 31 ∧ r.rd = rdOfEwin e ∧
    Runs.Since (SavedOver mode username r.challenge e)
      (fun x => x.post = x.pre ∧ x.out.rc.noVerdict = true) past

theorem eendOf_lt (config : Config) (user : User) : eendOf config user < 2 ^ 31 := by
  have bound : ∀ n : UInt32, n.toInt32.toInt < 2 ^ 31 := fun n => n.toInt32.toInt_lt
  unfold eendOf
  split
  · exact bound _
  · split
    · split
      · exact bound _
      · split <;> exact bound _
    · norm_num

namespace Attempt

variable {crypto : Crypto} {call : Call} {store : Store} {out : Outcome} {m : CardModule}
  {r : StateRecord} {p : Prepared} {state : State} {l : Locals}

theorem keeps (attempt : Attempt crypto call store out m r p state l) (event : call.Event)
    (candidate : r.rd ≠ StateField.empty 31) (correct : keepsCandidate crypto call r = true) :
    ∃ (e : Nat) (challenge : Buffer 16) (clen : Fin 17), (e : Int) ≤ eendOf call.config p.user ∧
      l.matched = some (.sync 0 e challenge clen) ∧
      l.state.rd = if l.rc = .ok then StateField.empty 31 else rdOfEwin e := by
  simp only [keepsCandidate, attempt.prepared, Bool.and_eq_true, Bool.not_eq_true'] at correct
  obtain ⟨⟨-, notAsync⟩, inside⟩ := correct
  rcases attempt.candidate (attempt.timeless event.timeless) with
    ⟨-, isAsync | ⟨none, -⟩⟩ | ⟨e, challenge, clen, -, position, matched, saved⟩
  · rw [attempt.async_iff.mp isAsync] at notAsync
    cases notAsync
  · obtain ⟨resolved, found⟩ := authenticate_resolved crypto call.config call.request call.env p
      attempt.result
    have same : resolved.toCardData = (loadedState p.state r).toCardData :=
      (attempt.resolves found).data.trans (congrArg State.toCardData (attempt.loaded_line candidate))
    rw [← same] at inside
    exact absurd none (authenticate_finds crypto call.config call.request call.env p found inside
      attempt.result)
  · exact ⟨e, challenge, clen, position, matched, saved⟩

end Attempt

theorem freshCandidate_step (crypto : Crypto) {username : Username} {mode : StateMode}
    {past : List Exchange} {store : Store} {call : Call}
    (inv : ∀ r, kept mode username store = some r → r.challenge.length = 8 ∧
      (r.rd ≠ StateField.empty 31 → FreshCandidate mode username past r))
    (steady : call.Steady crypto username mode store) :
    ∀ r, kept mode username (serve crypto store call).2 = some r → r.challenge.length = 8 ∧
      (r.rd ≠ StateField.empty 31 → FreshCandidate mode username
        (past ++ [Runs.transition (serve crypto) store call]) r) := by
  intro r' kept'
  rcases serve_plain crypto store steady.plain with
    unchanged | ⟨m, r, p, state, l, attempt, written⟩
  · rw [unchanged.same] at kept'
    obtain ⟨eight, fresh⟩ := inv r' kept'
    refine ⟨eight, ?_⟩
    intro candidate
    obtain ⟨e, bound, rd, since⟩ := fresh candidate
    refine ⟨e, bound, rd, since.keep ⟨unchanged.same, unchanged.noVerdict ?_⟩⟩
    have correct := steady.correct r' kept' candidate
    simp only [keepsCandidate, Bool.and_eq_true, Bool.not_eq_true'] at correct
    exact correct.1.1
  · have stored := attempt.stored_plain steady.plain
    obtain ⟨eight, fresh⟩ := inv r stored
    obtain rfl : (authDone call.env.now l).record = r' := Option.some.inj (written.symm.trans kept')
    obtain ⟨stillEight, unchanged⟩ := attempt.challenge_eight eight
    refine ⟨stillEight, ?_⟩
    intro candidate
    rw [authDone_rd] at candidate
    -- a candidate that was there before has been replaced, so it is a new one
    obtain ⟨e, challenge, clen, position, matched, saved⟩ :
        ∃ (e : Nat) (challenge : Buffer 16) (clen : Fin 17),
          (e : Int) ≤ eendOf call.config p.user ∧ l.matched = some (.sync 0 e challenge clen) ∧
          l.state.rd = if l.rc = .ok then StateField.empty 31 else rdOfEwin e := by
      rcases attempt.candidate (attempt.timeless steady.event.timeless) with
        ⟨same, -⟩ | ⟨e, challenge, clen, -, position, matched, saved⟩
      · rw [same] at candidate
        exact attempt.keeps steady.event candidate (steady.correct r stored candidate)
      · exact ⟨e, challenge, clen, position, matched, saved⟩
    have rejected : l.rc ≠ .ok := by
      intro success
      rw [if_pos success] at saved
      exact candidate saved
    rw [if_neg rejected] at saved
    have bound := eendOf_lt call.config p.user
    have rd : (authDone call.env.now l).record.rd = rdOfEwin e := by rw [authDone_rd, saved]
    refine ⟨e, by omega, rd, Runs.Since.here ⟨⟨?_, ?_, _, kept', rd⟩, r, stored, ?_⟩⟩
    · exact fun success => rejected (attempt.ok_rc success)
    · exact ⟨challenge, clen, attempt.matched.trans matched⟩
    · exact (unchanged rejected).symm

def softCondition (mode : StateMode) (username : Username) (store : Store) (call : Call) : Bool :=
  match kept mode username store with
  | none => false
  | some r => failCondition call.config call.env.undef (judged r) call.env.now = .soft

theorem Attempt.consecutive {crypto : Crypto} {call : Call} {store : Store} {out : Outcome}
    {m : CardModule} {r : StateRecord} {p : Prepared} {state : State} {l : Locals}
    (attempt : Attempt crypto call store out m r p state l) (event : call.Event)
    (line : state = loadedState p.state r) {t e : Nat} {challenge : Buffer 16}
    {clen : Fin 17} (success : l.rc = .ok) (isSync : l.matched = some (.sync t e challenge clen))
    (outside : (e : Int) > call.config.ewindowSize.toInt32.toInt ∨
      failCondition call.config call.env.undef (judged r) call.env.now = .soft) :
    e < 2 ^ 31 ∧ ∃ data : CardData, data.rd = r.rd ∧ eventIsconsecutive p.user data e = true := by
  have rd : state.rd = r.rd := congrArg StateRecord.rd attempt.loaded
  cases attempt.ending with
  | async => cases isSync
  | wrong => cases isSync
  | hit resolved e' _ _ rc resolves _ on position _ _ reply =>
      cases isSync
      have bound := eendOf_lt call.config p.user
      refine ⟨by omega, m.stepped state.toCardData,
        (m.stepped_fields state.toCardData).1.trans rd, ?_⟩
      rw [reply] at success
      rcases syncRc_ok success with consecutive | ⟨none, inside⟩
      · rwa [attempt.runs, m.isconsecutive_event crypto _
          (attempt.isEvent (attempt.timeless event.timeless) on)] at consecutive
      · rcases outside with beyond | soft
        · exact absurd ⟨m.masks_noFrw _ attempt.mask, beyond⟩ inside
        · rw [attempt.failCondition_judged line resolves, soft] at none
          cases none

theorem rdOfEwin_consecutive {user : User} {data : CardData} {e e' : Nat} (bound : e < 2 ^ 31)
    (bound' : e' < 2 ^ 31) (rd : data.rd = rdOfEwin e')
    (consecutive : eventIsconsecutive user data e = true) : e = e' + 1 := by
  have nonempty : (rdOfEwin e').bytes ≠ [] := printHex_ne_nil _
  simp only [eventIsconsecutive, rd, if_neg nonempty] at consecutive
  rw [show (rdOfEwin e').bytes = printHex (UInt32.ofNat e') from rfl, scanHex_printHex] at consecutive
  have same := congrArg UInt32.toNat (of_decide_eq_true consecutive)
  rw [UInt32.toNat_add, UInt32.toNat_ofNat', UInt32.toNat_ofNat'] at same
  simp only [UInt32.reduceToNat] at same
  omega

/-- In a session of steady calls a success beyond the event window, or in the soft
condition, follows directly on a match one position earlier over the same stored
challenge. -/
theorem resync_needs_adjacent (crypto : Crypto) (username : Username) (mode : StateMode)
    (store : Store) (start : StateRecord) (stored : kept mode username store = some start)
    (eight : start.challenge.length = 8) (none : start.rd = StateField.empty 31)
    (calls : List Call)
    (steady : ∀ x ∈ session crypto store calls, x.call.Steady crypto username mode x.pre) :
    ∀ before x after t (e : Nat) challenge clen,
      session crypto store calls = before ++ x :: after → x.out.rc = .ok →
      x.out.matched = some (.sync t e challenge clen) →
      ((e : Int) > x.call.config.ewindowSize.toInt32.toInt ∨
        softCondition mode username x.pre x.call = true) →
      ∃ (e' : Nat) (r : StateRecord), e = e' + 1 ∧ kept mode username x.pre = some r ∧
        Runs.Since (SavedOver mode username r.challenge e')
          (fun y => y.post = y.pre ∧ y.out.rc.noVerdict = true) before := by
  intro before x after t e challenge clen split success isSync outside
  have invariant := (Runs.history_invariant (serve crypto)
    (fun past s => ∀ r, kept mode username s = some r → r.challenge.length = 8 ∧
      (r.rd ≠ StateField.empty 31 → FreshCandidate mode username past r))
    (fun s call => call.Steady crypto username mode s)
    (fun past s call inv ok => freshCandidate_step crypto inv ok) calls [] store
    (fun r kept' => by
      cases Option.some.inj (stored.symm.trans kept')
      exact ⟨eight, fun candidate => absurd none candidate⟩)
    steady).2 before x after split
  have member : x ∈ session crypto store calls := by
    rw [split]
    simp
  obtain ⟨-, out, -⟩ := session_step member
  have ok := steady x member
  rw [out] at success isSync
  rcases serve_cases crypto x.pre x.call ok.plain.noPassword with
    untouched | ⟨m, r, p, state, l, attempt⟩
  · exact absurd success untouched.not_ok
  · have here := attempt.stored_plain ok.plain
    obtain ⟨eightHere, fresh⟩ := invariant r here
    have line : state = loadedState p.state r := by
      rcases attempt.loads with line | ⟨blank, -⟩
      · exact line
      · rw [blank] at eightHere
        cases eightHere
    simp only [softCondition, here, decide_eq_true_eq] at outside
    obtain ⟨bound, data, rd, consecutive⟩ := attempt.consecutive ok.event line
      (attempt.ok_rc success) (attempt.matched.symm.trans isSync) outside
    obtain ⟨e', bound', saved, since⟩ := fresh (rd ▸ eventIsconsecutive_rd consecutive)
    exact ⟨e', r, rdOfEwin_consecutive bound bound' (rd.trans saved) consecutive, here, since⟩

def Match.position : Match → Option Nat
  | .async => none
  | .sync _ e _ _ => some e

/-- Positions 6 and 7 of the window, directly after each other. -/
def adjacentCalls : List Call :=
  [papCall (hmacUser "hotp-d6") "162583" 1000, papCall (hmacUser "hotp-d6") "399871" 1001]

theorem adjacentCalls_steady :
    ∀ x ∈ session sampleCrypto (stateLine "5:bob:0000000000000000:::0:0:0:") adjacentCalls,
      x.call.Steady sampleCrypto bob .localMode x.pre := by
  intro x member
  obtain ⟨inCalls, -, -⟩ := session_step member
  have keeps : ∀ x ∈ session sampleCrypto (stateLine "5:bob:0000000000000000:::0:0:0:")
      adjacentCalls, (kept .localMode bob x.pre).all (fun r =>
        r.rd = StateField.empty 31 ∨ keepsCandidate sampleCrypto x.call r) = true := by
    decide +kernel
  have correct := keeps x member
  simp only [adjacentCalls, List.mem_cons, List.not_mem_nil, or_false] at inCalls
  have common : x.call.Plain bob .localMode ∧ x.call.Event := by
    rcases inCalls with same | same <;> rw [same] <;>
      exact ⟨papCall_plain _ _ _ rfl, fun _ found => by cases found; decide +kernel⟩
  refine ⟨common.1, common.2, ?_⟩
  intro r stored candidate
  rw [stored, Option.all_some, decide_eq_true_eq] at correct
  exact correct.resolve_left candidate

theorem resync_adjacent_hotp :
    (session sampleCrypto (stateLine "5:bob:0000000000000000:::0:0:0:") adjacentCalls).map
        (fun x => (x.out.rc, x.out.matched.bind Match.position)) =
          [(.nextpasscode, some 6), (.ok, some 7)] ∧
      ∃ (e' : Nat) (r : StateRecord), 7 = e' + 1 ∧
        kept .localMode bob (serve sampleCrypto (stateLine "5:bob:0000000000000000:::0:0:0:")
          (papCall (hmacUser "hotp-d6") "162583" 1000)).2 = some r ∧
        Runs.Since (SavedOver .localMode bob r.challenge e')
          (fun y => y.post = y.pre ∧ y.out.rc.noVerdict = true)
          [Runs.transition (serve sampleCrypto) (stateLine "5:bob:0000000000000000:::0:0:0:")
            (papCall (hmacUser "hotp-d6") "162583" 1000)] :=
  ⟨by decide +kernel,
    resync_needs_adjacent sampleCrypto bob .localMode
      (stateLine "5:bob:0000000000000000:::0:0:0:")
      ⟨List.replicate 8 0, by decide, StateField.empty 63, StateField.empty 31, 0, 0, 0⟩
      (by decide +kernel) rfl rfl adjacentCalls adjacentCalls_steady [_] _ [] 0 7
      ((Buffer.zero 16).copy [0, 0, 0, 0, 0, 0, 0, 8]) 8 rfl (by decide +kernel) (by decide +kernel)
      (Or.inl (by decide +kernel))⟩

/-- A wrong passcode between the two does not invalidate the candidate. -/
theorem resync_over_wrong_passcode :
    (∀ call ∈ [papCall (hmacUser "hotp-d6") "162583" 1000, papCall (hmacUser "hotp-d6") "000000" 1001,
        papCall (hmacUser "hotp-d6") "399871" 1002],
      call.Plain bob .localMode ∧ call.Event ∧ call.config.ewindowSize = 5) ∧
    (session sampleCrypto (stateLine "5:bob:0000000000000000:::0:0:0:")
        [papCall (hmacUser "hotp-d6") "162583" 1000, papCall (hmacUser "hotp-d6") "000000" 1001,
          papCall (hmacUser "hotp-d6") "399871" 1002]).map
        (fun x => (x.out.rc, x.out.matched.bind Match.position)) =
      [(.nextpasscode, some 6), (.authErr, none), (.ok, some 7)] := by
  refine ⟨?_, by decide +kernel⟩
  intro call member
  simp only [List.mem_cons, List.not_mem_nil, or_false] at member
  rcases member with rfl | rfl | rfl <;>
    exact ⟨papCall_plain _ _ _ rfl, fun _ found => by cases found; decide +kernel, rfl⟩

end Otpd

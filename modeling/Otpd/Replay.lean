import Otpd.Lockout

/-!
# One-time passcodes

Over whole sessions: the counters at which HOTP passcodes are accepted, and the
time steps of the time-based cards.
-/

set_option autoImplicit false

namespace Otpd

open CMem

/-- A level that a success moves up to its label, and nothing else does, climbs. -/
theorem climbs_of_success {crypto : Crypto} {Good : Store → Prop} {Ok : Store → Call → Prop}
    {level : Store → Nat} {label : Exchange → Option Nat}
    (unlabelled : ∀ x : Exchange, x.out.rc ≠ .ok → label x = none)
    (step : ∀ s call, Good s → Ok s call → Good (serve crypto s call).2 ∧
      level s ≤ level (serve crypto s call).2 ∧
      ((serve crypto s call).1.rc = .ok → level s < level (serve crypto s call).2 ∧
        label (Runs.transition (serve crypto) s call) = some (level (serve crypto s call).2))) :
    Runs.Climbs (serve crypto) Good Ok level label := by
  intro s call good ok
  obtain ⟨good', rises, accepted⟩ := step s call good ok
  refine ⟨good', rises, ?_⟩
  intro n labelled
  by_cases success : (serve crypto s call).1.rc = .ok
  · obtain ⟨above, exact⟩ := accepted success
    rw [exact] at labelled
    cases labelled
    exact ⟨above, le_refl _⟩
  · rw [unlabelled _ success] at labelled
    cases labelled

/-! ## The HOTP counter -/

theorem c2c_counter (counter : UInt64) : (c2c counter).length = 8 ∧
    beNat (c2c counter) = counter.toNat := by
  refine ⟨rfl, ?_⟩
  have digit : ∀ k, counter.toNat / 256 ^ (k + 1) * 256 + counter.toNat / 256 ^ k % 256 =
      counter.toNat / 256 ^ k := by
    intro k
    rw [pow_succ, ← Nat.div_div_eq_div_mul]
    omega
  have top : counter.toNat / 256 ^ 8 = 0 := Nat.div_eq_of_lt counter.toNat_lt
  have folded : beNat (c2c counter) =
      (((((((counter.toNat / 256 ^ 8 * 256 + counter.toNat / 256 ^ 7 % 256) * 256 +
        counter.toNat / 256 ^ 6 % 256) * 256 + counter.toNat / 256 ^ 5 % 256) * 256 +
        counter.toNat / 256 ^ 4 % 256) * 256 + counter.toNat / 256 ^ 3 % 256) * 256 +
        counter.toNat / 256 ^ 2 % 256) * 256 + counter.toNat / 256 ^ 1 % 256) * 256 +
        counter.toNat / 256 ^ 0 % 256 := by
    rw [top]
    simp only [beNat, c2c, List.foldl, UInt64.toNat_toUInt8, UInt64.toNat_shiftRight,
      Nat.shiftRight_eq_div_pow, UInt64.reduceToNat, Nat.reduceMod, Nat.reducePow, Nat.div_one]
  -- from the top, each eight bits joined give the counter shifted by one byte less
  rw [folded, digit 7, digit 6, digit 5, digit 4, digit 3, digit 2, digit 1, digit 0, pow_zero,
    Nat.div_one]

theorem intToU64_toNat (b0 b1 b2 b3 : Byte) : (intToU64 b0 b1 b2 b3).toNat =
    if beNat [b0, b1, b2, b3] < 2 ^ 31 then beNat [b0, b1, b2, b3]
    else (2 ^ 32 - 1) * 2 ^ 32 + beNat [b0, b1, b2, b3] := by
  rw [intToU64, signExtended_toNat, packWord_toNat]

theorem take_eight (buf : Buffer 16) :
    buf.bytes.take 8 = [buf.get 0, buf.get 1, buf.get 2, buf.get 3] ++
      [buf.get 4, buf.get 5, buf.get 6, buf.get 7] := by
  obtain ⟨bytes, size⟩ := buf
  match bytes, size with
  | [_, _, _, _, _, _, _, _, _, _, _, _, _, _, _, _], rfl => rfl

/-- What `hotp_challenge` takes a stored counter for. -/
def readCounter (n : Nat) : Nat :=
  if n % 2 ^ 32 < 2 ^ 31 then n else (2 ^ 32 - 1) * 2 ^ 32 + n % 2 ^ 32

/-- Two four-byte words put together as `hotp_challenge` does it. -/
theorem intToU64_or (b0 b1 b2 b3 b4 b5 b6 b7 : Byte) :
    ((intToU64 b0 b1 b2 b3 <<< 32) ||| intToU64 b4 b5 b6 b7).toNat =
      readCounter (beNat ([b0, b1, b2, b3] ++ [b4, b5, b6, b7])) := by
  have high := intToU64_toNat b0 b1 b2 b3
  have low := intToU64_toNat b4 b5 b6 b7
  have highSmall : beNat [b0, b1, b2, b3] < 2 ^ 32 := by
    rw [← packWord_toNat]
    exact UInt32.toNat_lt _
  have lowSmall : beNat [b4, b5, b6, b7] < 2 ^ 32 := by
    rw [← packWord_toNat]
    exact UInt32.toNat_lt _
  rw [beNat_append, show 256 ^ [b4, b5, b6, b7].length = 2 ^ 32 by norm_num]
  generalize beNat [b0, b1, b2, b3] = h at high highSmall ⊢
  generalize beNat [b4, b5, b6, b7] = l at low lowSmall ⊢
  -- the extended sign of the upper word is shifted out again
  have shifted : (intToU64 b0 b1 b2 b3 <<< 32).toNat = h * 2 ^ 32 := by
    simp only [UInt64.toNat_shiftLeft, UInt64.reduceToNat, Nat.reduceMod, Nat.shiftLeft_eq, high]
    split <;> omega
  have lowHalf : (h * 2 ^ 32 + l) % 2 ^ 32 = l := by omega
  rw [UInt64.toNat_or, shifted, low, readCounter, lowHalf]
  split
  · rw [← Nat.zero_add l, ← Nat.zero_mul (2 ^ 32), or_halves h 0 l lowSmall, Nat.or_zero]
    omega
  · rw [or_halves _ _ _ lowSmall, or_allOnes highSmall]

/-- Each `challenge` call adds one to the counter it reads. -/
theorem hotpChallenge_steps (user : User) (data : CardData) (challenge : Buffer 16) (now : Time)
    (t e : Nat) :
    beNat ((hotpChallenge user data challenge now t e).2.2.bytes.take 8) =
      (readCounter (beNat (challenge.bytes.take 8)) + 1) % 2 ^ 64 := by
  simp only [hotpChallenge]
  rw [Buffer.copy_take_of_eq _ (by omega) (c2c_counter _).1, (c2c_counter _).2, UInt64.toNat_add,
    intToU64_or, take_eight, UInt64.toNat_one]

/-- Below 2^31 each `challenge` call adds one to the counter. -/
theorem hotpChallenge_counter (user : User) (data : CardData) (challenge : Buffer 16) (now : Time)
    (t e : Nat) (small : beNat (challenge.bytes.take 8) < 2 ^ 31) :
    beNat ((hotpChallenge user data challenge now t e).2.2.bytes.take 8) =
      beNat (challenge.bytes.take 8) + 1 := by
  have read : readCounter (beNat (challenge.bytes.take 8)) = beNat (challenge.bytes.take 8) :=
    if_pos (by omega)
  rw [hotpChallenge_steps, read]
  exact Nat.mod_eq_of_lt (by omega)

/-! ## Sessions with an HOTP card -/

def HoldsCounter (mode : StateMode) (username : Username) (store : Store) : Prop :=
  ∃ r, kept mode username store = some r ∧ r.challenge.length = 8

def counterOf (mode : StateMode) (username : Username) (store : Store) : Nat :=
  ((kept mode username store).map fun r => beNat r.challenge).getD 0

/-- How far the call looks ahead, as `verify` computes it for an event card. -/
def Call.window (call : Call) : Int :=
  match call.env.get with
  | .found user => eendOf call.config { user with featuremask := otpCfEs }
  | _ => 0

def acceptedCounter (x : Exchange) : Option Nat :=
  if x.out.rc = .ok then
    match x.out.matched with
    | some (.sync _ _ challenge _) => some (beNat (challenge.bytes.take 8))
    | _ => none
  else none

theorem eendOf_event {config : Config} {user user' : User}
    (event : hasFeature user.featuremask otpCfEs = true)
    (noFrw : hasFeature user.featuremask otpCfFrw = false)
    (window : user.rwindowSize = user'.rwindowSize) :
    eendOf config user = eendOf config { user' with featuremask := otpCfEs } := by
  have event' : hasFeature otpCfEs otpCfEs = true := by decide
  have noFrw' : hasFeature otpCfEs otpCfFrw = false := by decide
  simp only [eendOf, event, event', noFrw, noFrw', window, Bool.false_eq_true, if_false, if_true]

/-- Loop invariant of an HOTP call: the card data stays the loaded one, and the
local challenge has been stepped once for each position done. -/
def Counting (base : CardData) (n w : Nat) : LoopInv := fun positions data challenge =>
  data = base ∧ ∃ k, positions = ((List.range w).drop k).map (fun e => (0, e)) ∧
    beNat (challenge.bytes.take 8) = n + k

theorem counting_cons {base data : CardData} {n w t e : Nat} {rest : List (Nat × Nat)}
    {challenge : Buffer 16} (counting : Counting base n w ((t, e) :: rest) data challenge) :
    data = base ∧ e < w ∧ rest = ((List.range w).drop (e + 1)).map (fun e => (0, e)) ∧
      beNat (challenge.bytes.take 8) = n + e := by
  obtain ⟨same, k, positions, value⟩ := counting
  have inside : k < w := by
    by_contra outside
    rw [List.drop_eq_nil_of_le (by simp; omega)] at positions
    cases positions
  rw [List.drop_eq_getElem_cons (by simpa using inside), List.map_cons, List.cons.injEq,
    List.getElem_range, Prod.mk.injEq] at positions
  obtain ⟨⟨-, rfl⟩, tail⟩ := positions
  exact ⟨same, inside, tail, value⟩

section Hotp

variable {crypto : Crypto} {call : Call} {store : Store} {out : Outcome} {r : StateRecord}
  {p : Prepared} {state : State} {l : Locals}

theorem Attempt.hotp_success (attempt : Attempt crypto call store out .hotp r p state l)
    (eight : r.challenge.length = 8) (small : (beNat r.challenge : Int) + call.window < 2 ^ 31)
    (success : l.rc = .ok) :
    ∃ t e challenge clen, l.matched = some (.sync t e challenge clen) ∧
      (authDone call.env.now l).record.challenge = challenge.bytes.take 8 ∧
      beNat r.challenge < beNat (challenge.bytes.take 8) := by
  obtain ⟨user, found, -, sameWindow⟩ := attempt.card
  have masks := CardModule.hotp.masks_event (by decide) _ attempt.mask
  have window : eendOf call.config p.user = call.window := by
    rw [eendOf_event masks.2 (CardModule.hotp.masks_noFrw _ attempt.mask) sameWindow]
    simp only [Call.window, found]
  have clen : state.clen = 8 := Fin.ext (attempt.clen_eq.trans eight)
  have verdict := attempt.verdict_with
    (Counting state.toCardData (beNat r.challenge) (eendOf call.config p.user + 1).toNat)
    (by
      intro t e rest data challenge inv _
      obtain ⟨rfl, inside, tail, value⟩ := counting_cons inv
      rw [attempt.runs]
      refine ⟨?_, e + 1, tail, ?_⟩
      · change { state.toCardData with clen := 8 } = state.toCardData
        rw [← clen]
      · exact (hotpChallenge_counter p.user state.toCardData challenge call.env.now t e
          (by omega)).trans (by rw [value]; rfl))
    (by
      intro resolved resolves base
      refine ⟨resolves.data, 0, by rw [attempt.window_eq, List.drop_zero], ?_⟩
      have stored : resolved.challenge.bytes.take resolved.clen = r.challenge := by
        rw [← attempt.loaded, resolves.data]
        rfl
      rw [stored, Buffer.copy_take_of_eq base (by omega) eight, Nat.add_zero])
  have after : l.state.clen = 8 := by
    rw [attempt.clen_after, clen]
    split <;> rfl
  cases verdict with
  | serviceErr _ _ notDone => exact absurd rfl notDone
  | async resolved _ _ isAsync => simp [asyncMatches, asyncPossible, masks.1] at isAsync
  | noSync => cases success
  | noMatch => cases success
  | hit resolved t e rest before data done previous challenge response found _ _ _ inv stepped =>
      refine ⟨t, e, challenge, _, rfl, ?_, ?_⟩
      · rw [authDone_challenge, if_pos ⟨success, rfl⟩, after]
        rfl
      · obtain ⟨rfl, inside, -, value⟩ := counting_cons inv
        rw [attempt.runs] at stepped
        have next := hotpChallenge_counter p.user state.toCardData previous call.env.now t e
          (by omega)
        rw [show hotpChallenge p.user state.toCardData previous call.env.now t e =
          (.ok, data, challenge) from stepped, value] at next
        change beNat (challenge.bytes.take 8) = _ at next
        omega

end Hotp

structure Call.InRange (call : Call) (username : Username) (mode : StateMode) (store : Store) :
    Prop where
  plain : call.Plain username mode
  hotp : call.Uses .hotp
  small : (counterOf mode username store : Int) + call.window < 2 ^ 31

/-- One call: either the counter stays and nothing is accepted, or it moves to the
accepted one. -/
theorem hotp_step (crypto : Crypto) {username : Username} {mode : StateMode} {store : Store}
    {call : Call} (holds : HoldsCounter mode username store)
    (inRange : call.InRange username mode store) :
    HoldsCounter mode username (serve crypto store call).2 ∧
      counterOf mode username store ≤ counterOf mode username (serve crypto store call).2 ∧
      ((serve crypto store call).1.rc = .ok →
        counterOf mode username store < counterOf mode username (serve crypto store call).2 ∧
        acceptedCounter (Runs.transition (serve crypto) store call) =
          some (counterOf mode username (serve crypto store call).2)) := by
  obtain ⟨r, stored, eight⟩ := holds
  have level : ∀ {store' : Store} {r' : StateRecord}, kept mode username store' = some r' →
      counterOf mode username store' = beNat r'.challenge := by
    intro store' r' kept'
    simp [counterOf, kept']
  have small := inRange.small
  rw [level stored] at small ⊢
  rcases serve_plain crypto store inRange.plain with
    unchanged | ⟨m, r', p, state, l, attempt, written⟩
  · rw [unchanged.same, level stored]
    exact ⟨⟨r, stored, eight⟩, le_refl _, fun success => absurd success unchanged.notOk⟩
  · obtain rfl := attempt.same_record inRange.plain stored
    obtain rfl := attempt.module_eq inRange.hotp
    obtain ⟨stillEight, keeps⟩ := attempt.challenge_eight eight
    rw [level written]
    refine ⟨⟨_, written, stillEight⟩, ?_⟩
    by_cases success : l.rc = .ok
    · obtain ⟨t, e, challenge, clen, matched, exact, above⟩ :=
        attempt.hotp_success eight small success
      rw [exact]
      refine ⟨above.le, fun ok => ⟨above, ?_⟩⟩
      have isMatch : (Runs.transition (serve crypto) store call).out.matched =
          some (.sync t e challenge clen) := attempt.matched.trans matched
      have isOk : (Runs.transition (serve crypto) store call).out.rc = .ok := ok
      simp only [acceptedCounter, isOk, if_true, isMatch]
    · rw [keeps success]
      exact ⟨le_refl _, fun ok => absurd (attempt.ok_rc ok) success⟩

/-- No HOTP replay: along a session the accepted counters increase strictly, each
lies above the one stored before, and the stored counter never decreases. -/
theorem hotp_no_replay (crypto : Crypto) (username : Username) (mode : StateMode) (store : Store)
    (holds : HoldsCounter mode username store) (calls : List Call)
    (plain : ∀ call ∈ calls, call.Plain username mode)
    (hotp : ∀ call ∈ calls, call.Uses .hotp)
    (small : ∀ x ∈ session crypto store calls,
      (counterOf mode username x.pre : Int) + x.call.window < 2 ^ 31) :
    ((session crypto store calls).filterMap acceptedCounter).Pairwise (· < ·) ∧
      ∀ x ∈ session crypto store calls,
        counterOf mode username x.pre ≤ counterOf mode username x.post ∧
        (x.out.rc = .ok → ∃ n, acceptedCounter x = some n ∧
          counterOf mode username x.pre < n ∧ counterOf mode username x.post = n) := by
  have climbs : Runs.Climbs (serve crypto) (HoldsCounter mode username)
      (fun s call => call.InRange username mode s) (counterOf mode username) acceptedCounter :=
    climbs_of_success (fun x rejected => by simp [acceptedCounter, rejected])
      (fun s call good inRange => hotp_step crypto good inRange)
  have inRange : ∀ x ∈ session crypto store calls, x.call.InRange username mode x.pre := by
    intro x member
    obtain ⟨inCalls, -, -⟩ := session_step member
    exact ⟨plain _ inCalls, hotp _ inCalls, small x member⟩
  refine ⟨climbs.labels_increasing calls store holds inRange, ?_⟩
  intro x member
  obtain ⟨-, rises, accepted⟩ := hotp_step crypto (climbs.good holds inRange x member)
    (inRange x member)
  obtain ⟨-, out, post⟩ := session_step member
  rw [post]
  refine ⟨rises, ?_⟩
  intro ok
  rw [out] at ok
  obtain ⟨above, exact⟩ := accepted ok
  rw [← Runs.trace_is_step (serve crypto) member] at exact
  exact ⟨_, exact, above, rfl⟩

/-- A success, a replay, a candidate eight steps ahead and the passcode after it. -/
def hotpCalls : List Call :=
  [papCall (hmacUser "hotp-d6") "287082" 1000, papCall (hmacUser "hotp-d6") "287082" 1001,
   papCall (hmacUser "hotp-d6") "399871" 1002, papCall (hmacUser "hotp-d6") "520489" 1003]

theorem hotp_no_replay_rfc :
    (session sampleCrypto (stateLine "5:bob:0000000000000000:::0:0:0:") hotpCalls).map
        (fun x => (x.out.rc, acceptedCounter x)) =
      [(.ok, some 1), (.authErr, none), (.nextpasscode, none), (.ok, some 9)] ∧
    (((session sampleCrypto (stateLine "5:bob:0000000000000000:::0:0:0:") hotpCalls).filterMap
        acceptedCounter).Pairwise (· < ·) ∧
      ∀ x ∈ session sampleCrypto (stateLine "5:bob:0000000000000000:::0:0:0:") hotpCalls,
        counterOf .localMode bob x.pre ≤ counterOf .localMode bob x.post ∧
        (x.out.rc = .ok → ∃ n, acceptedCounter x = some n ∧
          counterOf .localMode bob x.pre < n ∧ counterOf .localMode bob x.post = n)) := by
  have common : ∀ call ∈ hotpCalls, call.Plain bob .localMode ∧ call.Uses .hotp := by
    intro call member
    simp only [hotpCalls, List.mem_cons, List.not_mem_nil, or_false] at member
    rcases member with rfl | rfl | rfl | rfl <;>
      exact ⟨papCall_plain _ _ _ rfl, fun _ found => by cases found; decide +kernel⟩
  refine ⟨by decide +kernel, hotp_no_replay sampleCrypto bob .localMode
    (stateLine "5:bob:0000000000000000:::0:0:0:") ⟨StateRecord.mk (List.replicate 8 0) (by simp)
      (StateField.empty 63) (StateField.empty 31) 0 0 0, by decide +kernel, rfl⟩ hotpCalls
    (fun call member => (common call member).1)
    (fun call member => (common call member).2) (by decide +kernel)⟩

/-! ## Sessions with a time-based card -/

/-- The counter a time-based card feeds to `hotp_mac`. -/
def CardModule.iv : CardModule → Time → UInt64
  | .c200 => c200Iv
  | _ => totpIv

def CardModule.step (m : CardModule) (t : Time) : Nat := (m.iv t).toNat

def acceptedStep (m : CardModule) (x : Exchange) : Option Nat :=
  if x.out.rc = .ok then
    match x.out.matched with
    | some (.sync t e _ _) => some (m.step (x.call.env.clock t e))
    | _ => none
  else none

def lastStep (m : CardModule) (mode : StateMode) (username : Username) (store : Store) : Nat :=
  ((kept mode username store).map fun r => m.step (absTime r.authtime).toNat).getD 0

def presentsStep (crypto : Crypto) (m : CardModule) (call : Call) : Bool :=
  match prepareCall crypto call with
  | .error _ => false
  | .ok p =>
    match hotpMac crypto (c2c (m.iv call.env.now)) (p.user.key.take p.scratch1)
        (otpLenOf p.user.featuremask) with
    | none => false
    | some response => compare crypto call.request (expectedPasscode call.config p.user response)

/-- A call that cannot replay a passcode: it stays inside one time step, which is
not before that of the last attempt on record, and presents the passcode of that
step only when it is a later one. -/
structure Call.FreshStep (crypto : Crypto) (m : CardModule) (call : Call) (username : Username)
    (mode : StateMode) (store : Store) : Prop where
  plain : call.Plain username mode
  uses : call.Uses m
  inRange : call.env.now < 2 ^ 31
  oneStep : ∀ t e, m.iv (call.env.clock t e) = m.iv call.env.now
  notBefore : lastStep m mode username store ≤ m.step call.env.now
  later : presentsStep crypto m call = true →
    lastStep m mode username store < m.step call.env.now

theorem CardModule.response_time {crypto : Crypto} {undef : Undef} {m : CardModule}
    (kind : m = .totp ∨ m = .c200) (user : User) (data : CardData) (challenge : Buffer 16)
    (len : Nat) (clock : Time) :
    (m.ops crypto undef).response user data challenge len clock =
      hotpMac crypto (c2c (m.iv clock)) (user.key.take data.scratch1)
        (otpLenOf user.featuremask) := by
  rcases kind with rfl | rfl <;> rfl

theorem Attempt.time_success {crypto : Crypto} {call : Call} {store : Store} {out : Outcome}
    {m : CardModule} {r : StateRecord} {p : Prepared} {state : State} {l : Locals}
    (attempt : Attempt crypto call store out m r p state l) (kind : m = .totp ∨ m = .c200)
    (oneStep : ∀ t e, m.iv (call.env.clock t e) = m.iv call.env.now) (success : l.rc = .ok) :
    presentsStep crypto m call = true ∧
      ∃ t e challenge clen, l.matched = some (.sync t e challenge clen) := by
  have masks := m.masks_event (Or.inr kind) _ attempt.mask
  cases attempt.ending with
  | async _ _ _ isAsync => simp [asyncMatches, asyncPossible, masks.1] at isAsync
  | wrong => cases success
  | hit resolved e challenge response rc _ _ _ _ answered equal =>
      refine ⟨?_, 0, e, challenge, _, rfl⟩
      have scratch : (m.stepped state.toCardData).scratch1 = p.scratch1 := by
        have same : (m.stepped state.toCardData).scratch1 = state.scratch1 := by cases m <;> rfl
        rw [same]
        rcases attempt.loads with rfl | ⟨-, rfl⟩ <;> rfl
      rw [attempt.runs, CardModule.response_time kind, oneStep, scratch] at answered
      simp only [presentsStep, attempt.prepared, answered, equal]

theorem time_step (crypto : Crypto) {m : CardModule} (kind : m = .totp ∨ m = .c200)
    {username : Username} {mode : StateMode} {store : Store} {call : Call}
    (fresh : call.FreshStep crypto m username mode store) :
    lastStep m mode username store ≤ lastStep m mode username (serve crypto store call).2 ∧
      ((serve crypto store call).1.rc = .ok →
        lastStep m mode username store < lastStep m mode username (serve crypto store call).2 ∧
        acceptedStep m (Runs.transition (serve crypto) store call) =
          some (lastStep m mode username (serve crypto store call).2)) := by
  rcases serve_plain crypto store fresh.plain with
    unchanged | ⟨m', r, p, state, l, attempt, written⟩
  · rw [unchanged.same]
    exact ⟨le_refl _, fun ok => absurd ok unchanged.notOk⟩
  · obtain rfl := attempt.module_eq fresh.uses
    have level : lastStep m' mode username (serve crypto store call).2 =
        m'.step call.env.now := by
      simp only [lastStep, written, Option.map_some, Option.getD_some, authDone_authtime]
      rw [absTime_stamp call.env.now fresh.inRange]
    rw [level]
    refine ⟨fresh.notBefore, ?_⟩
    intro ok
    obtain ⟨presents, t, e, challenge, clen, matched⟩ :=
      attempt.time_success kind fresh.oneStep (attempt.ok_rc ok)
    refine ⟨fresh.later presents, ?_⟩
    have isMatch : (Runs.transition (serve crypto) store call).out.matched =
        some (.sync t e challenge clen) := attempt.matched.trans matched
    have isOk : (Runs.transition (serve crypto) store call).out.rc = .ok := ok
    simp only [acceptedStep, isOk, if_true, isMatch, CardModule.step]
    exact congrArg (fun iv => some (UInt64.toNat iv)) (fresh.oneStep t e)

/-- In a session of fresh steps every success is for a later time step than the
successes before it. -/
theorem time_no_replay (crypto : Crypto) (m : CardModule) (kind : m = .totp ∨ m = .c200)
    (username : Username) (mode : StateMode) (store : Store) (calls : List Call)
    (fresh : ∀ x ∈ session crypto store calls, x.call.FreshStep crypto m username mode x.pre) :
    ((session crypto store calls).filterMap (acceptedStep m)).Pairwise (· < ·) ∧
      ∀ x ∈ session crypto store calls, x.out.rc = .ok → ∃ n, acceptedStep m x = some n := by
  have climbs : Runs.Climbs (serve crypto) (fun _ => True)
      (fun s call => call.FreshStep crypto m username mode s) (lastStep m mode username)
      (acceptedStep m) :=
    climbs_of_success (fun x rejected => by simp [acceptedStep, rejected])
      (fun s call _ fresh => ⟨trivial, time_step crypto kind fresh⟩)
  refine ⟨climbs.labels_increasing calls store trivial fresh, ?_⟩
  intro x member success
  obtain ⟨-, out, -⟩ := session_step member
  rw [out] at success
  have exact := ((time_step crypto kind (fresh x member)).2 success).2
  rw [← Runs.trace_is_step (serve crypto) member] at exact
  exact ⟨_, exact⟩

/-- The passcodes of two time steps, in order. -/
def totpCalls : List Call :=
  [papCall (hmacUser "totp-d6") "287082" 31, papCall (hmacUser "totp-d6") "359152" 61]

theorem time_no_replay_totp :
    (session sampleCrypto (stateLine "5:bob::::0:0:0:") totpCalls).map
        (fun x => (x.out.rc, acceptedStep .totp x)) = [(.ok, some 1), (.ok, some 2)] ∧
      (((session sampleCrypto (stateLine "5:bob::::0:0:0:") totpCalls).filterMap
        (acceptedStep .totp)).Pairwise (· < ·) ∧
      ∀ x ∈ session sampleCrypto (stateLine "5:bob::::0:0:0:") totpCalls, x.out.rc = .ok →
        ∃ n, acceptedStep .totp x = some n) := by
  refine ⟨by decide +kernel, time_no_replay sampleCrypto .totp (Or.inl rfl) bob .localMode
    (stateLine "5:bob::::0:0:0:") totpCalls ?_⟩
  intro x member
  obtain ⟨inCalls, -, -⟩ := session_step member
  have steps : ∀ x ∈ session sampleCrypto (stateLine "5:bob::::0:0:0:") totpCalls,
      lastStep .totp .localMode bob x.pre < CardModule.totp.step x.call.env.now := by
    decide +kernel
  have above := steps x member
  simp only [totpCalls, List.mem_cons, List.not_mem_nil, or_false] at inCalls
  rcases inCalls with same | same <;> rw [same] at above ⊢ <;>
    exact ⟨papCall_plain _ _ _ rfl, fun _ found => by cases found; decide +kernel,
      by decide, fun _ _ => rfl, above.le, fun _ => above⟩

/-- The same passcode is accepted twice within its time step. -/
theorem time_replay :
    (∀ call ∈ [papCall (hmacUser "totp-d6") "287082" 31, papCall (hmacUser "totp-d6") "287082" 32],
      call.Plain bob .localMode ∧ call.Uses .totp) ∧
    (session sampleCrypto (stateLine "5:bob::::0:0:0:")
        [papCall (hmacUser "totp-d6") "287082" 31, papCall (hmacUser "totp-d6") "287082" 32]).map
        (fun x => (x.out.rc, acceptedStep .totp x)) = [(.ok, some 1), (.ok, some 1)] := by
  refine ⟨?_, by decide +kernel⟩
  intro call member
  simp only [List.mem_cons, List.not_mem_nil, or_false] at member
  rcases member with rfl | rfl <;>
    exact ⟨papCall_plain _ _ _ rfl, fun _ found => by cases found; decide +kernel⟩

end Otpd

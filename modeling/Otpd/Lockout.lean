import Otpd.Attempt

/-!
# Failure accounting and lock-out

`failcount` and `authtime` over whole sessions: the hard limit, the count of
failed attempts and the delay after the soft limit.
-/

set_option autoImplicit false

namespace Otpd

open CMem

/-! ## The saturating counter -/

/-- Away from the top value `++failcount` saturates one below it. -/
theorem bumpFailcount_toNat {failcount : UInt32} (notMax : failcount ≠ 0xffffffff) :
    (bumpFailcount failcount).toNat = min (failcount.toNat + 1) (2 ^ 32 - 2) := by
  have bound := failcount.toNat_lt
  have below : failcount.toNat ≠ 2 ^ 32 - 1 := by
    intro top
    exact notMax (UInt32.toNat_inj.mp top)
  have next : (failcount + 1).toNat = failcount.toNat + 1 := by
    rw [UInt32.toNat_add]
    exact Nat.mod_eq_of_lt (by simp; omega)
  unfold bumpFailcount
  by_cases top : failcount + 1 = 0xffffffff
  · have value : failcount.toNat + 1 = 2 ^ 32 - 1 := by rw [← next, top]; rfl
    rw [if_pos top, top, value]
    rfl
  · have value : failcount.toNat + 1 ≠ 2 ^ 32 - 1 := by
      rw [← next]
      intro same
      exact top (UInt32.toNat_inj.mp same)
    rw [if_neg top, next]
    omega

theorem bumpFailcount_notMax {failcount : UInt32} (notMax : failcount ≠ 0xffffffff) :
    failcount ≤ bumpFailcount failcount ∧ bumpFailcount failcount ≠ 0xffffffff := by
  have value := bumpFailcount_toNat notMax
  have bound := failcount.toNat_lt
  have below : failcount.toNat ≠ 2 ^ 32 - 1 := by
    intro top
    exact notMax (UInt32.toNat_inj.mp top)
  refine ⟨UInt32.le_iff_toNat_le.mpr (by omega), ?_⟩
  intro top
  rw [top] at value
  simp at value
  omega

namespace Attempt

variable {crypto : Crypto} {call : Call} {store : Store} {out : Outcome} {m : CardModule}
  {r : StateRecord} {p : Prepared} {state : State} {l : Locals}

theorem failcount (attempt : Attempt crypto call store out m r p state l) :
    l.state.failcount = r.failcount := by
  have loaded : state.failcount = r.failcount := by rw [← attempt.loaded]; rfl
  cases attempt.ending with
  | async resolved _ resolves => exact resolves.failcount.trans loaded
  | wrong resolved _ _ _ resolves => exact resolves.failcount.trans loaded
  | hit resolved _ _ _ _ resolves => exact resolves.failcount.trans loaded

theorem hard_not_ok (attempt : Attempt crypto call store out m r p state l)
    (enabled : call.config.hardfail ≠ 0) (locked : call.config.hardfail ≤ r.failcount) :
    l.rc ≠ .ok := by
  have loaded : state.failcount = r.failcount := by rw [← attempt.loaded]; rfl
  have hard : ∀ resolved, Resolves state resolved →
      failCondition call.config call.env.undef resolved call.env.now = .hard := by
    intro resolved resolves
    rw [failCondition, if_pos ⟨enabled, by rw [resolves.failcount, loaded]; exact locked⟩]
  cases attempt.ending with
  | async resolved _ resolves => simp [asyncRc, hard resolved resolves]
  | wrong => simp
  | hit resolved e _ _ rc resolves _ _ _ _ _ reply =>
      simp [reply, syncRc, hard resolved resolves]

end Attempt

/-! ## The hard limit -/

def LockedOut (mode : StateMode) (username : Username) (hardfail : UInt32) (store : Store) : Prop :=
  ∃ r, kept mode username store = some r ∧ hardfail ≤ r.failcount ∧ r.failcount ≠ 0xffffffff

theorem lockedOut_step (crypto : Crypto) {username : Username} {mode : StateMode}
    {hardfail : UInt32} {store : Store} {call : Call} (enabled : hardfail ≠ 0)
    (locked : LockedOut mode username hardfail store)
    (plain : call.Plain username mode) (limit : call.config.hardfail = hardfail) :
    (serve crypto store call).1.rc ≠ .ok ∧
      LockedOut mode username hardfail (serve crypto store call).2 := by
  obtain ⟨r, stored, atLeast, notMax⟩ := locked
  rcases serve_plain crypto store plain with unchanged | ⟨m, r', p, state, l, attempt, written⟩
  · rw [unchanged.same]
    exact ⟨unchanged.notOk, r, stored, atLeast, notMax⟩
  · obtain rfl := attempt.same_record plain stored
    have rejected := attempt.hard_not_ok (by rw [limit]; exact enabled) (by rw [limit]; exact atLeast)
    obtain ⟨grows, below⟩ := bumpFailcount_notMax notMax
    refine ⟨fun success => rejected (attempt.ok_rc success), _, written, ?_, ?_⟩
    · rw [authDone_failcount, if_neg rejected, attempt.failcount]
      exact UInt32.le_trans atLeast grows
    · rwa [authDone_failcount, if_neg rejected, attempt.failcount]

/-- Below the top value of the counter a hard lock-out is permanent. -/
theorem hard_lockout_permanent (crypto : Crypto) (username : Username) (mode : StateMode)
    (hardfail : UInt32) (enabled : 0 < hardfail) (store : Store) (r : StateRecord)
    (stored : kept mode username store = some r) (locked : hardfail ≤ r.failcount)
    (notMax : r.failcount ≠ 0xffffffff) (calls : List Call)
    (plain : ∀ call ∈ calls, call.Plain username mode)
    (limit : ∀ call ∈ calls, call.config.hardfail = hardfail) :
    ∀ x ∈ session crypto store calls, x.out.rc ≠ .ok ∧
      ∃ r', kept mode username x.post = some r' ∧ hardfail ≤ r'.failcount := by
  have enabled : hardfail ≠ 0 := by
    intro zero
    rw [zero] at enabled
    exact absurd enabled (by decide)
  have invariant := Runs.state_invariant (serve crypto) (LockedOut mode username hardfail)
    (fun _ call => call.Plain username mode ∧ call.config.hardfail = hardfail)
    (fun s call inv ok => (lockedOut_step crypto enabled inv ok.1 ok.2).2)
    ⟨r, stored, locked, notMax⟩
    (fun t member => ⟨plain _ (session_step member).1, limit _ (session_step member).1⟩)
  intro x member
  obtain ⟨inCalls, out, post⟩ := session_step member
  obtain ⟨rejected, r', kept', atLeast, -⟩ := lockedOut_step crypto enabled
    (invariant.2 x member) (plain _ inCalls) (limit _ inCalls)
  rw [out, post]
  exact ⟨rejected, r', kept', atLeast⟩

def wrongThenRight : List Call :=
  [("000000", 1000), ("287082", 1001)].map fun (passcode, now) =>
    { papCall (hmacUser "hotp-d6") passcode now with config := { defaultConfig with hardfail := 10 } }

theorem wrongThenRight_plain : ∀ call ∈ wrongThenRight,
    call.Plain bob .localMode ∧ call.config.hardfail = 10 := by
  intro call member
  simp only [wrongThenRight, List.map_cons, List.map_nil, List.mem_cons, List.not_mem_nil,
    or_false] at member
  rcases member with rfl | rfl <;>
    exact ⟨⟨rfl, rfl, fun _ found => by cases found; rfl⟩, rfl⟩

theorem hard_lockout_at_ten :
    kept .localMode bob (stateLine "5:bob:0000000000000000:::a:0:0:") =
        some ⟨List.replicate 8 0, by decide, StateField.empty 63, StateField.empty 31, 10, 0, 0⟩ ∧
      ∀ x ∈ session sampleCrypto (stateLine "5:bob:0000000000000000:::a:0:0:") wrongThenRight,
        x.out.rc ≠ .ok ∧ ∃ r', kept .localMode bob x.post = some r' ∧ 10 ≤ r'.failcount :=
  have stored : kept .localMode bob (stateLine "5:bob:0000000000000000:::a:0:0:") =
      some ⟨List.replicate 8 0, by decide, StateField.empty 63, StateField.empty 31, 10, 0, 0⟩ := by
    decide +kernel
  ⟨stored, hard_lockout_permanent sampleCrypto bob .localMode 10 (by decide) _ _ stored (by decide)
    (by decide) wrongThenRight (fun call member => (wrongThenRight_plain call member).1)
    (fun call member => (wrongThenRight_plain call member).2)⟩

/-- With the counter at `UINT_MAX` one wrong passcode lifts the lock-out. -/
theorem hard_lockout_lifted :
    (kept .localMode bob (stateLine "5:bob:0000000000000000:::ffffffff:0:0:")).map
        StateRecord.failcount = some 0xffffffff ∧
      (∀ call ∈ wrongThenRight, call.Plain bob .localMode ∧ call.config.hardfail = 10) ∧
      (session sampleCrypto (stateLine "5:bob:0000000000000000:::ffffffff:0:0:")
        wrongThenRight).map (fun x => (x.out.rc, (kept .localMode bob x.post).map
          StateRecord.failcount)) = [(.authErr, some 0), (.ok, some 0)] :=
  ⟨by decide +kernel, wrongThenRight_plain, by decide +kernel⟩

/-! ## Counting failed attempts -/

/-- The exchanges after the last success, most recent first. -/
def sinceOk (past : List Exchange) : List Exchange :=
  past.reverse.takeWhile fun x => x.out.rc ≠ .ok

/-- Failures since the last success; without one, on top of the count at the start. -/
def failures (start : Nat) (past : List Exchange) : Nat :=
  (if past.any (·.out.rc = .ok) then 0 else start) + (sinceOk past).countP (·.out.rc.failed)

def lastAttempt (start : Nat) (past : List Exchange) : Nat :=
  ((past.reverse.find? fun x => x.out.rc = .ok ∨ x.out.rc.failed).map (·.call.env.now)).getD start

theorem failures_append (start : Nat) (past : List Exchange) (x : Exchange) :
    failures start (past ++ [x]) =
      if x.out.rc = .ok then 0
      else if x.out.rc.failed = true then failures start past + 1 else failures start past := by
  by_cases success : x.out.rc = .ok
  · simp [failures, sinceOk, success]
  · by_cases failure : x.out.rc.failed = true <;>
      simp [failures, sinceOk, success, failure, Nat.add_assoc]

theorem lastAttempt_append (start : Nat) (past : List Exchange) (x : Exchange) :
    lastAttempt start (past ++ [x]) =
      if x.out.rc = .ok ∨ x.out.rc.failed = true then x.call.env.now
      else lastAttempt start past := by
  by_cases counted : x.out.rc = .ok ∨ x.out.rc.failed = true <;>
    simp [lastAttempt, counted]

theorem absTime_stamp (now : Nat) (inRange : now < 2 ^ 31) (negative : Prop) [Decidable negative] :
    (absTime (if negative then -Time.toU32 now else Time.toU32 now)).toNat = now := by
  have value : (Time.toU32 now).toNat = now := by
    rw [Time.toU32, UInt32.toNat_ofNat']
    omega
  have positive : (absTime (Time.toU32 now)).toNat = now := by
    have small : ¬ Time.toU32 now ≥ 0x80000000 := by
      rw [ge_iff_le, UInt32.le_iff_toNat_le, value]
      simp only [UInt32.reduceToNat]
      omega
    rw [absTime, if_neg small, value]
  by_cases isNegative : negative
  · rw [if_pos isNegative]
    by_cases zero : now = 0
    · subst zero
      rfl
    · have large : -Time.toU32 now ≥ 0x80000000 := by
        rw [ge_iff_le, UInt32.le_iff_toNat_le, UInt32.toNat_neg, value]
        simp only [UInt32.reduceToNat, UInt32.size]
        omega
      rw [absTime, if_pos large, UInt32.neg_neg, value]
  · rw [if_neg isNegative]
    exact positive

namespace Attempt

variable {crypto : Crypto} {call : Call} {store : Store} {out : Outcome} {m : CardModule}
  {r : StateRecord} {p : Prepared} {state : State} {l : Locals}

theorem ok_or_failed (attempt : Attempt crypto call store out m r p state l) :
    l.rc = .ok ∨ l.rc.failed = true := by
  cases attempt.ending with
  | async resolved _ resolves =>
      dsimp only [asyncRc]
      repeat' split
      all_goals first | exact Or.inl rfl | exact Or.inr rfl
  | wrong => exact Or.inr rfl
  | hit resolved e _ _ rc resolves _ _ _ _ _ reply =>
      rw [reply]
      dsimp only [syncRc]
      repeat' split
      all_goals first | exact Or.inl rfl | exact Or.inr rfl

end Attempt

/-- The stored counters agree with what happened since the start of the session. -/
def Accounts (mode : StateMode) (username : Username) (start : StateRecord)
    (past : List Exchange) (store : Store) : Prop :=
  ∃ r, kept mode username store = some r ∧ r.failcount ≠ 0xffffffff ∧
    r.failcount.toNat = min (failures start.failcount.toNat past) (2 ^ 32 - 2) ∧
    (absTime r.authtime).toNat = lastAttempt (absTime start.authtime).toNat past

structure Call.Accountable (call : Call) (username : Username) (mode : StateMode) : Prop where
  plain : call.Plain username mode
  put : call.env.io.put = .done
  length : lengthRejected call = false
  inRange : call.env.now < 2 ^ 31

theorem accounts_step (crypto : Crypto) {username : Username} {mode : StateMode}
    {start : StateRecord} {past : List Exchange} {store : Store} {call : Call}
    (accounts : Accounts mode username start past store) (ok : call.Accountable username mode) :
    Accounts mode username start (past ++ [Runs.transition (serve crypto) store call])
      (serve crypto store call).2 := by
  obtain ⟨r, stored, notMax, count, time⟩ := accounts
  have reply : (Runs.transition (serve crypto) store call).out.rc =
      (serve crypto store call).1.rc := rfl
  rcases serve_cases crypto store call ok.plain.noPassword with
    untouched | ⟨m, r', p, state, l, attempt⟩
  · have neither : ¬ (serve crypto store call).1.rc = .ok ∧
        ¬ (serve crypto store call).1.rc.failed = true := by
      simpa [Rc.noVerdict] using untouched.noVerdict ok.length
    refine ⟨r, by rw [← stored]; exact congrArg _ untouched.1, notMax, ?_, ?_⟩
    · rw [failures_append, reply, if_neg neither.1, if_neg neither.2, count]
    · rw [lastAttempt_append, reply, if_neg (by simpa using neither), time]
  · obtain rfl := attempt.same_record ok.plain stored
    rcases attempt.written with ⟨rc, -, written⟩ | ⟨-, failed, -⟩
    · refine ⟨(authDone call.env.now l).record, ?_, ?_⟩
      · rw [← ok.plain.sameMode, ← ok.plain.sameUser]
        exact (congrArg _ written).trans (kept_persist _ _ _ _)
      · rw [failures_append, lastAttempt_append, reply, rc, if_pos attempt.ok_or_failed,
          authDone_failcount, authDone_authtime, attempt.failcount]
        have stamp := absTime_stamp call.env.now ok.inRange
          (l.rc ≠ .ok ∧ l.state.nullstate = true)
        rcases attempt.ok_or_failed with success | failure
        · rw [if_pos success, if_pos success]
          exact ⟨by decide, by simp, stamp⟩
        · have notOk : l.rc ≠ .ok := by
            intro success
            rw [success] at failure
            cases failure
          rw [if_neg notOk, if_neg notOk, if_pos failure, bumpFailcount_toNat notMax]
          exact ⟨(bumpFailcount_notMax notMax).2, by omega, stamp⟩
    · exact absurd ok.put failed

/-- After a session of calls that are not turned down for their passcode's length,
before 2038 and with working state operations, `failcount` is the number of failed
attempts since the last success and `authtime` the time of the last attempt. -/
theorem failures_counted (crypto : Crypto) (username : Username) (mode : StateMode)
    (store : Store) (start : StateRecord) (stored : kept mode username store = some start)
    (notMax : start.failcount ≠ 0xffffffff) (calls : List Call)
    (accountable : ∀ call ∈ calls, call.Accountable username mode) :
    ∃ r, kept mode username (Runs.final (serve crypto) store calls) = some r ∧
      r.failcount.toNat =
        min (failures start.failcount.toNat (session crypto store calls)) (2 ^ 32 - 2) ∧
      (absTime r.authtime).toNat =
        lastAttempt (absTime start.authtime).toNat (session crypto store calls) := by
  have initially : Accounts mode username start [] store := by
    have bound := start.failcount.toNat_lt
    have below : start.failcount.toNat ≠ 2 ^ 32 - 1 :=
      fun top => notMax (UInt32.toNat_inj.mp top)
    exact ⟨start, stored, notMax, by simp [failures, sinceOk]; omega, rfl⟩
  obtain ⟨r, kept', -, count, time⟩ := (Runs.history_invariant (serve crypto)
    (Accounts mode username start) (fun _ call => call.Accountable username mode)
    (fun past s call accounts ok => accounts_step crypto accounts ok) calls [] store initially
    (fun x member => accountable _ (session_step member).1)).1
  exact ⟨r, kept', count, time⟩

theorem wrongThenRight_accountable : ∀ call ∈ wrongThenRight, call.Accountable bob .localMode := by
  intro call member
  have plain := (wrongThenRight_plain call member).1
  simp only [wrongThenRight, List.map_cons, List.map_nil, List.mem_cons, List.not_mem_nil,
    or_false] at member
  rcases member with rfl | rfl <;> exact ⟨plain, rfl, by decide +kernel, by decide⟩

theorem failures_counted_at_nine :
    (∀ call ∈ wrongThenRight, call.Accountable bob .localMode) ∧
      ∃ r, kept .localMode bob (Runs.final (serve sampleCrypto)
          (stateLine "5:bob:0000000000000000:::9:0:0:") wrongThenRight) = some r ∧
        r.failcount.toNat = min (failures 9 (session sampleCrypto
          (stateLine "5:bob:0000000000000000:::9:0:0:") wrongThenRight)) (2 ^ 32 - 2) ∧
        (absTime r.authtime).toNat = lastAttempt 0 (session sampleCrypto
          (stateLine "5:bob:0000000000000000:::9:0:0:") wrongThenRight) :=
  ⟨wrongThenRight_accountable,
    failures_counted sampleCrypto bob .localMode (stateLine "5:bob:0000000000000000:::9:0:0:")
      ⟨List.replicate 8 0, by decide, StateField.empty 63, StateField.empty 31, 9, 0, 0⟩
      (by decide +kernel) (by decide) wrongThenRight wrongThenRight_accountable⟩

/-- Five digits for a six-digit card: reported as a failed attempt, not counted. -/
theorem short_passcode_uncounted :
    (papCall (hmacUser "hotp-d6") "12345" 1000).Plain bob .localMode ∧
      (session sampleCrypto (stateLine "5:bob:0000000000000000:::0:0:0:")
        [papCall (hmacUser "hotp-d6") "12345" 1000]).map (·.out.rc) = [.authErr] ∧
      failures 0 (session sampleCrypto (stateLine "5:bob:0000000000000000:::0:0:0:")
        [papCall (hmacUser "hotp-d6") "12345" 1000]) = 1 ∧
      (kept .localMode bob (Runs.final (serve sampleCrypto)
        (stateLine "5:bob:0000000000000000:::0:0:0:")
        [papCall (hmacUser "hotp-d6") "12345" 1000])).map (fun r => (r.failcount, r.authtime)) =
          some (0, 0) :=
  ⟨papCall_plain _ _ _ rfl, by decide +kernel, by decide +kernel, by decide +kernel⟩

end Otpd

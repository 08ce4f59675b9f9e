import Otpd.AsyncWait
import Otpd.Frame
import Otpd.LdapRecord
import Otpd.StaticPassword

/-!
# Null state until the first success

A user without a state line starts in null state.  The flag itself is not stored: until a
success the line carries the time of the last attempt negated, and `state_get` hands over
the sign.  `NullTrack` ties the line to the calls that came before it.  A static password
gets a user in before any state is read, so it leaves null state as it is.
-/

set_option autoImplicit false

namespace Otpd

open CMem

/-- The time of the last call that wrote the state, or the epoch. -/
def lastPersisted (crypto : Crypto) (past : List Exchange) : Time :=
  past.foldl (fun last x => if persists crypto x.pre x.call then x.call.env.now else last) 0

/-- The record found for the user holds a static password at the time of the call. -/
def Call.overridden (call : Call) : Bool :=
  match call.env.get with
  | .found user => user.password.isSome
  | _ => false

/-- The user got in, and not by a static password. -/
def Exchange.Succeeded (x : Exchange) : Prop := x.out.rc = .ok ∧ x.call.overridden = false

/-- A call for a user with a card of module `m`: under a soft limit, within the signed
times, with every state operation successful. -/
structure Call.NullstateKind (call : Call) (username : Username) (mode : StateMode)
    (m : CardModule) : Prop where
  same : call.For username mode
  card : call.Uses m
  limited : call.config.softfail ≠ 0
  positive : 0 < call.env.now
  inRange : call.env.now < 2 ^ 31
  granted : call.env.io.granted = true
  readable : call.env.io.readable = true
  stored : call.env.io.put = .done

theorem lastPersisted_append (crypto : Crypto) (past : List Exchange) (x : Exchange) :
    lastPersisted crypto (past ++ [x]) =
      if persists crypto x.pre x.call then x.call.env.now else lastPersisted crypto past := by
  rw [lastPersisted, List.foldl_append]
  rfl

theorem prepare_overridden {crypto : Crypto} {call : Call} {p : Prepared}
    (prepared : prepareCall crypto call = .ok p) : call.overridden = false := by
  obtain ⟨user, found, noPassword, -⟩ := prepare_ok prepared
  rw [Call.overridden, found]
  simp only [noPassword, Option.isSome_none]

/-! ## One call -/

/-- A call that writes no state leaves the store alone, and gets nobody in by a passcode. -/
theorem persists_cases (crypto : Crypto) (store : Store) (call : Call)
    (stored : call.env.io.put = .done) :
    (persists crypto store call = false ∧ (serve crypto store call).2 = store ∧
      ¬ Exchange.Succeeded (Runs.transition (serve crypto) store call)) ∨
    (persists crypto store call = true ∧
      ∃ m r p state l, Attempt crypto call store (serve crypto store call).1 m r p state l ∧
        (stateGet call.config call.request.username call.env.io store p.state).1 = some state ∧
        (serve crypto store call).1.rc = l.rc ∧
        (serve crypto store call).2 = persist call.config.stateMode
          (stateUnparse call.request.username (authDone call.env.now l).record)) := by
  have carried : putCarried call.config call.env.io = true := by
    rw [putCarried, stored]
  have failed : (serve crypto store call).1.rc = .serviceErr →
      ¬ Exchange.Succeeded (Runs.transition (serve crypto) store call) := by
    intro serviceErr success
    have ok : (serve crypto store call).1.rc = .ok := success.1
    rw [serviceErr] at ok
    cases ok
  have verdict := serve_verdict crypto store call
  simp only [persists]
  cases verdict with
  | early exit _ prepared rc kept _ _ =>
      have prepared' : prepareCall crypto call = .error exit := prepared
      rw [prepared']
      refine Or.inl ⟨rfl, kept, ?_⟩
      rintro ⟨success, plain⟩
      have noPassword : ∀ user, call.env.get = .found user → user.password = none := by
        intro user found
        rw [Runs.transition, Call.overridden, found] at plain
        simpa using plain
      have known : exit.rc = .ok := rc.symm.trans success
      rcases prepare_exit prepared' noPassword with other | other | other | ⟨other, -⟩ <;>
        rw [other] at known <;> cases known
  | refused p _ prepared got rc kept _ _ =>
      have prepared' : prepareCall crypto call = .ok p := prepared
      simp only [prepared', got]
      exact Or.inl ⟨trivial, kept, failed rc⟩
  | aborted p state label l _ prepared got result notDone rc kept _ =>
      have prepared' : prepareCall crypto call = .ok p := prepared
      simp only [prepared', got, result, notDone, decide_false, Bool.false_and]
      exact Or.inl ⟨trivial, kept, failed rc⟩
  | saved p state l _ prepared got result put rc matched written _ =>
      have prepared' : prepareCall crypto call = .ok p := prepared
      obtain ⟨user, m, found, -, card, runs, mask, window⟩ := prepare_module prepared
      obtain ⟨r, line, loads⟩ := stateGet_kept got
      simp only [prepared', got, result, decide_true, carried, Bool.and_self]
      exact Or.inr ⟨trivial, m, r, p, state, l,
        ⟨prepared', runs, mask, ⟨user, found, card, window⟩, line, loads, result, matched,
          Or.inl ⟨rc, put, written⟩, fun _ => written⟩, got, rc, written⟩
  | unsaved _ _ _ _ _ _ _ put => exact absurd stored put

/-- What the state line says about the calls so far. -/
structure NullTrack (crypto : Crypto) (username : Username) (mode : StateMode)
    (past : List Exchange) (store : Store) : Prop where
  line : (NullStore mode store ∧ lastPersisted crypto past = 0) ∨
    ∃ r, recordIn mode username store = some r ∧
      (absTime r.authtime).toNat = lastPersisted crypto past
  fresh : (∀ x ∈ past, ¬ x.Succeeded) → InNullstate mode username store
  ended : (∃ x ∈ past, x.Succeeded) → HasSucceeded mode username store

section Track

variable {crypto : Crypto} {username : Username} {mode : StateMode} {past : List Exchange}
  {store : Store} {call : Call} {m : CardModule}

/-- A call that neither writes nor succeeds leaves the track as it is. -/
theorem NullTrack.idle (track : NullTrack crypto username mode past store) {x : Exchange}
    (idle : persists crypto x.pre x.call = false) (failed : ¬ x.Succeeded) :
    NullTrack crypto username mode (past ++ [x]) store := by
  have last : lastPersisted crypto (past ++ [x]) = lastPersisted crypto past := by
    rw [lastPersisted_append, idle]
    rfl
  refine ⟨?_, ?_, ?_⟩
  · rw [last]
    exact track.line
  · intro none
    exact track.fresh fun y member => none y (List.mem_append_left _ member)
  · rintro ⟨y, member, success⟩
    rcases List.mem_append.mp member with earlier | here
    · exact track.ended ⟨y, earlier, success⟩
    · rw [List.mem_singleton.mp here] at success
      exact absurd success failed

/-- The state such a call loads carries the flag exactly while nobody got in. -/
theorem NullTrack.flag (track : NullTrack crypto username mode past store)
    (same : call.For username mode) {p : Prepared} {state : State}
    (got : (stateGet call.config call.request.username call.env.io store p.state).1 = some state) :
    (state.nullstate || decide (state.authtime ≥ 0x80000000)) = true ↔
      ∀ x ∈ past, ¬ x.Succeeded := by
  constructor
  · intro marked x member success
    rw [(track.ended ⟨x, member, success⟩).loaded same got] at marked
    cases marked
  · intro none
    exact (track.fresh none).loaded same got

theorem NullTrack.authtime (track : NullTrack crypto username mode past store)
    (same : call.For username mode) {p : Prepared} {state : State}
    (got : (stateGet call.config call.request.username call.env.io store p.state).1 = some state) :
    (absTime state.authtime).toNat = lastPersisted crypto past := by
  have line := track.line
  rw [← same.sameMode, ← same.sameUser] at line
  rcases (stateGet_loaded got).2 with ⟨record, stored, rfl⟩ | ⟨empty, rfl⟩
  · rcases line with ⟨empty, -⟩ | ⟨r, stored', last⟩
    · rw [NullStore] at empty
      simp [recordIn, empty] at stored
    · cases stored.symm.trans stored'
      exact last
  · rcases line with ⟨-, last⟩ | ⟨r, stored', -⟩
    · rw [last]
      rfl
    · rw [NullStore] at empty
      simp [recordIn, empty] at stored'

/-- What `auth_done` writes: the sign of the time says whether anybody has got in, this
call included. -/
theorem NullTrack.written (track : NullTrack crypto username mode past store)
    (kind : call.NullstateKind username mode m) {out : Outcome} {m' : CardModule}
    {r : StateRecord} {p : Prepared} {state : State} {l : Locals}
    (attempt : Attempt crypto call store out m' r p state l)
    (got : (stateGet call.config call.request.username call.env.io store p.state).1 = some state)
    {x : Exchange} (isCall : x.call = call) (persisted : persists crypto x.pre x.call = true)
    (rc : x.out.rc = l.rc) :
    NullTrack crypto username mode (past ++ [x]) (persist call.config.stateMode
      (stateUnparse call.request.username (authDone call.env.now l).record)) := by
  have line : recordIn mode username (persist call.config.stateMode
      (stateUnparse call.request.username (authDone call.env.now l).record)) =
      some (authDone call.env.now l).record := by
    rw [kind.same.sameUser]
    exact recordIn_persist _ _ _ _
  have plain : x.call.overridden = false := by
    rw [isCall]
    exact prepare_overridden attempt.prepared
  have flag : l.state.nullstate = true ↔ ∀ y ∈ past, ¬ y.Succeeded := by
    rw [attempt.nullstate]
    exact track.flag kind.same got
  refine ⟨Or.inr ⟨_, line, ?_⟩, ?_, ?_⟩
  · rw [authDone_authtime, absTime_stamp call.env.now kind.inRange, lastPersisted_append,
      if_pos persisted, isCall]
  · intro none
    refine Or.inr ⟨_, line, ?_⟩
    have failed : l.rc ≠ .ok := fun success =>
      none x (List.mem_append_right _ (List.mem_singleton_self x)) ⟨rc.trans success, plain⟩
    have marked : l.state.nullstate = true :=
      flag.mpr fun y member => none y (List.mem_append_left _ member)
    rw [authDone_authtime, if_pos ⟨failed, marked⟩]
    exact neg_toU32_negative kind.positive kind.inRange
  · rintro ⟨y, member, success⟩
    refine ⟨_, line, ?_⟩
    have unmarked : ¬ (l.rc ≠ .ok ∧ l.state.nullstate = true) := by
      rintro ⟨failed, marked⟩
      rcases List.mem_append.mp member with earlier | here
      · exact flag.mp marked y earlier success
      · rw [List.mem_singleton.mp here] at success
        exact failed (rc.symm.trans success.1)
    rw [authDone_authtime, if_neg unmarked]
    exact toU32_notNegative kind.inRange

theorem nullTrack_step (track : NullTrack crypto username mode past store)
    (kind : call.NullstateKind username mode m) :
    NullTrack crypto username mode (past ++ [Runs.transition (serve crypto) store call])
      (serve crypto store call).2 := by
  rcases persists_cases crypto store call kind.stored with
    ⟨idle, untouched, failed⟩ | ⟨persisted, m', r, p, state, l, attempt, got, rc, written⟩
  · rw [untouched]
    exact track.idle idle failed
  · rw [written]
    exact track.written kind attempt got rfl persisted rc

theorem nullTrack_run (crypto : Crypto) (calls : List Call)
    (kinds : ∀ call ∈ calls, call.NullstateKind username mode m) :
    ∀ before x after, session crypto none calls = before ++ x :: after →
      NullTrack crypto username mode before x.pre := by
  have empty : NullStore mode none := by cases mode <;> rfl
  have start : NullTrack crypto username mode [] none :=
    ⟨Or.inl ⟨empty, rfl⟩, fun _ => Or.inl empty, by simp⟩
  exact (Runs.history_invariant (serve crypto) (NullTrack crypto username mode)
    (fun _ call => call.NullstateKind username mode m)
    (fun _ _ _ track kind => nullTrack_step track kind) calls [] none start
    fun x member => kinds x.call (session_step member).1).2

end Track

/-! ## Over a run -/

/-- The user the run is about, as the state loaded by one of its calls has him. -/
theorem nullstate_resolved {crypto : Crypto} {username : Username} {mode : StateMode}
    {m : CardModule} (hasNullstate : m.hasNullstate = true) {calls : List Call}
    (kinds : ∀ call ∈ calls, call.NullstateKind username mode m)
    {before : List Exchange} {x : Exchange} {after : List Exchange}
    (split : session crypto none calls = before ++ x :: after) {p : Prepared} {state : State}
    (prepared : prepareCall crypto x.call = .ok p)
    (got : (stateGet x.call.config x.call.request.username x.call.env.io x.pre p.state).1 =
      some state) :
    ∃ resolved, resolveNullstate p state x.call.env.now = some resolved ∧
      (resolved.nullstate = true ↔ ∀ y ∈ before, ¬ Exchange.Succeeded y) ∧
      resolved.authtime.toNat = lastPersisted crypto before := by
  have inSession : x ∈ session crypto none calls := by
    rw [split]
    exact List.mem_append_right _ List.mem_cons_self
  have kind := kinds x.call (session_step inSession).1
  obtain ⟨user, m', found, -, card, runs, -, -⟩ := prepare_module prepared
  obtain rfl : m' = m := Option.some.inj (card.symm.trans (kind.card user found))
  have track := nullTrack_run crypto calls kinds before x after split
  obtain ⟨r, -, loads⟩ := stateGet_kept got
  obtain ⟨resolved, exact⟩ := resolveNullstate_some hasNullstate runs state x.call.env.now
  have resolves := loads.resolves runs exact
  refine ⟨resolved, exact, ?_, ?_⟩
  · rw [resolves.nullstate]
    exact track.flag kind.same got
  · rw [resolves.authtime]
    exact track.authtime kind.same got

/-- From the empty state on, every call that loads the state sees null state until the
first success by a passcode and never after it, and the time of the last write throughout. -/
theorem nullstate_until_success (crypto : Crypto) (username : Username) (mode : StateMode)
    (m : CardModule) (hasNullstate : m.hasNullstate = true) (calls : List Call)
    (kinds : ∀ call ∈ calls, call.NullstateKind username mode m)
    (before : List Exchange) (x : Exchange) (after : List Exchange)
    (split : session crypto none calls = before ++ x :: after) (p : Prepared) (state : State)
    (prepared : prepareCall crypto x.call = .ok p)
    (got : (stateGet x.call.config x.call.request.username x.call.env.io x.pre p.state).1 =
      some state) :
    ∃ resolved, resolveNullstate p state x.call.env.now = some resolved ∧
      ((∀ y ∈ before, ¬ y.Succeeded) → resolved.nullstate = true ∧
        failCondition x.call.config x.call.env.undef resolved x.call.env.now ≠ .none) ∧
      resolved.authtime.toNat = lastPersisted crypto before ∧
      ((∃ y ∈ before, y.Succeeded) → resolved.nullstate = false) := by
  have inSession : x ∈ session crypto none calls := by
    rw [split]
    exact List.mem_append_right _ List.mem_cons_self
  have kind := kinds x.call (session_step inSession).1
  obtain ⟨resolved, exact, flag, last⟩ := nullstate_resolved hasNullstate kinds split prepared got
  refine ⟨resolved, exact, ?_, last, ?_⟩
  · intro none
    exact ⟨flag.mpr none, failCondition_nullstate kind.limited _ (flag.mpr none) _⟩
  · rintro ⟨y, member, success⟩
    cases marked : resolved.nullstate with
    | false => rfl
    | true => exact absurd success (flag.mp marked y member)

/-- A wrong passcode, and the right one of the next time step. -/
def firstTry : Call := papCall (hmacUser "totp-d6") "000000" 31

def secondTry : Call := papCall (hmacUser "totp-d6") "359152" 61

theorem tries_kind : ∀ call ∈ [firstTry, secondTry],
    call.NullstateKind bob .localMode .totp := by
  intro call member
  rcases List.mem_pair.mp member with rfl | rfl
  · exact ⟨⟨rfl, rfl⟩, fun _ found => by cases found; decide +kernel, by decide, by decide,
      by decide, rfl, rfl, rfl⟩
  · exact ⟨⟨rfl, rfl⟩, fun _ found => by cases found; decide +kernel, by decide, by decide,
      by decide, rfl, rfl, rfl⟩

theorem nullstate_until_success_totp :
    (session sampleCrypto none [firstTry, secondTry]).map (fun x => x.out.rc) =
        [.authErr, .ok] ∧
      ∃ p state resolved, prepareCall sampleCrypto secondTry = .ok p ∧
        (stateGet secondTry.config secondTry.request.username secondTry.env.io
          (serve sampleCrypto none firstTry).2 p.state).1 = some state ∧
        resolveNullstate p state secondTry.env.now = some resolved ∧
        resolved.nullstate = true ∧ resolved.authtime.toNat = 31 := by
  refine ⟨by decide +kernel, ?_⟩
  have persisted : persists sampleCrypto (serve sampleCrypto none firstTry).2 secondTry = true := by
    decide +kernel
  obtain ⟨m, r, p, state, l, attempt, got, -⟩ := persists_attempt persisted
  obtain ⟨resolved, found, null, last, -⟩ := nullstate_until_success sampleCrypto bob
    .localMode .totp rfl [firstTry, secondTry] tries_kind
    [Runs.transition (serve sampleCrypto) none firstTry] _ [] rfl p state attempt.prepared got
  refine ⟨p, state, resolved, attempt.prepared, got, found, (null ?_).1, last.trans ?_⟩
  · rintro y member ⟨success, -⟩
    rw [List.mem_singleton.mp member] at success
    exact absurd success (by decide +kernel)
  · decide +kernel

/-- `bob` with a totp card and, until 50, the static password `secret`. -/
def temporaryEntry : LdapEntry :=
  { staticEntry "\x7bSHA\x7d5ebe2294ecd0e0f08eab7690d2a6ee69" with
    otpVendor := some (ascii "totp")
    otpTmpRWindow := none
    otpTmpStaticPasswordExpiry := some (ascii "50") }

def directoryCall (passcode : String) (now : Time) : Call :=
  { papCall (hmacUser "totp-d6") passcode now with
    env := { sampleEnv (hmacUser "totp-d6") now with
      get := (ldapGet defaultConfig (.entry temporaryEntry) cleanMemory now).getD .unavailable } }

def passwordTry : Call := directoryCall "secret" 31

def passcodeTry : Call := directoryCall "000000" 61

theorem directory_kind : ∀ call ∈ [passwordTry, passcodeTry],
    call.NullstateKind bob .localMode .totp := by
  intro call member
  have named : ∀ passcode now user, (directoryCall passcode now).env.get = .found user →
      user.card = ascii "totp-d6" := by
    intro passcode now user found
    cases got : ldapGet defaultConfig (.entry temporaryEntry) cleanMemory now with
    | none => simp [directoryCall, got] at found
    | some get =>
        simp only [directoryCall, got, Option.getD_some] at found
        rw [found] at got
        obtain ⟨parts, of, rfl⟩ := ldapGet_found_iff.mp got
        have vendor : parts.vendor = ascii "totp" := (Option.some.inj of.vendor).symm
        have model : parts.model = ascii "d6" := (Option.some.inj of.model).symm
        have joined : ascii "totp" ++ 45 :: ascii "d6" = ascii "totp-d6" := by decide +kernel
        simp only [LdapParts.user, vendor, model, joined]
  have card : cardOf (ascii "totp-d6") = some .totp := by decide +kernel
  rcases List.mem_pair.mp member with rfl | rfl
  · exact ⟨⟨rfl, rfl⟩, fun user found => (named _ _ user found).symm ▸ card, by decide, by decide,
      by decide, rfl, rfl, rfl⟩
  · exact ⟨⟨rfl, rfl⟩, fun user found => (named _ _ user found).symm ▸ card, by decide, by decide,
      by decide, rfl, rfl, rfl⟩

/-- `OTP_RC_OK` by the static password, and null state at the next call. -/
theorem nullstate_outlives_password :
    (∀ call ∈ [passwordTry, passcodeTry], call.NullstateKind bob .localMode .totp) ∧
      (session digestCrypto none [passwordTry, passcodeTry]).map (fun x => x.out.rc) =
        [.ok, .authErr] ∧
      ∃ p state resolved, prepareCall digestCrypto passcodeTry = .ok p ∧
        (stateGet passcodeTry.config passcodeTry.request.username passcodeTry.env.io
          (serve digestCrypto none passwordTry).2 p.state).1 = some state ∧
        resolveNullstate p state passcodeTry.env.now = some resolved ∧
        resolved.nullstate = true := by
  refine ⟨directory_kind, by decide +kernel, ?_⟩
  have persisted : persists digestCrypto (serve digestCrypto none passwordTry).2 passcodeTry =
      true := by
    decide +kernel
  obtain ⟨m, r, p, state, l, attempt, got, -⟩ := persists_attempt persisted
  have run : session digestCrypto none [passwordTry, passcodeTry] =
      [Runs.transition (serve digestCrypto) none passwordTry] ++
        Runs.transition (serve digestCrypto) (serve digestCrypto none passwordTry).2 passcodeTry ::
          [] := rfl
  obtain ⟨resolved, found, flag, -⟩ :=
    nullstate_resolved (m := .totp) rfl directory_kind run attempt.prepared got
  refine ⟨p, state, resolved, attempt.prepared, got, found, flag.mpr ?_⟩
  rintro y member ⟨-, plain⟩
  rw [List.mem_singleton.mp member] at plain
  exact absurd plain (by decide +kernel)

end Otpd

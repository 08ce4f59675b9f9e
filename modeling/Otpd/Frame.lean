import Otpd.Resync
import Otpd.Window

/-!
# What a call leaves alone

The stored challenge across failed attempts, and the atomicity of one call: a
success is persisted before it is reported, a service error changes nothing and
every lock taken is given back.
-/

set_option autoImplicit false

namespace Otpd

open CMem

/-! ## The stored challenge -/

def searchesWindow (crypto : Crypto) (call : Call) : Bool :=
  (match call.env.get with
    | .found user => cardOf user.card = some .hotp ∨ cardOf user.card = some .cryptocard
    | _ => false) &&
  match prepareCall crypto call with
  | .error _ => false
  | .ok p => searches crypto call p p.state.toCardData

theorem Attempt.searchesWindow_eq {crypto : Crypto} {call : Call} {store : Store} {out : Outcome}
    {m : CardModule} {r : StateRecord} {p : Prepared} {state : State} {l : Locals}
    (attempt : Attempt crypto call store out m r p state l) :
    searchesWindow crypto call = (m.isEvent && searches crypto call p state.toCardData) := by
  obtain ⟨user, found, card, -⟩ := attempt.card
  simp only [searchesWindow, found, card, attempt.prepared, searches,
    m.asyncMatches_data attempt.runs attempt.mask p.state.toCardData state.toCardData]
  cases m <;> rfl

/-- The call comes to `auth_done` with a loaded state, and the update takes effect. -/
def persists (crypto : Crypto) (store : Store) (call : Call) : Bool :=
  match prepareCall crypto call with
  | .error _ => false
  | .ok p =>
    match (stateGet call.config call.request.username call.env.io store p.state).1 with
    | none => false
    | some state =>
      decide ((authenticate crypto call.config call.request call.env p state).1 = .authDone) &&
        putCarried call.config call.env.io

theorem persists_attempt {crypto : Crypto} {store : Store} {call : Call}
    (persisted : persists crypto store call = true) :
    ∃ m r p state l, Attempt crypto call store (serve crypto store call).1 m r p state l ∧
      (stateGet call.config call.request.username call.env.io store p.state).1 = some state ∧
      putCarried call.config call.env.io = true := by
  obtain ⟨p, state, prepared, got, done, carried⟩ : ∃ p state, prepareCall crypto call = .ok p ∧
      (stateGet call.config call.request.username call.env.io store p.state).1 = some state ∧
      (authenticate crypto call.config call.request call.env p state).1 = .authDone ∧
      putCarried call.config call.env.io = true := by
    unfold persists at persisted
    split at persisted
    · cases persisted
    · rename_i p prepared
      split at persisted
      · cases persisted
      · rename_i state got
        rw [Bool.and_eq_true, decide_eq_true_eq] at persisted
        exact ⟨p, state, prepared, got, persisted⟩
  have verdict := serve_verdict crypto store call
  generalize (serve crypto store call).1 = out at verdict ⊢
  obtain ⟨user, m, found, -, card, runs, mask, window⟩ := prepare_module prepared
  obtain ⟨r, stored, loads⟩ := stateGet_kept got
  cases verdict with
  | early exit out failed => cases prepared.symm.trans failed
  | refused p' out prepared' refused =>
      cases prepared.symm.trans prepared'
      cases got.symm.trans refused
  | aborted p' state' label l out prepared' got' result notDone =>
      cases prepared.symm.trans prepared'
      cases got.symm.trans got'
      rw [result] at done
      exact absurd done notDone
  | saved p' state' l out prepared' got' result put rc matched written =>
      cases prepared.symm.trans prepared'
      cases got.symm.trans got'
      exact ⟨m, r, p, state, l, ⟨prepared, runs, mask, ⟨user, found, card, window⟩, stored, loads,
        result, matched, Or.inl ⟨rc, put, written⟩, fun _ => written⟩, got, carried⟩
  | unsaved p' state' l out prepared' got' result put rc matched written =>
      cases prepared.symm.trans prepared'
      cases got.symm.trans got'
      rw [if_pos carried] at written
      exact ⟨m, r, p, state, l, ⟨prepared, runs, mask, ⟨user, found, card, window⟩, stored, loads,
        result, matched, Or.inr ⟨rc, put, Or.inr written⟩, fun _ => written⟩, got, carried⟩

/-- The challenge that goes with a passcode the call accepts and resynchronises on: the one
of the request, or the one of the first position whose passcode is given. -/
inductive AcceptedOn (crypto : Crypto) (call : Call) (p : Prepared) (resolved : State) :
    Buffer 16 → Prop where
  | async
      (isAsync : asyncMatches crypto call.config call.request call.env p resolved.toCardData = true)
      (unlimited : failCondition call.config call.env.undef resolved call.env.now = .none)
      (late : call.request.challengeDelay = 0 ∨
        call.request.challengeDelay ≤ call.env.now.toU32 - resolved.authtime)
      (resync : call.request.resync = true) :
      AcceptedOn crypto call p resolved (asyncChallenge call.config call.request call.env.undef).1
  | sync (e : Nat) (passcode : List Byte)
      (notAsync : asyncMatches crypto call.config call.request call.env p resolved.toCardData =
        false)
      (on : syncPossible call.request p = true) (inside : (e : Int) ≤ eendOf call.config p.user)
      (earlier : ∀ k < e, wrongAt crypto call.config call.request call.env p resolved.toCardData
        (windowBase call.config call.request call.env p resolved.toCardData) k)
      (expected : windowPasscode call p resolved e = some passcode)
      (equal : compare crypto call.request passcode = true)
      (turn : InTurn call.config p (failCondition call.config call.env.undef resolved call.env.now)
        { resolved with toCardData := (positionAt call.env p resolved.toCardData
          (windowBase call.config call.request call.env p resolved.toCardData) e).2.1 }
        call.env.now e) :
      AcceptedOn crypto call p resolved (positionAt call.env p resolved.toCardData
        (windowBase call.config call.request call.env p resolved.toCardData) e).2.2

section Accepted

variable {crypto : Crypto} {call : Call} {store : Store} {out : Outcome} {m : CardModule}
  {r : StateRecord} {p : Prepared} {state resolved : State} {l : Locals}

/-- The response to the challenge of the request is the passcode. -/
theorem Attempt.acceptedOn_async (attempt : Attempt crypto call store out m r p state l)
    (found : resolveNullstate p state call.env.now = some resolved)
    (isAsync : asyncMatches crypto call.config call.request call.env p resolved.toCardData = true)
    (challenge : Buffer 16) :
    AcceptedOn crypto call p resolved challenge ↔
      l.rc = .ok ∧ l.resync = true ∧ l.challenge = challenge := by
  have matching : ∀ {resolved'}, resolveNullstate p state call.env.now = some resolved' →
      asyncMatches crypto call.config call.request call.env p resolved'.toCardData ≠ false := by
    intro resolved' same wrong
    cases found.symm.trans same
    rw [isAsync] at wrong
    cases wrong
  have verdict := authenticate_cases crypto call.config call.request call.env p state
  rw [attempt.result] at verdict
  cases verdict with
  | serviceErr _ _ notDone => exact absurd rfl notDone
  | noSync _ _ _ same notAsync => exact absurd notAsync (matching same)
  | noMatch _ _ _ _ same notAsync => exact absurd notAsync (matching same)
  | hit _ _ _ _ _ _ _ _ _ _ same notAsync => exact absurd notAsync (matching same)
  | async resolved' response same =>
      cases found.symm.trans same
      constructor
      · intro accepts
        cases accepts with
        | async _ unlimited late resync =>
            exact ⟨(asyncRc_ok_iff ..).mpr ⟨unlimited, late⟩, resync, rfl⟩
        | sync e passcode notAsync => exact absurd notAsync (matching found)
      · rintro ⟨rc, resync, rfl⟩
        obtain ⟨unlimited, late⟩ := (asyncRc_ok_iff ..).mp rc
        exact .async isAsync unlimited late resync

/-- The window is searched: the first position with the passcode is the only one accepted. -/
theorem Attempt.acceptedOn_window (attempt : Attempt crypto call store out m r p state l)
    (found : resolveNullstate p state call.env.now = some resolved)
    (notAsync : asyncMatches crypto call.config call.request call.env p resolved.toCardData = false)
    (on : syncPossible call.request p = true) (challenge : Buffer 16) :
    AcceptedOn crypto call p resolved challenge ↔
      l.rc = .ok ∧ l.resync = true ∧ l.challenge = challenge := by
  obtain ⟨resolved', found', inTime, answers⟩ := authenticate_reached attempt.result
  cases found.symm.trans found'
  have ended := authenticate_window (p := p)
    (by rw [attempt.runs]; exact m.noEarly crypto call.env.undef) found inTime on
    (by rw [attempt.runs]; exact m.maxtwin_eq ..) notAsync answers
  rw [attempt.result] at ended
  generalize result : ((Label.authDone, l) : Label × Locals) = ending at ended
  cases ended with
  | failed e _ _ _ _ _ label =>
      rw [← result] at label
      cases label
  | hit e passcode _ inside earlier expected equal =>
      obtain ⟨rc, moved, resync⟩ := syncMatch_reply result.symm
      have position : (e : Int) ≤ eendOf call.config p.user := by omega
      constructor
      · intro accepts
        cases accepts with
        | async wrong =>
            rw [notAsync] at wrong
            cases wrong
        | sync e' passcode' _ _ _ earlier' expected' equal' turn =>
            rcases Nat.lt_trichotomy e e' with before | rfl | after
            · exact absurd (earlier' e before) (right_not_wrong expected equal)
            · exact ⟨rc.trans ((syncRc_ok_iff ..).mpr turn), resync, moved⟩
            · exact absurd (earlier e' (Nat.zero_le _) after)
                (right_not_wrong expected' equal')
      · rintro ⟨ok, -, rfl⟩
        rw [moved]
        exact .sync e passcode notAsync on position (fun k below => earlier k (Nat.zero_le _) below)
          expected equal ((syncRc_ok_iff ..).mp (rc.symm.trans ok))
  | wrong _ all _ rc =>
      rw [← result] at rc
      constructor
      · intro accepts
        cases accepts with
        | async wrong =>
            rw [notAsync] at wrong
            cases wrong
        | sync e passcode _ _ inside _ expected equal =>
            exact absurd (all e (Nat.zero_le _) (by omega)) (right_not_wrong expected equal)
      · rintro ⟨ok, -⟩
        cases rc.symm.trans ok

/-- Neither the challenge of the request nor a position of the window has the passcode. -/
theorem Attempt.acceptedOn_off (attempt : Attempt crypto call store out m r p state l)
    (found : resolveNullstate p state call.env.now = some resolved)
    (notAsync : asyncMatches crypto call.config call.request call.env p resolved.toCardData = false)
    (off : syncPossible call.request p = false) (challenge : Buffer 16) :
    AcceptedOn crypto call p resolved challenge ↔
      l.rc = .ok ∧ l.resync = true ∧ l.challenge = challenge := by
  have notOn : syncPossible call.request p ≠ true := by simp [off]
  have rc : l.rc = .authErr := by
    have verdict := authenticate_cases crypto call.config call.request call.env p state
    rw [attempt.result] at verdict
    cases verdict with
    | serviceErr _ _ notDone => exact absurd rfl notDone
    | async _ _ same wrong =>
        cases found.symm.trans same
        rw [notAsync] at wrong
        cases wrong
    | noSync => rfl
    | noMatch _ _ _ _ _ _ on => exact absurd on notOn
    | hit _ _ _ _ _ _ _ _ _ _ _ _ on => exact absurd on notOn
  rw [rc]
  constructor
  · intro accepts
    cases accepts with
    | async wrong =>
        rw [notAsync] at wrong
        cases wrong
    | sync e passcode _ on => exact absurd on notOn
  · rintro ⟨wrong, -⟩
    cases wrong

theorem Attempt.acceptedOn_iff (attempt : Attempt crypto call store out m r p state l)
    (found : resolveNullstate p state call.env.now = some resolved) (challenge : Buffer 16) :
    AcceptedOn crypto call p resolved challenge ↔
      l.rc = .ok ∧ l.resync = true ∧ l.challenge = challenge := by
  cases isAsync : asyncMatches crypto call.config call.request call.env p resolved.toCardData with
  | true => exact attempt.acceptedOn_async found isAsync challenge
  | false =>
      cases on : syncPossible call.request p with
      | true => exact attempt.acceptedOn_window found isAsync on challenge
      | false => exact attempt.acceptedOn_off found isAsync on challenge

/-- The call accepts a passcode for another challenge than the one of the record. -/
def AcceptedOnAnother (crypto : Crypto) (store : Store) (call : Call) (r : StateRecord) : Prop :=
  ∃ p state resolved challenge, prepareCall crypto call = .ok p ∧
    (stateGet call.config call.request.username call.env.io store p.state).1 = some state ∧
    resolveNullstate p state call.env.now = some resolved ∧
    AcceptedOn crypto call p resolved challenge ∧
    challenge.bytes.take r.challenge.length ≠ r.challenge

theorem Attempt.acceptedOnAnother_iff
    (attempt : Attempt crypto call store out m r p state l)
    (got : (stateGet call.config call.request.username call.env.io store p.state).1 = some state) :
    AcceptedOnAnother crypto store call r ↔ l.rc = .ok ∧ l.resync = true ∧
      l.challenge.bytes.take r.challenge.length ≠ r.challenge := by
  obtain ⟨resolved, found, -⟩ := authenticate_reached attempt.result
  constructor
  · rintro ⟨p', state', resolved', challenge, prepared, got', found', accepts, another⟩
    cases attempt.prepared.symm.trans prepared
    cases got.symm.trans got'
    obtain ⟨rc, resync, rfl⟩ := (attempt.acceptedOn_iff found' challenge).mp accepts
    exact ⟨rc, resync, another⟩
  · rintro ⟨rc, resync, another⟩
    exact ⟨p, state, resolved, l.challenge, attempt.prepared, got, found,
      (attempt.acceptedOn_iff found l.challenge).mpr ⟨rc, resync, rfl⟩, another⟩

/-- `state_unparse` writes the stored challenge again if the length fits and no other one was
accepted. -/
theorem Attempt.challenge_kept_iff (attempt : Attempt crypto call store out m r p state l) :
    (authDone call.env.now l).record.challenge = r.challenge ↔
      (r.challenge.length = 8 ∨ searchesWindow crypto call = false) ∧
        (l.rc = .ok ∧ l.resync = true →
          l.challenge.bytes.take r.challenge.length = r.challenge) := by
  have loaded : state.challenge.bytes.take r.challenge.length = r.challenge := by
    rw [← attempt.clen_eq, ← attempt.loaded]
    rfl
  have sizes : ∀ challenge : Buffer 16, challenge.bytes.take l.state.clen = r.challenge →
      (l.state.clen : Nat) = r.challenge.length := by
    intro challenge taken
    have length := congrArg List.length taken
    rw [List.length_take, Buffer.size] at length
    omega
  have after : (l.state.clen : Nat) = r.challenge.length ↔
      (r.challenge.length = 8 ∨ searchesWindow crypto call = false) := by
    rw [attempt.searchesWindow_eq, attempt.clen_after, ← attempt.clen_eq]
    cases (m.isEvent && searches crypto call p state.toCardData) with
    | false => simp
    | true => simpa using eq_comm
  rw [← after, authDone_challenge]
  by_cases accepted : l.rc = .ok ∧ l.resync = true
  · rw [if_pos accepted]
    constructor
    · intro taken
      have size := sizes _ taken
      rw [size] at taken
      exact ⟨size, fun _ => taken⟩
    · rintro ⟨size, taken⟩
      rw [size]
      exact taken accepted
  · rw [if_neg accepted, attempt.card_data.1]
    constructor
    · intro taken
      exact ⟨sizes _ taken, fun both => absurd both accepted⟩
    · rintro ⟨size, -⟩
      rw [size, loaded]

end Accepted

/-- A call that persists a state without reporting success leaves the stored challenge as
it was exactly when this has eight bytes or the window of an event card was not searched,
and the call, should it be its answer that got lost, accepted no other challenge. -/
theorem stored_challenge_kept_iff (crypto : Crypto) (username : Username) (mode : StateMode)
    (store : Store) (r : StateRecord) (stored : kept mode username store = some r) (call : Call)
    (plain : call.Plain username mode) (persisted : persists crypto store call = true)
    (rejected : (serve crypto store call).1.rc ≠ .ok) :
    (∃ r', kept mode username (serve crypto store call).2 = some r' ∧
        r'.challenge = r.challenge ∧ r'.csd = r.csd ∧ r'.mincardtime = r.mincardtime) ↔
      (r.challenge.length = 8 ∨ searchesWindow crypto call = false) ∧
        (call.env.io.put = .done ∨ ¬ AcceptedOnAnother crypto store call r) := by
  obtain ⟨m, r', p, state, l, attempt, got, carried⟩ := persists_attempt persisted
  obtain rfl := attempt.same_record plain stored
  have written : kept mode username (serve crypto store call).2 =
      some (authDone call.env.now l).record := by
    rw [← plain.sameMode, ← plain.sameUser]
    change kept call.config.stateMode call.request.username (serve crypto store call).1.store = _
    rw [attempt.carried carried, kept_persist]
  obtain ⟨-, csd, mincardtime⟩ := attempt.card_data
  have same : (∃ r'', kept mode username (serve crypto store call).2 = some r'' ∧
      r''.challenge = r'.challenge ∧ r''.csd = r'.csd ∧ r''.mincardtime = r'.mincardtime) ↔
      (authDone call.env.now l).record.challenge = r'.challenge := by
    rw [written]
    constructor
    · rintro ⟨r'', exact, unchanged, -⟩
      rwa [← Option.some.inj exact] at unchanged
    · intro unchanged
      exact ⟨_, rfl, unchanged, by rw [authDone_csd, csd], by rw [authDone_mincardtime, mincardtime]⟩
  have done : call.env.io.put = .done → l.rc ≠ .ok := by
    intro put ok
    rcases attempt.written with ⟨rc, -⟩ | ⟨-, notDone, -⟩
    · exact rejected (rc.trans ok)
    · exact notDone put
  rw [same, attempt.challenge_kept_iff, attempt.acceptedOnAnother_iff got]
  refine and_congr_right fun _ => ?_
  constructor
  · intro taken
    refine Or.inr ?_
    rintro ⟨rc, resync, another⟩
    exact another (taken ⟨rc, resync⟩)
  · rintro (put | same) accepted
    · exact absurd accepted.1 (done put)
    · by_contra another
      exact same ⟨accepted.1, accepted.2, another⟩

theorem stored_challenge_kept_hotp :
    (∃ r', kept .localMode bob (serve sampleCrypto (stateLine "5:bob:0000000000000001:::0:0:0:")
        (papCall (hmacUser "hotp-d6") "000000" 1000)).2 = some r' ∧
        r'.challenge = [0, 0, 0, 0, 0, 0, 0, 1] ∧ r'.csd = StateField.empty 63 ∧
        r'.mincardtime = 0) ↔
      (([0, 0, 0, 0, 0, 0, 0, 1] : List Byte).length = 8 ∨
        searchesWindow sampleCrypto (papCall (hmacUser "hotp-d6") "000000" 1000) = false) ∧
      ((papCall (hmacUser "hotp-d6") "000000" 1000).env.io.put = .done ∨
        ¬ AcceptedOnAnother sampleCrypto (stateLine "5:bob:0000000000000001:::0:0:0:")
          (papCall (hmacUser "hotp-d6") "000000" 1000)
          ⟨[0, 0, 0, 0, 0, 0, 0, 1], by decide, StateField.empty 63, StateField.empty 31, 0, 0, 0⟩) :=
  stored_challenge_kept_iff sampleCrypto bob .localMode
    (stateLine "5:bob:0000000000000001:::0:0:0:")
    ⟨[0, 0, 0, 0, 0, 0, 0, 1], by decide, StateField.empty 63, StateField.empty 31, 0, 0, 0⟩
    (by decide +kernel) (papCall (hmacUser "hotp-d6") "000000" 1000) (papCall_plain _ _ _ rfl)
    (by decide +kernel) (by decide +kernel)

/-- A CRYPTOCard with a window of two positions. -/
def smallWindowUser : User := { desUser "cryptocard-h8-es" with rwindowSize := 1 }

def gsmdCall : Call :=
  { papCall (hmacUser "hotp-d6") "287082" 1000 with
    config := { defaultConfig with stateMode := .globalMode } }

/-- gsmd carries out the PUT, and its answer does not arrive. -/
def unacknowledgedCall : Call :=
  { gsmdCall with env := { gsmdCall.env with
      io := { granted := true, readable := true, put := .unacknowledged } } }

/-- The four-byte challenge of the README grows to eight bytes on a wrong passcode, and a
right passcode whose PUT is not acknowledged moves one of eight bytes. -/
theorem stored_challenge_rewritten :
    ((papCall smallWindowUser "00000000" 1000).Plain bob .localMode ∧
      persists sampleCrypto (stateLine "5:bob:12345678:::0:0:0:")
        (papCall smallWindowUser "00000000" 1000) = true ∧
      (kept .localMode bob (stateLine "5:bob:12345678:::0:0:0:")).map StateRecord.challenge =
        some [0x12, 0x34, 0x56, 0x78] ∧
      (serve sampleCrypto (stateLine "5:bob:12345678:::0:0:0:")
        (papCall smallWindowUser "00000000" 1000)).1.rc = .authErr ∧
      (kept .localMode bob (serve sampleCrypto (stateLine "5:bob:12345678:::0:0:0:")
        (papCall smallWindowUser "00000000" 1000)).2).map StateRecord.challenge =
          some [0x12, 0x34, 0x56, 0x78, 0, 0, 0, 0]) ∧
    (unacknowledgedCall.Plain bob .globalMode ∧
      persists sampleCrypto (some (ascii "5:bob:0000000000000000:::0:0:0:")) unacknowledgedCall =
        true ∧
      (serve sampleCrypto (some (ascii "5:bob:0000000000000000:::0:0:0:")) unacknowledgedCall).1.rc =
        .serviceErr ∧
      (kept .globalMode bob (serve sampleCrypto (some (ascii "5:bob:0000000000000000:::0:0:0:"))
        unacknowledgedCall).2).map StateRecord.challenge = some [0, 0, 0, 0, 0, 0, 0, 1]) :=
  ⟨⟨papCall_plain _ _ _ rfl, by decide +kernel, by decide +kernel, by decide +kernel,
      by decide +kernel⟩,
    ⟨rfl, rfl, fun _ found => by cases found; rfl⟩, by decide +kernel, by decide +kernel,
      by decide +kernel⟩

/-! ## Atomicity of one call -/

section Atomic

variable (crypto : Crypto) (mods : List CardOps) (config : Config) (request : Request) (env : Env)
  (store : Store)

/-- A success goes with a match and was persisted: counters reset, and after a sync match the
challenge of the matched position. -/
def OkPersisted (out : Outcome) : Prop :=
  out.rc = .ok → env.io.put = .done ∧ out.matched.isSome = true ∧ ∃ r : StateRecord,
    out.store = persist config.stateMode (stateUnparse request.username r) ∧
    r.failcount = 0 ∧ r.authtime = env.now.toU32 ∧
    ∀ t e challenge clen, out.matched = some (.sync t e challenge clen) →
      r.challenge = challenge.bytes.take clen

/-- A service error changes nothing, unless `state_put` was called and failed. -/
def ServiceErrUnchanged (out : Outcome) : Prop :=
  out.rc = .serviceErr → out.store ≠ store → env.io.put ≠ .done ∧ Event.release ∈ out.events

/-- A lock that was taken is released once, and none is released untaken. -/
def LockReleased (out : Outcome) : Prop := out.events = [] ∨ out.events = [.acquire, .release]

def reachesStateGet : Bool := (prepare crypto mods config request env).isOk

/-- gsmd is left with the lock: it granted a GET whose answer `gsmd()` or `state_parse` did
not accept, or the PUT for a loaded state did not reach it. -/
def LeavesLock : Prop :=
  config.stateMode = .globalMode ∧
    (env.io.granted = false ∧ env.io.lost = true ∨
      env.io.granted = true ∧
        (kept .globalMode request.username store = none ∨ env.io.put = .failed))

/-- `updatecsd` leaves the length of the challenge alone. -/
def CardOps.KeepsLength (ops : CardOps) : Prop :=
  ∀ data now t e rc after, ops.updatecsd data now t e rc = some after → after.clen = data.clen

theorem cardops_keepLength (crypto : Crypto) (undef : Undef) :
    ∀ ops ∈ cardops crypto undef, ops.KeepsLength := by
  intro ops member data now t e rc after updated
  obtain ⟨m, -, rfl⟩ := List.mem_map.mp member
  rw [m.updatecsd_data crypto undef updated]
  exact (m.recorded_fields data rc e).1

variable {crypto mods config request env store}

theorem stateGet_refused {username : Username} {io : StateIo} {p : Prepared}
    (got : (stateGet config username io store p.state).1 = none) :
    ((stateGet config username io store p.state).2 = [] ∧ io.granted = false ∧
        ¬ (config.stateMode = .globalMode ∧ io.lost = true)) ∨
      ((stateGet config username io store p.state).2 = [.acquire, .release] ∧
        config.stateMode = .localMode) ∨
      ((stateGet config username io store p.state).2 = [.acquire] ∧
        config.stateMode = .globalMode ∧ (io.granted = false ∧ io.lost = true ∨
          io.granted = true ∧ kept .globalMode username store = none)) := by
  unfold stateGet at got ⊢
  by_cases granted : io.granted = false
  · rw [if_pos granted]
    by_cases lost : config.stateMode = .globalMode ∧ io.lost = true
    · exact Or.inr (Or.inr ⟨if_pos lost, lost.1, Or.inl ⟨granted, lost.2⟩⟩)
    · exact Or.inl ⟨if_neg lost, granted, lost⟩
  · rw [if_neg granted] at got ⊢
    have granted : io.granted = true := by simpa using granted
    cases mode : config.stateMode with
    | localMode =>
        simp only [mode] at got ⊢
        refine Or.inr (Or.inl ⟨?_, trivial⟩)
        split at got
        · rfl
        · split at got
          · rfl
          · cases got
    | globalMode =>
        simp only [mode] at got ⊢
        refine Or.inr (Or.inr ?_)
        split at got
        · rename_i impossible
          cases store <;> simp [deliver] at impossible
        · rename_i buf delivered
          split at got
          · rename_i rejected
            refine ⟨rfl, trivial, Or.inr ⟨granted, ?_⟩⟩
            unfold stateParse at rejected
            by_cases empty : buf = []
            · simp [empty] at rejected
            · rw [if_neg empty, Option.map_eq_none_iff] at rejected
              simp only [kept, deliver_readable delivered, if_neg empty, rejected]
          · cases got

theorem authenticate_reply {p : Prepared} {state : State} {l : Locals}
    (keeps : p.ops.KeepsLength)
    (result : authenticate crypto config request env p state = (.authDone, l)) :
    l.rc ≠ .serviceErr ∧ (l.rc = .ok → l.matched.isSome = true) ∧
      ∀ t e challenge clen, l.matched = some (.sync t e challenge clen) →
        l.resync = true ∧ l.challenge = challenge ∧ l.state.clen = clen := by
  have verdict := authenticate_cases crypto config request env p state
  rw [result] at verdict
  cases verdict with
  | serviceErr _ _ notDone => exact absurd rfl notDone
  | async resolved =>
      refine ⟨?_, fun _ => rfl, fun _ _ _ _ isSync => by cases isSync⟩
      dsimp only [asyncRc]
      repeat' split
      all_goals decide
  | noSync =>
      exact ⟨fun failed => (by cases failed), fun ok => (by cases ok),
        fun _ _ _ _ isSync => by cases isSync⟩
  | noMatch =>
      exact ⟨fun failed => (by cases failed), fun ok => (by cases ok),
        fun _ _ _ _ isSync => by cases isSync⟩
  | hit resolved t e rest before data after previous challenge response _ _ _ _ _ _ _ _ recorded =>
      refine ⟨?_, fun _ => rfl, ?_⟩
      · dsimp only [syncRc]
        repeat' split
        all_goals decide
      · intro _ _ _ _ isSync
        cases isSync
        exact ⟨rfl, rfl, keeps _ _ _ _ _ _ recorded⟩

theorem prepared_reaches {p : Prepared} (prepared : prepare crypto mods config request env = .ok p) :
    reachesStateGet crypto mods config request env = true := by
  simp [reachesStateGet, prepared, Except.isOk, Except.toBool]

/-- A loaded state was granted by gsmd, so that only the PUT decides. -/
theorem leavesLock_loaded {p : Prepared} {state : State}
    (got : (stateGet config request.username env.io store p.state).1 = some state) :
    LeavesLock config request env store ↔
      config.stateMode = .globalMode ∧ env.io.put = .failed := by
  have granted : env.io.granted = true := by
    by_contra refused
    rw [stateGet, if_pos (by simpa using refused)] at got
    cases got
  obtain ⟨r, stored, -⟩ := stateGet_kept got
  refine and_congr_right fun mode => ?_
  rw [mode] at stored
  simp [granted, stored]

theorem lockReleased_loaded {p : Prepared} {state : State} {out : Outcome}
    (prepared : prepare crypto mods config request env = .ok p)
    (got : (stateGet config request.username env.io store p.state).1 = some state)
    (events : out.events = .acquire :: putEvents config env.io) :
    LockReleased out ↔ ¬ (reachesStateGet crypto mods config request env = true ∧
      LeavesLock config request env store) := by
  rw [prepared_reaches prepared, leavesLock_loaded got, LockReleased, events, putEvents]
  rcases config.stateMode with _ | _
  · simp
  · rcases env.io.put with _ | _ | _ <;> simp

theorem lockReleased_refused {p : Prepared} {out : Outcome}
    (prepared : prepare crypto mods config request env = .ok p)
    (got : (stateGet config request.username env.io store p.state).1 = none)
    (events : out.events = (stateGet config request.username env.io store p.state).2) :
    LockReleased out ↔ ¬ (reachesStateGet crypto mods config request env = true ∧
      LeavesLock config request env store) := by
  rcases stateGet_refused got with ⟨none, denied, notLost⟩ | ⟨both, mode⟩ | ⟨one, mode, why⟩
  · refine iff_of_true (Or.inl (events.trans none)) ?_
    rintro ⟨-, mode, ⟨-, lost⟩ | ⟨granted, -⟩⟩
    · exact notLost ⟨mode, lost⟩
    · rw [denied] at granted
      cases granted
  · refine iff_of_true (Or.inr (events.trans both)) ?_
    rintro ⟨-, wrong, -⟩
    rw [mode] at wrong
    cases wrong
  · refine iff_of_false ?_ (not_not.mpr ⟨prepared_reaches prepared, mode, ?_⟩)
    · intro released
      simp [LockReleased, events, one] at released
    · rcases why with lost | ⟨granted, rejected⟩
      · exact Or.inl lost
      · exact Or.inr ⟨granted, Or.inl rejected⟩

/-- One call of `verify` is atomic exactly when it does not leave gsmd with the lock. -/
theorem verify_atomic_iff (crypto : Crypto) (mods : List CardOps)
    (lengths : ∀ ops ∈ mods, ops.KeepsLength) (config : Config) (request : Request) (env : Env)
    (store : Store) (noPassword : ∀ user, env.get = .found user → user.password = none) :
    (OkPersisted config request env (verify crypto mods config request env store) ∧
      ServiceErrUnchanged env store (verify crypto mods config request env store) ∧
      LockReleased (verify crypto mods config request env store)) ↔
    ¬ (reachesStateGet crypto mods config request env = true ∧
      LeavesLock config request env store) := by
  have verdict := verify_verdict crypto mods config request env store
  generalize verify crypto mods config request env store = out at verdict ⊢
  have failed : out.rc = .serviceErr → OkPersisted config request env out := by
    intro rc ok
    rw [rc] at ok
    cases ok
  cases verdict with
  | early exit out prepared rc same events matched =>
      have notOk : out.rc ≠ .ok := by
        rw [rc]
        rcases prepare_error prepared noPassword with known | known | known | ⟨known, -⟩ <;>
          rw [known] <;> decide
      have notReached : ¬ reachesStateGet crypto mods config request env = true := by
        simp [reachesStateGet, prepared, Except.isOk, Except.toBool]
      exact iff_of_true ⟨fun ok => absurd ok notOk, fun _ changed => absurd same changed,
        Or.inl events⟩ (fun both => notReached both.1)
  | refused p out prepared got rc same events matched =>
      rw [← lockReleased_refused prepared got events]
      exact ⟨fun all => all.2.2,
        fun lock => ⟨failed rc, fun _ changed => absurd same changed, lock⟩⟩
  | aborted p state label l out prepared got result notDone rc same events =>
      rw [← lockReleased_loaded prepared got events]
      exact ⟨fun all => all.2.2,
        fun lock => ⟨failed rc, fun _ changed => absurd same changed, lock⟩⟩
  | saved p state l out prepared got result put rc matched written events =>
      rw [(put_done config put).2.symm] at events
      obtain ⟨user, -, -, found, -⟩ := prepare_ok prepared
      obtain ⟨notServiceErr, some, resync⟩ :=
        authenticate_reply (lengths p.ops (List.mem_of_find?_eq_some found)) result
      rw [← lockReleased_loaded prepared got events]
      refine ⟨fun all => all.2.2, fun lock => ⟨?_, ?_, lock⟩⟩
      · intro ok
        rw [rc] at ok
        refine ⟨put, matched ▸ some ok, _, written, by simp [ok], by simp [ok], ?_⟩
        intro t e challenge clen isSync
        obtain ⟨forced, same, length⟩ := resync t e challenge clen (matched.symm.trans isSync)
        rw [authDone_challenge, if_pos ⟨ok, forced⟩, same, length]
      · intro serviceErr
        rw [rc] at serviceErr
        exact absurd serviceErr notServiceErr
  | unsaved p state l out prepared got result put rc matched written events =>
      rw [← lockReleased_loaded prepared got events]
      refine ⟨fun all => all.2.2, fun lock => ⟨failed rc, ?_, lock⟩⟩
      intro _ changed
      refine ⟨put, ?_⟩
      rw [written] at changed
      rw [events, putEvents]
      rw [putCarried] at changed
      rcases config.stateMode with _ | _
      · simp
      · rcases answer : env.io.put with _ | _ | _
        · simp
        · simp [answer] at changed
        · simp

theorem verify_atomic_gsmd :
    (OkPersisted gsmdCall.config gsmdCall.request gsmdCall.env
        (verify sampleCrypto (cardops sampleCrypto gsmdCall.env.undef) gsmdCall.config
          gsmdCall.request gsmdCall.env (some (ascii "5:bob:0000000000000000:::0:0:0:"))) ∧
      ServiceErrUnchanged gsmdCall.env (some (ascii "5:bob:0000000000000000:::0:0:0:"))
        (verify sampleCrypto (cardops sampleCrypto gsmdCall.env.undef) gsmdCall.config
          gsmdCall.request gsmdCall.env (some (ascii "5:bob:0000000000000000:::0:0:0:"))) ∧
      LockReleased
        (verify sampleCrypto (cardops sampleCrypto gsmdCall.env.undef) gsmdCall.config
          gsmdCall.request gsmdCall.env (some (ascii "5:bob:0000000000000000:::0:0:0:")))) ↔
    ¬ (reachesStateGet sampleCrypto (cardops sampleCrypto gsmdCall.env.undef) gsmdCall.config
        gsmdCall.request gsmdCall.env = true ∧
      LeavesLock gsmdCall.config gsmdCall.request gsmdCall.env
        (some (ascii "5:bob:0000000000000000:::0:0:0:"))) :=
  verify_atomic_iff sampleCrypto (cardops sampleCrypto gsmdCall.env.undef)
    (cardops_keepLength sampleCrypto gsmdCall.env.undef) gsmdCall.config
    gsmdCall.request gsmdCall.env (some (ascii "5:bob:0000000000000000:::0:0:0:"))
    (fun _ found => by cases found; rfl)

/-- A line of another version in gsmd: the lock taken by the GET stays taken. -/
theorem rejected_answer_keeps_lock :
    (∀ user, gsmdCall.env.get = .found user → user.password = none) ∧
      (serve sampleCrypto (some (ascii "4:bob:0000000000000000:::0:0:0:")) gsmdCall).1.rc =
        .serviceErr ∧
      (serve sampleCrypto (some (ascii "4:bob:0000000000000000:::0:0:0:")) gsmdCall).1.events =
        [.acquire] :=
  ⟨fun _ found => by cases found; rfl, by decide +kernel, by decide +kernel⟩

end Atomic

end Otpd

import Otpd.Session

/-!
# One attempt, at the level of records

`kept` reads the record a store stands for.  `serve_cases` splits a call without
static password into those that leave the store alone and the `Attempt`s, which
got as far as `auth_done` with a loaded state.  `Attempt.verdict` gives the ways
such a call ends for the five card modules, and the `authDone` lemmas what is written.
-/

set_option autoImplicit false

namespace Otpd

open CMem

/-! ## What a store holds -/

def StateRecord.blank : StateRecord := State.init.record

/-- What `state_parse` makes of a store: null state reads as the blank record. -/
def kept (mode : StateMode) (username : Username) (store : Store) : Option StateRecord :=
  match deliver mode true store with
  | none => none
  | some buf => if buf = [] then some StateRecord.blank else parseLine buf username

theorem kept_of_recordIn {mode : StateMode} {username : Username} {store : Store}
    {record : StateRecord} (stored : recordIn mode username store = some record) :
    kept mode username store = some record := by
  unfold recordIn at stored
  unfold kept
  cases delivered : deliver mode true store with
  | none => simp [delivered] at stored
  | some buf =>
      simp only [delivered] at stored ⊢
      by_cases empty : buf = []
      · simp [empty] at stored
      · rwa [if_neg empty] at stored ⊢

@[simp]
theorem kept_persist (mode mode' : StateMode) (username : Username) (record : StateRecord) :
    kept mode' username (persist mode (stateUnparse username record)) = some record :=
  kept_of_recordIn (recordIn_persist mode mode' username record)

/-- The state `state_get` hands over for a record: loaded from a line, or null. -/
def Loads (p : Prepared) (r : StateRecord) (state : State) : Prop :=
  state = loadedState p.state r ∨ (r = StateRecord.blank ∧ state = nullState p.state)

theorem Loads.record {p : Prepared} {r : StateRecord} {state : State} (loads : Loads p r state) :
    state.record = r := by
  rcases loads with rfl | ⟨rfl, rfl⟩
  · exact State.record_fill p.state r
  · rfl

theorem stateGet_kept {config : Config} {username : Username} {io : StateIo} {store : Store}
    {p : Prepared} {state : State}
    (got : (stateGet config username io store p.state).1 = some state) :
    ∃ r, kept config.stateMode username store = some r ∧ Loads p r state := by
  rcases (stateGet_loaded got).2 with ⟨record, stored, rfl⟩ | ⟨empty, rfl⟩
  · exact ⟨record, kept_of_recordIn stored, Or.inl rfl⟩
  · refine ⟨StateRecord.blank, ?_, Or.inr ⟨rfl, rfl⟩⟩
    rw [NullStore] at empty
    simp [kept, empty]

/-! ## What `auth_done` writes -/

section Written

variable (now : Time) (l : Locals)

@[simp]
theorem authDone_rd : (authDone now l).record.rd = l.state.rd := by
  unfold authDone; split <;> rfl

@[simp]
theorem authDone_csd : (authDone now l).record.csd = l.state.csd := by
  unfold authDone; split <;> rfl

@[simp]
theorem authDone_mincardtime : (authDone now l).record.mincardtime = l.state.mincardtime := by
  unfold authDone; split <;> rfl

@[simp]
theorem authDone_failcount : (authDone now l).record.failcount =
    if l.rc = .ok then 0 else bumpFailcount l.state.failcount := by
  unfold authDone; split <;> rfl

@[simp]
theorem authDone_authtime : (authDone now l).record.authtime =
    if l.rc ≠ .ok ∧ l.state.nullstate = true then -now.toU32 else now.toU32 := by
  unfold authDone
  split
  · rename_i success
    simp [success, State.record]
  · rename_i failure
    simp [failure, State.record]

@[simp]
theorem authDone_challenge : (authDone now l).record.challenge =
    (if l.rc = .ok ∧ l.resync = true then l.challenge else l.state.challenge).bytes.take
      l.state.clen := by
  have fits : (l.challenge.bytes.take l.state.clen).length = l.state.clen := by
    have := l.state.clen.isLt
    rw [List.length_take, l.challenge.size]
    omega
  unfold authDone
  split
  · rename_i success
    cases resync : l.resync with
    | false => simp [success, State.record]
    | true =>
        simp only [State.record, success, if_true, and_self]
        exact Buffer.copy_take_of_eq _ (by have := l.state.clen.isLt; omega) fits
  · rename_i failure
    simp [failure, State.record]

end Written

/-! ## The card methods of the repository -/

namespace CardModule

variable (crypto : Crypto) (undef : Undef) (m : CardModule)

/-- Card data once `challenge` has been called: only the event modules touch it. -/
def stepped (m : CardModule) (data : CardData) : CardData :=
  match m with
  | .hotp | .cryptocard => { data with clen := eventClen }
  | _ => data

@[simp]
theorem stepped_stepped (data : CardData) : m.stepped (m.stepped data) = m.stepped data := by
  cases m <;> rfl

theorem stepped_fields (data : CardData) :
    (m.stepped data).rd = data.rd ∧ (m.stepped data).csd = data.csd ∧
      (m.stepped data).mincardtime = data.mincardtime ∧
      (m.stepped data).challenge = data.challenge := by
  cases m <;> exact ⟨rfl, rfl, rfl, rfl⟩

theorem challenge_data {user : User} {data : CardData} {challenge : Buffer 16} {now : Time}
    {t e : Nat} (success : ((m.ops crypto undef).challenge user data challenge now t e).1 ≠ .error) :
    ((m.ops crypto undef).challenge user data challenge now t e).2.1 = m.stepped data := by
  cases m with
  | c200 => rfl
  | hotp => rfl
  | totp => rfl
  | x99 => exact absurd rfl success
  | cryptocard =>
      change (cryptocardChallenge crypto undef user data challenge now t e).1 ≠ .error at success
      change (cryptocardChallenge crypto undef user data challenge now t e).2.1 = _
      unfold cryptocardChallenge at success ⊢
      cases mac : x99Mac crypto undef (challenge.bytes.take data.clen) (user.key.take 8) with
      | none => simp [mac] at success
      | some output => rfl

theorem nullstate_data {user : User} {data data' : CardData} {now : Time}
    (success : (m.ops crypto undef).nullstate user data now = some data') : data' = data := by
  cases m <;> first | exact (Option.some.inj success).symm | cases success

@[simp]
theorem maxtwin_eq (user : User) (data : CardData) (now : Time) :
    (m.ops crypto undef).maxtwin user data now = 0 := by
  cases m <;> rfl

def recorded (m : CardModule) (data : CardData) (rc : Rc) (e : Nat) : CardData :=
  match m with
  | .hotp | .cryptocard =>
      { data with rd := if rc = .ok then StateField.empty 31 else rdOfEwin e }
  | _ => data

theorem recorded_fields (data : CardData) (rc : Rc) (e : Nat) :
    (m.recorded data rc e).clen = data.clen ∧ (m.recorded data rc e).csd = data.csd ∧
      (m.recorded data rc e).mincardtime = data.mincardtime ∧
      (m.recorded data rc e).challenge = data.challenge := by
  cases m <;> exact ⟨rfl, rfl, rfl, rfl⟩

theorem updatecsd_data {data after : CardData} {now : Time} {t e : Nat} {rc : Rc}
    (success : (m.ops crypto undef).updatecsd data now t e rc = some after) :
    after = m.recorded data rc e := by
  have event : eventUpdatecsd data now t e rc = some after →
      after = { data with rd := if rc = .ok then StateField.empty 31 else rdOfEwin e } := by
    intro run
    unfold eventUpdatecsd at run
    by_cases isOk : rc = .ok
    · rw [if_pos isOk] at run ⊢
      exact (Option.some.inj run).symm
    · rw [if_neg isOk] at run ⊢
      exact (Option.some.inj run).symm
  cases m with
  | c200 => exact (Option.some.inj success).symm
  | totp => exact (Option.some.inj success).symm
  | x99 => cases success
  | hotp => exact event success
  | cryptocard => exact event success

/-- The modules whose `updatecsd` and `isconsecutive` go through `rd`. -/
def isEvent (m : CardModule) : Bool := m = .hotp ∨ m = .cryptocard

theorem recorded_event (kind : m.isEvent = true) (data : CardData) (rc : Rc) (e : Nat) :
    (m.recorded data rc e).rd = if rc = .ok then StateField.empty 31 else rdOfEwin e := by
  cases m <;> first | rfl | cases kind

theorem isconsecutive_event (kind : m.isEvent = true) :
    (m.ops crypto undef).isconsecutive = eventIsconsecutive := by
  cases m <;> first | rfl | cases kind

end CardModule

/-! ## Attempts -/

/-- A call that reached `auth_done` with a loaded state: `r` is the record it
read, `l` the local variables at the label. -/
structure Attempt (crypto : Crypto) (call : Call) (store : Store) (out : Outcome) (m : CardModule)
    (r : StateRecord) (p : Prepared) (state : State) (l : Locals) : Prop where
  prepared : prepareCall crypto call = .ok p
  runs : p.ops = m.ops crypto call.env.undef
  mask : p.user.featuremask ∈ m.masks
  card : ∃ user, call.env.get = .found user ∧ cardOf user.card = some m ∧
    p.user.rwindowSize = user.rwindowSize
  stored : kept call.config.stateMode call.request.username store = some r
  loads : Loads p r state
  result : authenticate crypto call.config call.request call.env p state = (.authDone, l)
  matched : out.matched = l.matched
  written : (out.rc = l.rc ∧ call.env.io.put = .done ∧
      out.store = persist call.config.stateMode
        (stateUnparse call.request.username (authDone call.env.now l).record)) ∨
    (out.rc = .serviceErr ∧ call.env.io.put ≠ .done ∧ (out.store = store ∨
      out.store = persist call.config.stateMode
        (stateUnparse call.request.username (authDone call.env.now l).record)))
  carried : putCarried call.config call.env.io = true → out.store = persist call.config.stateMode
    (stateUnparse call.request.username (authDone call.env.now l).record)

/-- A call that ended before `auth_done`, or there without a loaded state. -/
def Untouched (crypto : Crypto) (call : Call) (store : Store) (out : Outcome) : Prop :=
  out.store = store ∧
    (out.rc = .userUnknown ∨ out.rc = .authinfoUnavail ∨ out.rc = .serviceErr ∨
      (out.rc = .authErr ∧ lengthRejected call = true ∧
        ∃ exit, prepareCall crypto call = .error exit))

theorem Untouched.not_ok {crypto : Crypto} {call : Call} {store : Store} {out : Outcome}
    (untouched : Untouched crypto call store out) : out.rc ≠ .ok := by
  rcases untouched.2 with rc | rc | rc | ⟨rc, -⟩ <;> rw [rc] <;> decide

def Rc.failed (rc : Rc) : Bool := rc = .authErr ∨ rc = .maxtries ∨ rc = .nextpasscode

def Rc.noVerdict (rc : Rc) : Bool := rc ≠ .ok ∧ rc.failed = false

theorem Untouched.noVerdict {crypto : Crypto} {call : Call} {store : Store} {out : Outcome}
    (untouched : Untouched crypto call store out) (length : lengthRejected call = false) :
    out.rc.noVerdict = true := by
  rcases untouched.2 with rc | rc | rc | ⟨-, rejected, -⟩
  · rw [rc]; rfl
  · rw [rc]; rfl
  · rw [rc]; rfl
  · rw [length] at rejected
    cases rejected

/-- A call that makes no attempt leaves the store alone; it exits early or reports a
service error. -/
theorem serve_split (crypto : Crypto) (store : Store) (call : Call) :
    ((serve crypto store call).1.store = store ∧
      ((serve crypto store call).1.rc = .serviceErr ∨ ∃ exit,
        prepareCall crypto call = .error exit ∧ (serve crypto store call).1.rc = exit.rc)) ∨
      ∃ m r p state l, Attempt crypto call store (serve crypto store call).1 m r p state l ∧
        (stateGet call.config call.request.username call.env.io store p.state).1 = some state := by
  have verdict := serve_verdict crypto store call
  generalize (serve crypto store call).1 = out at verdict ⊢
  cases verdict with
  | early exit out prepared rc kept _ _ => exact Or.inl ⟨kept, Or.inr ⟨exit, prepared, rc⟩⟩
  | refused _ _ _ _ rc kept _ _ => exact Or.inl ⟨kept, Or.inl rc⟩
  | aborted _ _ _ _ _ _ _ _ _ rc kept _ => exact Or.inl ⟨kept, Or.inl rc⟩
  | saved p state l out prepared got result put rc matched written _ =>
      obtain ⟨user, m, found, -, card, runs, mask, window⟩ := prepare_module prepared
      obtain ⟨r, stored, loads⟩ := stateGet_kept got
      exact Or.inr ⟨m, r, p, state, l,
        ⟨prepared, runs, mask, ⟨user, found, card, window⟩, stored, loads, result, matched,
          Or.inl ⟨rc, put, written⟩, fun _ => written⟩, got⟩
  | unsaved p state l out prepared got result put rc matched written _ =>
      obtain ⟨user, m, found, -, card, runs, mask, window⟩ := prepare_module prepared
      obtain ⟨r, stored, loads⟩ := stateGet_kept got
      refine Or.inr ⟨m, r, p, state, l,
        ⟨prepared, runs, mask, ⟨user, found, card, window⟩, stored, loads, result, matched,
          Or.inr ⟨rc, put, ?_⟩, fun carried => by rw [written, if_pos carried]⟩, got⟩
      rw [written]
      split
      · exact Or.inr rfl
      · exact Or.inl rfl

theorem serve_cases (crypto : Crypto) (store : Store) (call : Call)
    (noPassword : ∀ user, call.env.get = .found user → user.password = none) :
    Untouched crypto call store (serve crypto store call).1 ∨
      ∃ m r p state l, Attempt crypto call store (serve crypto store call).1 m r p state l := by
  rcases serve_split crypto store call with ⟨kept, rc⟩ | ⟨m, r, p, state, l, attempt, -⟩
  · refine Or.inl ⟨kept, ?_⟩
    rcases rc with rc | ⟨exit, prepared, rc⟩
    · exact Or.inr (Or.inr (Or.inl rc))
    · rw [rc]
      rcases prepare_exit prepared noPassword with known | known | known | ⟨known, rejected⟩
      · exact Or.inl known
      · exact Or.inr (Or.inl known)
      · exact Or.inr (Or.inr (Or.inl known))
      · exact Or.inr (Or.inr (Or.inr ⟨known, rejected, exit, prepared⟩))
  · exact Or.inr ⟨m, r, p, state, l, attempt⟩

/-- `authtime` without the sign that marks a null state. -/
def absTime (authtime : UInt32) : UInt32 := if authtime ≥ 0x80000000 then -authtime else authtime

structure Resolves (state resolved : State) : Prop where
  data : resolved.toCardData = state.toCardData
  locked : resolved.locked = state.locked
  failcount : resolved.failcount = state.failcount
  authtime : resolved.authtime = absTime state.authtime
  nullstate : resolved.nullstate = (state.nullstate || decide (state.authtime ≥ 0x80000000))

theorem Loads.resolves {crypto : Crypto} {undef : Undef} {m : CardModule} {p : Prepared}
    {r : StateRecord} {state resolved : State} {now : Time} (loads : Loads p r state)
    (runs : p.ops = m.ops crypto undef) (found : resolveNullstate p state now = some resolved) :
    Resolves state resolved := by
  unfold resolveNullstate at found
  by_cases null : state.nullstate = true
  · have zero : state.authtime = 0 := by
      rcases loads with rfl | ⟨-, rfl⟩
      · simp [loadedState, State.fill] at null
      · rfl
    rw [if_pos null, runs] at found
    obtain ⟨data, run, rfl⟩ := Option.map_eq_some_iff.mp found
    exact ⟨m.nullstate_data crypto _ run, rfl, rfl, by simp [zero, absTime], by simp [null]⟩
  · rw [if_neg null] at found
    by_cases negative : state.authtime ≥ 0x80000000
    · rw [if_pos negative] at found
      cases found
      exact ⟨rfl, rfl, rfl, by simp only [absTime, if_pos negative], by simp [negative]⟩
    · rw [if_neg negative] at found
      cases found
      exact ⟨rfl, rfl, rfl, by simp only [absTime, if_neg negative], by simp [negative]⟩

/-- Loop invariant of the five modules: the card data is the loaded one until the
first `challenge` call, and stepped from there on. -/
def Stepping (m : CardModule) (base : CardData) (all : List (Nat × Nat)) : LoopInv :=
  fun positions data _ =>
    (data = m.stepped base ∧ all ≠ []) ∨ (data = base ∧ positions = all)

def searches (crypto : Crypto) (call : Call) (p : Prepared) (data : CardData) : Bool :=
  syncPossible call.request p && decide (0 ≤ eendOf call.config p.user) &&
    !asyncMatches crypto call.config call.request call.env p data

inductive Ending (crypto : Crypto) (call : Call) (p : Prepared) (m : CardModule) (state : State) :
    Locals → Prop where
  | async (resolved : State) (eResponse : List Byte) (resolves : Resolves state resolved)
      (isAsync : asyncMatches crypto call.config call.request call.env p state.toCardData = true) :
      Ending crypto call p m state
        ⟨asyncRc call.request (failCondition call.config call.env.undef resolved call.env.now)
            resolved call.env.now,
          resolved, (asyncChallenge call.config call.request call.env.undef).1, call.request.resync,
          eResponse, some .async⟩
  | wrong (resolved : State) (data : CardData) (challenge : Buffer 16) (eResponse : List Byte)
      (resolves : Resolves state resolved)
      (notAsync : asyncMatches crypto call.config call.request call.env p state.toCardData = false)
      (searched : (data = m.stepped state.toCardData ∧ syncPossible call.request p = true ∧
          0 ≤ eendOf call.config p.user) ∨
        (data = state.toCardData ∧
          (syncPossible call.request p = false ∨ eendOf call.config p.user < 0))) :
      Ending crypto call p m state
        ⟨.authErr, { resolved with toCardData := data }, challenge, call.request.resync, eResponse,
          none⟩
  | hit (resolved : State) (e : Nat) (challenge : Buffer 16) (response : List Byte) (rc : Rc)
      (resolves : Resolves state resolved)
      (notAsync : asyncMatches crypto call.config call.request call.env p state.toCardData = false)
      (on : syncPossible call.request p = true)
      (position : (e : Int) ≤ eendOf call.config p.user)
      (answered : p.ops.response p.user (m.stepped state.toCardData) challenge
        (m.stepped state.toCardData).clen (call.env.clock 0 e) = some response)
      (equal : compare crypto call.request
        (expectedPasscode call.config p.user response) = true)
      (reply : rc = syncRc call.config p
        (failCondition call.config call.env.undef resolved call.env.now)
        { resolved with toCardData := m.stepped state.toCardData } call.env.now e) :
      Ending crypto call p m state
        ⟨rc, { resolved with toCardData := m.recorded (m.stepped state.toCardData) rc e }, challenge,
          true, expectedPasscode call.config p.user response, some (.sync 0 e challenge (m.stepped state.toCardData).clen)⟩

namespace Attempt

variable {crypto : Crypto} {call : Call} {store : Store} {out : Outcome} {m : CardModule}
  {r : StateRecord} {p : Prepared} {state : State} {l : Locals}

theorem stored_plain (attempt : Attempt crypto call store out m r p state l) {username : Username}
    {mode : StateMode} (plain : call.Plain username mode) : kept mode username store = some r := by
  rw [← plain.sameMode, ← plain.sameUser]
  exact attempt.stored

theorem same_record (attempt : Attempt crypto call store out m r p state l) {username : Username}
    {mode : StateMode} (plain : call.Plain username mode) {r' : StateRecord}
    (stored : kept mode username store = some r') : r = r' :=
  Option.some.inj ((attempt.stored_plain plain).symm.trans stored)

theorem loaded (attempt : Attempt crypto call store out m r p state l) : state.record = r :=
  attempt.loads.record

theorem module_eq (attempt : Attempt crypto call store out m r p state l) {m' : CardModule}
    (uses : call.Uses m') : m = m' := by
  obtain ⟨user, found, card, -⟩ := attempt.card
  rw [uses user found] at card
  exact (Option.some.inj card).symm

theorem written_or (attempt : Attempt crypto call store out m r p state l) :
    out.store = store ∨ out.store = persist call.config.stateMode
      (stateUnparse call.request.username (authDone call.env.now l).record) := by
  rcases attempt.written with ⟨-, -, written⟩ | ⟨-, -, written⟩
  · exact Or.inr written
  · exact written

theorem post (attempt : Attempt crypto call store out m r p state l) {username : Username}
    {mode : StateMode} (plain : call.Plain username mode) :
    (out.store = store ∧ out.rc = .serviceErr) ∨
      kept mode username out.store = some (authDone call.env.now l).record := by
  rw [← plain.sameMode, ← plain.sameUser]
  rcases attempt.written with ⟨-, -, written⟩ | ⟨rc, -, same | written⟩
  · exact Or.inr (by rw [written, kept_persist])
  · exact Or.inl ⟨same, rc⟩
  · exact Or.inr (by rw [written, kept_persist])

theorem saved (attempt : Attempt crypto call store out m r p state l) {username : Username}
    {mode : StateMode} (plain : call.Plain username mode) (replied : out.rc ≠ .serviceErr) :
    out.rc = l.rc ∧ kept mode username out.store = some (authDone call.env.now l).record := by
  rcases attempt.written with ⟨rc, -, written⟩ | ⟨rc, -⟩
  · refine ⟨rc, ?_⟩
    rw [← plain.sameMode, ← plain.sameUser, written, kept_persist]
  · exact absurd rc replied

theorem ok_rc (attempt : Attempt crypto call store out m r p state l) (success : out.rc = .ok) :
    l.rc = .ok := by
  rcases attempt.written with ⟨rc, -⟩ | ⟨rc, -⟩
  · rwa [rc] at success
  · rw [rc] at success
    cases success

theorem resolves (attempt : Attempt crypto call store out m r p state l) {resolved : State}
    (found : resolveNullstate p state call.env.now = some resolved) : Resolves state resolved :=
  attempt.loads.resolves attempt.runs found

theorem verdict_with (attempt : Attempt crypto call store out m r p state l) (Inv : LoopInv)
    (advances : Advances call.env p Inv)
    (start : ∀ resolved, Resolves state resolved → ∀ base : Buffer 16,
      Inv (windowOf call.config call.env p resolved) resolved.toCardData
        (base.copy (resolved.challenge.bytes.take resolved.clen))) :
    AuthVerdict crypto call.config call.request call.env p Inv state .authDone l := by
  have verdict := authenticate_verdict crypto call.config call.request call.env p Inv advances state
    (fun resolved found => start resolved (attempt.resolves found))
  rwa [attempt.result] at verdict

theorem window_eq (attempt : Attempt crypto call store out m r p state l) (state' : State) :
    windowOf call.config call.env p state' =
      (List.range (eendOf call.config p.user + 1).toNat).map fun e => (0, e) := by
  simp [windowOf, windowPositions, attempt.runs]

theorem verdict (attempt : Attempt crypto call store out m r p state l) :
    AuthVerdict crypto call.config call.request call.env p
      (Stepping m state.toCardData (windowOf call.config call.env p state)) state .authDone l := by
  apply attempt.verdict_with
  · intro t e rest data challenge inv success
    rw [attempt.runs] at success ⊢
    rw [m.challenge_data crypto _ success]
    rcases inv with ⟨rfl, some⟩ | ⟨rfl, whole⟩
    · exact Or.inl ⟨m.stepped_stepped _, some⟩
    · exact Or.inl ⟨rfl, by rw [← whole]; simp⟩
  · intro resolved resolves base
    rw [attempt.window_eq, attempt.window_eq]
    exact Or.inr ⟨resolves.data, rfl⟩

theorem ending (attempt : Attempt crypto call store out m r p state l) :
    Ending crypto call p m state l := by
  have verdict := attempt.verdict
  cases verdict with
  | serviceErr _ _ notDone => exact absurd rfl notDone
  | async resolved response found isAsync =>
      have resolves := attempt.resolves found
      rw [resolves.data] at isAsync
      exact .async resolved _ resolves isAsync
  | noSync resolved challenge eResponse found notAsync off =>
      have resolves := attempt.resolves found
      rw [resolves.data] at notAsync
      exact .wrong resolved resolved.toCardData challenge eResponse resolves notAsync
        (Or.inr ⟨resolves.data, Or.inl off⟩)
  | noMatch resolved data challenge eResponse found notAsync on inv =>
      have resolves := attempt.resolves found
      rw [resolves.data] at notAsync
      refine .wrong resolved data challenge eResponse resolves notAsync ?_
      have empty : windowOf call.config call.env p state = [] ↔ eendOf call.config p.user < 0 := by
        rw [attempt.window_eq, List.map_eq_nil_iff, List.range_eq_nil]
        omega
      rcases inv with ⟨stepped, some⟩ | ⟨same, none⟩
      · exact Or.inl ⟨stepped, on, by rw [ne_eq, empty] at some; omega⟩
      · exact Or.inr ⟨same, Or.inr (empty.mp none.symm)⟩
  | hit resolved t e rest before data after previous challenge response found notAsync on position
      inv stepped answered equal recorded =>
      have resolves := attempt.resolves found
      rw [resolves.data] at notAsync
      rw [attempt.window_eq] at position
      obtain ⟨e', inside, same⟩ := List.mem_map.mp position
      cases same
      have inside := List.mem_range.mp inside
      rw [attempt.runs] at stepped recorded
      have dataExact : data = m.stepped state.toCardData := by
        have moved : ((m.ops crypto call.env.undef).challenge p.user before previous call.env.now 0
            e).2.1 = m.stepped before := m.challenge_data crypto _ (by rw [stepped]; simp)
        rw [stepped] at moved
        change data = m.stepped before at moved
        rcases inv with ⟨isStepped, -⟩ | ⟨isBase, -⟩
        · rw [moved, isStepped, CardModule.stepped_stepped]
        · rw [moved, isBase]
      subst dataExact
      rw [m.updatecsd_data crypto call.env.undef recorded]
      exact .hit resolved e challenge response _ resolves notAsync on (by omega) answered equal rfl

theorem clen_eq (attempt : Attempt crypto call store out m r p state l) :
    (state.clen : Nat) = r.challenge.length := by
  rcases attempt.loads with rfl | ⟨rfl, rfl⟩ <;> rfl

/-- Of the card data an attempt changes `rd` and the challenge length at most. -/
theorem card_data (attempt : Attempt crypto call store out m r p state l) :
    l.state.challenge = state.challenge ∧ l.state.csd = r.csd ∧
      l.state.mincardtime = r.mincardtime := by
  rw [← attempt.loaded]
  cases attempt.ending with
  | async resolved _ resolves =>
      exact ⟨congrArg CardData.challenge resolves.data, congrArg CardData.csd resolves.data,
        congrArg CardData.mincardtime resolves.data⟩
  | wrong resolved data _ _ _ _ searched =>
      obtain ⟨-, csd, time, challenge⟩ := m.stepped_fields state.toCardData
      rcases searched with ⟨rfl, -⟩ | ⟨rfl, -⟩
      · exact ⟨challenge, csd, time⟩
      · exact ⟨rfl, rfl, rfl⟩
  | hit resolved e _ _ rc =>
      obtain ⟨-, csd, time, challenge⟩ := m.stepped_fields state.toCardData
      obtain ⟨-, csd', time', challenge'⟩ := m.recorded_fields (m.stepped state.toCardData) rc e
      exact ⟨challenge'.trans challenge, csd'.trans csd, time'.trans time⟩

theorem clen_after (attempt : Attempt crypto call store out m r p state l) :
    l.state.clen = if m.isEvent && searches crypto call p state.toCardData then 8
      else state.clen := by
  have stepped : (m.stepped state.toCardData).clen = if m.isEvent then 8 else state.clen := by
    cases m <;> rfl
  cases attempt.ending with
  | async resolved _ resolves isAsync =>
      simp only [searches, isAsync, Bool.not_true, Bool.and_false, Bool.false_eq_true, if_false]
      exact congrArg CardData.clen resolves.data
  | wrong resolved data _ _ _ notAsync searched =>
      rcases searched with ⟨rfl, on, some⟩ | ⟨rfl, off⟩
      · simp only [searches, notAsync, on, some, decide_true, Bool.not_false, Bool.and_true]
        exact stepped
      · have none : searches crypto call p state.toCardData = false := by
          rcases off with off | empty
          · simp [searches, off]
          · simp only [searches, decide_eq_false (not_le.mpr empty), Bool.and_false, Bool.false_and]
        rw [none, Bool.and_false]
        rfl
  | hit resolved e _ _ rc _ notAsync on position =>
      have some : 0 ≤ eendOf call.config p.user := by omega
      simp only [searches, notAsync, on, some, decide_true, Bool.not_false, Bool.and_true]
      rw [(m.recorded_fields _ rc e).1]
      exact stepped

/-- Eight bytes of challenge stay eight bytes, and the same ones without success. -/
theorem challenge_eight (attempt : Attempt crypto call store out m r p state l)
    (eight : r.challenge.length = 8) :
    (authDone call.env.now l).record.challenge.length = 8 ∧
      (l.rc ≠ .ok → (authDone call.env.now l).record.challenge = r.challenge) := by
  have before : state.clen = 8 := Fin.ext (attempt.clen_eq.trans eight)
  have after : l.state.clen = 8 := by
    rw [attempt.clen_after, before]
    split <;> rfl
  rw [authDone_challenge, after]
  refine ⟨?_, ?_⟩
  · rw [List.length_take, Buffer.size]
    rfl
  · intro rejected
    rw [if_neg (fun both => rejected both.1), attempt.card_data.1, ← attempt.loaded]
    simp only [State.record, before]

end Attempt

/-- What holds of the store and of every line an attempt can write holds afterwards. -/
theorem serve_keeps (crypto : Crypto) {store : Store} {call : Call} {Inv : Store → Prop}
    (before : Inv store)
    (writes : ∀ m r p state l, Attempt crypto call store (serve crypto store call).1 m r p state l →
      (stateGet call.config call.request.username call.env.io store p.state).1 = some state →
      Inv (persist call.config.stateMode
        (stateUnparse call.request.username (authDone call.env.now l).record))) :
    Inv (serve crypto store call).2 := by
  change Inv (serve crypto store call).1.store
  rcases serve_split crypto store call with ⟨untouched, -⟩ | ⟨m, r, p, state, l, attempt, got⟩
  · rwa [untouched]
  · rcases attempt.written_or with kept | written
    · rwa [kept]
    · rw [written]
      exact writes m r p state l attempt got

/-- The call let nobody in and left the state as it was. -/
structure Unchanged (crypto : Crypto) (store : Store) (call : Call) : Prop where
  same : (serve crypto store call).2 = store
  notOk : (serve crypto store call).1.rc ≠ .ok
  noVerdict : lengthRejected call = false → (serve crypto store call).1.rc.noVerdict = true

/-- A call either changes nothing or writes the record of an attempt. -/
theorem serve_plain (crypto : Crypto) (store : Store) {call : Call} {username : Username}
    {mode : StateMode} (plain : call.Plain username mode) :
    Unchanged crypto store call ∨
      ∃ m r p state l, Attempt crypto call store (serve crypto store call).1 m r p state l ∧
        kept mode username (serve crypto store call).2 =
          some (authDone call.env.now l).record := by
  rcases serve_cases crypto store call plain.noPassword with
    untouched | ⟨m, r, p, state, l, attempt⟩
  · exact Or.inl ⟨untouched.1, untouched.not_ok, untouched.noVerdict⟩
  · rcases attempt.post plain with ⟨same, failed⟩ | written
    · exact Or.inl ⟨same, by rw [failed]; decide, fun _ => by rw [failed]; rfl⟩
    · exact Or.inr ⟨m, r, p, state, l, attempt, written⟩

end Otpd

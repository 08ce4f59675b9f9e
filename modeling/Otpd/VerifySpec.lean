import Otpd.Verify

/-!
# What one call of `verify` can do

Inversion lemmas for the stages of `verify`, each stated once and used by every
later module instead of unfolding the stages again.  `recordIn` reads a store;
`stateGet_loaded` and `statePut_updated` say what the transport does to it.
`AuthVerdict` lists the ways `authenticate` ends; its parameter `Inv` is an
invariant of the two window loops.  `verify_verdict` puts them together.
-/

set_option autoImplicit false

namespace Otpd

open CMem

/-! ## Reading a store -/

/-- What the stored line denotes, when there is one and it parses. -/
def recordIn (mode : StateMode) (username : Username) (store : Store) : Option StateRecord :=
  match deliver mode true store with
  | none => none
  | some buf => if buf = [] then none else parseLine buf username

def NullStore (mode : StateMode) (store : Store) : Prop := deliver mode true store = some []

theorem recordIn_persist (mode mode' : StateMode) (username : Username) (record : StateRecord) :
    recordIn mode' username (persist mode (stateUnparse username record)) = some record := by
  obtain ⟨tail, delivered⟩ := deliver_persist mode mode' username record
  have nonempty : stateUnparse username record ++ tail ≠ [] := by simp [stateUnparse]
  simp only [recordIn, delivered, if_neg nonempty, parseLine_unparse]

theorem deliver_readable {mode : StateMode} {readable : Bool} {store : Store} {buf : List Byte}
    (delivered : deliver mode readable store = some buf) : deliver mode true store = some buf := by
  cases mode with
  | globalMode => exact delivered
  | localMode =>
      cases readable with
      | true => exact delivered
      | false => simp [deliver, stateRead] at delivered

def loadedState (state : State) (record : StateRecord) : State :=
  { state.fill record with locked := true, updated := false }

def nullState (state : State) : State :=
  { state with nullstate := true, locked := true, updated := false }

theorem stateParse_cases {buf : List Byte} {username : Username} {state loaded : State}
    (parsed : stateParse buf username state = some loaded) :
    (buf = [] ∧ loaded = { state with nullstate := true }) ∨
      (buf ≠ [] ∧ ∃ record, parseLine buf username = some record ∧ loaded = state.fill record) := by
  unfold stateParse at parsed
  by_cases empty : buf = []
  · rw [if_pos empty] at parsed
    exact Or.inl ⟨empty, (Option.some.inj parsed).symm⟩
  · rw [if_neg empty] at parsed
    obtain ⟨record, line, filled⟩ := Option.map_eq_some_iff.mp parsed
    exact Or.inr ⟨empty, record, line, filled.symm⟩

/-- A successful `state_get`: the lock is taken and not given back, and the state
is the stored line or null state. -/
theorem stateGet_loaded {config : Config} {username : Username} {io : StateIo} {store : Store}
    {state loaded : State} (got : (stateGet config username io store state).1 = some loaded) :
    (stateGet config username io store state).2 = [.acquire] ∧
      ((∃ record, recordIn config.stateMode username store = some record ∧
          loaded = loadedState state record) ∨
        (NullStore config.stateMode store ∧ loaded = nullState state)) := by
  unfold stateGet at got ⊢
  by_cases granted : io.granted = false
  · simp [granted] at got
  · rw [if_neg granted] at got ⊢
    -- both modes deliver a buffer and parse it; they differ in the failure events only
    have core : ∀ mode buf parsed, deliver mode io.readable store = some buf →
        stateParse buf username { state with locked := false } = some parsed →
        (∃ record, recordIn mode username store = some record ∧
            { parsed with locked := true, updated := false } = loadedState state record) ∨
          (NullStore mode store ∧
            { parsed with locked := true, updated := false } = nullState state) := by
      intro mode buf parsed delivered run
      have delivered := deliver_readable delivered
      rcases stateParse_cases run with ⟨empty, exact⟩ | ⟨nonempty, record, line, exact⟩
      · subst empty exact
        exact Or.inr ⟨delivered, rfl⟩
      · subst exact
        refine Or.inl ⟨record, ?_, rfl⟩
        simp only [recordIn, delivered, if_neg nonempty, line]
    cases mode : config.stateMode with
    | localMode =>
        simp only [mode] at got ⊢
        cases delivered : deliver .localMode io.readable store with
        | none => simp [delivered] at got
        | some buf =>
            simp only [delivered] at got ⊢
            cases run : stateParse buf username { state with locked := false } with
            | none => simp [run] at got
            | some parsed =>
                simp only [run, Option.some.injEq] at got ⊢
                subst got
                exact ⟨trivial, core .localMode buf parsed delivered run⟩
    | globalMode =>
        simp only [mode] at got ⊢
        cases delivered : deliver .globalMode io.readable store with
        | none => simp [delivered] at got
        | some buf =>
            simp only [delivered] at got ⊢
            cases run : stateParse buf username { state with locked := false } with
            | none => simp [run] at got
            | some parsed =>
                simp only [run, Option.some.injEq] at got ⊢
                subst got
                exact ⟨trivial, core .globalMode buf parsed delivered run⟩

theorem loaded_flags {mode : StateMode} {username : Username} {store : Store}
    {state loaded : State}
    (cases : (∃ record, recordIn mode username store = some record ∧
        loaded = loadedState state record) ∨ (NullStore mode store ∧ loaded = nullState state)) :
    loaded.locked = true ∧ loaded.updated = false := by
  rcases cases with ⟨record, -, rfl⟩ | ⟨-, rfl⟩ <;> exact ⟨rfl, rfl⟩

/-! ## `state_put` -/

/-- The update of `state_put` takes effect: the file is written, or gsmd is reached. -/
def putCarried (config : Config) (io : StateIo) : Bool :=
  match config.stateMode, io.put with
  | _, .done => true
  | .globalMode, .unacknowledged => true
  | _, _ => false

/-- What `state_put` does to the lock: gsmd keeps it if the PUT does not reach it. -/
def putEvents (config : Config) (io : StateIo) : List Event :=
  match config.stateMode, io.put with
  | .globalMode, .failed => []
  | _, _ => [.release]

theorem put_done (config : Config) {io : StateIo} (done : io.put = .done) :
    putCarried config io = true ∧ putEvents config io = [.release] := by
  rw [putCarried, putEvents, done]
  cases config.stateMode <;> exact ⟨rfl, rfl⟩

/-- `state_put` of an updated state: done, or failed with the update possibly
carried out. -/
theorem statePut_updated (config : Config) (username : Username) (io : StateIo) (store : Store)
    {state : State} (locked : state.locked = true) (updated : state.updated = true) :
    let put := statePut config username io store state
    put.events = putEvents config io ∧ put.success = decide (io.put = .done) ∧
      put.store = if putCarried config io then
        persist config.stateMode (stateUnparse username state.record) else store := by
  rcases mode : config.stateMode with _ | _
  · rcases put : io.put with _ | _ | _ <;>
      simp [statePut, putEvents, putCarried, locked, updated, mode, put]
  · rcases put : io.put with _ | _ | _ <;>
      simp [statePut, putEvents, putCarried, locked, updated, mode, put]

theorem statePut_released (config : Config) (username : Username) (io : StateIo) (store : Store)
    {state : State} (locked : state.locked = true) (clean : state.updated = false) :
    let put := statePut config username io store state
    put.events = putEvents config io ∧ put.store = store := by
  rcases mode : config.stateMode with _ | _
  · simp [statePut, putEvents, locked, clean, mode]
  · rcases put : io.put with _ | _ | _ <;> simp [statePut, putEvents, locked, clean, mode, put]

/-! ## The window loops -/

section Window

variable (crypto : Crypto) (config : Config) (request : Request) (env : Env) (p : Prepared)
  (fc : Fc)

/-- An invariant of the window loops, stated at the loop head over the positions
still to be tried. -/
abbrev LoopInv := List (Nat × Nat) → CardData → Buffer 16 → Prop

/-- Each `challenge` call that does not fail carries the invariant on. -/
def Advances (Inv : LoopInv) : Prop :=
  ∀ t e rest data challenge, Inv ((t, e) :: rest) data challenge →
    (p.ops.challenge p.user data challenge env.now t e).1 ≠ .error →
    Inv rest (p.ops.challenge p.user data challenge env.now t e).2.1
      (p.ops.challenge p.user data challenge env.now t e).2.2

inductive WindowVerdict (Inv : LoopInv) (positions : List (Nat × Nat)) (l : Locals) :
    Label → Locals → Prop where
  | serviceErr (data : CardData) (l' : Locals)
      (state : l'.state = { l.state with toCardData := data }) (rc : l'.rc = .serviceErr) :
      WindowVerdict Inv positions l .serviceErr l'
  | noMatch (data : CardData) (challenge : Buffer 16) (eResponse : List Byte)
      (inv : Inv [] data challenge) :
      WindowVerdict Inv positions l .authDone
        ⟨.authErr, { l.state with toCardData := data }, challenge, l.resync, eResponse, l.matched⟩
  | hit (t e : Nat) (rest : List (Nat × Nat)) (before data after : CardData)
      (previous challenge : Buffer 16) (response : List Byte)
      (position : (t, e) ∈ positions)
      (inv : Inv ((t, e) :: rest) before previous)
      (stepped : p.ops.challenge p.user before previous env.now t e = (.ok, data, challenge))
      (answered : p.ops.response p.user data challenge data.clen (env.clock t e) = some response)
      (equal : compare crypto request (expectedPasscode config p.user response) = true)
      (recorded : p.ops.updatecsd data env.now t e
        (syncRc config p fc { l.state with toCardData := data } env.now e) = some after) :
      WindowVerdict Inv positions l .authDone
        ⟨syncRc config p fc { l.state with toCardData := data } env.now e,
          { l.state with toCardData := after }, challenge, true,
          expectedPasscode config p.user response, some (.sync t e challenge data.clen)⟩

theorem syncLoop_verdict (Inv : LoopInv) (advances : Advances env p Inv) :
    ∀ (positions all : List (Nat × Nat)) (l : Locals), positions ⊆ all →
      Inv positions l.state.toCardData l.challenge →
      WindowVerdict crypto config request env p fc Inv all l
        (syncLoop crypto config request env p fc positions l).1
        (syncLoop crypto config request env p fc positions l).2 := by
  intro positions
  induction positions with
  | nil =>
      intro all l _ inv
      exact .noMatch l.state.toCardData l.challenge l.eResponse inv
  | cons position rest ih =>
      intro all l inside inv
      obtain ⟨t, e⟩ := position
      have here : (t, e) ∈ all := inside List.mem_cons_self
      have later : rest ⊆ all := fun q member => inside (List.mem_cons_of_mem _ member)
      have advance := advances t e rest l.state.toCardData l.challenge inv
      -- the recursive calls start from locals that differ in card data and buffers only
      have lift : ∀ (l' : Locals) (data : CardData) (label : Label) (out : Locals),
          l'.state = { l.state with toCardData := data } → l'.resync = l.resync →
          l'.matched = l.matched →
          WindowVerdict crypto config request env p fc Inv all l' label out →
          WindowVerdict crypto config request env p fc Inv all l label out := by
        intro l' data label out state resync matched verdict
        cases verdict with
        | serviceErr data' out state' rc =>
            exact .serviceErr data' out (by rw [state', state]) rc
        | noMatch data' challenge eResponse inv' =>
            rw [state, resync, matched]
            exact .noMatch data' challenge eResponse inv'
        | hit t' e' rest' before data' after previous challenge response position inv' stepped
            answered equal recorded =>
            rw [state] at recorded ⊢
            exact .hit t' e' rest' before data' after previous challenge response position inv'
              stepped answered equal recorded
      generalize stepped : p.ops.challenge p.user l.state.toCardData l.challenge env.now t e = step
        at advance
      obtain ⟨rc, data, challenge⟩ := step
      simp only [syncLoop, stepped]
      cases rc with
      | error => exact .serviceErr data _ rfl rfl
      | early =>
          exact lift _ data _ _ (by rfl) (by rfl) (by rfl) (ih all _ later (advance (by simp)))
      | ok =>
          cases answered : p.ops.response p.user data challenge data.clen (env.clock t e) with
          | none => exact .serviceErr data _ rfl rfl
          | some response =>
              dsimp only
              by_cases equal :
                  compare crypto request (expectedPasscode config p.user response) = true
              · rw [if_pos equal]
                simp only [syncMatch]
                cases recorded : p.ops.updatecsd data env.now t e
                    (syncRc config p fc { l.state with toCardData := data } env.now e) with
                | none => exact .serviceErr data _ rfl rfl
                | some after =>
                    exact .hit t e rest l.state.toCardData data after l.challenge challenge
                      response here inv stepped answered equal recorded
              · rw [if_neg equal]
                exact lift _ data _ _ (by rfl) (by rfl) (by rfl)
                  (ih all _ later (advance (by simp)))

def asyncMatches (data : CardData) : Bool :=
  asyncPossible request p.user &&
    match asyncResponse config request env p data with
    | none => false
    | some response => compare crypto request (expectedPasscode config p.user response)

def syncPossible : Bool := hasFeature p.user.featuremask otpCfSm && request.allowSync

def windowOf (state : State) : List (Nat × Nat) :=
  windowPositions (p.ops.maxtwin p.user state.toCardData env.now) (eendOf config p.user)

inductive AuthVerdict (Inv : LoopInv) (state : State) : Label → Locals → Prop where
  | serviceErr (label : Label) (l : Locals) (notDone : label ≠ .authDone)
      (rc : l.rc = .serviceErr) (locked : l.state.locked = state.locked)
      (updated : l.state.updated = state.updated) : AuthVerdict Inv state label l
  | async (resolved : State) (response : List Byte)
      (found : resolveNullstate p state env.now = some resolved)
      (isAsync : asyncMatches crypto config request env p resolved.toCardData = true) :
      AuthVerdict Inv state .authDone
        ⟨asyncRc request (failCondition config env.undef resolved env.now) resolved env.now,
          resolved, (asyncChallenge config request env.undef).1, request.resync,
          expectedPasscode config p.user response, some .async⟩
  | noSync (resolved : State) (challenge : Buffer 16) (eResponse : List Byte)
      (found : resolveNullstate p state env.now = some resolved)
      (notAsync : asyncMatches crypto config request env p resolved.toCardData = false)
      (off : syncPossible request p = false) :
      AuthVerdict Inv state .authDone
        ⟨.authErr, resolved, challenge, request.resync, eResponse, none⟩
  | noMatch (resolved : State) (data : CardData) (challenge : Buffer 16) (eResponse : List Byte)
      (found : resolveNullstate p state env.now = some resolved)
      (notAsync : asyncMatches crypto config request env p resolved.toCardData = false)
      (on : syncPossible request p = true) (inv : Inv [] data challenge) :
      AuthVerdict Inv state .authDone
        ⟨.authErr, { resolved with toCardData := data }, challenge, request.resync, eResponse, none⟩
  | hit (resolved : State) (t e : Nat) (rest : List (Nat × Nat)) (before data after : CardData)
      (previous challenge : Buffer 16) (response : List Byte)
      (found : resolveNullstate p state env.now = some resolved)
      (notAsync : asyncMatches crypto config request env p resolved.toCardData = false)
      (on : syncPossible request p = true)
      (position : (t, e) ∈ windowOf config env p resolved)
      (inv : Inv ((t, e) :: rest) before previous)
      (stepped : p.ops.challenge p.user before previous env.now t e = (.ok, data, challenge))
      (answered : p.ops.response p.user data challenge data.clen (env.clock t e) = some response)
      (equal : compare crypto request (expectedPasscode config p.user response) = true)
      (recorded : p.ops.updatecsd data env.now t e
        (syncRc config p (failCondition config env.undef resolved env.now)
          { resolved with toCardData := data } env.now e) = some after) :
      AuthVerdict Inv state .authDone
        ⟨syncRc config p (failCondition config env.undef resolved env.now)
            { resolved with toCardData := data } env.now e,
          { resolved with toCardData := after }, challenge, true,
          expectedPasscode config p.user response, some (.sync t e challenge data.clen)⟩

theorem resolveNullstate_flags {state resolved : State} {now : Time}
    (found : resolveNullstate p state now = some resolved) :
    resolved.locked = state.locked ∧ resolved.updated = state.updated ∧
      resolved.failcount = state.failcount := by
  unfold resolveNullstate at found
  split at found
  · obtain ⟨data, -, exact⟩ := Option.map_eq_some_iff.mp found
    subst exact
    exact ⟨rfl, rfl, rfl⟩
  · split at found <;> cases found <;> exact ⟨rfl, rfl, rfl⟩

theorem syncAuth_verdict (Inv : LoopInv) (advances : Advances env p Inv) {state resolved : State}
    (found : resolveNullstate p state env.now = some resolved)
    (start : ∀ base : Buffer 16, Inv (windowOf config env p resolved) resolved.toCardData
      (base.copy (resolved.challenge.bytes.take resolved.clen)))
    (notAsync : asyncMatches crypto config request env p resolved.toCardData = false)
    (challenge : Buffer 16) (eResponse : List Byte) :
    let out := syncAuth crypto config request env p (failCondition config env.undef resolved env.now)
      ⟨.authErr, resolved, challenge, request.resync, eResponse, none⟩
    AuthVerdict crypto config request env p Inv state out.1 out.2 := by
  obtain ⟨locked, updated, -⟩ := resolveNullstate_flags p found
  intro out
  by_cases on : syncPossible request p = true
  · have enabled : hasFeature p.user.featuremask otpCfSm = true ∧ request.allowSync = true := by
      simpa [syncPossible] using on
    by_cases negative : p.ops.maxtwin p.user resolved.toCardData env.now < 0
    · have exact : out = (.serviceErr, ⟨.serviceErr, resolved,
          challenge.copy (resolved.challenge.bytes.take resolved.clen), request.resync, eResponse,
          none⟩) := by
        simp only [out, syncAuth, if_pos enabled, if_pos negative]
      rw [exact]
      exact .serviceErr _ _ (by simp) rfl locked updated
    · have exact : out = syncLoop crypto config request env p
          (failCondition config env.undef resolved env.now) (windowOf config env p resolved)
          ⟨.authErr, resolved, challenge.copy (resolved.challenge.bytes.take resolved.clen),
            request.resync, eResponse, none⟩ := by
        simp only [out, syncAuth, if_pos enabled, if_neg negative, windowOf]
      have verdict := syncLoop_verdict crypto config request env p
        (failCondition config env.undef resolved env.now) Inv advances
        (windowOf config env p resolved) (windowOf config env p resolved)
        ⟨.authErr, resolved, challenge.copy (resolved.challenge.bytes.take resolved.clen),
          request.resync, eResponse, none⟩ (fun _ member => member) (start challenge)
      rw [← exact] at verdict
      generalize out.1 = label at verdict ⊢
      generalize out.2 = l at verdict ⊢
      cases verdict with
      | serviceErr data l' stateExact rc =>
          exact .serviceErr _ _ (by simp) rc (by rw [stateExact]; exact locked)
            (by rw [stateExact]; exact updated)
      | noMatch data challenge' eResponse' inv =>
          exact .noMatch resolved data challenge' eResponse' found notAsync on inv
      | hit t e rest before data after previous challenge' response position inv stepped answered
          equal recorded =>
          exact .hit resolved t e rest before data after previous challenge' response found notAsync
            on position inv stepped answered equal recorded
  · have disabled : ¬ (hasFeature p.user.featuremask otpCfSm = true ∧ request.allowSync = true) := by
      simpa [syncPossible] using on
    have exact : out = (.authDone, ⟨.authErr, resolved, challenge, request.resync, eResponse,
        none⟩) := by
      simp only [out, syncAuth, if_neg disabled]
    rw [exact]
    exact .noSync resolved challenge eResponse found notAsync (by simpa using on)

theorem authenticate_verdict (Inv : LoopInv) (advances : Advances env p Inv) (state : State)
    (start : ∀ resolved, resolveNullstate p state env.now = some resolved → ∀ base : Buffer 16,
      Inv (windowOf config env p resolved) resolved.toCardData
        (base.copy (resolved.challenge.bytes.take resolved.clen))) :
    AuthVerdict crypto config request env p Inv state
      (authenticate crypto config request env p state).1
      (authenticate crypto config request env p state).2 := by
  unfold authenticate
  cases found : resolveNullstate p state env.now with
  | none => exact .serviceErr _ _ (by simp) rfl rfl rfl
  | some resolved =>
      obtain ⟨locked, updated, -⟩ := resolveNullstate_flags p found
      dsimp only
      split
      · exact .serviceErr _ _ (by simp) rfl locked updated
      · simp only [responses, Locals.start]
        by_cases possible : asyncPossible request p.user = true
        · rw [if_pos possible]
          cases answered : asyncResponse config request env p resolved.toCardData with
          | none => exact .serviceErr _ _ (by simp) rfl locked updated
          | some response =>
              dsimp only
              by_cases equal :
                  compare crypto request (expectedPasscode config p.user response) = true
              · rw [if_pos equal]
                exact .async resolved response found (by simp [asyncMatches, possible, answered, equal])
              · rw [if_neg equal]
                exact syncAuth_verdict crypto config request env p Inv advances found
                  (start resolved found) (by simp [asyncMatches, answered, equal]) _ _
        · rw [if_neg possible]
          exact syncAuth_verdict crypto config request env p Inv advances found
            (start resolved found) (by simp [asyncMatches, possible]) _ _

theorem authenticate_cases (state : State) :
    AuthVerdict crypto config request env p (fun _ _ _ => True) state
      (authenticate crypto config request env p state).1
      (authenticate crypto config request env p state).2 :=
  authenticate_verdict crypto config request env p _ (fun _ _ _ _ _ _ _ => trivial) state
    (fun _ _ _ => trivial)

/-! ### Correct passcodes -/

/-- The passcodes the window loops compare the given one with, in their order. -/
def windowPasscodes : List (Nat × Nat) → CardData → Buffer 16 → List (List Byte)
  | [], _, _ => []
  | (t, e) :: rest, data, challenge =>
    let step := p.ops.challenge p.user data challenge env.now t e
    match step.1 with
    | .error => []
    | .early => windowPasscodes rest step.2.1 step.2.2
    | .ok =>
      match p.ops.response p.user step.2.1 step.2.2 step.2.1.clen (env.clock t e) with
      | none => []
      | some response =>
          expectedPasscode config p.user response :: windowPasscodes rest step.2.1 step.2.2

/-- What the local `challenge` holds when the sync block is entered. -/
def syncBase : Buffer 16 :=
  if asyncPossible request p.user then (asyncChallenge config request env.undef).1
  else env.undef.challenge.copy request.challenge.bytes

def inWindow (data : CardData) : Bool :=
  syncPossible request p &&
    (windowPasscodes config env p
      (windowPositions (p.ops.maxtwin p.user data env.now) (eendOf config p.user)) data
      ((syncBase config request env p).copy (data.challenge.bytes.take data.clen))).any
      (compare crypto request)

theorem syncLoop_finds : ∀ (positions : List (Nat × Nat)) (l : Locals),
    (windowPasscodes config env p positions l.state.toCardData l.challenge).any
      (compare crypto request) = true →
    (syncLoop crypto config request env p fc positions l).1 = .authDone →
    (syncLoop crypto config request env p fc positions l).2.matched ≠ none := by
  intro positions
  induction positions with
  | nil => intro l correct; simp [windowPasscodes] at correct
  | cons position rest ih =>
      intro l correct
      obtain ⟨t, e⟩ := position
      generalize stepped : p.ops.challenge p.user l.state.toCardData l.challenge env.now t e = step
      obtain ⟨rc, data, challenge⟩ := step
      simp only [windowPasscodes, stepped] at correct
      simp only [syncLoop, stepped]
      cases rc with
      | error => intro done; cases done
      | early => exact ih _ correct
      | ok =>
          dsimp only at correct ⊢
          cases answered : p.ops.response p.user data challenge data.clen (env.clock t e) with
          | none => intro done; cases done
          | some response =>
              simp only [answered, List.any_cons, Bool.or_eq_true] at correct
              dsimp only
              by_cases equal :
                  compare crypto request (expectedPasscode config p.user response) = true
              · rw [if_pos equal]
                simp only [syncMatch]
                split
                · intro done; cases done
                · intro _ none; cases none
              · rw [if_neg equal]
                exact ih _ (correct.resolve_left equal)

theorem authenticate_resolved {state : State} {l : Locals}
    (result : authenticate crypto config request env p state = (.authDone, l)) :
    ∃ resolved, resolveNullstate p state env.now = some resolved := by
  cases found : resolveNullstate p state env.now with
  | none => simp [authenticate, found] at result
  | some resolved => exact ⟨resolved, rfl⟩

theorem authenticate_finds {state resolved : State} {l : Locals}
    (found : resolveNullstate p state env.now = some resolved)
    (correct : inWindow crypto config request env p resolved.toCardData = true)
    (result : authenticate crypto config request env p state = (.authDone, l)) :
    l.matched ≠ none := by
  simp only [inWindow, Bool.and_eq_true] at correct
  obtain ⟨on, correct⟩ := correct
  have enabled : hasFeature p.user.featuremask otpCfSm = true ∧ request.allowSync = true := by
    simpa [syncPossible] using on
  have sync : ∀ l', l'.state = resolved → l'.challenge = syncBase config request env p →
      syncAuth crypto config request env p (failCondition config env.undef resolved env.now) l' =
        (.authDone, l) → l.matched ≠ none := by
    intro l' sameState sameChallenge run
    rw [← sameState, ← sameChallenge] at correct
    simp only [syncAuth, if_pos enabled] at run
    split at run
    · cases run
    · have loop := syncLoop_finds crypto config request env p
        (failCondition config env.undef resolved env.now)
        (windowPositions (p.ops.maxtwin p.user l'.state.toCardData env.now) (eendOf config p.user))
        { l' with challenge := l'.challenge.copy (l'.state.challenge.bytes.take l'.state.clen) }
        correct (by rw [run])
      rwa [run] at loop
  unfold authenticate at result
  rw [found] at result
  dsimp only at result
  split at result
  · cases result
  · simp only [responses, Locals.start] at result
    by_cases possible : asyncPossible request p.user = true
    · rw [if_pos possible] at result
      split at result
      · cases result
      · split at result
        · cases result
          simp
        · exact sync _ rfl (by simp [syncBase, possible]) result
    · rw [if_neg possible] at result
      exact sync _ rfl (by simp [syncBase, possible]) result

end Window

/-! ## The whole call -/

section Call

variable (crypto : Crypto) (mods : List CardOps) (config : Config) (request : Request) (env : Env)
  (store : Store)

/-- The zero-initialised state with the key length noted by `keystring2key`. -/
def Prepared.state (p : Prepared) : State := { State.init with scratch1 := p.scratch1 }

/-- How a call of `verify` ends.  Only `saved` and `unsaved` touch the store. -/
inductive CallVerdict : Outcome → Prop where
  | early (exit : EarlyExit) (out : Outcome)
      (prepared : prepare crypto mods config request env = .error exit)
      (rc : out.rc = exit.rc) (kept : out.store = store) (events : out.events = [])
      (matched : out.matched = none) : CallVerdict out
  | refused (p : Prepared) (out : Outcome)
      (prepared : prepare crypto mods config request env = .ok p)
      (got : (stateGet config request.username env.io store p.state).1 = none)
      (rc : out.rc = .serviceErr) (kept : out.store = store)
      (events : out.events = (stateGet config request.username env.io store p.state).2)
      (matched : out.matched = none) : CallVerdict out
  | aborted (p : Prepared) (state : State) (label : Label) (l : Locals) (out : Outcome)
      (prepared : prepare crypto mods config request env = .ok p)
      (got : (stateGet config request.username env.io store p.state).1 = some state)
      (result : authenticate crypto config request env p state = (label, l))
      (notDone : label ≠ .authDone)
      (rc : out.rc = .serviceErr) (kept : out.store = store)
      (events : out.events = .acquire :: putEvents config env.io) : CallVerdict out
  | saved (p : Prepared) (state : State) (l : Locals) (out : Outcome)
      (prepared : prepare crypto mods config request env = .ok p)
      (got : (stateGet config request.username env.io store p.state).1 = some state)
      (result : authenticate crypto config request env p state = (.authDone, l))
      (put : env.io.put = .done) (rc : out.rc = l.rc) (matched : out.matched = l.matched)
      (written : out.store = persist config.stateMode
        (stateUnparse request.username (authDone env.now l).record))
      (events : out.events = [.acquire, .release]) : CallVerdict out
  | unsaved (p : Prepared) (state : State) (l : Locals) (out : Outcome)
      (prepared : prepare crypto mods config request env = .ok p)
      (got : (stateGet config request.username env.io store p.state).1 = some state)
      (result : authenticate crypto config request env p state = (.authDone, l))
      (put : env.io.put ≠ .done) (rc : out.rc = .serviceErr) (matched : out.matched = l.matched)
      (written : out.store = if putCarried config env.io then persist config.stateMode
        (stateUnparse request.username (authDone env.now l).record) else store)
      (events : out.events = .acquire :: putEvents config env.io) : CallVerdict out

theorem authDone_flags (now : Time) (l : Locals) :
    (authDone now l).locked = l.state.locked ∧ (authDone now l).updated = true := by
  unfold authDone
  split <;> exact ⟨rfl, rfl⟩

theorem authenticate_locked (p : Prepared) {state : State} {label : Label} {l : Locals}
    (result : authenticate crypto config request env p state = (label, l)) :
    l.state.locked = state.locked ∧
      (label ≠ .authDone → l.rc = .serviceErr ∧ l.state.updated = state.updated) := by
  have verdict := authenticate_cases crypto config request env p state
  rw [result] at verdict
  cases verdict with
  | serviceErr _ _ notDone rc locked updated => exact ⟨locked, fun _ => ⟨rc, updated⟩⟩
  | async resolved response found _ =>
      exact ⟨(resolveNullstate_flags p found).1, fun h => absurd rfl h⟩
  | noSync resolved _ _ found =>
      exact ⟨(resolveNullstate_flags p found).1, fun h => absurd rfl h⟩
  | noMatch resolved _ _ _ found =>
      exact ⟨(resolveNullstate_flags p found).1, fun h => absurd rfl h⟩
  | hit resolved _ _ _ _ _ _ _ _ _ found =>
      exact ⟨(resolveNullstate_flags p found).1, fun h => absurd rfl h⟩

theorem finish_unlocked (config : Config) (request : Request) (env : Env) (store : Store)
    (events : List Event) (label : Label) {l : Locals} (unlocked : l.state.locked = false) :
    finish config request env store events label l =
      ⟨l.rc, if label = .authDone ∧ l.rc = .ok then some l.eResponse else none, store, events,
        l.matched⟩ := by
  have open_ : (if label = .authDone then authDone env.now l else l.state).locked = false := by
    split
    · rw [(authDone_flags env.now l).1, unlocked]
    · exact unlocked
  simp only [finish, open_, Bool.false_eq_true, if_false]

theorem verify_verdict :
    CallVerdict crypto mods config request env store
      (verify crypto mods config request env store) := by
  unfold verify
  cases prepared : prepare crypto mods config request env with
  | error exit =>
      dsimp only
      rw [finish_unlocked config request env store [] exit.label rfl]
      exact .early exit _ prepared rfl rfl rfl rfl
  | ok p =>
      dsimp only
      cases got : (stateGet config request.username env.io store p.state).1 with
      | none =>
          rw [Prepared.state] at got
          rw [got]
          exact .refused p _ prepared got rfl rfl rfl rfl
      | some state =>
          obtain ⟨acquired, origin⟩ := stateGet_loaded got
          obtain ⟨locked, clean⟩ := loaded_flags origin
          have got' := got
          rw [Prepared.state] at got' acquired
          simp only [got', acquired]
          rcases result : authenticate crypto config request env p state with ⟨label, l⟩
          obtain ⟨stillLocked, failed⟩ := authenticate_locked crypto config request env p result
          rw [locked] at stillLocked
          simp only [finish]
          by_cases done : label = .authDone
          · subst done
            obtain ⟨doneLocked, updated⟩ := authDone_flags env.now l
            rw [stillLocked] at doneLocked
            obtain ⟨released, success, written⟩ := statePut_updated config request.username env.io
              store doneLocked updated
            simp only [if_true, doneLocked, released]
            by_cases put : env.io.put = .done
            · rw [(put_done config put).1, if_pos rfl] at written
              exact .saved p state l _ prepared got result put (by simp [success, put]) rfl written
                (by rw [(put_done config put).2]; rfl)
            · exact .unsaved p state l _ prepared got result put (by simp [success, put]) rfl written
                rfl
          · obtain ⟨rc, stillClean⟩ := failed done
            rw [clean] at stillClean
            obtain ⟨released, kept⟩ := statePut_released config request.username env.io store
              stillLocked stillClean
            simp only [if_neg done, stillLocked, if_true, released]
            exact .aborted p state label l _ prepared got result done (by simp [rc]) kept rfl

end Call

end Otpd

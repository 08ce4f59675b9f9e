import Otpd.Lib.Serial
import Otpd.Lock
import Otpd.Session

/-!
# Work threads

Any number of threads run `verify` for one user in local state mode, with their
steps interleaved: `lock_get`, `state_read` with `state_parse`, the computation,
`state_write` and `lock_put`.  The threads simulate the critical sections of
`Otpd.Lib.Serial`, and so are serialisable.
-/

set_option autoImplicit false

namespace Otpd

open CMem

/-- `otp_reply_t`. -/
structure Reply where
  rc : Rc
  passcode : Option (List Byte)
  deriving DecidableEq

def Outcome.reply (out : Outcome) : Reply := ⟨out.rc, out.passcode⟩

def serviceErrReply : Reply := ⟨.serviceErr, none⟩

def earlyReply (call : Call) (exit : EarlyExit) : Reply :=
  (finish call.config call.request call.env none [] exit.label
    (Locals.start call.request call.env exit.rc State.init)).reply

/-! ## Inside the section -/

inductive Section where
  | locked (p : Prepared)
  | loaded (p : Prepared) (state : State)
  | decided (label : Label) (l : Locals)
  | leaving (reply : Reply)

/-- `state_read` and `state_parse`; on failure only `lock_put` is left. -/
def stateLoad (call : Call) (p : Prepared) (store : Store) : Section :=
  match deliver .localMode call.env.io.readable store with
  | none => .leaving serviceErrReply
  | some buf =>
    match stateParse buf call.request.username { p.state with locked := false } with
    | none => .leaving serviceErrReply
    | some state => .loaded p { state with locked := true, updated := false }

def Section.work (crypto : Crypto) (call : Call) (store : Store) : Section → Section × Store
  | .locked p => (stateLoad call p store, store)
  | .loaded p state =>
      let result := authenticate crypto call.config call.request call.env p state
      (.decided result.1 result.2, store)
  | .decided label l =>
      let out := finish call.config call.request call.env store [.acquire] label l
      (.leaving out.reply, out.store)
  | .leaving reply => (.leaving reply, store)

def Section.result : Section → Option Reply
  | .leaving reply => some reply
  | _ => none

def program (crypto : Crypto) (calls : Nat → Call) : Serial.Program Nat Store Section Reply where
  entry i :=
    match prepareCall crypto (calls i) with
    | .error exit => .error (earlyReply (calls i) exit)
    | .ok p => .ok (.locked p)
  work i section_ store := section_.work crypto (calls i) store
  result _ section_ := section_.result
  refused _ := serviceErrReply

/-! ## Threads over the lock chain -/

inductive Thread where
  | ready
  | prepared (p : Prepared)
  | inside (lock : Nat) (at_ : Section)
  | done (reply : Reply)

/-- `order` records who was granted the lock, oldest first. -/
structure World where
  thread : Nat → Thread
  chain : Chain
  store : Store
  order : List Nat

def World.start (chain : Chain) (store : Store) : World := ⟨fun _ => .ready, chain, store, []⟩

def World.set (w : World) (i : Nat) (thread : Thread) : World :=
  { w with thread := Function.update w.thread i thread }

/-- The next step of thread `i`, at `xgethrtime() = hr`.  `none` is a NULL
dereference in `lock.c`. -/
def World.step (crypto : Crypto) (calls : Nat → Call) (w : World) (i : Nat) (hr : Int) :
    Option World :=
  match w.thread i with
  | .ready =>
    match prepareCall crypto (calls i) with
    | .error exit => some (w.set i (.done (earlyReply (calls i) exit)))
    | .ok p => some (w.set i (.prepared p))
  | .prepared p =>
    match lockGet w.chain (calls i).request.username hr with
    | none => none
    | some (none, chain) => some { w.set i (.done serviceErrReply) with chain := chain }
    | some (some lock, chain) =>
        some { w.set i (.inside lock (.locked p)) with chain := chain, order := w.order ++ [i] }
  | .inside lock section_ =>
    match section_.result with
    | none =>
        let next := section_.work crypto (calls i) w.store
        some { w.set i (.inside lock next.1) with store := next.2 }
    | some reply =>
      match lockPut w.chain lock with
      | none => none
      | some chain => some { w.set i (.done reply) with chain := chain }
  | .done _ => some w

def World.run (crypto : Crypto) (calls : Nat → Call) : World → List (Nat × Int) → Option World
  | w, [] => some w
  | w, (i, hr) :: rest =>
    match w.step crypto calls i hr with
    | none => none
    | some w => World.run crypto calls w rest

def Chain.fresh (chain : Chain) (hr : Int) : Bool :=
  chain.nodes.all fun node => node.username.isNone || decide (hr < node.ltime + lockExpiry)

/-- Along the run, no thread calls `lock_get` while a held lock has expired. -/
def World.timely (crypto : Crypto) (calls : Nat → Call) : World → List (Nat × Int) → Bool
  | _, [] => true
  | w, (i, hr) :: rest =>
    (match w.thread i with
      | .prepared _ => w.chain.fresh hr
      | _ => true) &&
    match w.step crypto calls i hr with
    | none => true
    | some w => World.timely crypto calls w rest

/-! ## The threads simulate the sections -/

section Simulation

variable (crypto : Crypto) (calls : Nat → Call) (lock : Nat) (username : Username)

/-- A thread and its phase; the lock pointer it holds is that of the one node. -/
def ThreadSim (i : Nat) : Thread → Serial.Phase Section Reply → Prop
  | .ready, .idle => True
  | .prepared p, .idle => prepareCall crypto (calls i) = .ok p
  | .inside lock' section_, .inside section' => lock' = lock ∧ section' = section_
  | .done reply, .done reply' => reply' = reply
  | _, _ => False

structure Sim (w : World) (sys : Serial.System Nat Store Section Reply) : Prop where
  threads : ∀ i, ThreadSim crypto calls lock i (w.thread i) (sys.phase i)
  store : w.store = sys.store
  order : w.order = sys.order
  chain : (sys.holder = none ∧ w.chain.Free lock) ∨
    ∃ i ltime, sys.holder = some i ∧ w.chain.Held lock username ltime

variable {crypto calls lock username} {w : World} {sys : Serial.System Nat Store Section Reply}

theorem Sim.start {chain : Chain} (free : chain.Free lock) (store : Store) :
    Sim crypto calls lock username (World.start chain store) (Serial.System.start store) :=
  ⟨fun _ => trivial, rfl, rfl, Or.inl ⟨rfl, free⟩⟩

theorem Sim.set_threads (sim : Sim crypto calls lock username w sys) {i : Nat} {thread : Thread}
    {phase : Serial.Phase Section Reply} (here : ThreadSim crypto calls lock i thread phase) :
    ∀ j, ThreadSim crypto calls lock j ((w.set i thread).thread j) ((sys.set i phase).phase j) := by
  intro j
  by_cases same : j = i
  · subst same
    simpa [World.set] using here
  · rw [Serial.System.set_phase_ne sys same]
    simpa [World.set, same] using sim.threads j

theorem Sim.set_thread (sim : Sim crypto calls lock username w sys) {i : Nat} {thread : Thread}
    (here : ThreadSim crypto calls lock i thread (sys.phase i)) :
    ∀ j, ThreadSim crypto calls lock j ((w.set i thread).thread j) (sys.phase j) := by
  intro j
  by_cases same : j = i
  · subst same
    simpa [World.set] using here
  · simpa [World.set, same] using sim.threads j

theorem Chain.Held.not_expired {chain : Chain} {ltime : Int}
    (held : chain.Held lock username ltime) {hr : Int} (fresh : chain.fresh hr = true) :
    hr < ltime + lockExpiry := by
  obtain ⟨node, stored, -, name, since⟩ := held.node
  have here := List.all_eq_true.mp fresh node (List.mem_of_getElem? stored)
  simpa [name, since] using here

def Simulates (crypto : Crypto) (calls : Nat → Call) (lock : Nat) (username : Username)
    (sys : Serial.System Nat Store Section Reply) (w' : World) : Prop :=
  Sim crypto calls lock username w' sys ∨
    ∃ sys', Serial.Step (program crypto calls) sys sys' ∧ Sim crypto calls lock username w' sys'

theorem Sim.idle (sim : Sim crypto calls lock username w sys) {i : Nat}
    (outside : w.thread i = .ready ∨ ∃ p, w.thread i = .prepared p) : sys.phase i = .idle := by
  have here := sim.threads i
  cases phase : sys.phase i with
  | idle => rfl
  | inside _ => rcases outside with thread | ⟨p, thread⟩ <;> simp [ThreadSim, phase, thread] at here
  | done _ => rcases outside with thread | ⟨p, thread⟩ <;> simp [ThreadSim, phase, thread] at here

theorem Sim.inside (sim : Sim crypto calls lock username w sys) {i lock' : Nat}
    {section_ : Section} (thread : w.thread i = .inside lock' section_) :
    lock' = lock ∧ sys.phase i = .inside section_ := by
  have here := sim.threads i
  cases phase : sys.phase i with
  | idle => simp [ThreadSim, phase, thread] at here
  | inside section' =>
      simp only [ThreadSim, phase, thread] at here
      exact ⟨here.1, by rw [here.2]⟩
  | done _ => simp [ThreadSim, phase, thread] at here

theorem Sim.done_iff (sim : Sim crypto calls lock username w sys) {i : Nat} {reply : Reply} :
    w.thread i = .done reply ↔ sys.phase i = .done reply := by
  have here := sim.threads i
  cases thread : w.thread i <;> cases phase : sys.phase i <;> simp_all [ThreadSim]

theorem Sim.step_ready (sim : Sim crypto calls lock username w sys) {i : Nat}
    (thread : w.thread i = .ready) (hr : Int) :
    ∃ w', w.step crypto calls i hr = some w' ∧ Simulates crypto calls lock username sys w' := by
  have phase := sim.idle (Or.inl thread)
  simp only [World.step, thread]
  cases prepared : prepareCall crypto (calls i) with
  | error exit =>
      refine ⟨_, rfl, Or.inr ⟨_, .bypass i (earlyReply (calls i) exit) phase ?_, ?_⟩⟩
      · simp [program, prepared]
      · exact ⟨sim.set_threads rfl, sim.store, sim.order, sim.chain⟩
  | ok p =>
      refine ⟨_, rfl, Or.inl ⟨sim.set_thread ?_, sim.store, sim.order, sim.chain⟩⟩
      rw [phase]
      exact prepared

theorem Sim.step_prepared (sim : Sim crypto calls lock username w sys)
    (sameUser : ∀ i, (calls i).request.username = username) {i : Nat} {p : Prepared}
    (thread : w.thread i = .prepared p) {hr : Int} (fresh : w.chain.fresh hr = true) :
    ∃ w', w.step crypto calls i hr = some w' ∧ Simulates crypto calls lock username sys w' := by
  have phase := sim.idle (Or.inr ⟨p, thread⟩)
  have prepared := sim.threads i
  simp only [ThreadSim, thread, phase] at prepared
  have entry : (program crypto calls).entry i = .ok (.locked p) := by simp [program, prepared]
  simp only [World.step, thread, sameUser i]
  rcases sim.chain with ⟨noHolder, free⟩ | ⟨j, ltime, holder, held⟩
  · obtain ⟨chain', granted, held⟩ := lockGet_free free username hr
    simp only [granted]
    refine ⟨_, rfl, Or.inr ⟨_, .acquire i (.locked p) phase entry noHolder, ?_⟩⟩
    exact ⟨sim.set_threads ⟨rfl, rfl⟩, sim.store, congrArg (· ++ [i]) sim.order,
      Or.inr ⟨i, hr, rfl, held⟩⟩
  · simp only [lockGet_held held (held.not_expired fresh)]
    exact ⟨_, rfl, Or.inr ⟨_, .refuse i j (.locked p) phase entry holder,
      sim.set_threads rfl, sim.store, sim.order, Or.inr ⟨j, ltime, holder, held⟩⟩⟩

theorem Sim.step_inside (sim : Sim crypto calls lock username w sys) {start : Store}
    {log : List (Nat × Reply)} {base : Store}
    (consistent : Serial.Consistent (program crypto calls) start sys log base) {i lock' : Nat}
    {section_ : Section} (thread : w.thread i = .inside lock' section_) (hr : Int) :
    ∃ w', w.step crypto calls i hr = some w' ∧ Simulates crypto calls lock username sys w' := by
  obtain ⟨rfl, phase⟩ := sim.inside thread
  simp only [World.step, thread]
  cases finished : section_.result with
  | none =>
      refine ⟨_, rfl, Or.inr ⟨_, .work i section_ phase finished, ?_⟩⟩
      rw [sim.store]
      exact ⟨sim.set_threads ⟨rfl, rfl⟩, rfl, sim.order, sim.chain⟩
  | some reply =>
      have holder := (consistent.holder phase).1
      rcases sim.chain with ⟨noHolder, -⟩ | ⟨j, ltime, -, held⟩
      · rw [noHolder] at holder
        cases holder
      · obtain ⟨chain', released, free, -⟩ := lockPut_held held
        simp only [released]
        exact ⟨_, rfl, Or.inr ⟨_, .release i section_ reply phase finished,
          sim.set_threads rfl, sim.store, sim.order, Or.inl ⟨rfl, free⟩⟩⟩

/-- A step of a thread does not crash, and is a step of its section or none. -/
theorem Sim.step (sim : Sim crypto calls lock username w sys)
    (sameUser : ∀ i, (calls i).request.username = username) {start : Store}
    {log : List (Nat × Reply)} {base : Store}
    (consistent : Serial.Consistent (program crypto calls) start sys log base) (i : Nat) (hr : Int)
    (fresh : ∀ p, w.thread i = .prepared p → w.chain.fresh hr = true) :
    ∃ w', w.step crypto calls i hr = some w' ∧ Simulates crypto calls lock username sys w' := by
  cases thread : w.thread i with
  | ready => exact sim.step_ready thread hr
  | prepared p => exact sim.step_prepared sameUser thread (fresh p thread)
  | inside lock' section_ => exact sim.step_inside consistent thread hr
  | done reply => exact ⟨w, by simp only [World.step, thread], Or.inl sim⟩

/-- A timely run does not crash, and reaches a state of the sections. -/
theorem Sim.run (sameUser : ∀ i, (calls i).request.username = username) {start : Store} :
    ∀ (events : List (Nat × Int)) (w : World) (sys : Serial.System Nat Store Section Reply),
      Sim crypto calls lock username w sys →
      Relation.ReflTransGen (Serial.Step (program crypto calls)) (Serial.System.start start) sys →
      w.timely crypto calls events = true →
      ∃ w' sys', w.run crypto calls events = some w' ∧ Sim crypto calls lock username w' sys' ∧
        Relation.ReflTransGen (Serial.Step (program crypto calls)) (Serial.System.start start)
          sys' := by
  intro events
  induction events with
  | nil =>
      intro w sys sim reaches _
      exact ⟨w, sys, rfl, sim, reaches⟩
  | cons event rest ih =>
      intro w sys sim reaches timely
      obtain ⟨i, hr⟩ := event
      obtain ⟨log, base, consistent⟩ := Serial.reaches_consistent reaches
      rw [World.timely, Bool.and_eq_true] at timely
      obtain ⟨w', step, simulates⟩ := sim.step sameUser consistent i hr
        (fun p thread => by simpa only [thread] using timely.1)
      have later : w'.timely crypto calls rest = true := by simpa only [step] using timely.2
      simp only [World.run, step]
      rcases simulates with sim' | ⟨sys', next, sim'⟩
      · exact ih w' sys sim' reaches later
      · exact ih w' sys' sim' (reaches.tail next) later

end Simulation

/-! ## One section alone is one call -/

/-- The call with the lock granted or refused, whatever its `io` says. -/
def Call.withLock (call : Call) (granted : Bool) : Call :=
  { call with env := { call.env with io := { call.env.io with granted := granted } } }

/-- How far the section is, in terms of the call it carries out. -/
def SectionAt (crypto : Crypto) (call : Call) (base : Store) : Section → Store → Prop
  | .locked p, s => prepareCall crypto call = .ok p ∧ s = base
  | .loaded p state, s => prepareCall crypto call = .ok p ∧
      stateGet call.config call.request.username (call.withLock true).env.io base p.state =
        (some state, [.acquire]) ∧ s = base
  | .decided label l, s => ∃ p state, prepareCall crypto call = .ok p ∧
      stateGet call.config call.request.username (call.withLock true).env.io base p.state =
        (some state, [.acquire]) ∧
      authenticate crypto call.config call.request call.env p state = (label, l) ∧ s = base
  | .leaving reply, s => reply = (serve crypto base (call.withLock true)).1.reply ∧
      s = (serve crypto base (call.withLock true)).2

theorem prepareCall_withLock (crypto : Crypto) (call : Call) (granted : Bool) :
    prepareCall crypto (call.withLock granted) = prepareCall crypto call := rfl

theorem syncLoop_withLock (crypto : Crypto) (call : Call) (granted : Bool) (p : Prepared) (fc : Fc) :
    ∀ (positions : List (Nat × Nat)) (l : Locals),
      syncLoop crypto call.config call.request (call.withLock granted).env p fc positions l =
        syncLoop crypto call.config call.request call.env p fc positions l := by
  intro positions
  induction positions with
  | nil => intro l; rfl
  | cons position rest ih =>
      intro l
      obtain ⟨t, e⟩ := position
      simp only [syncLoop, ih]
      rfl

theorem authenticate_withLock (crypto : Crypto) (call : Call) (granted : Bool) (p : Prepared)
    (state : State) :
    authenticate crypto call.config call.request (call.withLock granted).env p state =
      authenticate crypto call.config call.request call.env p state := by
  simp only [authenticate, responses, syncAuth, syncLoop_withLock]
  rfl

theorem serve_refused {crypto : Crypto} {call : Call} {p : Prepared} {base : Store}
    (prepared : prepareCall crypto call = .ok p)
    (got : (stateGet call.config call.request.username call.env.io base p.state).1 = none) :
    (serve crypto base call).1.reply = serviceErrReply ∧ (serve crypto base call).2 = base := by
  have prepared' : prepare crypto (cardops crypto call.env.undef) call.config call.request call.env =
      .ok p := prepared
  rw [Prepared.state] at got
  simp only [serve, verify, prepared', got]
  exact ⟨rfl, rfl⟩

theorem serve_loaded {crypto : Crypto} {call : Call} {p : Prepared} {base : Store} {state : State}
    {events : List Event} (prepared : prepareCall crypto call = .ok p)
    (got : stateGet call.config call.request.username call.env.io base p.state =
      (some state, events)) {label : Label} {l : Locals}
    (result : authenticate crypto call.config call.request call.env p state = (label, l)) :
    (serve crypto base call).1 =
      finish call.config call.request call.env base events label l := by
  have prepared' : prepare crypto (cardops crypto call.env.undef) call.config call.request call.env =
      .ok p := prepared
  rw [Prepared.state] at got
  simp only [serve, verify, prepared', got, result]

theorem stateLoad_at {crypto : Crypto} {call : Call} (isLocal : call.config.stateMode = .localMode)
    {p : Prepared} (prepared : prepareCall crypto call = .ok p) (base : Store) :
    SectionAt crypto call base (stateLoad call p base) base := by
  have failed : (stateGet call.config call.request.username (call.withLock true).env.io base
      p.state).1 = none → SectionAt crypto call base (.leaving serviceErrReply) base := by
    intro got
    obtain ⟨reply, same⟩ := serve_refused (prepareCall_withLock crypto call true ▸ prepared) got
    exact ⟨reply.symm, same.symm⟩
  unfold stateLoad
  cases delivered : deliver .localMode call.env.io.readable base with
  | none =>
      apply failed
      simp [stateGet, Call.withLock, isLocal, delivered]
  | some buf =>
      dsimp only
      cases parsed : stateParse buf call.request.username { p.state with locked := false } with
      | none =>
          apply failed
          simp [stateGet, Call.withLock, isLocal, delivered, parsed]
      | some state =>
          refine ⟨prepared, ?_, rfl⟩
          simp [stateGet, Call.withLock, isLocal, delivered, parsed]

theorem partway_at {crypto : Crypto} {calls : Nat → Call}
    (isLocal : ∀ i, (calls i).config.stateMode = .localMode) {i : Nat} {base s : Store}
    {section_ : Section} (partway : Serial.Partway (program crypto calls) i base section_ s) :
    SectionAt crypto (calls i) base section_ s := by
  induction partway with
  | entered section_ entry =>
      cases prepared : prepareCall crypto (calls i) with
      | error exit => simp [program, prepared] at entry
      | ok p =>
          simp only [program, prepared, Except.ok.injEq] at entry
          rw [← entry]
          exact ⟨prepared, rfl⟩
  | worked section_ s _ unfinished ih =>
      cases section_ with
      | locked p =>
          obtain ⟨prepared, rfl⟩ := ih
          exact stateLoad_at (isLocal i) prepared s
      | loaded p state =>
          obtain ⟨prepared, got, rfl⟩ := ih
          exact ⟨p, state, prepared, got, rfl, rfl⟩
      | decided label l =>
          obtain ⟨p, state, prepared, got, result, rfl⟩ := ih
          have run : (serve crypto s ((calls i).withLock true)).1 =
              finish (calls i).config (calls i).request ((calls i).withLock true).env s [.acquire]
                label l :=
            serve_loaded (prepareCall_withLock crypto (calls i) true ▸ prepared) got
              ((authenticate_withLock crypto (calls i) true p state).trans result)
          exact ⟨by rw [run]; rfl, congrArg Outcome.store run.symm⟩
      | leaving reply => cases unfinished

theorem completes_serve {crypto : Crypto} {calls : Nat → Call}
    (isLocal : ∀ i, (calls i).config.stateMode = .localMode) {i : Nat} {base s : Store}
    {reply : Reply} (completes : Serial.Completes (program crypto calls) i base reply s) :
    reply = (serve crypto base ((calls i).withLock true)).1.reply ∧
      s = (serve crypto base ((calls i).withLock true)).2 := by
  obtain ⟨section_, partway, finished⟩ := completes
  cases section_ with
  | leaving reply' =>
      cases finished
      exact partway_at isLocal partway
  | locked p => cases finished
  | loaded p state => cases finished
  | decided label l => cases finished

/-- A serial execution of the sections is a session. -/
theorem serially_session {crypto : Crypto} {calls : Nat → Call}
    (isLocal : ∀ i, (calls i).config.stateMode = .localMode) {start s : Store}
    {log : List (Nat × Reply)} (serially : Serial.Serially (program crypto calls) start log s) :
    s = Runs.final (serve crypto) start (log.map fun entry => (calls entry.1).withLock true) ∧
      log.map Prod.snd = (session crypto start
        (log.map fun entry => (calls entry.1).withLock true)).map (·.out.reply) := by
  induction serially with
  | nil => exact ⟨rfl, rfl⟩
  | snoc log s i reply s' _ next ih =>
      obtain ⟨state, replies⟩ := ih
      obtain ⟨reply', state'⟩ := completes_serve isLocal next
      rw [List.map_append, List.map_append, session, List.map_singleton, List.map_singleton,
        Runs.final_append, Runs.trace_append, List.map_append, ← state]
      exact ⟨state', by rw [replies, reply']; rfl⟩

/-! ## Serialisability -/

def World.Quiescent (w : World) : Prop := ∀ i lock section_, w.thread i ≠ .inside lock section_

/-- A call that is refused the lock replies without regard to the stored state,
and leaves it alone. -/
theorem serve_without_lock (crypto : Crypto) (call : Call) (s : Store) :
    (serve crypto s (call.withLock false)).2 = s ∧
      (∀ exit, prepareCall crypto call = .error exit →
        (serve crypto s (call.withLock false)).1.reply = earlyReply call exit) ∧
      (∀ p, prepareCall crypto call = .ok p →
        (serve crypto s (call.withLock false)).1.reply = serviceErrReply) := by
  cases prepared : prepareCall crypto call with
  | error exit =>
      have prepared' : prepare crypto (cardops crypto (call.withLock false).env.undef)
          (call.withLock false).config (call.withLock false).request (call.withLock false).env =
          .error exit := prepared
      have early : (serve crypto s (call.withLock false)).1 =
          finish call.config call.request (call.withLock false).env s [] exit.label
            (Locals.start call.request call.env exit.rc State.init) := by
        simp only [serve, verify, prepared']
        rfl
      have same : (serve crypto s (call.withLock false)).2 =
          (serve crypto s (call.withLock false)).1.store := rfl
      rw [same, early, finish_unlocked _ _ _ _ _ _ rfl]
      refine ⟨rfl, ?_, fun _ impossible => by cases impossible⟩
      intro _ again
      cases again
      rw [earlyReply, finish_unlocked _ _ _ _ _ _ rfl]
      rfl
  | ok p =>
      have got : (stateGet (call.withLock false).config (call.withLock false).request.username
          (call.withLock false).env.io s p.state).1 = none := rfl
      obtain ⟨reply, same⟩ := serve_refused (prepareCall_withLock crypto call false ▸ prepared) got
      exact ⟨same, fun _ impossible => (by cases impossible), fun _ _ => reply⟩

/-- Two threads are never inside together, and one that asks for the lock while
another is inside is turned away. -/
def World.Exclusive (crypto : Crypto) (calls : Nat → Call) (w : World) : Prop :=
  ∀ i lock section_, w.thread i = .inside lock section_ →
    (∀ j lock' section', w.thread j = .inside lock' section' → j = i) ∧
    ∀ j p hr, w.thread j = .prepared p → w.chain.fresh hr = true →
      w.step crypto calls j hr = some (w.set j (.done serviceErrReply))

section Simulation

variable {crypto : Crypto} {calls : Nat → Call} {lock : Nat} {username : Username} {w : World}
  {sys : Serial.System Nat Store Section Reply} {start : Store} {log : List (Nat × Reply)}
  {base : Store}

theorem Sim.quiescent (sim : Sim crypto calls lock username w sys) (quiet : w.Quiescent) :
    ∀ i section_, sys.phase i ≠ .inside section_ := by
  intro i section_ inside
  have here := sim.threads i
  cases thread : w.thread i with
  | inside lock' section' => exact quiet i lock' section' thread
  | ready => simp [ThreadSim, thread, inside] at here
  | prepared p => simp [ThreadSim, thread, inside] at here
  | done reply => simp [ThreadSim, thread, inside] at here

theorem Sim.exclusive (sim : Sim crypto calls lock username w sys)
    (sameUser : ∀ i, (calls i).request.username = username)
    (consistent : Serial.Consistent (program crypto calls) start sys log base) :
    w.Exclusive crypto calls := by
  intro i lock' section_ thread
  obtain ⟨holder, -, -, alone⟩ := consistent.holder (sim.inside thread).2
  refine ⟨fun j _ section' inside => alone j section' (sim.inside inside).2, ?_⟩
  intro j p hr prepared fresh
  rcases sim.chain with ⟨noHolder, -⟩ | ⟨_, ltime, -, held⟩
  · rw [noHolder] at holder
    cases holder
  · simp only [World.step, prepared, sameUser j, lockGet_held held (held.not_expired fresh)]
    rfl

theorem Sim.settled (sim : Sim crypto calls lock username w sys)
    (consistent : Serial.Consistent (program crypto calls) start sys log base)
    (quiet : w.Quiescent) :
    w.store = base ∧ w.order = log.map Prod.fst ∧
      ∀ entry ∈ log, w.thread entry.1 = .done entry.2 := by
  refine ⟨?_, ?_, fun entry logged => sim.done_iff.mpr (consistent.replies entry.1 entry.2 logged)⟩
  all_goals
    rcases consistent.current with ⟨-, store, order, -⟩ | ⟨i, section_, -, inside, -⟩
  · rw [sim.store, store]
  · exact absurd inside (sim.quiescent quiet i section_)
  · rw [sim.order, order]
  · exact absurd inside (sim.quiescent quiet i section_)

theorem Sim.turned_away (sim : Sim crypto calls lock username w sys)
    (consistent : Serial.Consistent (program crypto calls) start sys log base) {i : Nat}
    {reply : Reply} (done : w.thread i = .done reply) (outside : i ∉ w.order) :
    (∀ s, reply = (serve crypto s ((calls i).withLock false)).1.reply) ∧
      ∀ p, prepareCall crypto (calls i) = .ok p → reply = serviceErrReply := by
  rcases consistent.others i reply (sim.done_iff.mp done) with logged | ⟨-, early | refused⟩
  · rw [sim.order] at outside
    exact absurd (consistent.granted logged) outside
  · cases prepared : prepareCall crypto (calls i) with
    | error exit =>
        simp only [program, prepared, Except.error.injEq] at early
        refine ⟨fun s => ?_, fun _ impossible => by cases impossible⟩
        rw [← early, (serve_without_lock crypto (calls i) s).2.1 exit prepared]
    | ok p => simp [program, prepared] at early
  · obtain ⟨⟨section_, entry⟩, rfl⟩ := refused
    cases prepared : prepareCall crypto (calls i) with
    | error exit => simp [program, prepared] at entry
    | ok p =>
        refine ⟨fun s => ?_, fun _ _ => rfl⟩
        rw [(serve_without_lock crypto (calls i) s).2.2 p prepared]
        rfl

end Simulation

/-- The replies and the state file are those of the calls that got the lock, one
after the other in the order in which they got it. -/
structure World.Serialised (crypto : Crypto) (calls : Nat → Call) (store : Store) (w : World) :
    Prop where
  file : w.store = Runs.final (serve crypto) store (w.order.map fun i => (calls i).withLock true)
  replies : w.order.map w.thread =
    (session crypto store (w.order.map fun i => (calls i).withLock true)).map
      fun exchange => .done exchange.out.reply

/-- A thread that got no lock replied what `verify` replies without one, whatever
the state file; it is a service error once `lock_get` was reached. -/
def World.TurnedAway (crypto : Crypto) (calls : Nat → Call) (w : World) : Prop :=
  ∀ i reply, w.thread i = .done reply → i ∉ w.order →
    (∀ s, reply = (serve crypto s ((calls i).withLock false)).1.reply) ∧
    ∀ p, prepareCall crypto (calls i) = .ok p → reply = serviceErrReply

/-- Concurrent calls for one user are serialisable: whatever the interleaving, as
long as no lock expires. -/
theorem concurrent_serialisable (crypto : Crypto) (username : Username) (calls : Nat → Call)
    (isLocal : ∀ i, (calls i).config.stateMode = .localMode)
    (sameUser : ∀ i, (calls i).request.username = username) (chain : Chain) (lock : Nat)
    (free : chain.Free lock) (store : Store) (events : List (Nat × Int))
    (timely : (World.start chain store).timely crypto calls events = true) :
    ∃ w, (World.start chain store).run crypto calls events = some w ∧ w.order.Nodup ∧
      w.Exclusive crypto calls ∧ w.TurnedAway crypto calls ∧
      (w.Quiescent → w.Serialised crypto calls store) := by
  obtain ⟨w, sys, run, sim, reaches⟩ := Sim.run sameUser events (World.start chain store)
    (Serial.System.start store) (Sim.start free store) .refl timely
  obtain ⟨log, base, consistent⟩ := Serial.reaches_consistent reaches
  refine ⟨w, run, ?_, sim.exclusive sameUser consistent,
    fun i reply done outside => sim.turned_away consistent done outside, ?_⟩
  · rw [sim.order]
    exact consistent.once
  · intro quiet
    obtain ⟨final, order, threads⟩ := sim.settled consistent quiet
    obtain ⟨state, replies⟩ := serially_session isLocal consistent.serial
    have sameCalls : (w.order.map fun i => (calls i).withLock true) =
        log.map fun entry => (calls entry.1).withLock true := by
      rw [order, List.map_map]
      rfl
    refine ⟨?_, ?_⟩
    · rw [sameCalls, final, state]
    · calc w.order.map w.thread = log.map fun entry => Thread.done entry.2 := by
            rw [order, List.map_map]
            exact List.map_congr_left threads
        _ = (log.map Prod.snd).map Thread.done := by
            rw [List.map_map]
            rfl
        _ = _ := by
            rw [replies, sameCalls, List.map_map]
            rfl

/-- The same passcode from three threads: the second finds the lock held by the
first, the third runs after it. -/
def samePasscode (i : Nat) : Call := papCall (hmacUser "hotp-d6") "287082" (1000 + i)

def threeThreads : List (Nat × Int) :=
  ([0, 1, 0, 1, 0, 0, 0, 0] ++ [2, 2, 2, 2, 2, 2]).map fun i => (i, 0)

def Thread.rc : Thread → Option Rc
  | .done reply => some reply.rc
  | _ => none

theorem concurrent_serialisable_three :
    ((World.start lockInit (stateLine "5:bob:0000000000000000:::0:0:0:")).run sampleCrypto
        samePasscode threeThreads).map (fun w => (w.order, [0, 1, 2].map fun i => (w.thread i).rc)) =
      some ([0, 2], [some .ok, some .serviceErr, some .authErr]) ∧
    ∃ w, (World.start lockInit (stateLine "5:bob:0000000000000000:::0:0:0:")).run sampleCrypto
        samePasscode threeThreads = some w ∧ w.order.Nodup ∧
      w.Exclusive sampleCrypto samePasscode ∧ w.TurnedAway sampleCrypto samePasscode ∧
      (w.Quiescent → w.Serialised sampleCrypto samePasscode
        (stateLine "5:bob:0000000000000000:::0:0:0:")) :=
  ⟨by decide +kernel, concurrent_serialisable sampleCrypto bob samePasscode (fun _ => rfl)
    (fun _ => rfl) lockInit 0 lockInit_free (stateLine "5:bob:0000000000000000:::0:0:0:")
    threeThreads (by decide +kernel)⟩

end Otpd

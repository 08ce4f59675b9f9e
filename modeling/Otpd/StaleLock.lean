import Otpd.Lock
import Otpd.Lib.Schedule

/-!
# Ownership of a lock that may expire

Threads that take and put back the lock of one user, with any clock readings.  A lock
held for 24 s is granted again to whoever asks; the thread that held it does not learn
of that and puts its node back all the same.
-/

set_option autoImplicit false

namespace Otpd

open CMem

/-- `lost`: the lock was declared stale and granted to another thread. -/
inductive OwnPhase where
  | idle
  | holds (lock : Nat)
  | lost (lock : Nat)
  deriving DecidableEq

structure OwnWorld where
  chain : Chain
  thread : Nat → OwnPhase

def OwnWorld.start : OwnWorld := ⟨lockInit, fun _ => .idle⟩

inductive OwnEvent where
  | get (thread : Nat) (now : Int)
  | put (thread : Nat)

/-- Whoever held `lock` before it was granted anew has lost it. -/
def OwnPhase.lose (lock : Nat) : OwnPhase → OwnPhase
  | .holds held => if held = lock then .lost held else .holds held
  | phase => phase

def OwnPhase.lock : OwnPhase → Option Nat
  | .idle => none
  | .holds lock | .lost lock => some lock

/-- `none` is a NULL dereference, or a call the thread does not make. -/
def ownStep (username : Username) (w : OwnWorld) : OwnEvent → Option OwnWorld
  | .get t now =>
      match w.thread t with
      | .idle => (lockGet w.chain username now).map fun
          | (none, chain) => ⟨chain, w.thread⟩
          | (some lock, chain) =>
              ⟨chain, Function.update (fun t' => (w.thread t').lose lock) t (.holds lock)⟩
      | _ => none
  | .put t => do
      let lock ← (w.thread t).lock
      let chain ← lockPut w.chain lock
      some ⟨chain, Function.update w.thread t .idle⟩

/-- A thread gets no second lock, and puts each lock it got exactly once. -/
def OwnRule (w : OwnWorld) : OwnEvent → Prop
  | .get t _ => w.thread t = .idle
  | .put t => w.thread t ≠ .idle

def OwnWorld.OneHolder (w : OwnWorld) : Prop :=
  ∀ t t' lock lock', w.thread t = .holds lock → w.thread t' = .holds lock' → t = t'

/-- The put finds a node with a name, and no other thread holds that lock now. -/
def PutSound (w : OwnWorld) : OwnEvent → Prop
  | .get _ _ => True
  | .put t => ∃ lock node username, (w.thread t).lock = some lock ∧
      w.chain.nodes[lock]? = some node ∧ node.username = some username ∧
      ∀ t' ≠ t, w.thread t' ≠ .holds lock

def OwnCallOk (username : Username) (w : OwnWorld) (e : OwnEvent) : Prop :=
  PutSound w e ∧ ∃ next, ownStep username w e = some next ∧ next.OneHolder

/-- The thread that puts has not lost its lock. -/
def StillHolds (w : OwnWorld) : OwnEvent → Prop
  | .get _ _ => True
  | .put t => ∀ lock, w.thread t ≠ .lost lock

/-! ## Who holds the node -/

/-- The one node of the chain is free, or held by one thread; whoever lost it keeps a
pointer to it. -/
structure Owned (username : Username) (w : OwnWorld) : Prop where
  lost : ∀ t lock, w.thread t = .lost lock → lock = 0
  node : (w.chain.Free 0 ∧ (∃ node, w.chain.nodes[0]? = some node ∧ node.username = none) ∧
      ∀ t lock, w.thread t ≠ .holds lock) ∨
    ∃ owner ltime, w.chain.Held 0 username ltime ∧ w.thread owner = .holds 0 ∧
      ∀ t lock, w.thread t = .holds lock → t = owner

section Steps

variable {username : Username} {w : OwnWorld} {t : Nat} {now : Int}

theorem owned_start (username : Username) : Owned username OwnWorld.start where
  lost := fun _ _ wrong => by cases wrong
  node := .inl ⟨lockInit_free, ⟨_, rfl, rfl⟩, fun _ _ wrong => by cases wrong⟩

theorem Owned.one_holder (owned : Owned username w) : w.OneHolder := by
  intro t t' lock lock' holds holds'
  rcases owned.node with ⟨-, -, nobody⟩ | ⟨owner, ltime, -, -, only⟩
  · exact absurd holds (nobody t lock)
  · rw [only t lock holds, only t' lock' holds']

/-- Granting the node to `t` takes it from whoever held it. -/
theorem Owned.grant (owned : Owned username w) (t : Nat) {chain : Chain}
    (held : chain.Held 0 username now) :
    Owned username
      ⟨chain, Function.update (fun t' => (w.thread t').lose 0) t (.holds 0)⟩ where
  lost := by
    intro t' lock phase
    simp only [Function.update_apply] at phase
    split at phase
    · cases phase
    · cases before : w.thread t' with
      | idle => simp [before, OwnPhase.lose] at phase
      | holds l =>
          simp only [before, OwnPhase.lose] at phase
          split at phase
          · rename_i zero
            cases phase
            exact zero
          · cases phase
      | lost l =>
          simp only [before, OwnPhase.lose, OwnPhase.lost.injEq] at phase
          subst phase
          exact owned.lost t' l before
  node := by
    refine .inr ⟨t, now, held, by simp, ?_⟩
    intro t' lock phase
    by_contra other
    simp only [Function.update_of_ne other] at phase
    cases before : w.thread t' with
    | idle => simp [before, OwnPhase.lose] at phase
    | holds l =>
        rcases owned.node with ⟨-, -, nobody⟩ | ⟨owner, ltime, -, mine, only⟩
        · exact nobody t' l before
        · obtain rfl := only t' l before
          rw [before] at mine
          cases mine
          simp [before, OwnPhase.lose] at phase
    | lost l => simp [before, OwnPhase.lose] at phase

theorem Owned.get (owned : Owned username w) (now : Int) (idle : w.thread t = .idle) :
    ∃ next, ownStep username w (.get t now) = some next ∧ Owned username next := by
  rcases owned.node with ⟨free, -, -⟩ | ⟨owner, ltime, held, -, -⟩
  · obtain ⟨chain, granted, held⟩ := lockGet_free free username now
    exact ⟨_, by simp only [ownStep, idle, granted, Option.map_some], owned.grant t held⟩
  · by_cases stale : now ≥ ltime + lockExpiry
    · obtain ⟨chain, granted, held⟩ := lockGet_stale held stale
      exact ⟨_, by simp only [ownStep, idle, granted, Option.map_some], owned.grant t held⟩
    · have fresh : now < ltime + lockExpiry := by omega
      have refused := lockGet_held held fresh
      exact ⟨w, by simp only [ownStep, idle, refused, Option.map_some], owned⟩

theorem Owned.put_holds (owned : Owned username w) {lock : Nat} (holds : w.thread t = .holds lock) :
    PutSound w (.put t) ∧ ∃ next, ownStep username w (.put t) = some next ∧ Owned username next := by
  rcases owned.node with ⟨-, -, nobody⟩ | ⟨owner, ltime, held, mine, only⟩
  · exact absurd holds (nobody t lock)
  · obtain rfl := only t lock holds
    rw [mine] at holds
    cases holds
    obtain ⟨node, stored, -, name, -⟩ := held.node
    obtain ⟨chain, released, free, cleared⟩ := lockPut_held held
    refine ⟨⟨0, node, username, by rw [mine]; rfl, stored, name, ?_⟩,
      ⟨chain, Function.update w.thread t .idle⟩, ?_, ?_⟩
    · intro t' other holds'
      exact other (only t' 0 holds')
    · simp only [ownStep, mine, OwnPhase.lock, released, Option.bind_eq_bind, Option.bind_some]
    · refine ⟨?_, .inl ⟨free, cleared, ?_⟩⟩
      · intro t' lock phase
        by_cases same : t' = t
        · subst same
          simp at phase
        · simp only [Function.update_of_ne same] at phase
          exact owned.lost t' lock phase
      · intro t' lock phase
        by_cases same : t' = t
        · subst same
          simp at phase
        · simp only [Function.update_of_ne same] at phase
          exact same (only t' lock phase)

/-- A put of a lost lock releases the new holder's lock, or finds the name NULL. -/
theorem Owned.put_lost (owned : Owned username w) {lock : Nat} (lost : w.thread t = .lost lock) :
    ¬ PutSound w (.put t) := by
  obtain rfl := owned.lost t lock lost
  rintro ⟨lock, node, name, points, stored, named, unheld⟩
  rw [lost] at points
  cases points
  rcases owned.node with ⟨-, ⟨node', stored', cleared⟩, -⟩ | ⟨owner, ltime, -, mine, -⟩
  · rw [stored] at stored'
    cases stored'
    rw [named] at cleared
    cases cleared
  · have other : owner ≠ t := by
      rintro rfl
      rw [lost] at mine
      cases mine
    exact unheld owner other mine

theorem Owned.step (owned : Owned username w) {e : OwnEvent} (rule : OwnRule w e)
    (sound : PutSound w e) : ∃ next, ownStep username w e = some next ∧ Owned username next := by
  cases e with
  | get t now => exact owned.get now rule
  | put t =>
      cases phase : w.thread t with
      | idle => exact absurd phase rule
      | holds lock => exact (owned.put_holds phase).2
      | lost lock => exact absurd sound (owned.put_lost phase)

theorem ownCallOk_iff (owned : Owned username w) {e : OwnEvent} (rule : OwnRule w e) :
    OwnCallOk username w e ↔ StillHolds w e := by
  cases e with
  | get t now =>
      obtain ⟨next, taken, owned'⟩ := owned.get now rule
      exact iff_of_true ⟨trivial, next, taken, owned'.one_holder⟩ trivial
  | put t =>
      cases phase : w.thread t with
      | idle => exact absurd phase rule
      | holds lock =>
          obtain ⟨sound, next, taken, owned'⟩ := owned.put_holds phase
          refine iff_of_true ⟨sound, next, taken, owned'.one_holder⟩ ?_
          intro lock' wrong
          rw [phase] at wrong
          cases wrong
      | lost lock =>
          exact iff_of_false (fun ok => owned.put_lost phase ok.1) fun still => still lock phase

end Steps

/-! ## Whole interleavings -/

theorem lock_ownership_iff (username : Username) (es : List OwnEvent)
    (rule : Schedule.Along (ownStep username) OwnRule OwnWorld.start es) :
    (Schedule.Along (ownStep username) (OwnCallOk username) OwnWorld.start es ∧
      ∃ w, Schedule.run (ownStep username) OwnWorld.start es = some w ∧ w.OneHolder) ↔
    Schedule.Along (ownStep username) StillHolds OwnWorld.start es := by
  have same : Schedule.Along (ownStep username) (OwnCallOk username) OwnWorld.start es ↔
      Schedule.Along (ownStep username) StillHolds OwnWorld.start es := by
    refine Schedule.along_iff (Owned username) _ (fun w e owned rule => ownCallOk_iff owned rule)
      ?_ (owned_start username) rule
    intro w e next owned rule ok taken
    obtain ⟨next', taken', owned'⟩ := owned.step rule ok.1
    rw [taken] at taken'
    cases taken'
    exact owned'
  constructor
  · rintro ⟨calls, -⟩
    exact same.mp calls
  · intro still
    have calls := same.mpr still
    refine ⟨calls, ?_⟩
    obtain ⟨w, reached, owned⟩ := Schedule.run_total (Owned username)
      (fun w e owned both => owned.step both.1 both.2.1) (owned_start username) (rule.and calls)
    exact ⟨w, reached, owned.one_holder⟩

instance (w : OwnWorld) : ∀ e, Decidable (OwnRule w e)
  | .get t _ => inferInstanceAs (Decidable (w.thread t = .idle))
  | .put t => inferInstanceAs (Decidable (w.thread t ≠ .idle))

instance (w : OwnWorld) : ∀ e, Decidable (StillHolds w e)
  | .get _ _ => .isTrue trivial
  | .put t =>
      decidable_of_iff (∀ lock ∈ (w.thread t).lock, w.thread t ≠ .lost lock) (by
        cases phase : w.thread t <;> simp [StillHolds, phase, OwnPhase.lock])

def alice : Username := ⟨ascii "alice", by decide, by decide⟩

/-- A refused thread, a stale lock taken over, and the new holder's put; the thread
that lost the lock never returns. -/
def stalledHolder : List OwnEvent :=
  [.get 0 0, .get 1 5, .put 0, .get 1 6, .get 2 24000000006, .put 2]

theorem lock_ownership_stalled :
    Schedule.Along (ownStep alice) (OwnCallOk alice) OwnWorld.start stalledHolder ∧
      ∃ w, Schedule.run (ownStep alice) OwnWorld.start stalledHolder = some w ∧ w.OneHolder :=
  (lock_ownership_iff alice stalledHolder (by decide +kernel)).mpr (by decide +kernel)

/-- The holder of a stale lock puts it back after another thread took it over, and the
new holder puts it back again. -/
def lateRelease : List OwnEvent := [.get 0 0, .get 1 24000000000, .put 0]

theorem stale_put_releases_other :
    ∃ w, Schedule.run (ownStep alice) OwnWorld.start lateRelease = some w ∧
      Schedule.Along (ownStep alice) OwnRule OwnWorld.start (lateRelease ++ [.put 1]) ∧
      w.thread 1 = .holds 0 ∧ w.chain.last = none ∧
      Schedule.run (ownStep alice) OwnWorld.start (lateRelease ++ [.put 1]) = none :=
  ⟨_, rfl, by decide +kernel, rfl, rfl, rfl⟩

end Otpd

import Mathlib.Logic.Function.Basic
import Mathlib.Logic.Relation
import Mathlib.Tactic

/-!
# Critical sections are serialisable

Threads run one transaction each on a shared store, behind a lock that refuses a
second holder instead of making it wait.  The work inside is a sequence of steps
that interleave freely with the steps of the other threads.  `reaches_consistent`
says that every reachable state is explained by running the transactions one after
the other, in the order in which the lock was taken.
-/

set_option autoImplicit false

namespace Serial

variable {ι S P R : Type*}

/-- What each thread does.  `entry` is where it starts inside the section, or its
reply when it does not need the lock; `work` is one step inside; `result` tells
when the work is over; `refused` is the reply when the lock is held. -/
structure Program (ι S P R : Type*) where
  entry : ι → Except R P
  work : ι → P → S → P × S
  result : ι → P → Option R
  refused : ι → R

inductive Phase (P R : Type*) where
  | idle
  | inside (at_ : P)
  | done (reply : R)

/-- `order` lists the threads that took the lock, oldest first. -/
structure System (ι S P R : Type*) where
  phase : ι → Phase P R
  holder : Option ι
  store : S
  order : List ι

def System.start (store : S) : System ι S P R := ⟨fun _ => .idle, none, store, []⟩

/-! ## Transactions one after the other -/

section Semantics

variable (prog : Program ι S P R)

/-- How far the transaction of `i`, run alone from `base`, can have got. -/
inductive Partway (i : ι) (base : S) : P → S → Prop where
  | entered (p : P) (entry : prog.entry i = .ok p) : Partway i base p base
  | worked (p : P) (s : S) (before : Partway i base p s) (unfinished : prog.result i p = none) :
      Partway i base (prog.work i p s).1 (prog.work i p s).2

/-- Run alone from `base`, the transaction of `i` replies `r` and leaves `s`. -/
def Completes (i : ι) (base : S) (r : R) (s : S) : Prop :=
  ∃ p, Partway prog i base p s ∧ prog.result i p = some r

/-- The transactions of `log`, one after the other. -/
inductive Serially (start : S) : List (ι × R) → S → Prop where
  | nil : Serially start [] start
  | snoc (log : List (ι × R)) (s : S) (i : ι) (r : R) (s' : S) (before : Serially start log s)
      (next : Completes prog i s r s') : Serially start (log ++ [(i, r)]) s'

/-- A state explained by the finished transactions of `log`, which leave `base`,
and by at most one transaction under way. -/
structure Consistent (start : S) (sys : System ι S P R) (log : List (ι × R)) (base : S) : Prop where
  serial : Serially prog start log base
  replies : ∀ i r, (i, r) ∈ log → sys.phase i = .done r
  others : ∀ i r, sys.phase i = .done r → (i, r) ∈ log ∨
    (i ∉ sys.order ∧ (prog.entry i = .error r ∨ ((∃ p, prog.entry i = .ok p) ∧
      r = prog.refused i)))
  started : ∀ i ∈ sys.order, sys.phase i ≠ .idle
  once : sys.order.Nodup
  current : (sys.holder = none ∧ sys.store = base ∧ sys.order = log.map Prod.fst ∧
      ∀ i p, sys.phase i ≠ .inside p) ∨
    ∃ i p, sys.holder = some i ∧ sys.phase i = .inside p ∧ Partway prog i base p sys.store ∧
      sys.order = log.map Prod.fst ++ [i] ∧ ∀ j q, sys.phase j = .inside q → j = i

end Semantics

theorem consistent_start (prog : Program ι S P R) (start : S) :
    Consistent prog start (System.start start) [] start where
  serial := .nil
  replies := by simp
  others := by intro i r done; cases done
  started := by simp [System.start]
  once := List.nodup_nil
  current := Or.inl ⟨rfl, rfl, rfl, fun _ _ inside => by cases inside⟩

theorem Consistent.holder {prog : Program ι S P R} {start : S} {sys : System ι S P R}
    {log : List (ι × R)} {base : S} (consistent : Consistent prog start sys log base) {i : ι}
    {p : P} (inside : sys.phase i = .inside p) :
    sys.holder = some i ∧ Partway prog i base p sys.store ∧ sys.order = log.map Prod.fst ++ [i] ∧
      ∀ j q, sys.phase j = .inside q → j = i := by
  rcases consistent.current with ⟨-, -, -, nobody⟩ | ⟨j, q, held, at_, partway, order, alone⟩
  · exact absurd inside (nobody i p)
  · obtain rfl := alone i p inside
    rw [at_] at inside
    cases inside
    exact ⟨held, partway, order, alone⟩

theorem Consistent.granted {prog : Program ι S P R} {start : S} {sys : System ι S P R}
    {log : List (ι × R)} {base : S} (consistent : Consistent prog start sys log base) {i : ι}
    {r : R} (logged : (i, r) ∈ log) : i ∈ sys.order := by
  have listed : i ∈ log.map Prod.fst := List.mem_map_of_mem logged
  rcases consistent.current with ⟨-, -, order, -⟩ | ⟨j, p, -, -, -, order, -⟩
  · rw [order]
    exact listed
  · rw [order]
    exact List.mem_append_left [j] listed

/-! ## Interleaved steps -/

section Interleaving

variable [DecidableEq ι]

def System.set (sys : System ι S P R) (i : ι) (phase : Phase P R) : System ι S P R :=
  { sys with phase := Function.update sys.phase i phase }

inductive Step (prog : Program ι S P R) (sys : System ι S P R) : System ι S P R → Prop where
  | bypass (i : ι) (r : R) (idle : sys.phase i = .idle) (never : prog.entry i = .error r) :
      Step prog sys (sys.set i (.done r))
  | acquire (i : ι) (p : P) (idle : sys.phase i = .idle) (entry : prog.entry i = .ok p)
      (free : sys.holder = none) :
      Step prog sys { sys.set i (.inside p) with holder := some i, order := sys.order ++ [i] }
  | refuse (i j : ι) (p : P) (idle : sys.phase i = .idle) (entry : prog.entry i = .ok p)
      (held : sys.holder = some j) : Step prog sys (sys.set i (.done (prog.refused i)))
  | work (i : ι) (p : P) (inside : sys.phase i = .inside p) (unfinished : prog.result i p = none) :
      Step prog sys { sys.set i (.inside (prog.work i p sys.store).1) with
        store := (prog.work i p sys.store).2 }
  | release (i : ι) (p : P) (r : R) (inside : sys.phase i = .inside p)
      (finished : prog.result i p = some r) :
      Step prog sys { sys.set i (.done r) with holder := none }

variable {prog : Program ι S P R} {start : S} {sys sys' : System ι S P R}
  {log : List (ι × R)} {base : S}

@[simp]
theorem System.set_phase_self (sys : System ι S P R) (i : ι) (phase : Phase P R) :
    (sys.set i phase).phase i = phase := by
  simp [System.set]

theorem System.set_phase_ne (sys : System ι S P R) {i j : ι} (differs : j ≠ i)
    (phase : Phase P R) : (sys.set i phase).phase j = sys.phase j := by
  simp [System.set, differs]

theorem System.set_keeps {i j : ι} {new phase : Phase P R} (exact : sys.phase j = phase)
    (differs : sys.phase i ≠ phase) : (sys.set i new).phase j = phase := by
  have apart : j ≠ i := by
    rintro rfl
    exact differs exact
  rw [System.set_phase_ne sys apart, exact]

theorem System.set_was {i j : ι} {new phase : Phase P R} (exact : (sys.set i new).phase j = phase)
    (differs : new ≠ phase) : j ≠ i ∧ sys.phase j = phase := by
  have apart : j ≠ i := by
    rintro rfl
    rw [System.set_phase_self] at exact
    exact differs exact
  rw [System.set_phase_ne sys apart] at exact
  exact ⟨apart, exact⟩

theorem System.set_started {i : ι} {new : Phase P R} (running : new ≠ .idle)
    {order : List ι} (started : ∀ j ∈ order, j ≠ i → sys.phase j ≠ .idle) :
    ∀ j ∈ order, (sys.set i new).phase j ≠ .idle := by
  intro j member idle
  obtain ⟨apart, was⟩ := System.set_was idle running
  exact started j member apart was

theorem Consistent.leave (consistent : Consistent prog start sys log base) {i : ι} {r : R}
    (idle : sys.phase i = .idle)
    (reply : prog.entry i = .error r ∨ ((∃ p, prog.entry i = .ok p) ∧ r = prog.refused i)) :
    Consistent prog start (sys.set i (.done r)) log base := by
  have outside : i ∉ sys.order := fun member => consistent.started i member idle
  refine ⟨consistent.serial, ?_, ?_,
    System.set_started (by simp) (fun j member _ => consistent.started j member),
    consistent.once, ?_⟩
  · intro j r' member
    exact System.set_keeps (consistent.replies j r' member) (by rw [idle]; simp)
  · intro j r' done
    by_cases here : j = i
    · subst here
      rw [System.set_phase_self] at done
      cases done
      exact Or.inr ⟨outside, reply⟩
    · rw [System.set_phase_ne sys here] at done
      exact consistent.others j r' done
  · rcases consistent.current with ⟨free, store, order, nobody⟩ |
      ⟨j, p, held, inside, partway, order, alone⟩
    · exact Or.inl ⟨free, store, order,
        fun k p inside => nobody k p (System.set_was inside (by simp)).2⟩
    · exact Or.inr ⟨j, p, held, System.set_keeps inside (by rw [idle]; simp), partway, order,
        fun k q inside' => alone k q (System.set_was inside' (by simp)).2⟩

theorem Consistent.acquire (consistent : Consistent prog start sys log base) {i : ι} {p : P}
    (idle : sys.phase i = .idle) (entry : prog.entry i = .ok p) (free : sys.holder = none) :
    Consistent prog start
      { sys.set i (.inside p) with holder := some i, order := sys.order ++ [i] } log base := by
  rcases consistent.current with ⟨-, store, order, nobody⟩ | ⟨j, q, held, -⟩
  · have outside : i ∉ sys.order := fun member => consistent.started i member idle
    refine ⟨consistent.serial, ?_, ?_, System.set_started (by simp) ?_,
      List.nodup_append.mpr ⟨consistent.once, List.nodup_singleton i, ?_⟩,
      Or.inr ⟨i, p, rfl, sys.set_phase_self i _, ?_, ?_, ?_⟩⟩
    · intro j r member
      exact System.set_keeps (consistent.replies j r member) (by rw [idle]; simp)
    · intro j r done
      obtain ⟨apart, was⟩ := System.set_was done (by simp)
      rcases consistent.others j r was with logged | ⟨outside, reply⟩
      · exact Or.inl logged
      · exact Or.inr ⟨by simp [outside, apart], reply⟩
    · intro j member apart
      exact consistent.started j (by simpa [apart] using member)
    · intro j member k last same
      rw [same, List.mem_singleton.mp last] at member
      exact outside member
    · change Partway prog i base p sys.store
      rw [store]
      exact .entered p entry
    · change sys.order ++ [i] = log.map Prod.fst ++ [i]
      rw [order]
    · intro j q inside
      by_contra apart
      rw [System.set_phase_ne sys apart] at inside
      exact nobody j q inside
  · rw [free] at held
    cases held

theorem Consistent.work (consistent : Consistent prog start sys log base) {i : ι} {p : P}
    (inside : sys.phase i = .inside p) (unfinished : prog.result i p = none) :
    Consistent prog start { sys.set i (.inside (prog.work i p sys.store).1) with
      store := (prog.work i p sys.store).2 } log base := by
  obtain ⟨held, partway, order, alone⟩ := consistent.holder inside
  refine ⟨consistent.serial, ?_, ?_,
    System.set_started (by simp) (fun j member _ => consistent.started j member), consistent.once,
    Or.inr ⟨i, _, held, sys.set_phase_self i _, .worked p sys.store partway unfinished, order, ?_⟩⟩
  · intro j r member
    exact System.set_keeps (consistent.replies j r member) (by rw [inside]; simp)
  · intro j r done
    exact consistent.others j r (System.set_was done (by simp)).2
  · intro j q inside'
    by_contra apart
    rw [System.set_phase_ne sys apart] at inside'
    exact apart (alone j q inside')

theorem Consistent.release (consistent : Consistent prog start sys log base) {i : ι} {p : P} {r : R}
    (inside : sys.phase i = .inside p) (finished : prog.result i p = some r) :
    Consistent prog start { sys.set i (.done r) with holder := none } (log ++ [(i, r)])
      sys.store := by
  obtain ⟨-, partway, order, alone⟩ := consistent.holder inside
  refine ⟨.snoc log base i r sys.store consistent.serial ⟨p, partway, finished⟩, ?_, ?_,
    System.set_started (by simp) (fun j member _ => consistent.started j member), consistent.once,
    Or.inl ⟨rfl, rfl, ?_, ?_⟩⟩
  · intro j r' member
    rcases List.mem_append.mp member with earlier | last
    · exact System.set_keeps (consistent.replies j r' earlier) (by rw [inside]; simp)
    · cases List.mem_singleton.mp last
      exact sys.set_phase_self i _
  · intro j r' done
    by_cases here : j = i
    · subst here
      rw [System.set_phase_self] at done
      cases done
      exact Or.inl (by simp)
    · rw [System.set_phase_ne sys here] at done
      rcases consistent.others j r' done with logged | outside
      · exact Or.inl (List.mem_append_left _ logged)
      · exact Or.inr outside
  · change sys.order = _
    rw [order, List.map_append]
    rfl
  · intro j q inside'
    obtain ⟨apart, was⟩ := System.set_was inside' (by simp)
    exact apart (alone j q was)

theorem Consistent.step (consistent : Consistent prog start sys log base)
    (step : Step prog sys sys') : ∃ log base, Consistent prog start sys' log base := by
  cases step with
  | bypass i r idle never => exact ⟨log, base, consistent.leave idle (Or.inl never)⟩
  | acquire i p idle entry free => exact ⟨log, base, consistent.acquire idle entry free⟩
  | refuse i j p idle entry held =>
      exact ⟨log, base, consistent.leave idle (Or.inr ⟨⟨p, entry⟩, rfl⟩)⟩
  | work i p inside unfinished => exact ⟨log, base, consistent.work inside unfinished⟩
  | release i p r inside finished => exact ⟨_, _, consistent.release inside finished⟩

/-- Whatever the interleaving, the state is explained by a serial execution. -/
theorem reaches_consistent (reaches : Relation.ReflTransGen (Step prog) (System.start start) sys) :
    ∃ log base, Consistent prog start sys log base := by
  induction reaches with
  | refl => exact ⟨[], start, consistent_start prog start⟩
  | tail _ step ih =>
      obtain ⟨log, base, consistent⟩ := ih
      exact consistent.step step

end Interleaving

end Serial

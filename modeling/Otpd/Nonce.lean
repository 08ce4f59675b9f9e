import Otpd.Types
import Otpd.Lib.Schedule

/-!
# Sequence numbers

`nonce32` in the build without `atomic.h`: the increment is made under the mutex, the
returned value is read after it is released.  A session uses the number for its GET
and the next one for its PUT, a failover probe uses it once.
-/

set_option autoImplicit false

namespace Otpd

inductive NonceUse where
  | session
  | probe
  deriving DecidableEq

/-- `incremented`: inside `nonce32`, between the increment and the read.  `gotten`: a
session whose GET went out under that number. -/
inductive NoncePhase where
  | idle
  | incremented (use : NonceUse)
  | gotten (seq : UInt32)
  deriving DecidableEq

/-- A session keeps the number for its PUT. -/
def NonceUse.after (seq : UInt32) : NonceUse → NoncePhase
  | .session => .gotten seq
  | .probe => .idle

/-- `calls` counts the calls of `nonce32` and `used` lists the numbers that requests
were encrypted under. -/
structure NonceWorld where
  seq : UInt32
  phase : Nat → NoncePhase
  calls : Nat
  used : List UInt32

/-- `seq = -2`. -/
def nonceInit : NonceWorld := ⟨0 - 2, fun _ => .idle, 0, []⟩

inductive NonceEvent where
  | increment (thread : Nat) (use : NonceUse)
  | read (thread : Nat)
  | put (thread : Nat)
  | close (thread : Nat)

def NonceWorld.set (w : NonceWorld) (thread : Nat) (phase : NoncePhase) : NonceWorld :=
  { w with phase := Function.update w.phase thread phase }

def nonceStep (w : NonceWorld) : NonceEvent → Option NonceWorld
  | .increment thread use =>
      match w.phase thread with
      | .idle => some { w.set thread (.incremented use) with seq := w.seq + 2, calls := w.calls + 1 }
      | _ => none
  | .read thread =>
      match w.phase thread with
      | .incremented use => some { w.set thread (use.after w.seq) with used := w.used ++ [w.seq] }
      | _ => none
  | .put thread =>
      match w.phase thread with
      | .gotten seq => some { w.set thread .idle with used := w.used ++ [seq + 1] }
      | _ => none
  | .close thread =>
      match w.phase thread with
      | .gotten _ => some (w.set thread .idle)
      | _ => none

/-- Nobody is between its increment and its read when the next increment is made. -/
def Undisturbed (w : NonceWorld) : NonceEvent → Prop
  | .increment _ _ => ∀ thread use, w.phase thread ≠ .incremented use
  | _ => True

theorem nonceStep_cases {w w' : NonceWorld} {e : NonceEvent} (taken : nonceStep w e = some w') :
    (∃ t use, e = .increment t use ∧ w.phase t = .idle ∧
      w' = { w.set t (.incremented use) with seq := w.seq + 2, calls := w.calls + 1 }) ∨
    (∃ t use, e = .read t ∧ w.phase t = .incremented use ∧
      w' = { w.set t (use.after w.seq) with used := w.used ++ [w.seq] }) ∨
    (∃ t seq, e = .put t ∧ w.phase t = .gotten seq ∧
      w' = { w.set t .idle with used := w.used ++ [seq + 1] }) ∨
    (∃ t seq, e = .close t ∧ w.phase t = .gotten seq ∧ w' = w.set t .idle) := by
  cases e with
  | increment t use =>
      simp only [nonceStep] at taken
      split at taken
      · exact .inl ⟨t, use, rfl, ‹_›, (Option.some.inj taken).symm⟩
      · cases taken
  | read t =>
      simp only [nonceStep] at taken
      split at taken
      · exact .inr (.inl ⟨t, _, rfl, ‹_›, (Option.some.inj taken).symm⟩)
      · cases taken
  | put t =>
      simp only [nonceStep] at taken
      split at taken
      · exact .inr (.inr (.inl ⟨t, _, rfl, ‹_›, (Option.some.inj taken).symm⟩))
      · cases taken
  | close t =>
      simp only [nonceStep] at taken
      split at taken
      · exact .inr (.inr (.inr ⟨t, _, rfl, ‹_›, (Option.some.inj taken).symm⟩))
      · cases taken

/-! ## Undisturbed calls -/

/-- `reads` calls have returned, each with its own even number. -/
structure Numbered (w : NonceWorld) (reads : Nat) : Prop where
  counter : w.seq + 2 = UInt32.ofNat (2 * w.calls)
  calling : (w.calls = reads ∧ ∀ t use, w.phase t ≠ .incremented use) ∨
    (w.calls = reads + 1 ∧ ∃ t use, w.phase t = .incremented use ∧
      ∀ t' use', w.phase t' = .incremented use' → t' = t)
  below : ∀ n ∈ w.used, n.toNat < 2 * reads
  once : w.used.Nodup
  gotten : ∀ t n, w.phase t = .gotten n →
    n.toNat % 2 = 0 ∧ n.toNat < 2 * reads ∧ n + 1 ∉ w.used
  own : ∀ t t' n, w.phase t = .gotten n → w.phase t' = .gotten n → t = t'

theorem NonceWorld.set_phase {w : NonceWorld} {t t' : Nat} {phase phase' : NoncePhase}
    (found : (w.set t phase).phase t' = phase') :
    (t' = t ∧ phase = phase') ∨ (t' ≠ t ∧ w.phase t' = phase') := by
  by_cases same : t' = t
  · subst same
    exact .inl ⟨rfl, (Function.update_self ..).symm.trans found⟩
  · exact .inr ⟨same, (Function.update_of_ne same ..).symm.trans found⟩

section Step

variable {w : NonceWorld} {reads : Nat}

theorem Numbered.gotten_next (numbered : Numbered w reads) (few : w.calls < 2 ^ 31) {t : Nat}
    {n : UInt32} (held : w.phase t = .gotten n) : (n + 1).toNat = n.toNat + 1 := by
  obtain ⟨-, small, -⟩ := numbered.gotten t n held
  have returned : reads ≤ w.calls := by
    rcases numbered.calling with ⟨all, -⟩ | ⟨all, -⟩
    · omega
    · omega
  rw [UInt32.toNat_add, UInt32.toNat_one, Nat.mod_eq_of_lt (by omega)]

theorem Numbered.increment (numbered : Numbered w reads) (t : Nat) (use : NonceUse)
    (alone : ∀ t use, w.phase t ≠ .incremented use) :
    Numbered { w.set t (.incremented use) with seq := w.seq + 2, calls := w.calls + 1 } reads where
  counter := by
    rw [Nat.mul_add, UInt32.ofNat_add, ← numbered.counter]
    rfl
  calling := by
    have settled : w.calls = reads := by
      rcases numbered.calling with ⟨settled, -⟩ | ⟨-, t', use', inside, -⟩
      · exact settled
      · exact absurd inside (alone t' use')
    refine .inr ⟨congrArg (· + 1) settled, t, use, Function.update_self .., ?_⟩
    intro t' use' inside
    rcases NonceWorld.set_phase inside with ⟨same, -⟩ | ⟨-, inside⟩
    · exact same
    · exact absurd inside (alone t' use')
  below := numbered.below
  once := numbered.once
  gotten := by
    intro t' n held
    rcases NonceWorld.set_phase held with ⟨-, wrong⟩ | ⟨-, held⟩
    · cases wrong
    · exact numbered.gotten t' n held
  own := by
    intro t1 t2 n held1 held2
    rcases NonceWorld.set_phase held1 with ⟨-, wrong⟩ | ⟨-, held1⟩
    · cases wrong
    · rcases NonceWorld.set_phase held2 with ⟨-, wrong⟩ | ⟨-, held2⟩
      · cases wrong
      · exact numbered.own t1 t2 n held1 held2

/-- The number read is the one this call made, above every number used so far. -/
theorem Numbered.reading (numbered : Numbered w reads) (few : w.calls < 2 ^ 31) {t : Nat}
    {use : NonceUse} (inside : w.phase t = .incremented use) :
    w.calls = reads + 1 ∧ w.seq.toNat = 2 * reads ∧
      ∀ t' use', w.phase t' = .incremented use' → t' = t := by
  rcases numbered.calling with ⟨-, nobody⟩ | ⟨count, t1, use1, -, only⟩
  · exact absurd inside (nobody t use)
  · obtain rfl := only t use inside
    have counter := congrArg UInt32.toNat numbered.counter
    have bound := w.seq.toNat_lt
    rw [UInt32.toNat_add, UInt32.toNat_ofNat', count] at counter
    refine ⟨count, ?_, only⟩
    rw [show (2 : UInt32).toNat = 2 from rfl] at counter
    omega

theorem Numbered.read (numbered : Numbered w reads) (few : w.calls < 2 ^ 31) {t : Nat}
    {use : NonceUse} (inside : w.phase t = .incremented use) :
    Numbered { w.set t (use.after w.seq) with used := w.used ++ [w.seq] } (reads + 1) := by
  obtain ⟨count, value, only⟩ := numbered.reading few inside
  have fresh : ∀ n ∈ w.used, n ≠ w.seq := by
    rintro n used rfl
    have := numbered.below _ used
    omega
  have mine : ∀ n, use.after w.seq = .gotten n → n = w.seq := by
    intro n after
    cases use with
    | session => exact (NoncePhase.gotten.inj after).symm
    | probe => cases after
  exact {
    counter := numbered.counter
    calling := by
      refine .inl ⟨count, ?_⟩
      intro t' use' inside'
      rcases NonceWorld.set_phase inside' with ⟨-, wrong⟩ | ⟨other, inside'⟩
      · cases use <;> cases wrong
      · exact other (only t' use' inside')
    below := by
      intro n used
      rcases List.mem_append.mp used with before | new
      · have := numbered.below n before
        omega
      · rw [List.mem_singleton.mp new]
        omega
    once := by
      rw [List.nodup_append]
      refine ⟨numbered.once, List.nodup_singleton _, ?_⟩
      intro n before m new
      rw [List.mem_singleton.mp new]
      exact fresh n before
    gotten := by
      intro t' n held
      rcases NonceWorld.set_phase held with ⟨-, after⟩ | ⟨-, held⟩
      · obtain rfl := mine n after
        have next : (w.seq + 1).toNat = 2 * reads + 1 := by
          rw [UInt32.toNat_add, UInt32.toNat_one, value, Nat.mod_eq_of_lt (by omega)]
        refine ⟨by omega, by omega, ?_⟩
        intro used
        rcases List.mem_append.mp used with before | new
        · have := numbered.below _ before
          omega
        · have := congrArg UInt32.toNat (List.mem_singleton.mp new)
          omega
      · obtain ⟨even, small, unused⟩ := numbered.gotten t' n held
        have next := numbered.gotten_next few held
        refine ⟨even, by omega, ?_⟩
        intro used
        rcases List.mem_append.mp used with before | new
        · exact unused before
        · have := congrArg UInt32.toNat (List.mem_singleton.mp new)
          omega
    own := by
      intro t1 t2 n held1 held2
      rcases NonceWorld.set_phase held1 with ⟨same1, after1⟩ | ⟨-, held1⟩
      · rcases NonceWorld.set_phase held2 with ⟨same2, -⟩ | ⟨-, held2⟩
        · rw [same1, same2]
        · obtain rfl := mine n after1
          have := (numbered.gotten t2 _ held2).2.1
          omega
      · rcases NonceWorld.set_phase held2 with ⟨-, after2⟩ | ⟨-, held2⟩
        · obtain rfl := mine n after2
          have := (numbered.gotten t1 _ held1).2.1
          omega
        · exact numbered.own t1 t2 n held1 held2 }

theorem Numbered.leave (numbered : Numbered w reads) {t : Nat} {n : UInt32}
    (held : w.phase t = .gotten n) : Numbered (w.set t .idle) reads where
  counter := numbered.counter
  calling := by
    rcases numbered.calling with ⟨settled, nobody⟩ | ⟨count, t', use', inside, only⟩
    · refine .inl ⟨settled, ?_⟩
      intro t' use' inside
      rcases NonceWorld.set_phase inside with ⟨-, wrong⟩ | ⟨-, inside⟩
      · cases wrong
      · exact nobody t' use' inside
    · refine .inr ⟨count, t', use', ?_, ?_⟩
      · have other : t' ≠ t := by
          rintro rfl
          rw [held] at inside
          cases inside
        exact (Function.update_of_ne other ..).trans inside
      · intro t1 use1 inside1
        rcases NonceWorld.set_phase inside1 with ⟨-, wrong⟩ | ⟨-, inside1⟩
        · cases wrong
        · exact only t1 use1 inside1
  below := numbered.below
  once := numbered.once
  gotten := by
    intro t' m held'
    rcases NonceWorld.set_phase held' with ⟨-, wrong⟩ | ⟨-, held'⟩
    · cases wrong
    · exact numbered.gotten t' m held'
  own := by
    intro t1 t2 m held1 held2
    rcases NonceWorld.set_phase held1 with ⟨-, wrong⟩ | ⟨-, held1⟩
    · cases wrong
    · rcases NonceWorld.set_phase held2 with ⟨-, wrong⟩ | ⟨-, held2⟩
      · cases wrong
      · exact numbered.own t1 t2 m held1 held2

theorem Numbered.put (numbered : Numbered w reads) (few : w.calls < 2 ^ 31) {t : Nat} {n : UInt32}
    (held : w.phase t = .gotten n) :
    Numbered { w.set t .idle with used := w.used ++ [n + 1] } reads := by
  have left := numbered.leave held
  obtain ⟨even, small, unused⟩ := numbered.gotten t n held
  have next := numbered.gotten_next few held
  exact {
    counter := left.counter
    calling := left.calling
    own := left.own
    below := by
      intro m used
      rcases List.mem_append.mp used with before | new
      · exact numbered.below m before
      · rw [List.mem_singleton.mp new]
        omega
    once := by
      rw [List.nodup_append]
      refine ⟨numbered.once, List.nodup_singleton _, ?_⟩
      intro m before k new
      rw [List.mem_singleton.mp new]
      rintro rfl
      exact unused before
    gotten := by
      intro t' m held'
      rcases NonceWorld.set_phase held' with ⟨-, wrong⟩ | ⟨other, there⟩
      · cases wrong
      · obtain ⟨even', small', unused'⟩ := numbered.gotten t' m there
        have next' := numbered.gotten_next few there
        refine ⟨even', small', ?_⟩
        intro used
        rcases List.mem_append.mp used with before | new
        · exact unused' before
        · have value := congrArg UInt32.toNat (List.mem_singleton.mp new)
          have same : m = n := UInt32.toNat_inj.mp (by omega)
          subst same
          exact other (numbered.own t' t m there held) }

end Step

theorem nonceInit_numbered : Numbered nonceInit 0 where
  counter := by decide
  calling := .inl ⟨rfl, fun _ _ wrong => by cases wrong⟩
  below := by simp [nonceInit]
  once := List.nodup_nil
  gotten := fun _ _ wrong => by cases wrong
  own := fun _ _ _ wrong => by cases wrong

theorem Numbered.step {w w' : NonceWorld} {e : NonceEvent} {reads : Nat}
    (numbered : Numbered w reads) (few : w.calls < 2 ^ 31) (undisturbed : Undisturbed w e)
    (taken : nonceStep w e = some w') : ∃ reads', Numbered w' reads' := by
  rcases nonceStep_cases taken with ⟨t, use, rfl, -, rfl⟩ | ⟨t, use, rfl, inside, rfl⟩ |
    ⟨t, n, rfl, held, rfl⟩ | ⟨t, n, rfl, held, rfl⟩
  · exact ⟨reads, numbered.increment t use undisturbed⟩
  · exact ⟨reads + 1, numbered.read few inside⟩
  · exact ⟨reads, numbered.put few held⟩
  · exact ⟨reads, numbered.leave held⟩

theorem nonceStep_calls {w w' : NonceWorld} {e : NonceEvent} (taken : nonceStep w e = some w') :
    w.calls ≤ w'.calls := by
  rcases nonceStep_cases taken with ⟨t, use, -, -, rfl⟩ | ⟨t, use, -, -, rfl⟩ |
    ⟨t, n, -, -, rfl⟩ | ⟨t, n, -, -, rfl⟩
  · exact Nat.le_succ _
  · exact Nat.le_refl _
  · exact Nat.le_refl _
  · exact Nat.le_refl _

theorem nonces_distinct (es : List NonceEvent) (w : NonceWorld)
    (undisturbed : Schedule.Along nonceStep Undisturbed nonceInit es)
    (reached : Schedule.run nonceStep nonceInit es = some w) (few : w.calls < 2 ^ 31) :
    w.used.Nodup := by
  have numbered : w.calls < 2 ^ 31 → ∃ reads, Numbered w reads := by
    refine Schedule.run_invariant (fun w => w.calls < 2 ^ 31 → ∃ reads, Numbered w reads) ?_
      (fun _ => ⟨0, nonceInit_numbered⟩) undisturbed reached
    intro before e after numbered alone taken bound
    have earlier := Nat.lt_of_le_of_lt (nonceStep_calls taken) bound
    obtain ⟨reads, numbered⟩ := numbered earlier
    exact numbered.step earlier alone taken
  obtain ⟨reads, numbered⟩ := numbered few
  exact numbered.once

/-! ## The build with `atomic.h` -/

/-- Increment and read in one step; the number returned is the new `seq`. -/
def nonce32 (w : NonceWorld) (thread : Nat) (use : NonceUse) : Option NonceWorld :=
  (nonceStep w (.increment thread use)).bind (nonceStep · (.read thread))

theorem nonce32_calls {w w' : NonceWorld} {t : Nat} {use : NonceUse}
    (taken : nonce32 w t use = some w') : w.calls ≤ w'.calls := by
  obtain ⟨mid, first, second⟩ := Option.bind_eq_some_iff.mp taken
  exact (nonceStep_calls first).trans (nonceStep_calls second)

theorem Numbered.nonce32 {w w' : NonceWorld} {reads t : Nat} {use : NonceUse}
    (numbered : Numbered w reads) (quiet : ∀ t use, w.phase t ≠ .incremented use)
    (few : w'.calls < 2 ^ 31) (taken : nonce32 w t use = some w') :
    Numbered w' (reads + 1) ∧ (∀ t use, w'.phase t ≠ .incremented use) ∧
      w'.used = w.used ++ [w'.seq] := by
  obtain ⟨mid, first, second⟩ := Option.bind_eq_some_iff.mp taken
  have rising := nonceStep_calls second
  rcases nonceStep_cases first with ⟨t1, use1, event, -, rfl⟩ | ⟨_, _, event, -, -⟩ |
    ⟨_, _, event, -, -⟩ | ⟨_, _, event, -, -⟩
  · cases event
    have entered := numbered.increment t use quiet
    rcases nonceStep_cases second with ⟨_, _, event, -, -⟩ | ⟨t2, use2, event, inside, rfl⟩ |
      ⟨_, _, event, -, -⟩ | ⟨_, _, event, -, -⟩
    · cases event
    · cases event
      have left := entered.read (Nat.lt_of_le_of_lt rising few) inside
      refine ⟨left, ?_, rfl⟩
      rcases left.calling with ⟨-, nobody⟩ | ⟨count, -⟩
      · exact nobody
      · have before := (entered.reading (Nat.lt_of_le_of_lt rising few) inside).1
        have same : w.calls + 1 = reads + 1 := before
        have wrong : w.calls + 1 = reads + 1 + 1 := count
        omega
    · cases event
    · cases event
  · cases event
  · cases event
  · cases event

/-- Two sessions and a probe, one call of `nonce32` after the other, the PUTs late. -/
def callsInTurn : List NonceEvent :=
  [.increment 0 .session, .read 0, .increment 1 .session, .read 1, .increment 2 .probe, .read 2,
    .put 1, .put 0]

theorem callsInTurn_undisturbed :
    Schedule.Along nonceStep Undisturbed nonceInit callsInTurn := by
  have quiet : ∀ (phase : Nat → NoncePhase), (∀ t use, phase t ≠ .incremented use) →
      ∀ (t : Nat) (use : NonceUse) (seq : UInt32) (t' : Nat) (use' : NonceUse),
        Function.update (Function.update phase t (.incremented use)) t (use.after seq) t' ≠
          .incremented use' := by
    intro phase before t use seq t' use'
    rw [Function.update_idem, Function.update_apply]
    split
    · cases use <;> simp [NonceUse.after]
    · exact before t' use'
  have start : ∀ (t : Nat) (use : NonceUse), nonceInit.phase t ≠ .incremented use :=
    fun _ _ wrong => by cases wrong
  refine ⟨start, ?_⟩
  rintro _ ⟨⟩
  refine ⟨trivial, ?_⟩
  rintro _ ⟨⟩
  refine ⟨quiet _ start 0 .session _, ?_⟩
  rintro _ ⟨⟩
  refine ⟨trivial, ?_⟩
  rintro _ ⟨⟩
  refine ⟨quiet _ (quiet _ start 0 .session _) 1 .session _, ?_⟩
  rintro _ ⟨⟩
  refine ⟨trivial, ?_⟩
  rintro _ ⟨⟩
  refine ⟨trivial, ?_⟩
  rintro _ ⟨⟩
  exact ⟨trivial, fun _ _ => trivial⟩

theorem nonces_distinct_in_turn :
    ∃ w, Schedule.run nonceStep nonceInit callsInTurn = some w ∧ w.used = [0, 2, 4, 3, 1] ∧
      w.used.Nodup :=
  ⟨_, rfl, by decide, nonces_distinct callsInTurn _ callsInTurn_undisturbed rfl (by decide)⟩

/-- Two sessions whose calls of `nonce32` overlap. -/
def overlappingCalls : List NonceEvent :=
  [.increment 0 .session, .increment 1 .session, .read 0, .read 1]

theorem nonce_reused :
    ∃ w, Schedule.run nonceStep nonceInit overlappingCalls = some w ∧ w.calls < 2 ^ 31 ∧
      w.used = [2, 2] ∧ ¬ w.used.Nodup :=
  ⟨_, rfl, by decide, by decide, by decide⟩

end Otpd

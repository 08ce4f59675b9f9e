import Mathlib.Tactic

/-!
# Searching for two neighbours

A search for a position with one property whose successor has another.  `pairSearch` looks
ahead with the position itself and does not come back: after a position with the first
property alone it goes on behind the successor.  `runBefore` counts what it can trip over,
and `pairSearch_least_iff` says when the least pair is the one it finds.
-/

set_option autoImplicit false

namespace PairSearch

section Pairs

variable (first second : Nat → Prop)

def PairIn (start final c : Nat) : Prop :=
  start ≤ c ∧ c < final ∧ first c ∧ second (c + 1)

def LeastPair (start final c : Nat) : Prop :=
  PairIn first second start final c ∧ ∀ d, PairIn first second start final d → c ≤ d

variable {first second} {start final m : Nat}

theorem LeastPair.later (least : LeastPair first second start final m) {next : Nat}
    (after : start ≤ next) (below : next ≤ m) : LeastPair first second next final m :=
  ⟨⟨below, least.1.2⟩, fun d pair => least.2 d ⟨le_trans after pair.1, pair.2⟩⟩

theorem exists_leastPair {c : Nat} (pair : PairIn first second start final c) :
    ∃ m, LeastPair first second start final m := by
  classical
  have some : ∃ c, PairIn first second start final c := ⟨c, pair⟩
  exact ⟨Nat.find some, Nat.find_spec some, fun d inside => Nat.find_min' some inside⟩

end Pairs

variable (first second : Nat → Prop) [DecidablePred first] [DecidablePred second]

/-- At most `fuel` positions below `final`, from `c` on. -/
def pairSearch (final : Nat) : Nat → Nat → Option Nat
  | 0, _ => none
  | fuel + 1, c =>
      if c < final then
        if first c then
          if second (c + 1) then some c else pairSearch final fuel (c + 2)
        else pairSearch final fuel (c + 1)
      else none

/-- How many positions right before `m`, none of them before `start`, have the first property. -/
def runBefore (start : Nat) : Nat → Nat
  | 0 => 0
  | m + 1 => if start ≤ m ∧ first m then runBefore start m + 1 else 0

variable {first second} {final start fuel m : Nat}

theorem pairSearch_pair {c : Nat} (found : pairSearch first second final fuel start = some c) :
    PairIn first second start final c := by
  induction fuel generalizing start with
  | zero => cases found
  | succ fuel ih =>
      simp only [pairSearch] at found
      split at found
      · rename_i below
        split at found
        · rename_i isFirst
          split at found
          · rename_i isSecond
            cases found
            exact ⟨le_refl _, below, isFirst, isSecond⟩
          · obtain ⟨least, rest⟩ := ih found
            exact ⟨by omega, rest⟩
        · obtain ⟨least, rest⟩ := ih found
          exact ⟨by omega, rest⟩
      · cases found

theorem runBefore_start (start : Nat) : runBefore first start start = 0 := by
  cases start with
  | zero => rfl
  | succ start => exact if_neg fun inside => absurd inside.1 (by omega)

theorem runBefore_le (start m : Nat) : runBefore first start m ≤ m - start := by
  induction m with
  | zero => exact Nat.zero_le _
  | succ m ih =>
      simp only [runBefore]
      split
      · omega
      · exact Nat.zero_le _

/-- Starting one position earlier adds that position when the run reaches back to it. -/
theorem runBefore_earlier (above : start + 1 ≤ m) : runBefore first start m =
    runBefore first (start + 1) m +
      if runBefore first (start + 1) m = m - (start + 1) ∧ first start then 1 else 0 := by
  induction m with
  | zero => omega
  | succ m ih =>
      rcases Nat.eq_or_lt_of_le above with same | later
      · obtain rfl : start = m := by omega
        rw [runBefore_start]
        simp only [runBefore, runBefore_start, le_refl, true_and, Nat.sub_self, Nat.zero_add]
      · have further : start ≤ m ∧ start + 1 ≤ m := by omega
        have bound : runBefore first (start + 1) m ≤ _ := runBefore_le (start + 1) m
        simp only [runBefore, further.1, further.2, true_and]
        by_cases here : first m
        · rw [if_pos here, if_pos here, ih further.2]
          have reach : runBefore first (start + 1) m + 1 = m + 1 - (start + 1) ↔
              runBefore first (start + 1) m = m - (start + 1) := by omega
          simp only [reach]
          omega
        · rw [if_neg here, if_neg here]
          have short : ¬ (0 = m + 1 - (start + 1) ∧ first start) := by
            rintro ⟨none, -⟩
            omega
          rw [if_neg short]

/-- The least pair is found exactly when the search does not come to its left half as the
look-ahead of another. -/
theorem pairSearch_least_iff (least : LeastPair first second start final m)
    (enough : m - start < fuel) :
    pairSearch first second final fuel start = some m ↔ Even (runBefore first start m) := by
  induction fuel generalizing start with
  | zero => omega
  | succ fuel ih =>
      obtain ⟨⟨above, below, isFirst, isSecond⟩, minimal⟩ := least
      have least : LeastPair first second start final m :=
        ⟨⟨above, below, isFirst, isSecond⟩, minimal⟩
      have here : start < final := by omega
      rw [pairSearch, if_pos here]
      rcases Nat.eq_or_lt_of_le above with rfl | before
      · rw [if_pos isFirst, if_pos isSecond, runBefore_start]
        simp
      · have noPair : first start → ¬ second (start + 1) := by
          intro found next
          have := minimal start ⟨le_refl _, here, found, next⟩
          omega
        by_cases found : first start
        · rw [if_pos found, if_neg (noPair found)]
          rcases Nat.eq_or_lt_of_le (Nat.succ_le_of_lt before) with next | room
          · -- the least pair starts at the position looked at
            obtain rfl : start + 1 = m := next
            have passed : pairSearch first second final fuel (start + 2) ≠ some (start + 1) := by
              intro wrong
              have := (pairSearch_pair wrong).1
              omega
            have one : runBefore first start (start + 1) = 1 := by
              simp [runBefore, found, runBefore_start]
            simp [passed, one]
          · have further : start + 1 + 1 ≤ m := by omega
            rw [ih (least.later (by omega) (by omega)) (by omega), runBefore_earlier before,
              runBefore_earlier further]
            -- both positions belong to the run, or neither changes it
            have bound : runBefore first (start + 1 + 1) m ≤ _ := runBefore_le (start + 1 + 1) m
            by_cases reaches : runBefore first (start + 1 + 1) m = m - (start + 1 + 1) ∧
                first (start + 1)
            · have whole : runBefore first (start + 1 + 1) m + 1 = m - (start + 1) ∧
                  first start := ⟨by omega, found⟩
              rw [if_pos reaches, if_pos whole]
              rw [show start + 2 = start + 1 + 1 from rfl]
              simp [Nat.even_add_one]
            · have short : ¬ (runBefore first (start + 1 + 1) m + 0 = m - (start + 1) ∧
                  first start) := by
                rintro ⟨whole, -⟩
                omega
              rw [if_neg reaches, if_neg short]
              rfl
        · rw [if_neg found, ih (least.later (by omega) (by omega)) (by omega),
            runBefore_earlier before, if_neg fun run => found run.2]
          rfl

end PairSearch

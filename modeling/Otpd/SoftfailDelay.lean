import Otpd.AsyncWait

/-!
# The softfail delay as a number

`verify` stores the difference of two unsigned counters in an `int` and shifts by it.  The
delay is the doubling that the comment there promises as long as that `int` is not negative.
-/

set_option autoImplicit false

namespace Otpd

open CMem

/-- `1 << n` for an `int`; `none` for a negative or over-wide `n`. -/
def shiftOne (n : Int) : Option Nat := if 0 ≤ n ∧ n < 31 then some (2 ^ n.toNat) else none

/-- `fcount > 5 ? 32 << 6 : (1 << fcount) << 6`, with the shift checked. -/
def delayChecked (failcount softfail : UInt32) : Option Nat :=
  let fcount := (failcount - softfail).toInt32.toInt
  if fcount > 5 then some (32 * 2 ^ 6) else (shiftOne fcount).map (· * 2 ^ 6)

/-- 64 seconds, doubled with each further failure up to five times. -/
def doubledDelay (softfail failcount : UInt32) : Nat :=
  64 * 2 ^ min (failcount.toNat - softfail.toNat) 5

theorem delay_eq (fcount : Nat) : delay fcount = 64 * 2 ^ min fcount 5 := by
  unfold delay
  split
  · rw [Nat.min_eq_right (by omega)]
    norm_num
  · rw [Nat.min_eq_left (by omega), Nat.mul_comm]

/-- What the failure accounting is to make of a failure count and the time of the last
attempt. -/
structure DelayExact (softfail failcount authtime : UInt32) : Prop where
  shifted : delayChecked failcount softfail = some (doubledDelay softfail failcount)
  delay : ∀ undef,
    (softfailDelay undef failcount softfail).toNat = doubledDelay softfail failcount
  nextauth : ∀ undef, (authtime + softfailDelay undef failcount softfail).toNat =
    authtime.toNat + doubledDelay softfail failcount
  enforced : ∀ (config : Config) (undef : Undef) (state : State) (now : Nat),
    config.softfail = softfail → state.failcount = failcount → state.authtime = authtime →
    state.nullstate = false → ¬ (config.hardfail ≠ 0 ∧ failcount ≥ config.hardfail) →
    now < 2 ^ 32 →
    (failCondition config undef state now = .soft ↔
      now < authtime.toNat + doubledDelay softfail failcount)

section Delay

variable {softfail failcount authtime : UInt32}

theorem fcount_toInt (reached : softfail ≤ failcount) : (failcount - softfail).toInt32.toInt =
    if failcount.toNat - softfail.toNat < 2 ^ 31 then
      ((failcount.toNat - softfail.toNat : Nat) : Int)
    else ((failcount.toNat - softfail.toNat : Nat) : Int) - 2 ^ 32 := by
  rw [toInt32_toInt, UInt32.toNat_sub_of_le _ _ reached]

theorem delayChecked_small (reached : softfail ≤ failcount)
    (small : failcount.toNat - softfail.toNat < 2 ^ 31) :
    delayChecked failcount softfail = some (doubledDelay softfail failcount) := by
  simp only [delayChecked, fcount_toInt reached, if_pos small, doubledDelay]
  generalize failcount.toNat - softfail.toNat = fcount at small ⊢
  by_cases many : (fcount : Int) > 5
  · rw [if_pos many, Nat.min_eq_right (by omega)]
    norm_num
  · have inRange : 0 ≤ (fcount : Int) ∧ (fcount : Int) < 31 := by omega
    rw [if_neg many, shiftOne, if_pos inRange, Nat.min_eq_left (by omega), Int.toNat_natCast,
      Option.map_some, Nat.mul_comm]
    norm_num

theorem delayChecked_large (reached : softfail ≤ failcount)
    (large : ¬ failcount.toNat - softfail.toNat < 2 ^ 31) : delayChecked failcount softfail = none := by
  have bound := failcount.toNat_lt
  have negative : ¬ ((failcount.toNat - softfail.toNat : Nat) : Int) - 2 ^ 32 > 5 := by omega
  have outside : ¬ (0 ≤ ((failcount.toNat - softfail.toNat : Nat) : Int) - 2 ^ 32 ∧
      ((failcount.toNat - softfail.toNat : Nat) : Int) - 2 ^ 32 < 31) := by omega
  simp only [delayChecked, fcount_toInt reached, if_neg large, if_neg negative, shiftOne,
    if_neg outside, Option.map_none]

theorem doubledDelay_le (softfail failcount : UInt32) : doubledDelay softfail failcount ≤ 2048 := by
  rw [doubledDelay, ← delay_eq]
  exact delay_le _

theorem DelayExact.of_small (enabled : softfail ≠ 0) (reached : softfail ≤ failcount)
    (stamped : authtime.toNat < 2 ^ 31) (small : failcount.toNat - softfail.toNat < 2 ^ 31) :
    DelayExact softfail failcount authtime := by
  have bound := doubledDelay_le softfail failcount
  have delay : ∀ undef,
      (softfailDelay undef failcount softfail).toNat = doubledDelay softfail failcount :=
    fun undef => (softfailDelay_toNat undef reached small).trans (delay_eq _)
  have nextauth : ∀ undef, (authtime + softfailDelay undef failcount softfail).toNat =
      authtime.toNat + doubledDelay softfail failcount := by
    intro undef
    rw [UInt32.toNat_add, delay undef]
    exact Nat.mod_eq_of_lt (by omega)
  refine ⟨delayChecked_small reached small, delay, nextauth, ?_⟩
  rintro config undef state now rfl rfl rfl loaded noHard clock
  rw [failCondition, if_neg noHard, if_neg (by simp [loaded]), if_pos ⟨enabled, reached⟩]
  have compared : Time.toU32 now <
      state.authtime + softfailDelay undef state.failcount config.softfail ↔
        now < state.authtime.toNat + doubledDelay config.softfail state.failcount := by
    rw [UInt32.lt_iff_toNat_lt, toU32_toNat clock, nextauth undef]
  rw [← compared]
  split
  · rename_i early
    exact iff_of_true rfl early
  · rename_i late
    exact iff_of_false (fun wrong => by cases wrong) late

end Delay

/-- The delay is right exactly as long as the `int` is not negative; there it starts at 64
seconds, does not fall and ends at 2048. -/
theorem softfail_delay_exact_iff (softfail : UInt32) (enabled : softfail ≠ 0) :
    (∀ failcount authtime : UInt32, softfail ≤ failcount → authtime.toNat < 2 ^ 31 →
      (DelayExact softfail failcount authtime ↔ failcount.toNat - softfail.toNat < 2 ^ 31)) ∧
    ∀ undef : Undef, (softfailDelay undef softfail softfail).toNat = 64 ∧
      ∀ failcount later : UInt32, softfail ≤ failcount → failcount ≤ later →
        later.toNat - softfail.toNat < 2 ^ 31 →
        (softfailDelay undef failcount softfail).toNat ≤ (softfailDelay undef later softfail).toNat ∧
          (softfailDelay undef later softfail).toNat ≤ 2048 := by
  refine ⟨?_, ?_⟩
  · intro failcount authtime reached stamped
    refine ⟨?_, DelayExact.of_small enabled reached stamped⟩
    intro exact
    by_contra large
    have checked := exact.shifted
    rw [delayChecked_large reached large] at checked
    cases checked
  · intro undef
    constructor
    · rw [softfailDelay_toNat undef (UInt32.le_refl softfail) (by omega), Nat.sub_self]
      rfl
    · intro failcount later reached more small
      have order := UInt32.le_iff_toNat_le.mp more
      rw [softfailDelay_toNat undef reached (by omega),
        softfailDelay_toNat undef (UInt32.le_trans reached more) small]
      refine ⟨?_, delay_le _⟩
      rw [delay_eq, delay_eq]
      exact Nat.mul_le_mul_left 64 (Nat.pow_le_pow_right (by decide) (by omega))

theorem softfail_delay_exact_at_nine : DelayExact 5 9 1000 :=
  ((softfail_delay_exact_iff 5 (by decide)).1 9 1000 (by decide) (by decide)).mpr
    (by decide)

/-- A difference of 2^31 is shifted by as -2^31. -/
theorem softfail_delay_negative :
    (0x80000001 - 1 : UInt32).toInt32.toInt = -2 ^ 31 ∧ delayChecked 0x80000001 1 = none ∧
      ¬ DelayExact 1 0x80000001 1000 := by
  have failed : delayChecked 0x80000001 1 = none := by decide +kernel
  refine ⟨by decide +kernel, failed, ?_⟩
  intro exact
  have checked := exact.shifted
  rw [failed] at checked
  cases checked

end Otpd

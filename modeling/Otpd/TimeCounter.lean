import Otpd.HotpSync

/-!
# The counters of the time-based cards

Both modules cast the time to `int` before they divide it.  From 2^31 seconds on the counter
is not the one the card is at, and there is no later time at which it is again.
-/

set_option autoImplicit false

namespace Otpd

open CMem

/-! ## The division -/

theorem intDiv_toNat (t : Time) (step : Int) :
    (intDiv t step).toNat = (Int.tdiv t.toU32.toInt32.toInt step % 2 ^ 64).toNat := by
  rw [intDiv, int64_toUInt64_toNat, Int.toInt64, Int64.toInt_ofInt]
  congr 1
  exact Int.bmod_emod

theorem toU32_signed (t : Time) : t.toU32.toInt32.toInt =
    if t % 2 ^ 32 < 2 ^ 31 then ((t % 2 ^ 32 : Nat) : Int)
    else ((t % 2 ^ 32 : Nat) : Int) - 2 ^ 32 := by
  have word : (Time.toU32 t).toNat = t % 2 ^ 32 := UInt32.toNat_ofNat'
  rw [toInt32_toInt, word]

/-- Among the 64-bit times the quotient is right for those that fit an `int`, and for no
others. -/
theorem intDiv_exact_iff {t step : Nat} (several : 2 ≤ step) (minute : step ≤ 60)
    (range : t < 2 ^ 64) : intDiv t step = UInt64.ofNat (t / step) ↔ t < 2 ^ 31 := by
  have quotient : t / step < 2 ^ 63 := by
    rw [Nat.div_lt_iff_lt_mul (by omega)]
    omega
  have whole : t / step % 2 ^ 64 = t / step := Nat.mod_eq_of_lt (by omega)
  rw [← UInt64.toNat_inj, intDiv_toNat, toU32_signed, UInt64.toNat_ofNat', whole]
  by_cases positive : t % 2 ^ 32 < 2 ^ 31
  · -- the cut time is not negative: it is the time itself, or too early by 2^32 at least
    have cut : t % 2 ^ 32 / step < 2 ^ 63 :=
      Nat.lt_of_le_of_lt (Nat.div_le_div_right (Nat.mod_le t _)) quotient
    have value : ∀ q : Nat, q < 2 ^ 63 → ((q : Int) % 2 ^ 64).toNat = q := by omega
    rw [if_pos positive, ← Int.ofNat_tdiv, value _ cut]
    constructor
    · intro same
      by_contra late
      have more : t % 2 ^ 32 + step ≤ t := by omega
      have later := Nat.div_le_div_right (c := step) more
      rw [Nat.add_div_right _ (by omega)] at later
      omega
    · intro early
      rw [Nat.mod_eq_of_lt (by omega)]
  · -- a negative quotient is near 2^64, and zero is too early
    have back : ((t % 2 ^ 32 : Nat) : Int) - 2 ^ 32 = -((2 ^ 32 - t % 2 ^ 32 : Nat) : Int) := by omega
    have small : (2 ^ 32 - t % 2 ^ 32) / step ≤ 2 ^ 31 :=
      Nat.le_trans (Nat.div_le_self _ _) (by omega)
    have started : 1 ≤ t / step := by
      rw [Nat.one_le_div_iff (by omega)]
      omega
    have apart : ∀ q s : Nat, q ≤ 2 ^ 31 → 1 ≤ s → s < 2 ^ 63 →
        (-(q : Int) % 2 ^ 64).toNat ≠ s := by omega
    rw [if_neg positive, back, Int.neg_tdiv, ← Int.ofNat_tdiv]
    exact iff_of_false (apart _ _ small started quotient) (by omega)

/-! ## What HOTP is evaluated at -/

/-- HOTP at this counter, whatever the MAC. -/
def EvaluatesAt (response : Crypto → Option (List Byte)) (key : List Byte) (d counter : Nat) : Prop :=
  ∀ crypto, response crypto = hotp crypto key counter d

/-- A MAC for one message alone. -/
def onlyMac (message : List Byte) : Crypto :=
  { sampleCrypto with hmac := fun _ data => if data = message then some (List.replicate 20 0) else none }

theorem hotpMac_at_iff {iv : UInt64} {key : List Byte} {d counter : Nat} (least : 6 ≤ d)
    (most : d ≤ 9) :
    EvaluatesAt (fun crypto => hotpMac crypto (c2c iv) key d) key d counter ↔
      iv = UInt64.ofNat counter := by
  constructor
  · intro evaluates
    by_contra other
    have apart : c2c iv ≠ c2c (UInt64.ofNat counter) := by
      intro same
      have values := congrArg beNat same
      rw [(c2c_counter _).2, (c2c_counter _).2, UInt64.toNat_inj] at values
      exact other values
    have answer := evaluates (onlyMac (c2c (UInt64.ofNat counter)))
    have inRange : ¬ (d < 6 ∨ d > 9) := by omega
    simp [hotp, hotpMac, onlyMac, apart, inRange] at answer
  · intro same crypto
    rw [same]
    rfl

theorem time_masks_digits {m : CardModule} (kind : m = .totp ∨ m = .c200) :
    ∀ fm ∈ m.masks, 6 ≤ otpLenOf fm ∧ otpLenOf fm ≤ 9 := by
  have all : (m.masks.all fun fm => 6 ≤ otpLenOf fm && otpLenOf fm ≤ 9) = true := by
    rcases kind with rfl | rfl
    · decide +kernel
    · decide +kernel
  intro fm member
  simpa using List.all_eq_true.mp all fm member

section Cards

variable (user : User) (data : CardData) (challenge : Buffer 16) (len t : Nat)

/-- `totp_response` is right at this time. -/
def TotpExact : Prop :=
  EvaluatesAt (fun crypto => totpResponse crypto user data challenge len t)
    (user.key.take data.scratch1) (otpLenOf user.featuremask) (t / 30)

/-- `c200_response` is right at this time. -/
def C200Exact : Prop :=
  EvaluatesAt (fun crypto => c200Response crypto user data challenge len t)
    (user.key.take data.scratch1) (otpLenOf user.featuremask) (t / 60 + 1)

/-- Until 2^31, and until the last minute before it. -/
theorem time_counter_exact_iff (range : t < 2 ^ 63) :
    (user.featuremask ∈ CardModule.totp.masks →
      (TotpExact user data challenge len t ↔ t < 2 ^ 31)) ∧
    (user.featuremask ∈ CardModule.c200.masks →
      (C200Exact user data challenge len t ↔ t < 2147483640)) := by
  constructor
  · intro card
    obtain ⟨least, most⟩ := time_masks_digits (Or.inl rfl) _ card
    exact (hotpMac_at_iff least most).trans
      (intDiv_exact_iff (by decide) (by decide) (by omega))
  · intro card
    obtain ⟨least, most⟩ := time_masks_digits (Or.inr rfl) _ card
    have rounded : (t + (60 - t % 60)) / 60 = t / 60 + 1 := by omega
    have exact : intDiv (t + (60 - t % 60)) (60 : Nat) =
        UInt64.ofNat ((t + (60 - t % 60)) / 60) ↔ t + (60 - t % 60) < 2 ^ 31 :=
      intDiv_exact_iff (by decide) (by decide) (by omega)
    rw [rounded] at exact
    refine ((hotpMac_at_iff least most).trans exact).trans ?_
    omega

end Cards

def timeUser : User :=
  { hmacUser "totp-d6" with featuremask := otpCfEs ||| hotpCfLen6, key := rfcKey }

def timeData : CardData := { State.init.toCardData with scratch1 := 20 }

theorem time_counter_exact_at_59 :
    TotpExact timeUser timeData (Buffer.zero 16) 16 59 ∧
      C200Exact timeUser timeData (Buffer.zero 16) 16 59 :=
  ⟨((time_counter_exact_iff timeUser timeData (Buffer.zero 16) 16 59 (by decide)).1
      (by decide +kernel)).mpr (by decide),
    ((time_counter_exact_iff timeUser timeData (Buffer.zero 16) 16 59 (by decide)).2
      (by decide +kernel)).mpr (by decide)⟩

/-- In 2038 the counters are near 2^64. -/
theorem time_counter_in_2038 :
    totpIv (2 ^ 31) = 18446744073637968828 ∧ ¬ TotpExact timeUser timeData (Buffer.zero 16) 16 (2 ^ 31) ∧
      c200Iv (2 ^ 31) = 18446744073673760223 ∧
      ¬ C200Exact timeUser timeData (Buffer.zero 16) 16 (2 ^ 31) := by
  have digits : otpLenOf timeUser.featuremask = 6 := by decide +kernel
  have least : 6 ≤ otpLenOf timeUser.featuremask := by omega
  have most : otpLenOf timeUser.featuremask ≤ 9 := by omega
  refine ⟨by decide +kernel, ?_, by decide +kernel, ?_⟩
  · intro exact
    exact absurd ((hotpMac_at_iff least most).mp exact) (by decide +kernel)
  · intro exact
    exact absurd ((hotpMac_at_iff least most).mp exact) (by decide +kernel)

end Otpd

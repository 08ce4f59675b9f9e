import Otpd.Types

/-!
# Hex conversion and the two MACs

`a2x`, `a2nx` and `x2a` of `xfunc.c`, `hotp_mac` of `hotp.c` and `x99_mac` of
`x99.c`.
-/

set_option autoImplicit false

namespace Otpd

open CMem

/-! ## `xfunc.c` -/

/-- One character of `a2nx`: the range check, then the arithmetic that makes a
digit of it. -/
def nibble (c : Byte) : Option Nat :=
  if (48 ≤ c ∧ c ≤ 57) ∨ (65 ≤ c ∧ c ≤ 70) ∨ (97 ≤ c ∧ c ≤ 102) then
    let n := c.toNat - 48
    some (if n > 9 then if n > 70 - 48 then n - (97 - 57 - 1) else n - (65 - 57 - 1) else n)
  else none

def a2nx : List Byte → Nat → Option (List Byte)
  | _, 0 => some []
  | c0 :: c1 :: rest, l + 1 =>
    match nibble c0, nibble c1 with
    | some n0, some n1 =>
      match a2nx rest l with
      | some tail => some ((UInt8.ofNat n0 <<< 4 + UInt8.ofNat n1) :: tail)
      | none => none
    | _, _ => none
  | _, _ + 1 => none

def a2x (s : List Byte) : Option (List Byte) := a2nx s (s.length / 2)

def x2aHexConversion : List Byte := ascii "0123456789abcdef"
def x2aCcDecConversion : List Byte := ascii "0123456789012345"

def x2a : List Byte → List Byte → List Byte
  | [], _ => []
  | b :: rest, conversion =>
      conversion.getD ((b >>> 4) &&& 0x0f).toNat 0 :: conversion.getD (b &&& 0x0f).toNat 0 ::
        x2a rest conversion

@[simp]
theorem x2a_length (x conversion : List Byte) : (x2a x conversion).length = 2 * x.length := by
  induction x with
  | nil => rfl
  | cons b rest ih =>
      simp only [x2a, List.length_cons, ih]
      omega

theorem a2nx_length {s out : List Byte} {l : Nat} (success : a2nx s l = some out) :
    out.length = l := by
  fun_induction a2nx s l generalizing out with
  | case1 => simp_all
  | case2 l c0 c1 rest n0 n1 high low tail tailRun ih =>
      cases Option.some.inj success
      simp [ih tailRun]
  | case3 => cases success
  | case4 => cases success
  | case5 => cases success

theorem nibble_x2a (b : Byte) :
    ∃ n0 n1, nibble (x2aHexConversion.getD ((b >>> 4) &&& 0x0f).toNat 0) = some n0 ∧
      nibble (x2aHexConversion.getD (b &&& 0x0f).toNat 0) = some n1 ∧
      UInt8.ofNat n0 <<< 4 + UInt8.ofNat n1 = b := by
  have table : ∀ n : Fin 256,
      (nibble (x2aHexConversion.getD ((UInt8.ofNat n >>> 4) &&& 0x0f).toNat 0)).bind (fun n0 =>
        (nibble (x2aHexConversion.getD (UInt8.ofNat n &&& 0x0f).toNat 0)).map fun n1 =>
          UInt8.ofNat n0 <<< 4 + UInt8.ofNat n1) = some (UInt8.ofNat n) := by
    decide +kernel
  have entry := table ⟨b.toNat, b.toNat_lt⟩
  simp only [UInt8.ofNat_toNat] at entry
  obtain ⟨n0, high, rest⟩ := Option.bind_eq_some_iff.mp entry
  obtain ⟨n1, low, sum⟩ := Option.map_eq_some_iff.mp rest
  exact ⟨n0, n1, high, low, sum⟩

theorem a2nx_x2a (x : List Byte) : a2nx (x2a x x2aHexConversion) x.length = some x := by
  induction x with
  | nil => rfl
  | cons b rest ih =>
      obtain ⟨n0, n1, high, low, sum⟩ := nibble_x2a b
      simp only [x2a, List.length_cons, a2nx, high, low, ih, sum]

theorem a2x_x2a (x : List Byte) : a2x (x2a x x2aHexConversion) = some x := by
  rw [a2x, x2a_length, Nat.mul_div_cancel_left _ (by decide)]
  exact a2nx_x2a x

theorem x2a_clean (x : List Byte) :
    (58 : Byte) ∉ x2a x x2aHexConversion ∧ (0 : Byte) ∉ x2a x x2aHexConversion := by
  have table : ∀ n : Fin 256,
      x2aHexConversion.getD ((UInt8.ofNat n >>> 4) &&& 0x0f).toNat 0 ∉ ([58, 0] : List Byte) ∧
      x2aHexConversion.getD (UInt8.ofNat n &&& 0x0f).toNat 0 ∉ ([58, 0] : List Byte) := by
    decide +kernel
  induction x with
  | nil => simp [x2a]
  | cons b rest ih =>
      have entry := table ⟨b.toNat, b.toNat_lt⟩
      simp only [UInt8.ofNat_toNat, List.mem_cons, List.not_mem_nil, or_false, not_or] at entry
      simp only [x2a, List.mem_cons, not_or]
      exact ⟨⟨Ne.symm entry.1.1, Ne.symm entry.2.1, ih.1⟩,
        ⟨Ne.symm entry.1.2, Ne.symm entry.2.2, ih.2⟩⟩

theorem x2a_noNul {conversion : List Byte} (table : ∀ i < 16, conversion.getD i 0 ≠ 0)
    (x : List Byte) : (0 : Byte) ∉ x2a x conversion := by
  have low : ∀ b : Byte, (b &&& 0x0f).toNat < 16 := by
    intro b
    have := Nat.and_le_right (n := b.toNat) (m := 15)
    rw [UInt8.toNat_and]
    exact Nat.lt_succ_of_le this
  induction x with
  | nil => simp [x2a]
  | cons b rest ih =>
      simp only [x2a, List.mem_cons, not_or]
      exact ⟨(table _ (low _)).symm, (table _ (low _)).symm, ih⟩

/-! ## `hotp.c` -/

def dmod : Nat → Nat
  | 6 => 1000000
  | 7 => 10000000
  | 8 => 100000000
  | 9 => 1000000000
  | _ => 0

/-- HOTP per RFC 4226 for 6 to 9 digits; `none` for the error return. -/
def hotpMac (crypto : Crypto) (counter key : List Byte) (d : Nat) : Option (List Byte) :=
  if d < 6 ∨ d > 9 then none
  else
    match crypto.hmac key counter with
    | none => none
    | some hmac =>
      if hmac.length ≠ 20 then none
      else
        let offset := (hmac.getD 19 0 &&& 0x0F).toNat
        let dbc : UInt32 :=
          ((hmac.getD offset 0 &&& 0x7F).toUInt32 <<< 24) |||
          ((hmac.getD (offset + 1) 0).toUInt32 <<< 16) |||
          ((hmac.getD (offset + 2) 0).toUInt32 <<< 8) |||
          (hmac.getD (offset + 3) 0).toUInt32
        some (printDec d (dbc.toNat % dmod d))

theorem hotpMac_digits {crypto : Crypto} {counter key response : List Byte} {d : Nat}
    (answered : hotpMac crypto counter key d = some response) :
    6 ≤ d ∧ d ≤ 9 ∧ ∃ code, response = printDec d (code % dmod d) := by
  simp only [hotpMac] at answered
  split_ifs at answered with digits
  split at answered
  · cases answered
  · split_ifs at answered
    cases answered
    exact ⟨by omega, by omega, _, rfl⟩

theorem hotpMac_text {crypto : Crypto} {counter key response : List Byte} {d : Nat}
    (answered : hotpMac crypto counter key d = some response) :
    response ≠ [] ∧ (0 : Byte) ∉ response := by
  obtain ⟨least, -, code, rfl⟩ := hotpMac_digits answered
  exact printDec_text d _ (by omega)

theorem hotpMac_length {crypto : Crypto} {counter key response : List Byte} {d : Nat}
    (answered : hotpMac crypto counter key d = some response) : response.length = d := by
  obtain ⟨least, most, code, rfl⟩ := hotpMac_digits answered
  have modulus : dmod d = 10 ^ d := by
    interval_cases d <;> rfl
  rw [modulus]
  exact printDec_length (Nat.mod_lt _ (by positivity))

/-! ## `x99.c` -/

/-- The last cipher block of the CBC encryption of `input`.  An empty input makes
the block index `(len - 1) / 8` wrap, and the copied block is undefined. -/
def x99Mac (crypto : Crypto) (undef : Undef) (input key : List Byte) : Option (Buffer 8) :=
  if crypto.desKeyOk key then
    if input.length = 0 then some undef.block
    else
      let output := crypto.desCbc key input
      some (Buffer.ofList 8 ((output.drop (8 * ((input.length - 1) / 8))).take 8))
  else none

theorem x99Mac_some {crypto : Crypto} {key : List Byte} (accepted : crypto.desKeyOk key = true)
    (undef : Undef) (input : List Byte) : ∃ output, x99Mac crypto undef input key = some output := by
  rw [x99Mac, if_pos accepted]
  split
  · exact ⟨_, rfl⟩
  · exact ⟨_, rfl⟩

end Otpd

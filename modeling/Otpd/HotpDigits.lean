import Otpd.Session

/-!
# `hotp_mac` and RFC 4226

The truncation once more, each read checked against the twenty bytes that HMAC wrote and
each shift against the range of `int`: nothing is read or shifted too far, and what is
printed is the 31-bit value that the RFC takes out of the MAC.
-/

set_option autoImplicit false

namespace Otpd

open CMem

/-- The low nibble of the last byte. -/
def truncationOffset (hmac : List Byte) : Nat := (hmac.getD 19 0).toNat % 16

/-- The four bytes from the offset on, in network order and without the top bit. -/
def truncatedValue (hmac : List Byte) : Nat :=
  beNat ((hmac.drop (truncationOffset hmac)).take 4) % 2 ^ 31

/-- `b << k`, `b` being promoted to `int`; `none` when the result is out of range. -/
def shiftInt (b : Byte) (k : Nat) : Option Nat :=
  if 2 ^ k * b.toNat < 2 ^ 31 then some (2 ^ k * b.toNat) else none

/-- `(b0 & 0x7F) << 24 | b1 << 16 | b2 << 8 | b3`, with every shift checked. -/
def assembleInt (b0 b1 b2 b3 : Byte) : Option Nat := do
  let high ← shiftInt (b0 &&& 0x7F) 24
  let second ← shiftInt b1 16
  let third ← shiftInt b2 8
  some (high ||| second ||| third ||| b3.toNat)

/-- The four reads; `none` when a byte that HMAC did not write is read. -/
def truncateAt (hmac : List Byte) (offset : Nat) : Option Nat := do
  let b0 ← hmac[offset]?
  let b1 ← hmac[offset + 1]?
  let b2 ← hmac[offset + 2]?
  let b3 ← hmac[offset + 3]?
  assembleInt b0 b1 b2 b3

/-- The second step of `hotp_mac`. -/
def truncateChecked (hmac : List Byte) : Option Nat :=
  match hmac[19]? with
  | some last => truncateAt hmac (last &&& 0x0F).toNat
  | none => none

theorem and_mask_toNat (b : Byte) : (b &&& 0x7F).toNat = b.toNat % 128 ∧
    (b &&& 0x0F).toNat = b.toNat % 16 := by
  constructor
  · rw [UInt8.toNat_and]
    exact Nat.and_two_pow_sub_one_eq_mod b.toNat 7
  · rw [UInt8.toNat_and]
    exact Nat.and_two_pow_sub_one_eq_mod b.toNat 4

theorem shiftInt_some (b : Byte) {k : Nat} (fits : 2 ^ k * b.toNat < 2 ^ 31) :
    shiftInt b k = some (2 ^ k * b.toNat) := if_pos fits

/-- Four bytes of a string as a list. -/
theorem take_four {bytes : List Byte} {i : Nat} (inside : i + 3 < bytes.length) :
    (bytes.drop i).take 4 =
      [bytes.getD i 0, bytes.getD (i + 1) 0, bytes.getD (i + 2) 0, bytes.getD (i + 3) 0] := by
  apply List.ext_getElem
  · simp only [List.length_take, List.length_drop, List.length_cons, List.length_nil]
    omega
  · intro j left right
    simp only [List.length_cons, List.length_nil] at right
    interval_cases j <;>
      simp [List.getD_eq_getElem?_getD, show i < bytes.length by omega,
        show i + 1 < bytes.length by omega, show i + 2 < bytes.length by omega, inside]

theorem assembleInt_eq (b0 b1 b2 b3 : Byte) :
    assembleInt b0 b1 b2 b3 = some (beNat [b0 &&& 0x7F, b1, b2, b3]) := by
  have h0 := (and_mask_toNat b0).1
  have h1 := b1.toNat_lt
  have h2 := b2.toNat_lt
  have h3 := b3.toNat_lt
  rw [assembleInt, shiftInt_some (b0 &&& 0x7F) (by omega), shiftInt_some b1 (by omega),
    shiftInt_some b2 (by omega)]
  simp only [Option.bind_eq_bind, Option.bind_some, Nat.or_assoc, Nat.mul_comm (2 ^ _)]
  rw [or_shifted (i := 8) (by omega), or_shifted (i := 16) (by omega),
    or_shifted (i := 24) (by omega)]
  simp only [beNat, List.foldl, Option.some.injEq]
  omega

section Truncation

variable {hmac : List Byte}

theorem offset_inside (twenty : hmac.length = 20) : truncationOffset hmac + 3 < hmac.length := by
  rw [truncationOffset, twenty]
  omega

/-- The bytes at the offset, the first without its top bit. -/
theorem truncatedValue_eq (twenty : hmac.length = 20) :
    beNat [hmac.getD (truncationOffset hmac) 0 &&& 0x7F, hmac.getD (truncationOffset hmac + 1) 0,
      hmac.getD (truncationOffset hmac + 2) 0, hmac.getD (truncationOffset hmac + 3) 0] =
      truncatedValue hmac := by
  rw [truncatedValue, take_four (offset_inside twenty)]
  generalize hmac.getD (truncationOffset hmac) 0 = b0
  generalize hmac.getD (truncationOffset hmac + 1) 0 = b1
  generalize hmac.getD (truncationOffset hmac + 2) 0 = b2
  generalize hmac.getD (truncationOffset hmac + 3) 0 = b3
  have h1 := b1.toNat_lt
  have h2 := b2.toNat_lt
  have h3 := b3.toNat_lt
  simp only [beNat, List.foldl, (and_mask_toNat b0).1]
  omega

theorem read_some {i : Nat} (below : i < hmac.length) : hmac[i]? = some (hmac.getD i 0) := by
  rw [List.getD_eq_getElem?_getD, List.getElem?_eq_getElem below]
  rfl

theorem truncateAt_eq {offset : Nat} (inside : offset + 3 < hmac.length) :
    truncateAt hmac offset = some (beNat [hmac.getD offset 0 &&& 0x7F, hmac.getD (offset + 1) 0,
      hmac.getD (offset + 2) 0, hmac.getD (offset + 3) 0]) := by
  have r0 : hmac[offset]? = some (hmac.getD offset 0) := read_some (by omega)
  have r1 : hmac[offset + 1]? = some (hmac.getD (offset + 1) 0) := read_some (by omega)
  have r2 : hmac[offset + 2]? = some (hmac.getD (offset + 2) 0) := read_some (by omega)
  have r3 : hmac[offset + 3]? = some (hmac.getD (offset + 3) 0) := read_some inside
  rw [truncateAt, r0, r1, r2, r3]
  exact assembleInt_eq _ _ _ _

/-- No read and no shift goes wrong. -/
theorem truncateChecked_eq (twenty : hmac.length = 20) :
    truncateChecked hmac = some (truncatedValue hmac) := by
  have last : hmac[19]? = some (hmac.getD 19 0) := read_some (by omega)
  have offset : (hmac.getD 19 0 &&& 0x0F).toNat = truncationOffset hmac := (and_mask_toNat _).2
  rw [truncateChecked, last]
  simp only [offset]
  rw [truncateAt_eq (offset_inside twenty), truncatedValue_eq twenty]

end Truncation

theorem dmod_eq {d : Nat} (least : 6 ≤ d) (most : d ≤ 9) : dmod d = 10 ^ d := by
  interval_cases d <;> rfl

theorem hotpMac_eq {crypto : Crypto} {counter key hmac : List Byte} {d : Nat} (least : 6 ≤ d)
    (most : d ≤ 9) (computed : crypto.hmac key counter = some hmac) (twenty : hmac.length = 20) :
    hotpMac crypto counter key d = some (printDec d (truncatedValue hmac % 10 ^ d)) := by
  have inRange : ¬ (d < 6 ∨ d > 9) := by omega
  have offset : (hmac.getD 19 0 &&& 0x0F).toNat = truncationOffset hmac := (and_mask_toNat _).2
  simp only [hotpMac, if_neg inRange, computed, twenty, ne_eq, not_true_eq_false, if_false, offset]
  rw [packWord_toNat, truncatedValue_eq twenty, dmod_eq least most]

/-- The OTP of RFC 4226 as text: `d` digits, and the number they are. -/
def IsOtp (d value : Nat) (response : List Byte) : Prop :=
  response.length = d ∧ (∀ c ∈ response, isDigit c = true) ∧ decValue response = value % 10 ^ d

theorem printDec_isOtp (d value : Nat) : IsOtp d value (printDec d (value % 10 ^ d)) :=
  ⟨printDec_length (Nat.mod_lt _ (by positivity)), fun _ member => printDec_digits _ _ member,
    decValue_printDec _ _⟩

/-- For six to nine digits: nothing outside the twenty bytes is read, nothing overflows, and
the response is the one of the RFC. -/
theorem hotp_mac_rfc4226 (crypto : Crypto) (counter key hmac : List Byte) (d : Nat) (least : 6 ≤ d)
    (most : d ≤ 9) (computed : crypto.hmac key counter = some hmac) (twenty : hmac.length = 20) :
    truncateChecked hmac = some (truncatedValue hmac) ∧ truncatedValue hmac < 2 ^ 31 ∧
      ∃ response, hotpMac crypto counter key d = some response ∧
        response = printDec d (truncatedValue hmac % 10 ^ d) ∧
        IsOtp d (truncatedValue hmac) response := by
  refine ⟨truncateChecked_eq twenty, Nat.mod_lt _ (by positivity), _,
    hotpMac_eq least most computed twenty, rfl, printDec_isOtp d _⟩

/-- The first line of the table in the RFC. -/
theorem hotp_mac_rfc4226_first :
    truncatedValue (bytesOf 20 0xcc93cf18508d94934c64b65d8ba7667fb7cde4b0) = 1284755224 ∧
      ∃ response, hotpMac sampleCrypto (c2c 0) rfcKey 6 = some response ∧
        IsOtp 6 (truncatedValue (bytesOf 20 0xcc93cf18508d94934c64b65d8ba7667fb7cde4b0)) response := by
  refine ⟨by decide +kernel, ?_⟩
  obtain ⟨response, answered, -, otp⟩ := (hotp_mac_rfc4226 sampleCrypto (c2c 0) rfcKey
    (bytesOf 20 0xcc93cf18508d94934c64b65d8ba7667fb7cde4b0) 6 (by decide) (by decide)
    (by decide +kernel) (by decide +kernel)).2.2
  exact ⟨response, answered, otp⟩

end Otpd

import Mathlib.Data.Nat.Digits.Lemmas
import Otpd.Lib.Bytes

/-!
# Numerals

Big-endian byte strings, and the numerals of `printf` and `sscanf`: `%x` on
32-bit values in both directions and `%0Nlu`.  Reading follows
`strtoul`: blanks, a sign and the `x` of a `0x` are skipped, the longest run of hex digits
is taken, values out of 64 bits saturate there, and the result is cut to 32 bits.
-/

set_option autoImplicit false

namespace CMem

/-! ## Network order -/

def beNat (bytes : List Byte) : Nat := bytes.foldl (fun n b => n * 256 + b.toNat) 0

theorem beNat_append (high low : List Byte) :
    beNat (high ++ low) = beNat high * 256 ^ low.length + beNat low := by
  induction low using List.reverseRecOn with
  | nil => simp [beNat]
  | append_singleton low b ih =>
      have last : ∀ bytes, beNat (bytes ++ [b]) = beNat bytes * 256 + b.toNat := by
        intro bytes
        rw [beNat, List.foldl_append]
        rfl
      rw [← List.append_assoc, last, ih, last, List.length_append, List.length_singleton]
      ring

theorem beNat_lt (bytes : List Byte) : beNat bytes < 256 ^ bytes.length := by
  induction bytes using List.reverseRecOn with
  | nil => decide
  | append_singleton front b ih =>
      have last : beNat [b] < 256 := by
        have := b.toNat_lt
        simpa [beNat] using this
      rw [beNat_append, List.length_append, List.length_singleton, pow_one, pow_succ]
      omega

theorem or_shifted {a b i : Nat} (small : b < 2 ^ i) : (a * 2 ^ i) ||| b = a * 2 ^ i + b := by
  rw [Nat.mul_comm]
  exact (Nat.two_pow_add_eq_or_of_lt small a).symm

theorem packWord_toNat (b0 b1 b2 b3 : Byte) :
    ((b0.toUInt32 <<< 24) ||| (b1.toUInt32 <<< 16) ||| (b2.toUInt32 <<< 8) |||
      b3.toUInt32).toNat = beNat [b0, b1, b2, b3] := by
  have h0 := b0.toNat_lt
  have h1 := b1.toNat_lt
  have h2 := b2.toNat_lt
  have h3 := b3.toNat_lt
  have shifted : ∀ (b : Byte) (i : Nat), b.toNat < 256 → i ≤ 24 →
      b.toNat * 2 ^ i % 2 ^ 32 = b.toNat * 2 ^ i := by
    intro b i small bound
    apply Nat.mod_eq_of_lt
    calc b.toNat * 2 ^ i ≤ 255 * 2 ^ 24 :=
          Nat.mul_le_mul (by omega) (Nat.pow_le_pow_right (by omega) bound)
      _ < 2 ^ 32 := by norm_num
  simp only [UInt32.toNat_or, UInt32.toNat_shiftLeft, UInt8.toNat_toUInt32, Nat.shiftLeft_eq,
    beNat, List.foldl, Nat.or_assoc, UInt32.reduceToNat, Nat.reduceMod]
  rw [shifted b0 24 h0 (by omega), shifted b1 16 h1 (by omega), shifted b2 8 h2 (by omega),
    or_shifted (i := 8) (by omega), or_shifted (i := 16) (by omega),
    or_shifted (i := 24) (by omega)]
  omega

/-! ### Widened to 64 bits -/

theorem toInt32_toInt (n : UInt32) :
    n.toInt32.toInt = if n.toNat < 2 ^ 31 then (n.toNat : Int) else n.toNat - 2 ^ 32 := by
  have unfolded : n.toInt32.toInt = (n.toNat : Int).bmod (2 ^ 32) := BitVec.toInt_eq_toNat_bmod _
  have small := n.toNat_lt
  rw [unfolded, Int.bmod_def]
  push_cast
  split_ifs
  all_goals omega

theorem int64_toUInt64_toNat (x : Int64) : x.toUInt64.toNat = (x.toInt % 2 ^ 64).toNat := by
  have bits : x.toInt = if 2 * x.toUInt64.toNat < 2 ^ 64 then (x.toUInt64.toNat : Int)
      else (x.toUInt64.toNat : Int) - ((2 ^ 64 : Nat) : Int) :=
    BitVec.toInt_eq_toNat_cond x.toBitVec
  have := x.toUInt64.toNat_lt
  split at bits
  · omega
  · omega

/-- A word read as an `int` and widened: a set top bit fills the upper half. -/
theorem signExtended_toNat (word : UInt32) : word.toInt32.toInt64.toUInt64.toNat =
    if word.toNat < 2 ^ 31 then word.toNat else (2 ^ 32 - 1) * 2 ^ 32 + word.toNat := by
  have below := word.toNat_lt
  rw [int64_toUInt64_toNat, Int32.toInt_toInt64, toInt32_toInt]
  split
  · omega
  · omega

theorem or_halves (a c low : Nat) (small : low < 2 ^ 32) :
    (a * 2 ^ 32) ||| (c * 2 ^ 32 + low) = (a ||| c) * 2 ^ 32 + low := by
  rw [← or_shifted small, ← or_shifted small, ← Nat.or_assoc]
  congr 1
  simp only [← Nat.shiftLeft_eq, Nat.shiftLeft_or_distrib]

theorem or_allOnes {a k : Nat} (small : a < 2 ^ k) : a ||| (2 ^ k - 1) = 2 ^ k - 1 := by
  apply Nat.eq_of_testBit_eq
  intro i
  rw [Nat.testBit_or, Nat.testBit_two_pow_sub_one]
  by_cases inside : i < k
  · simp [inside]
  · have high : a.testBit i = false :=
      Nat.testBit_lt_two_pow (Nat.lt_of_lt_of_le small (Nat.pow_le_pow_right (by decide) (by omega)))
    simp [inside, high]

/-! ## Hex and decimal -/

def hexChar (d : Nat) : Byte := if d < 10 then UInt8.ofNat (48 + d) else UInt8.ofNat (87 + d)

def hexVal (c : Byte) : Option Nat :=
  if 48 ≤ c ∧ c ≤ 57 then some (c.toNat - 48)
  else if 65 ≤ c ∧ c ≤ 70 then some (c.toNat - 55)
  else if 97 ≤ c ∧ c ≤ 102 then some (c.toNat - 87)
  else none

theorem hexVal_hexChar {d : Nat} (small : d < 16) : hexVal (hexChar d) = some d := by
  interval_cases d <;> rfl

/-- `printf("%x", n)`. -/
def printHex (n : UInt32) : List Byte :=
  if n = 0 then [48] else (Nat.digits 16 n.toNat).reverse.map hexChar

/-- `printf("%0Nlu", n)` for a width `N`. -/
def printDec (width n : Nat) : List Byte :=
  let digits := (Nat.digits 10 n).reverse.map fun d => UInt8.ofNat (48 + d)
  List.replicate (width - digits.length) 48 ++ digits

def isSpace (c : Byte) : Bool := c == 32 || (9 ≤ c && c ≤ 13)

def hexValue (digits : List Byte) : Nat :=
  digits.foldl (fun acc c => 16 * acc + (hexVal c).getD 0) 0

/-- `sscanf(text, "%x", &n)`; `none` when the conversion does not return 1.  The `0` of a
`0x` is a digit of its own, and no sign changes a value out of range. -/
def scanHex (text : List Byte) : Option UInt32 :=
  let text := text.dropWhile isSpace
  let negative := text.head? = some 45
  let text := if text.head? = some 45 ∨ text.head? = some 43 then text.tail else text
  let text := match text with
    | 48 :: 120 :: rest => 48 :: rest
    | 48 :: 88 :: rest => 48 :: rest
    | rest => rest
  let digits := text.takeWhile fun c => (hexVal c).isSome
  if digits = [] then none
  else if hexValue digits ≥ 2 ^ 64 then some 0xffffffff
  else if negative then some (0 - UInt32.ofNat (hexValue digits))
  else some (UInt32.ofNat (hexValue digits))

/-! ## Reading back what was printed -/

theorem hexValue_reverse (digits : List Nat) (small : ∀ d ∈ digits, d < 16) :
    hexValue (digits.reverse.map hexChar) = Nat.ofDigits 16 digits := by
  induction digits with
  | nil => rfl
  | cons d rest ih =>
      have tail : hexValue (rest.reverse.map hexChar) = Nat.ofDigits 16 rest :=
        ih fun e member => small e (List.mem_cons_of_mem _ member)
      simp only [hexValue] at tail ⊢
      simp only [List.reverse_cons, List.map_append, List.map_cons, List.map_nil,
        List.foldl_append, List.foldl_cons, List.foldl_nil, tail,
        hexVal_hexChar (small d List.mem_cons_self), Option.getD_some, Nat.ofDigits_cons]
      omega

theorem digits16_lt (n : Nat) {d : Nat} (member : d ∈ Nat.digits 16 n) : d < 16 :=
  Nat.digits_lt_base (by decide) member

theorem hexChar_range {d : Nat} (small : d < 16) :
    hexChar d ≠ 58 ∧ hexChar d ≠ 0 ∧ hexChar d ≠ 120 ∧ hexChar d ≠ 88 ∧ hexChar d ≠ 45 ∧
      hexChar d ≠ 43 ∧ isSpace (hexChar d) = false := by
  interval_cases d <;> decide

theorem printHex_chars (n : UInt32) {c : Byte} (member : c ∈ printHex n) :
    ∃ d, d < 16 ∧ c = hexChar d := by
  unfold printHex at member
  split at member
  · simp only [List.mem_singleton] at member
    exact ⟨0, by decide, member⟩
  · obtain ⟨d, digit, rfl⟩ := List.mem_map.mp member
    exact ⟨d, digits16_lt _ (List.mem_reverse.mp digit), rfl⟩

theorem printHex_ne_nil (n : UInt32) : printHex n ≠ [] := by
  unfold printHex
  split
  · simp
  · rename_i nonzero
    have positive : n.toNat ≠ 0 := fun zero => nonzero (UInt32.toNat_inj.mp (by simpa using zero))
    simpa [List.map_eq_nil_iff, Nat.digits_eq_nil_iff_eq_zero] using positive

theorem printHex_length_le (n : UInt32) : (printHex n).length ≤ 8 := by
  unfold printHex
  split
  · simp
  · have bound : n.toNat < 16 ^ 8 := by
      have := n.toNat_lt
      norm_num
      omega
    simpa using (Nat.digits_length_le_iff (by decide) n.toNat).mpr bound

theorem printHex_clean (n : UInt32) : (58 : Byte) ∉ printHex n ∧ (0 : Byte) ∉ printHex n := by
  constructor
  · intro member
    obtain ⟨d, small, exact⟩ := printHex_chars n member
    exact (hexChar_range small).1 exact.symm
  · intro member
    obtain ⟨d, small, exact⟩ := printHex_chars n member
    exact (hexChar_range small).2.1 exact.symm

theorem hexValue_printHex (n : UInt32) : hexValue (printHex n) = n.toNat := by
  unfold printHex
  split
  · rename_i zero
    subst zero
    rfl
  · rw [hexValue_reverse _ fun d member => digits16_lt _ member, Nat.ofDigits_digits]

/-- Past blanks, sign and radix mark nothing is skipped in a printed numeral. -/
theorem scanHex_of_digits (text : List Byte) (nonempty : text ≠ [])
    (digits : ∀ c ∈ text, ∃ d, d < 16 ∧ c = hexChar d) (small : hexValue text < 2 ^ 64) :
    scanHex text = some (UInt32.ofNat (hexValue text)) := by
  obtain ⟨first, rest, rfl⟩ := List.exists_cons_of_ne_nil nonempty
  obtain ⟨d, dSmall, firstExact⟩ := digits first List.mem_cons_self
  obtain ⟨-, -, -, -, notMinus, notPlus, notSpace⟩ := hexChar_range dSmall
  rw [← firstExact] at notMinus notPlus notSpace
  have trimmed : (first :: rest).dropWhile isSpace = first :: rest := by
    simp [List.dropWhile, notSpace]
  have allHex : (first :: rest).takeWhile (fun c => (hexVal c).isSome) = first :: rest := by
    rw [List.takeWhile_eq_self_iff]
    intro c member
    obtain ⟨e, eSmall, rfl⟩ := digits c member
    simp [hexVal_hexChar eSmall]
  have unmarked : (match first :: rest with
      | 48 :: 120 :: tail => 48 :: tail
      | 48 :: 88 :: tail => 48 :: tail
      | tail => tail) = first :: rest := by
    split
    · rename_i tail cut
      obtain ⟨e, eSmall, x⟩ := digits 120 (by rw [cut]; simp)
      exact absurd x.symm (hexChar_range eSmall).2.2.1
    · rename_i tail _ cut
      obtain ⟨e, eSmall, x⟩ := digits 88 (by rw [cut]; simp)
      exact absurd x.symm (hexChar_range eSmall).2.2.2.1
    · rfl
  unfold scanHex
  simp only [trimmed, List.head?_cons, Option.some.injEq, notMinus, notPlus, or_self, if_false,
    unmarked, allHex, List.cons_ne_nil, if_neg (Nat.not_le.mpr small)]

theorem scanHex_printHex (n : UInt32) : scanHex (printHex n) = some n := by
  have value := hexValue_printHex n
  have bound := n.toNat_lt
  rw [scanHex_of_digits (printHex n) (printHex_ne_nil n) (fun c => printHex_chars n)
    (by omega), value, UInt32.ofNat_toNat]

theorem printDec_text (width n : Nat) (wide : 0 < width) :
    printDec width n ≠ [] ∧ (0 : Byte) ∉ printDec width n := by
  constructor
  · intro empty
    have size := congrArg List.length empty
    simp only [printDec, List.length_append, List.length_replicate, List.length_nil] at size
    omega
  · intro member
    simp only [printDec, List.mem_append, List.mem_replicate, List.mem_map, List.mem_reverse] at member
    rcases member with ⟨-, wrong⟩ | ⟨d, digit, wrong⟩
    · cases wrong
    · have small : d < 10 := Nat.digits_lt_base (by decide) digit
      interval_cases d <;> cases wrong

theorem printDec_length {width n : Nat} (fits : n < 10 ^ width) : (printDec width n).length = width := by
  have digits : (Nat.digits 10 n).length ≤ width := by
    rcases Nat.eq_zero_or_pos n with rfl | positive
    · simp
    · exact (Nat.digits_length_le_iff (by decide) n).mpr fits
  simp only [printDec, List.length_append, List.length_replicate, List.length_map,
    List.length_reverse]
  omega

/-! ## `strtoul` -/

def isDigit (c : Byte) : Bool := 48 ≤ c && c ≤ 57

def decValue (digits : List Byte) : Nat := digits.foldl (fun n c => n * 10 + (c.toNat - 48)) 0

/-- `strtoul(text, NULL, 10)` for a 64-bit `unsigned long`: leading blanks and a sign are
skipped, a value out of range gives `ULONG_MAX`. -/
def strtoul (text : List Byte) : UInt64 :=
  let body := text.dropWhile isSpace
  let signed := body.head? = some 43 ∨ body.head? = some 45
  let value := decValue ((if signed then body.tail else body).takeWhile isDigit)
  if value ≥ 2 ^ 64 then 0xffffffffffffffff
  else if body.head? = some 45 then 0 - UInt64.ofNat value
  else UInt64.ofNat value

theorem digit_plain {c : Byte} (digit : isDigit c = true) :
    isSpace c = false ∧ c ≠ 43 ∧ c ≠ 45 := by
  simp only [isDigit, isSpace, Bool.and_eq_true, decide_eq_true_eq, Bool.or_eq_false_iff,
    Bool.and_eq_false_iff, decide_eq_false_iff_not, beq_eq_false_iff_ne, UInt8.le_iff_toNat_le,
    ne_eq, ← UInt8.toNat_inj] at digit ⊢
  simp only [UInt8.reduceToNat] at digit ⊢
  omega

theorem strtoul_digits {text : List Byte} (digits : ∀ c ∈ text, isDigit c = true)
    (small : decValue text < 2 ^ 64) : strtoul text = UInt64.ofNat (decValue text) := by
  have body : text.dropWhile isSpace = text := by
    cases text with
    | nil => rfl
    | cons c rest =>
        rw [List.dropWhile_cons_of_neg]
        rw [(digit_plain (digits c List.mem_cons_self)).1]
        decide
  have unsigned : text.head? ≠ some 43 ∧ text.head? ≠ some 45 := by
    cases text with
    | nil => simp
    | cons c rest =>
        obtain ⟨-, plus, minus⟩ := digit_plain (digits c List.mem_cons_self)
        simp [plus, minus]
  have taken : text.takeWhile isDigit = text := List.takeWhile_eq_self_iff.mpr digits
  simp only [strtoul, body, unsigned.1, unsigned.2, or_self, if_false, taken]
  rw [if_neg (Nat.not_le.mpr small)]

/-! ## Printed decimal numerals -/

theorem decValue_append (digits : List Byte) (c : Byte) :
    decValue (digits ++ [c]) = decValue digits * 10 + (c.toNat - 48) := by
  rw [decValue, List.foldl_append]
  rfl

theorem decValue_reverse (digits : List Nat) (small : ∀ d ∈ digits, d < 10) :
    decValue (digits.reverse.map fun d => UInt8.ofNat (48 + d)) = Nat.ofDigits 10 digits := by
  induction digits with
  | nil => rfl
  | cons d rest ih =>
      have tail := ih fun e member => small e (List.mem_cons_of_mem _ member)
      have digit : (UInt8.ofNat (48 + d)).toNat = 48 + d := by
        have := small d List.mem_cons_self
        rw [UInt8.toNat_ofNat']
        exact Nat.mod_eq_of_lt (by omega)
      rw [List.reverse_cons, List.map_append, List.map_singleton, decValue_append, tail, digit,
        Nat.ofDigits_cons]
      omega

/-- Leading zeros do not count. -/
theorem decValue_printDec (width n : Nat) : decValue (printDec width n) = n := by
  have zeros : ∀ k digits, decValue (List.replicate k 48 ++ digits) = decValue digits := by
    intro k digits
    induction k with
    | zero => rfl
    | succ k ih => exact ih
  rw [printDec, zeros, decValue_reverse _ fun d member => Nat.digits_lt_base (by decide) member,
    Nat.ofDigits_digits]

theorem printDec_digits (width n : Nat) {c : Byte} (member : c ∈ printDec width n) :
    isDigit c = true := by
  simp only [printDec, List.mem_append, List.mem_replicate, List.mem_map, List.mem_reverse] at member
  rcases member with ⟨-, rfl⟩ | ⟨d, digit, rfl⟩
  · rfl
  · have small : d < 10 := Nat.digits_lt_base (by decide) digit
    interval_cases d <;> rfl
end CMem

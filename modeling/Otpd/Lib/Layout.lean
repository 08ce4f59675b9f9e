import Otpd.Lib.Bytes

/-!
# Fields of a record in memory

A record is a byte string, and a field is a range of it.  `peek` reads a field and `poke`
overwrites one.  Integers are little-endian.
-/

set_option autoImplicit false

namespace CMem

/-! ## Fields -/

def peek {m : Nat} (mem : Buffer m) (off n : Nat) : List Byte := (mem.bytes.drop off).take n

/-- Clipped to the size of the record. -/
def poke {m : Nat} (mem : Buffer m) (off : Nat) (bytes : List Byte) : Buffer m :=
  ⟨(mem.bytes.take off ++ (bytes ++ mem.bytes.drop (off + bytes.length))).take m, by
    have := mem.size
    simp only [List.length_take, List.length_append, List.length_drop]
    omega⟩

section Fields

variable {m : Nat} {mem : Buffer m} {bytes : List Byte} {off i n : Nat}

theorem peek_length (fits : off + n ≤ m) : (peek mem off n).length = n := by
  have := mem.size
  simp only [peek, List.length_take, List.length_drop]
  omega

theorem poke_getElem? (fits : off + bytes.length ≤ m) (i : Nat) :
    (poke mem off bytes).bytes[i]? =
      if off ≤ i ∧ i < off + bytes.length then bytes[i - off]? else mem.bytes[i]? := by
  have size := mem.size
  have front : (mem.bytes.take off).length = off := by
    rw [List.length_take]
    omega
  have whole : (mem.bytes.take off ++ (bytes ++ mem.bytes.drop (off + bytes.length))).length ≤ m := by
    simp only [List.length_append, front, List.length_drop]
    omega
  show (List.take m _)[i]? = _
  rw [List.take_of_length_le whole]
  by_cases before : i < off
  · rw [List.getElem?_append_left (by omega), List.getElem?_take, if_pos before, if_neg (by omega)]
  · rw [List.getElem?_append_right (by omega), front]
    by_cases inside : i < off + bytes.length
    · rw [List.getElem?_append_left (by omega), if_pos (by omega)]
    · rw [List.getElem?_append_right (by omega), List.getElem?_drop, if_neg (by omega)]
      congr 1
      omega

theorem peek_getElem? (i : Nat) :
    (peek mem off n)[i]? = if i < n then mem.bytes[off + i]? else none := by
  rw [peek, List.getElem?_take, List.getElem?_drop]

/-- A field that the write does not reach. -/
theorem peek_poke_other (fits : off + bytes.length ≤ m)
    (apart : i + n ≤ off ∨ off + bytes.length ≤ i) :
    peek (poke mem off bytes) i n = peek mem i n := by
  apply List.ext_getElem?
  intro j
  rw [peek_getElem?, peek_getElem?]
  by_cases inside : j < n
  · rw [if_pos inside, if_pos inside, poke_getElem? fits, if_neg (by omega)]
  · rw [if_neg inside, if_neg inside]

theorem peek_poke_self (fits : off + bytes.length ≤ m) (whole : bytes.length = n) :
    peek (poke mem off bytes) off n = bytes := by
  apply List.ext_getElem?
  intro j
  rw [peek_getElem?]
  by_cases inside : j < n
  · rw [if_pos inside, poke_getElem? fits, if_pos (by omega), Nat.add_sub_cancel_left]
  · rw [if_neg inside, List.getElem?_eq_none (by omega)]

/-- What is read in one piece after it was written in two. -/
theorem peek_poke_grow {start : Nat} (begins : start ≤ off) (fits : off + bytes.length ≤ m) :
    peek (poke mem off bytes) start (off - start + bytes.length) =
      peek mem start (off - start) ++ bytes := by
  have front : (peek mem start (off - start)).length = off - start := peek_length (by omega)
  apply List.ext_getElem?
  intro j
  rw [peek_getElem?]
  by_cases inside : j < off - start + bytes.length
  · rw [if_pos inside, poke_getElem? fits]
    by_cases before : j < off - start
    · rw [if_neg (by omega), List.getElem?_append_left (by omega), peek_getElem?, if_pos before]
    · rw [if_pos (by omega), List.getElem?_append_right (by omega), front]
      congr 1
      omega
  · rw [if_neg inside, List.getElem?_eq_none]
    rw [List.length_append, front]
    omega

theorem poke_start (fits : bytes.length ≤ m) :
    (poke mem 0 bytes).bytes = bytes ++ peek mem bytes.length (m - bytes.length) := by
  apply List.ext_getElem?
  intro j
  rw [poke_getElem? (by omega), Nat.zero_add, Nat.sub_zero]
  by_cases inside : j < bytes.length
  · rw [if_pos ⟨Nat.zero_le j, inside⟩, List.getElem?_append_left inside]
  · rw [if_neg (by omega), List.getElem?_append_right (by omega), peek_getElem?]
    have size := mem.size
    split_ifs with last
    · congr 1
      omega
    · exact List.getElem?_eq_none (by omega)

theorem peek_all : peek mem 0 m = mem.bytes := by
  rw [peek, List.drop_zero, List.take_of_length_le (Nat.le_of_eq mem.size)]

end Fields

/-! ## Strings in a record -/

/-- A NUL-terminated string at an offset. -/
structure StringAt {m : Nat} (mem : Buffer m) (off : Nat) (text : List Byte) : Prop where
  inside : ∀ i < text.length, mem.bytes[off + i]? = text[i]?
  ends : mem.bytes[off + text.length]? = some 0

section Strings

variable {m : Nat} {mem : Buffer m} {text bytes : List Byte} {off off' n : Nat}

theorem StringAt.poke (fits : off + text.length + 1 ≤ m) :
    StringAt (poke mem off (text ++ [0])) off text := by
  have length : (text ++ [0]).length = text.length + 1 := by simp
  have fits' : off + (text ++ [0]).length ≤ m := by omega
  refine ⟨?_, ?_⟩
  · intro i below
    rw [poke_getElem? fits', if_pos (by omega), Nat.add_sub_cancel_left,
      List.getElem?_append_left below]
  · rw [poke_getElem? fits', if_pos (by omega), Nat.add_sub_cancel_left]
    simp

theorem StringAt.poke_other (string : StringAt mem off text) (fits : off' + bytes.length ≤ m)
    (apart : off + text.length < off' ∨ off' + bytes.length ≤ off) :
    StringAt (CMem.poke mem off' bytes) off text := by
  refine ⟨?_, ?_⟩
  · intro i below
    rw [poke_getElem? fits, if_neg (by omega)]
    exact string.inside i below
  · rw [poke_getElem? fits, if_neg (by omega)]
    exact string.ends

/-- A NUL behind the text or on its own NUL. -/
theorem StringAt.poke_nul (string : StringAt mem off text) (fits : off' < m)
    (behind : off + text.length ≤ off') : StringAt (CMem.poke mem off' [0]) off text := by
  have fits' : off' + ([0] : List Byte).length ≤ m := fits
  have length : ([0] : List Byte).length = 1 := rfl
  refine ⟨?_, ?_⟩
  · intro i below
    rw [poke_getElem? fits', if_neg (by omega)]
    exact string.inside i below
  · rw [poke_getElem? fits']
    split_ifs with same
    · have here : off + text.length - off' = 0 := by omega
      rw [here]
      rfl
    · exact string.ends

theorem StringAt.cstr (string : StringAt mem off text) (noNul : (0 : Byte) ∉ text)
    (fits : text.length < n) : cstr (peek mem off n) = text := by
  have split : peek mem off n = text ++ 0 :: (peek mem off n).drop (text.length + 1) := by
    apply List.ext_getElem?
    intro i
    by_cases inside : i < text.length
    · rw [peek_getElem?, if_pos (by omega), List.getElem?_append_left inside,
        string.inside i inside]
    · rw [List.getElem?_append_right (by omega)]
      by_cases last : i = text.length
      · subst last
        rw [peek_getElem?, if_pos fits, string.ends, Nat.sub_self]
        rfl
      · obtain ⟨j, rfl⟩ : ∃ j, i = text.length + 1 + j := ⟨i - text.length - 1, by omega⟩
        rw [show text.length + 1 + j - text.length = j + 1 by omega, List.getElem?_cons_succ,
          List.getElem?_drop]
  rw [split, CMem.cstr, List.takeWhile_append_of_pos]
  · simp
  · intro c member
    simp only [ne_eq, decide_not, Bool.not_eq_true', decide_eq_false_iff_not]
    rintro rfl
    exact noNul member

end Strings

/-! ## Little-endian integers -/

def leNat : List Byte → Nat
  | [] => 0
  | b :: rest => b.toNat + 256 * leNat rest

/-- The `n` low bytes. -/
def leBytesOf : Nat → Nat → List Byte
  | 0, _ => []
  | n + 1, value => UInt8.ofNat value :: leBytesOf n (value / 256)

theorem leBytesOf_length (n value : Nat) : (leBytesOf n value).length = n := by
  induction n generalizing value with
  | zero => rfl
  | succ n ih => rw [leBytesOf, List.length_cons, ih]

theorem leNat_leBytesOf (n value : Nat) : leNat (leBytesOf n value) = value % 256 ^ n := by
  induction n generalizing value with
  | zero => rw [leBytesOf, leNat, pow_zero, Nat.mod_one]
  | succ n ih =>
      rw [leBytesOf, leNat, ih, UInt8.toNat_ofNat', pow_succ' 256 n, Nat.mod_mul]

end CMem

import Otpd.Cards
import Otpd.Lib.Cells

/-!
# The hex codec in memory

`a2x`, `a2nx` and `x2a` of `xfunc.c` on the cells they are given, with the signed
characters and the `unsigned` index of the source.  The lengths are `size_t`, so the index
can wrap; up to there the loops compute the `a2nx` and `x2a` of the cards.
-/

set_option autoImplicit false

namespace Otpd

open CMem Cells

def hexDigits : List Byte := ascii "0123456789ABCDEFabcdef"

/-! ## `a2nx` -/

/-- `n[j] = *s++` sign-extends a `char`. -/
def charToUnsigned (c : Byte) : UInt32 := c.toInt8.toInt32.toUInt32

def hexRange (n : UInt32) : Prop :=
  (n ≥ 48 ∧ n ≤ 57) ∨ (n ≥ 65 ∧ n ≤ 70) ∨ (n ≥ 97 ∧ n ≤ 102)

instance (n : UInt32) : Decidable (hexRange n) :=
  inferInstanceAs (Decidable ((n ≥ 48 ∧ n ≤ 57) ∨ (n ≥ 65 ∧ n ≤ 70) ∨ (n ≥ 97 ∧ n ≤ 102)))

def hexNibble (n : UInt32) : UInt32 :=
  let n := n - 48
  if n > 9 then
    if n > 70 - 48 then n - (97 - 57 - 1) else n - (65 - 57 - 1)
  else n

/-- The loop from index `i`; the list is what `s` has not passed yet. -/
def a2nxLoop (l : Nat) : List Byte → UInt32 → List Byte → Run (UInt32 × List Byte)
  | c0 :: c1 :: s, i, x =>
    if i.toNat < l then do
      let n0 := charToUnsigned c0
      let n1 := charToUnsigned c1
      Run.require (hexRange n0)
      Run.require (hexRange n1)
      let n0 := hexNibble n0
      let n1 := hexNibble n1
      let x ← store x i.toNat [(n0 <<< 4).toUInt8]
      let high ← load x i.toNat
      let x ← store x i.toNat [(high.toUInt32 + n1).toUInt8]
      a2nxLoop l s (i + 1) x
    else return (i, x)
  | _, i, x => if i.toNat < l then .fault else return (i, x)

/-- What is returned and the cells of `x`; `fail` is the -1. -/
def a2nxCells (s x : List Byte) (l : Nat) : Run (Nat × List Byte) := do
  let (i, x) ← a2nxLoop l s 0 x
  return (i.toNat, x)

def a2xCells (s x : List Byte) : Run (Nat × List Byte) := do
  let length ← strlen s 0
  a2nxCells s x (length / 2)

/-! ## `x2a` -/

/-- `none` when the fuel ran out before the loop ended. -/
def x2aLoop (x conversion : List Byte) : Nat → UInt32 → List Byte → Run (Option (List Byte))
  | 0, _, _ => return none
  | fuel + 1, i, s =>
    if i.toNat < x.length then do
      let octet ← load x i.toNat
      let n0 := (octet >>> 4) &&& 0x0f
      let n1 := octet &&& 0x0f
      let s ← store s (2 * i + 0).toNat [conversion.getD n0.toNat 0]
      let s ← store s (2 * i + 1).toNat [conversion.getD n1.toNat 0]
      x2aLoop x conversion fuel (i + 1) s
    else return some s

def x2aCells (x s conversion : List Byte) (fuel : Nat) : Run (Option (List Byte)) := do
  match ← x2aLoop x conversion fuel 0 s with
  | none => return none
  | some s =>
    let s ← store s (2 * x.length) [0]
    return some s

/-! ## Characters and octets -/

/-- Both tests of a character agree, and so do its digit, its value and its lower case. -/
theorem hex_character (c : Byte) :
    (c ∉ hexDigits ∧ nibble c = none ∧ ¬ hexRange (charToUnsigned c)) ∨
      ∃ n : Fin 16, c ∈ hexDigits ∧ nibble c = some n.val ∧ hexRange (charToUnsigned c) ∧
        hexNibble (charToUnsigned c) = UInt32.ofNat n.val ∧
        x2aHexConversion.getD n.val 0 = toLower c := by
  have table : ∀ b : Fin 256,
      (UInt8.ofNat b ∉ hexDigits ∧ nibble (UInt8.ofNat b) = none ∧
          ¬ hexRange (charToUnsigned (UInt8.ofNat b))) ∨
        ∃ n : Fin 16, UInt8.ofNat b ∈ hexDigits ∧ nibble (UInt8.ofNat b) = some n.val ∧
          hexRange (charToUnsigned (UInt8.ofNat b)) ∧
          hexNibble (charToUnsigned (UInt8.ofNat b)) = UInt32.ofNat n.val ∧
          x2aHexConversion.getD n.val 0 = toLower (UInt8.ofNat b) := by
    decide +kernel
  have entry := table ⟨c.toNat, c.toNat_lt⟩
  rw [UInt8.ofNat_toNat] at entry
  exact entry

/-- The octet stored in two steps is the octet of the two digits, and splits again. -/
theorem hex_octet : ∀ n0 n1 : Fin 16,
    ((UInt32.ofNat n0.val <<< 4).toUInt8.toUInt32 + UInt32.ofNat n1.val).toUInt8 =
        UInt8.ofNat n0.val <<< 4 + UInt8.ofNat n1.val ∧
      (((UInt8.ofNat n0.val <<< 4 + UInt8.ofNat n1.val) >>> 4) &&& 0x0f).toNat = n0.val ∧
      ((UInt8.ofNat n0.val <<< 4 + UInt8.ofNat n1.val) &&& 0x0f).toNat = n1.val := by
  decide +kernel

/-! ## The loop of `a2nx` -/

section Decode

variable {l : Nat} {c0 c1 : Byte} {s x : List Byte} {i : UInt32}

/-- One iteration over two digits. -/
theorem a2nxLoop_digits {n0 n1 : Nat} (high : nibble c0 = some n0) (low : nibble c1 = some n1)
    (more : i.toNat < l) (room : l ≤ x.length) :
    a2nxLoop l (c0 :: c1 :: s) i x =
      a2nxLoop l s (i + 1) (x.set i.toNat (UInt8.ofNat n0 <<< 4 + UInt8.ofNat n1)) := by
  obtain ⟨-, notDigit, -⟩ | ⟨m0, -, value0, range0, nibble0, -⟩ := hex_character c0
  · rw [high] at notDigit
    cases notDigit
  obtain ⟨-, notDigit, -⟩ | ⟨m1, -, value1, range1, nibble1, -⟩ := hex_character c1
  · rw [low] at notDigit
    cases notDigit
  rw [high] at value0
  rw [low] at value1
  cases value0
  cases value1
  have inside : i.toNat < x.length := by omega
  rw [a2nxLoop, if_pos more]
  simp only [Run.require_pos range0, Run.require_pos range1, Run.done_bind, nibble0, nibble1]
  rw [store_cell _ inside]
  simp only [Run.done_bind]
  rw [load_lt (by rw [List.length_set]; exact inside)]
  simp only [Run.done_bind]
  rw [store_cell _ (by rw [List.length_set]; exact inside)]
  simp only [Run.done_bind, List.set_set, List.getD_eq_getElem?_getD,
    List.getElem?_set_self inside, Option.getD_some, (hex_octet m0 m1).1]

theorem a2nxLoop_rejected (bad : nibble c0 = none ∨ nibble c1 = none) (more : i.toNat < l) :
    a2nxLoop l (c0 :: c1 :: s) i x = .fail := by
  rw [a2nxLoop, if_pos more]
  obtain ⟨-, -, outside⟩ | ⟨m0, -, value0, range0, -⟩ := hex_character c0
  · simp only [Run.require_neg outside]
    rfl
  · obtain ⟨-, -, outside⟩ | ⟨m1, -, value1, -⟩ := hex_character c1
    · simp only [Run.require_pos range0, Run.require_neg outside]
      rfl
    · rcases bad with first | second
      · rw [value0] at first
        cases first
      · rw [value1] at second
        cases second

theorem a2nxLoop_end (s x : List Byte) (finished : ¬ i.toNat < l) :
    a2nxLoop l s i x = .done (i, x) := by
  rcases s with _ | ⟨c0, _ | ⟨c1, s⟩⟩
  · rw [a2nxLoop, if_neg finished]
    · rfl
    · intro c0 c1 s empty
      cases empty
  · rw [a2nxLoop, if_neg finished]
    · rfl
    · intro c0 c1 s short
      cases short
  · rw [a2nxLoop, if_neg finished]
    rfl

theorem take_set_succ {j : Nat} (b : Byte) (inside : j < x.length) :
    (x.set j b).take (j + 1) = x.take j ++ [b] := by
  rw [List.take_add_one, List.take_set_of_le (Nat.le_refl j), List.getElem?_set_self inside]
  rfl

/-- On digits the loop ends as long as the index can reach `l`. -/
theorem a2nxLoop_some {k j : Nat} {out : List Byte} (decoded : a2nx s k = some out)
    (left : j + k = l) (bounded : l < 2 ^ 32) (room : x.length = l) :
    a2nxLoop l s (UInt32.ofNat j) x = .done (UInt32.ofNat l, x.take j ++ out) := by
  fun_induction a2nx s k generalizing j x out with
  | case1 s =>
      cases decoded
      have index : (UInt32.ofNat j).toNat = j := index_toNat (by omega)
      rw [a2nxLoop_end s x (by omega), List.append_nil, List.take_of_length_le (by omega),
        show j = l by omega]
  | case2 c0 c1 rest k n0 n1 second first tail tailRun ih =>
      cases decoded
      have index : (UInt32.ofNat j).toNat = j := index_toNat (by omega)
      rw [a2nxLoop_digits first second (by omega) (by omega), index]
      have next := ih (x := x.set j (UInt8.ofNat n0 <<< 4 + UInt8.ofNat n1)) (j := j + 1) tailRun
        (by omega) (by rw [List.length_set]; exact room)
      rw [UInt32.ofNat_add, take_set_succ _ (by omega), List.append_assoc] at next
      exact next
  | case3 => cases decoded
  | case4 => cases decoded
  | case5 => cases decoded

/-- A character that is no digit ends the loop for every `l`: the index never passes the
number of pairs read. -/
theorem a2nxLoop_none {k j : Nat} (bad : a2nx s k = none) (enough : 2 * k ≤ s.length)
    (left : j + k = l) (room : l ≤ x.length) : a2nxLoop l s (UInt32.ofNat j) x = .fail := by
  have index : (UInt32.ofNat j).toNat ≤ j := Nat.mod_le _ _
  fun_induction a2nx s k generalizing j x with
  | case1 s => cases bad
  | case2 c0 c1 rest k n0 n1 second first tail tailRun ih => cases bad
  | case3 c0 c1 rest k n0 n1 second first tailRun ih =>
      rw [a2nxLoop_digits first second (by omega) room, ← UInt32.ofNat_one, ← UInt32.ofNat_add]
      simp only [List.length_cons] at enough
      exact ih tailRun (by omega) (by omega) (by rw [List.length_set]; exact room)
        (Nat.mod_le _ _)
  | case4 c0 c1 rest k rejected =>
      have undigit : nibble c0 = none ∨ nibble c1 = none := by
        cases first : nibble c0 with
        | none => exact Or.inl rfl
        | some n0 =>
            cases second : nibble c1 with
            | none => exact Or.inr rfl
            | some n1 => exact (rejected n0 n1 first second).elim
      exact a2nxLoop_rejected undigit (by omega)
  | case5 s k short =>
      rcases s with _ | ⟨c0, _ | ⟨c1, s⟩⟩
      · simp at enough
      · simp at enough
        omega
      · exact (short c0 c1 s rfl).elim

/-- Whatever the bytes, a loop that ends has counted to `l`. -/
theorem a2nxLoop_counted {j : UInt32} {out : List Byte} (ended : a2nxLoop l s i x = .done (j, out))
    (within : i.toNat ≤ l) (room : l ≤ x.length) : j.toNat = l := by
  induction s, i, x using a2nxLoop.induct (l := l) with
  | case1 c0 c1 s i x more ih =>
      cases first : nibble c0 with
      | none =>
          rw [a2nxLoop_rejected (Or.inl first) more] at ended
          cases ended
      | some n0 =>
          cases second : nibble c1 with
          | none =>
              rw [a2nxLoop_rejected (Or.inr second) more] at ended
              cases ended
          | some n1 =>
              rw [a2nxLoop_digits first second more room] at ended
              have next : (i + 1).toNat ≤ i.toNat + 1 := Nat.mod_le _ _
              exact ih _ ended (by omega) (by rw [List.length_set]; exact room)
  | case2 c0 c1 s i x finished =>
      rw [a2nxLoop_end _ x finished] at ended
      cases ended
      omega
  | case3 t i x more short =>
      rw [a2nxLoop, if_pos more] at ended
      · cases ended
      · exact short
  | case4 t i x finished short =>
      rw [a2nxLoop_end _ x finished] at ended
      cases ended
      omega

theorem a2nxCells_some {out : List Byte} (decoded : a2nx s l = some out) (bounded : l < 2 ^ 32)
    (room : x.length = l) : a2nxCells s x l = .done (l, out) := by
  have loop := a2nxLoop_some decoded (Nat.zero_add l) bounded room
  rw [a2nxCells, show (0 : UInt32) = UInt32.ofNat 0 from rfl, loop, Run.done_bind]
  simp only [Run.pure_eq, index_toNat bounded, List.take_zero, List.nil_append]

theorem a2nxCells_none (bad : a2nx s l = none) (enough : 2 * l ≤ s.length)
    (room : l ≤ x.length) : a2nxCells s x l = .fail := by
  have loop := a2nxLoop_none bad enough (Nat.zero_add l) room
  rw [a2nxCells, show (0 : UInt32) = UInt32.ofNat 0 from rfl, loop]
  rfl

theorem a2nxCells_counted {n : Nat} {out : List Byte} (ended : a2nxCells s x l = .done (n, out))
    (room : l ≤ x.length) : n = l := by
  obtain ⟨⟨j, cells⟩, loop, result⟩ := Run.bind_eq_done ended
  cases result
  exact a2nxLoop_counted loop (Nat.zero_le l) room

end Decode

/-! ## The loop of `x2a` -/

section Encode

variable {x conversion s : List Byte}

theorem x2a_append (x y conversion : List Byte) :
    x2a (x ++ y) conversion = x2a x conversion ++ x2a y conversion := by
  induction x with
  | nil => rfl
  | cons b x ih => rw [List.cons_append, x2a, x2a, ih, List.cons_append, List.cons_append]

/-- Up to 2^31 octets the 32-bit product `2 * i` is the index of the pair. -/
theorem x2aLoop_done (before after : List Byte) (whole : x = before ++ after)
    (bounded : x.length ≤ 2 ^ 31) (rest : List Byte) (room : rest.length = 2 * after.length + 1) :
    ∃ last : Byte, x2aLoop x conversion (after.length + 1) (UInt32.ofNat before.length)
      (x2a before conversion ++ rest) = .done (some (x2a x conversion ++ [last])) := by
  have index : (UInt32.ofNat before.length).toNat = before.length := by
    have shorter := congrArg List.length whole
    rw [List.length_append] at shorter
    exact index_toNat (by omega)
  induction after generalizing before rest with
  | nil =>
      obtain ⟨last, rfl⟩ := List.length_eq_one_iff.mp room
      rw [List.append_nil] at whole
      subst whole
      rw [x2aLoop, if_neg (by omega)]
      exact ⟨last, rfl⟩
  | cons octet after ih =>
      have lengths := congrArg List.length whole
      rw [List.length_append, List.length_cons] at lengths
      obtain ⟨r0, r1, rest', rfl⟩ : ∃ r0 r1 rest', rest = r0 :: r1 :: rest' := by
        rcases rest with _ | ⟨r0, _ | ⟨r1, rest'⟩⟩
        · simp at room
        · simp at room
        · exact ⟨r0, r1, rest', rfl⟩
      have octet_at : load x before.length = .done octet := by
        rw [whole]
        exact load_between before after octet
      have high_at : (2 * UInt32.ofNat before.length + 0).toNat =
          (x2a before conversion).length := by
        rw [x2a_length, UInt32.add_zero, UInt32.toNat_mul, index]
        exact Nat.mod_eq_of_lt (by simp; omega)
      have low_at : ∀ c : Byte, (2 * UInt32.ofNat before.length + 1).toNat =
          (x2a before conversion ++ [c]).length := by
        intro c
        rw [List.length_append, x2a_length, UInt32.toNat_add, UInt32.toNat_mul, index]
        simp
        omega
      rw [x2aLoop, if_pos (by omega), index, octet_at, high_at]
      simp only [Run.done_bind]
      rw [store_between, low_at (conversion.getD ((octet >>> 4) &&& 0x0f).toNat 0)]
      simp only [Run.done_bind]
      rw [List.append_cons, store_between]
      simp only [Run.done_bind]
      have next := ih (before ++ [octet]) (by rw [List.append_assoc]; exact whole) rest'
        (by simp only [List.length_cons] at room; omega)
        (index_toNat (by rw [List.length_append, List.length_singleton]; omega))
      rw [x2a_append, List.length_append, List.length_singleton, UInt32.ofNat_add] at next
      simp only [x2a, List.append_assoc, List.cons_append, List.nil_append] at next ⊢
      exact next

/-- Exactly the `2 * len + 1` cells that the comment in front of `x2a` asks for are written. -/
theorem x2aCells_done (bounded : x.length ≤ 2 ^ 31) (room : s.length = 2 * x.length + 1) :
    x2aCells x s conversion (x.length + 1) = .done (some (x2a x conversion ++ [0])) := by
  obtain ⟨last, loop⟩ : ∃ last, x2aLoop x conversion (x.length + 1) 0 s =
      .done (some (x2a x conversion ++ [last])) := x2aLoop_done [] x rfl bounded s room
  have terminator := store_between (x2a x conversion) [] last 0
  rw [x2a_length] at terminator
  rw [x2aCells, loop]
  simp only [Run.done_bind]
  rw [terminator]
  rfl

theorem x2aLoop_unwritten {fuel : Nat} {i : UInt32} {s' : List Byte} {p : Nat} (far : 2 ^ 32 ≤ p)
    (ended : x2aLoop x conversion fuel i s = .done (some s')) : s'[p]? = s[p]? := by
  induction fuel generalizing i s with
  | zero => cases ended
  | succ fuel ih =>
      rw [x2aLoop] at ended
      by_cases more : i.toNat < x.length
      · rw [if_pos more] at ended
        obtain ⟨octet, -, ended⟩ := Run.bind_eq_done ended
        obtain ⟨s1, high, ended⟩ := Run.bind_eq_done ended
        obtain ⟨s2, low, ended⟩ := Run.bind_eq_done ended
        have high_near := (2 * i + 0).toNat_lt
        have low_near := (2 * i + 1).toNat_lt
        rw [ih ended, (store_cell_done low).2, List.getElem?_set_ne (by omega),
          (store_cell_done high).2, List.getElem?_set_ne (by omega)]
      · rw [if_neg more] at ended
        cases ended
        rfl

/-- The 32-bit index never reaches the cells from 2^32 on. -/
theorem x2aCells_unwritten {fuel : Nat} {s' : List Byte} {p : Nat} (far : 2 ^ 32 ≤ p)
    (zeroed : s[p]? = some 0) (ended : x2aCells x s conversion fuel = .done (some s')) :
    s'[p]? = some 0 := by
  obtain ⟨looped, loop, ended⟩ := Run.bind_eq_done ended
  cases looped with
  | none => cases ended
  | some s1 =>
      obtain ⟨s2, stored, ended⟩ := Run.bind_eq_done ended
      cases ended
      have kept := x2aLoop_unwritten far loop
      rw [zeroed] at kept
      rw [(store_cell_done stored).2, List.getElem?_set]
      by_cases last : 2 * x.length = p
      · rw [if_pos last, if_pos (store_cell_done stored).1]
      · rw [if_neg last]
        exact kept

end Encode

/-! ## Texts -/

theorem two_cells {l : Nat} {s : List Byte} (enough : 2 * (l + 1) ≤ s.length) :
    ∃ c0 c1 rest, s = c0 :: c1 :: rest ∧ 2 * l ≤ rest.length ∧
      s.take (2 * (l + 1)) = c0 :: c1 :: rest.take (2 * l) := by
  rcases s with _ | ⟨c0, _ | ⟨c1, rest⟩⟩
  · simp at enough
  · simp at enough
    omega
  · refine ⟨c0, c1, rest, rfl, ?_, rfl⟩
    simp only [List.length_cons] at enough
    omega

theorem a2nx_lower {l : Nat} {s : List Byte} (enough : 2 * l ≤ s.length)
    (digits : ∀ c ∈ s.take (2 * l), c ∈ hexDigits) :
    ∃ out, a2nx s l = some out ∧ x2a out x2aHexConversion = (s.take (2 * l)).map toLower := by
  induction l generalizing s with
  | zero => exact ⟨[], by rw [a2nx], rfl⟩
  | succ l ih =>
      obtain ⟨c0, c1, rest, rfl, later, text⟩ := two_cells enough
      rw [text] at digits ⊢
      obtain ⟨out, decoded, lower⟩ := ih later fun c inside =>
        digits c (List.mem_cons_of_mem _ (List.mem_cons_of_mem _ inside))
      obtain ⟨no, -, -⟩ | ⟨n0, -, first, -, -, lower0⟩ := hex_character c0
      · exact absurd (digits c0 List.mem_cons_self) no
      obtain ⟨no, -, -⟩ | ⟨n1, -, second, -, -, lower1⟩ := hex_character c1
      · exact absurd (digits c1 (List.mem_cons_of_mem _ List.mem_cons_self)) no
      obtain ⟨-, high, low⟩ := hex_octet n0 n1
      refine ⟨(UInt8.ofNat n0.val <<< 4 + UInt8.ofNat n1.val) :: out, ?_, ?_⟩
      · rw [a2nx, first, second, decoded]
      · rw [x2a, high, low, lower0, lower1, lower, List.map_cons, List.map_cons]

theorem a2nx_undigit {l : Nat} {s : List Byte} (enough : 2 * l ≤ s.length)
    (undigit : ¬ ∀ c ∈ s.take (2 * l), c ∈ hexDigits) : a2nx s l = none := by
  induction l generalizing s with
  | zero => simp at undigit
  | succ l ih =>
      obtain ⟨c0, c1, rest, rfl, later, text⟩ := two_cells enough
      rw [text] at undigit
      rw [a2nx]
      obtain ⟨-, first, -⟩ | ⟨n0, yes0, first, -⟩ := hex_character c0
      · rw [first]
      obtain ⟨-, second, -⟩ | ⟨n1, yes1, second, -⟩ := hex_character c1
      · rw [first, second]
      have rest_undigit : ¬ ∀ c ∈ rest.take (2 * l), c ∈ hexDigits := by
        intro digits
        apply undigit
        intro c inside
        rcases List.mem_cons.mp inside with rfl | inside
        · exact yes0
        rcases List.mem_cons.mp inside with rfl | inside
        · exact yes1
        · exact digits c inside
      rw [first, second, ih later rest_undigit]

theorem a2nx_append {l : Nat} {s out : List Byte} (decoded : a2nx s l = some out)
    (rest : List Byte) : a2nx (s ++ rest) l = some out := by
  fun_induction a2nx s l generalizing out with
  | case1 s =>
      cases decoded
      rw [a2nx]
  | case2 c0 c1 s l n0 n1 second first tail tailRun ih =>
      cases decoded
      rw [List.cons_append, List.cons_append, a2nx, first, second, ih tailRun]
  | case3 => cases decoded
  | case4 => cases decoded
  | case5 => cases decoded

theorem toLower_digit {c : Byte} (digit : c ∈ hexDigits) : toLower c ≠ 0 := by
  have table : ∀ n : Fin 16, x2aHexConversion.getD n.val 0 ≠ 0 := by decide
  obtain ⟨no, -, -⟩ | ⟨n, -, -, -, -, lower⟩ := hex_character c
  · exact absurd digit no
  · rw [← lower]
    exact table n

/-! ## Both directions -/

/-- `a2x` brings back what `x2a` writes, whatever was in the two buffers. -/
def RoundTrips (x : List Byte) : Prop :=
  ∀ s0 x0 : List Byte, s0.length = 2 * x.length + 1 → x0.length = x.length →
    ∃ fuel s, x2aCells x s0 x2aHexConversion fuel = .done (some s) ∧
      a2xCells s x0 = .done (x.length, x)

/-- `a2nx` accepts `l` pairs exactly when they are digits, and `x2a` of the octets is their
lower case. -/
structure DecodesText (mem : List Byte) (l : Nat) : Prop where
  accepts : (∀ c ∈ mem.take (2 * l), c ∈ hexDigits) → ∀ x0 : List Byte, x0.length = l →
    ∃ x, a2nxCells mem x0 l = .done (l, x) ∧ x.length = l ∧
      ∀ s0 : List Byte, s0.length = 2 * l + 1 → ∃ fuel,
        x2aCells x s0 x2aHexConversion fuel =
          .done (some ((mem.take (2 * l)).map toLower ++ [0]))
  rejects : (¬ ∀ c ∈ mem.take (2 * l), c ∈ hexDigits) → ∀ x0 : List Byte, x0.length = l →
    a2nxCells mem x0 l = .fail

theorem roundTrips_iff (x : List Byte) : RoundTrips x ↔ x.length ≤ 2 ^ 31 := by
  constructor
  · intro trips
    by_contra long
    obtain ⟨fuel, s, written, read⟩ := trips (List.replicate (2 * x.length + 1) 0)
      (List.replicate x.length 0) List.length_replicate List.length_replicate
    have gap : s[2 ^ 32]? = some 0 := x2aCells_unwritten (Nat.le_refl _)
      (List.getElem?_replicate_of_lt (by omega)) written
    obtain ⟨n, length, decoded⟩ := Run.bind_eq_done read
    obtain ⟨text, rest, cells, noNul, rfl⟩ := strlen_done length
    have short : text.length ≤ 2 ^ 32 := by
      by_contra beyond
      rw [List.drop_zero] at cells
      rw [cells, List.getElem?_append_left (by omega)] at gap
      exact noNul (List.mem_of_getElem? gap)
    have counted := a2nxCells_counted decoded (by rw [List.length_replicate]; omega)
    omega
  · intro bounded s0 x0 room octets
    refine ⟨_, _, x2aCells_done bounded room, ?_⟩
    rw [a2xCells, strlen_start (x2a_clean x).2]
    simp only [Run.done_bind]
    rw [x2a_length, Nat.mul_div_cancel_left _ (by decide)]
    exact a2nxCells_some (a2nx_append (a2nx_x2a x) [0]) (by omega) octets

theorem decodesText_iff {mem : List Byte} {l : Nat} (enough : 2 * l ≤ mem.length) :
    DecodesText mem l ↔ l ≤ 2 ^ 31 ∨ ¬ ∀ c ∈ mem.take (2 * l), c ∈ hexDigits := by
  constructor
  · intro decodes
    by_contra late
    obtain ⟨long, undigit⟩ := not_or.mp late
    have digits := not_not.mp undigit
    obtain ⟨x, -, -, back⟩ := decodes.accepts digits (List.replicate l 0) List.length_replicate
    obtain ⟨fuel, written⟩ := back (List.replicate (2 * l + 1) 0) List.length_replicate
    have gap := x2aCells_unwritten (Nat.le_refl (2 ^ 32))
      (List.getElem?_replicate_of_lt (by omega)) written
    have inside : 2 ^ 32 < (mem.take (2 * l)).length := by
      rw [List.length_take]
      omega
    rw [List.getElem?_append_left (by rw [List.length_map]; exact inside), List.getElem?_map,
      List.getElem?_eq_getElem inside] at gap
    exact toLower_digit (digits _ (List.getElem_mem inside)) (Option.some.inj gap)
  · intro fine
    constructor
    · intro digits x0 room
      have bounded : l ≤ 2 ^ 31 := fine.resolve_right (not_not_intro digits)
      obtain ⟨x, decoded, lower⟩ := a2nx_lower enough digits
      have octets := a2nx_length decoded
      refine ⟨x, a2nxCells_some decoded (by omega) room, octets, ?_⟩
      intro s0 cells
      refine ⟨x.length + 1, ?_⟩
      rw [x2aCells_done (by omega) (by omega), lower]
    · intro undigit x0 room
      exact a2nxCells_none (a2nx_undigit enough undigit) enough (by omega)

theorem hex_codec (x mem : List Byte) (n l : Nat) (length : strlen mem 0 = .done n)
    (enough : 2 * l ≤ n) :
    (RoundTrips x ↔ x.length ≤ 2 ^ 31) ∧
      (DecodesText mem l ↔ l ≤ 2 ^ 31 ∨ ¬ ∀ c ∈ mem.take (2 * l), c ∈ hexDigits) := by
  obtain ⟨text, rest, cells, -, rfl⟩ := strlen_done length
  rw [List.drop_zero] at cells
  refine ⟨roundTrips_iff x, decodesText_iff ?_⟩
  rw [cells, List.length_append]
  omega

/-- A key in mixed case. -/
theorem hex_codec_mixed_case :
    RoundTrips [0, 0x7f, 0x80, 0xff] ∧ DecodesText (ascii "00fF7g" ++ [0]) 2 := by
  obtain ⟨trips, decodes⟩ := hex_codec [0, 0x7f, 0x80, 0xff] (ascii "00fF7g" ++ [0]) 6 2 rfl
    (by decide)
  exact ⟨trips.mpr (by decide), decodes.mpr (Or.inl (by decide))⟩

/-- The pair of the last octet goes to the start of `s`. -/
theorem hex_codec_wraps :
    (List.replicate (2 ^ 31 + 1) (0 : Byte)).length = 2 ^ 31 + 1 ∧
      ¬ RoundTrips (List.replicate (2 ^ 31 + 1) 0) := by
  refine ⟨List.length_replicate, ?_⟩
  intro trips
  have bounded := (roundTrips_iff (List.replicate (2 ^ 31 + 1) 0)).mp trips
  rw [List.length_replicate] at bounded
  omega

end Otpd

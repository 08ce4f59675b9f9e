import Otpd.HotpSync
import Otpd.Lib.Cells

/-!
# The loop of `decrypt`

`decrypt` of `otp.c` with both of its counters, on cells that check every access.  The
counter `j` is not reset when it reaches `key_len` but at the start of the iteration after,
so between two iterations it may be out of range; at the access it is `i mod key_len`.
-/

set_option autoImplicit false

namespace Otpd

open CMem Cells

/-- The loop from `i` and `j`.  The cells are exactly `data_len` and `key_len` many;
`accesses` notes the two indices of every iteration. -/
def decryptLoop (dataLen : Nat) (key : List Byte) (i j : Nat) (data : List Byte)
    (accesses : List (Nat × Nat)) : Run (List Byte × List (Nat × Nat)) :=
  if i < dataLen then do
    let j := if j = key.length then 0 else j
    let octet ← load data i
    let mask ← load key j
    let data ← store data i [octet ^^^ mask]
    decryptLoop dataLen key (i + 1) (j + 1) data (accesses ++ [(i, j)])
  else return (data, accesses)
termination_by dataLen - i

def decryptCells (data key : List Byte) : Run (List Byte × List (Nat × Nat)) :=
  if key.length = 0 then return (data, [])
  else decryptLoop data.length key 0 0 data []

theorem cyclicXor_getD (data key : List Byte) {i : Nat} (inside : i < data.length) :
    (cyclicXor data key).getD i 0 = data.getD i 0 ^^^ key.getD (i % key.length) 0 := by
  rw [cyclicXor, List.getD_eq_getElem?_getD, List.getD_eq_getElem?_getD, List.getElem?_mapIdx,
    List.getElem?_eq_getElem inside]
  rfl

theorem cyclicXor_cancel (data key : List Byte) : cyclicXor (cyclicXor data key) key = data := by
  apply List.ext_getElem
  · rw [cyclicXor_length, cyclicXor_length]
  · intro i first second
    simp only [cyclicXor, List.getElem_mapIdx, UInt8.xor_assoc, UInt8.xor_self, UInt8.xor_zero]

section Loop

variable {data key : List Byte}

/-- The data after `i` iterations. -/
def decryptedTo (data key : List Byte) (i : Nat) : List Byte :=
  (cyclicXor data key).take i ++ data.drop i

theorem decryptedTo_split (data key : List Byte) {i : Nat} (inside : i < data.length) :
    ∃ before, before.length = i ∧
      decryptedTo data key i = before ++ data.getD i 0 :: data.drop (i + 1) ∧
      decryptedTo data key (i + 1) =
        before ++ (data.getD i 0 ^^^ key.getD (i % key.length) 0) :: data.drop (i + 1) := by
  have covered : i < (cyclicXor data key).length := by
    rw [cyclicXor_length]
    exact inside
  refine ⟨(cyclicXor data key).take i, by rw [List.length_take]; omega, ?_, ?_⟩
  · rw [decryptedTo, List.drop_eq_getElem_cons inside, List.getD_eq_getElem?_getD,
      List.getElem?_eq_getElem inside, Option.getD_some]
  · rw [decryptedTo, List.take_add_one, ← cyclicXor_getD data key inside,
      List.getD_eq_getElem?_getD, List.getElem?_eq_getElem covered, List.append_assoc]
    rfl

/-- At the start of an iteration `j` is `i mod key_len`, or `key_len` in the place of 0. -/
def Wrapped (key : List Byte) (i j : Nat) : Prop :=
  (if j = key.length then 0 else j) = i % key.length

theorem Wrapped.next {i j : Nat} (nonempty : 0 < key.length) (wrapped : Wrapped key i j) :
    Wrapped key (i + 1) ((if j = key.length then 0 else j) + 1) := by
  rw [Wrapped] at wrapped ⊢
  rw [wrapped, ← Nat.mod_add_mod]
  have inside := Nat.mod_lt i nonempty
  by_cases last : i % key.length + 1 = key.length
  · rw [if_pos last, last, Nat.mod_self]
  · rw [if_neg last]
    exact (Nat.mod_eq_of_lt (by omega)).symm

/-- `left` iterations are to come. -/
theorem decryptLoop_done (nonempty : 0 < key.length) (left : Nat) : ∀ (i j : Nat)
    (accesses : List (Nat × Nat)), i + left = data.length → Wrapped key i j →
      decryptLoop data.length key i j (decryptedTo data key i) accesses =
        .done (cyclicXor data key,
          accesses ++ (List.range' i left).map fun i => (i, i % key.length)) := by
  induction left with
  | zero =>
      intro i j accesses atEnd _
      rw [decryptLoop, if_neg (by omega), decryptedTo, List.drop_of_length_le (by omega),
        List.take_of_length_le (by rw [cyclicXor_length]; omega)]
      simp
  | succ left ih =>
      intro i j accesses more wrapped
      obtain ⟨before, front, now, next⟩ :=
        decryptedTo_split data key (show i < data.length by omega)
      have octet_at : load (decryptedTo data key i) i = .done (data.getD i 0) := by
        rw [now, ← front]
        exact load_between before _ _
      have mask_at : load key (i % key.length) = .done (key.getD (i % key.length) 0) :=
        load_lt (Nat.mod_lt i nonempty)
      have stored := store_between before (data.drop (i + 1)) (data.getD i 0)
        (data.getD i 0 ^^^ key.getD (i % key.length) 0)
      rw [front, ← now, ← next] at stored
      have following := wrapped.next nonempty
      rw [Wrapped] at wrapped
      rw [wrapped] at following
      rw [decryptLoop, if_pos (by omega)]
      simp only [wrapped, octet_at, mask_at, stored, Run.done_bind]
      rw [ih (i + 1) _ _ (by omega) following, List.range'_succ, List.map_cons, List.append_assoc]
      rfl

end Loop

theorem decryptCells_done (data : List Byte) {key : List Byte} (nonempty : key ≠ []) :
    decryptCells data key =
      .done (cyclicXor data key, (List.range data.length).map fun i => (i, i % key.length)) := by
  have positive := List.length_pos_of_ne_nil nonempty
  have start : Wrapped key 0 0 := by
    rw [Wrapped, Nat.zero_mod, ite_self]
  have loop := decryptLoop_done positive data.length 0 0 [] (Nat.zero_add _) start
  rw [decryptCells, if_neg (by omega), List.range_eq_range']
  exact loop

/-- Every octet is masked with the octet of the key at `i mod key_len`, no access faults, and
a second call undoes the first. -/
theorem decrypt_cyclic (data key : List Byte) :
    ∃ opened accesses,
      decryptCells data key = .done (opened, accesses) ∧ opened = decrypt data key ∧
      opened.length = data.length ∧
      decryptCells opened key = .done (data, accesses) ∧
      if key = [] then opened = data
      else
        (∀ i, i < data.length →
          opened.getD i 0 = data.getD i 0 ^^^ key.getD (i % key.length) 0) ∧
        accesses.map Prod.fst = List.range data.length ∧
        ∀ access ∈ accesses, access.2 = access.1 % key.length ∧ access.2 < key.length := by
  by_cases empty : key = []
  · subst empty
    exact ⟨data, [], rfl, rfl, rfl, rfl, by rw [if_pos rfl]⟩
  · have done := decryptCells_done data empty
    have again := decryptCells_done (cyclicXor data key) empty
    rw [cyclicXor_cancel, cyclicXor_length] at again
    refine ⟨_, _, done, (decrypt_eq data key).symm, cyclicXor_length data key, again, ?_⟩
    rw [if_neg empty]
    refine ⟨fun i inside => cyclicXor_getD data key inside, ?_, ?_⟩
    · rw [List.map_map]
      exact List.map_id _
    · intro access listed
      obtain ⟨i, -, rfl⟩ := List.mem_map.mp listed
      exact ⟨rfl, Nat.mod_lt i (List.length_pos_of_ne_nil empty)⟩

/-- Three octets of key over seven of data: `j` wraps twice. -/
example : decryptCells (ascii "otptest") (ascii "key") =
    .done (decrypt (ascii "otptest") (ascii "key"),
      [(0, 0), (1, 1), (2, 2), (3, 0), (4, 1), (5, 2), (6, 0)]) :=
  decryptCells_done (ascii "otptest") (by decide)

end Otpd

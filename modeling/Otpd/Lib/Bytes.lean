import Mathlib.Data.List.Basic
import Mathlib.Data.List.Count
import Mathlib.Data.List.TakeWhile
import Mathlib.Tactic

/-!
# Byte buffers and C strings

Fixed-size buffers and NUL-terminated strings as a C program sees them.  A
`Buffer n` always has exactly `n` bytes and a `CString n` never holds a NUL, so
no later statement has to carry a size or a termination premise.
-/

set_option autoImplicit false

namespace CMem

abbrev Byte := UInt8

def ascii (text : String) : List Byte := text.toByteArray.data.toList

/-- The C string that starts a run of bytes: everything before the first NUL. -/
def cstr (bytes : List Byte) : List Byte := bytes.takeWhile (· ≠ 0)

/-! ## Buffers -/

@[ext]
structure Buffer (n : Nat) where
  bytes : List Byte
  size : bytes.length = n
  deriving DecidableEq

namespace Buffer
variable {n : Nat}

def zero (n : Nat) : Buffer n := ⟨List.replicate n 0, List.length_replicate⟩

/-- `memcpy(dst, src, strlen(src))`, clipped to the size of the destination. -/
def copy (dst : Buffer n) (src : List Byte) : Buffer n :=
  ⟨(src ++ dst.bytes.drop src.length).take n, by
    have := dst.size
    simp only [List.length_take, List.length_append, List.length_drop]
    omega⟩

/-- The first `n` bytes of a list, zero-filled when there are fewer. -/
def ofList (n : Nat) (src : List Byte) : Buffer n := (zero n).copy src

theorem copy_bytes (dst : Buffer n) (src : List Byte) (fits : src.length ≤ n) :
    (dst.copy src).bytes = src ++ dst.bytes.drop src.length := by
  have := dst.size
  apply List.take_of_length_le
  simp only [List.length_append, List.length_drop]
  omega

@[simp]
theorem copy_take (dst : Buffer n) (src : List Byte) (fits : src.length ≤ n) :
    (dst.copy src).bytes.take src.length = src := by
  rw [copy_bytes dst src fits, List.take_left]

theorem copy_take_of_eq (dst : Buffer n) {src : List Byte} {k : Nat} (fits : k ≤ n)
    (length : src.length = k) : (dst.copy src).bytes.take k = src := by
  subst length
  exact copy_take dst src fits

theorem ofList_bytes (buf : Buffer n) : ofList n buf.bytes = buf := by
  ext1
  rw [ofList, copy_bytes _ _ (Nat.le_of_eq buf.size), buf.size]
  simp [zero]

def get (buf : Buffer n) (i : Nat) : Byte := buf.bytes.getD i 0

end Buffer

/-! ## Strings -/

/-- A string of at most `n` bytes as it lies in a `char[n + 1]`. -/
@[ext]
structure CString (n : Nat) where
  bytes : List Byte
  bound : bytes.length ≤ n
  noNul : (0 : Byte) ∉ bytes
  deriving DecidableEq

/-! ## XOR with a repeated key -/

/-- An empty key changes nothing. -/
def cyclicXor (data key : List Byte) : List Byte :=
  data.mapIdx fun i b => b ^^^ key.getD (i % key.length) 0

@[simp]
theorem cyclicXor_length (data key : List Byte) : (cyclicXor data key).length = data.length := by
  simp [cyclicXor]

/-! ## Splitting at a delimiter -/

/-- `strchr(p, sep)` followed by `*q++ = '\0'`: the string before the delimiter
and what follows it, or `none` when the NUL comes first. -/
def splitAt (sep : Byte) : List Byte → Option (List Byte × List Byte)
  | [] => none
  | b :: rest =>
    if b = sep then some ([], rest)
    else if b = 0 then none
    else
      match splitAt sep rest with
      | none => none
      | some (field, tail) => some (b :: field, tail)

theorem splitAt_append (sep : Byte) (field tail : List Byte)
    (noSep : sep ∉ field) (noNul : (0 : Byte) ∉ field) :
    splitAt sep (field ++ sep :: tail) = some (field, tail) := by
  induction field with
  | nil => simp [splitAt]
  | cons b rest ih =>
      simp only [List.mem_cons, not_or] at noSep noNul
      simp only [List.cons_append, splitAt, if_neg (Ne.symm noSep.1),
        if_neg (Ne.symm noNul.1), ih noSep.2 noNul.2]

theorem splitAt_eq {sep : Byte} {bytes field tail : List Byte}
    (split : splitAt sep bytes = some (field, tail)) :
    bytes = field ++ sep :: tail ∧ sep ∉ field ∧ (0 : Byte) ∉ field := by
  induction bytes generalizing field with
  | nil => cases split
  | cons b rest ih =>
      rw [splitAt] at split
      by_cases isSep : b = sep
      · rw [if_pos isSep] at split
        cases split
        exact ⟨by rw [isSep]; rfl, List.not_mem_nil, List.not_mem_nil⟩
      · rw [if_neg isSep] at split
        by_cases isNul : b = 0
        · rw [if_pos isNul] at split
          cases split
        · rw [if_neg isNul] at split
          cases later : splitAt sep rest with
          | none =>
              rw [later] at split
              cases split
          | some pair =>
              rw [later] at split
              cases split
              obtain ⟨rest_eq, noSep, noNul⟩ := ih later
              refine ⟨by rw [rest_eq]; rfl, ?_, ?_⟩
              · exact List.not_mem_cons_of_ne_of_not_mem (Ne.symm isSep) noSep
              · exact List.not_mem_cons_of_ne_of_not_mem (Ne.symm isNul) noNul

section Cut

variable {α : Type} [DecidableEq α] {sep : α} {a1 a2 x1 x2 : List α}

/-- A string is cut at one delimiter by the number of delimiters behind it. -/
theorem cut_unique (same : a1 ++ sep :: x1 = a2 ++ sep :: x2) (counts : x1.count sep = x2.count sep) :
    a1 = a2 ∧ x1 = x2 := by
  have none : ∀ {t y z : List α}, sep :: y = t ++ sep :: z → y.count sep = z.count sep → t = [] := by
    intro t y z cut counted
    cases t with
    | nil => rfl
    | cons b t =>
        have first : sep = b := (List.cons.inj cut).1
        have total := congrArg (List.count sep) cut
        simp only [List.count_cons, List.count_append, List.cons_append, ← first] at total
        simp at total
        omega
  rcases List.append_eq_append_iff.mp same with ⟨t, left, right⟩ | ⟨t, left, right⟩
  · cases none right counts
    simpa [left] using right
  · cases none right counts.symm
    simpa [left, eq_comm] using right

end Cut

end CMem

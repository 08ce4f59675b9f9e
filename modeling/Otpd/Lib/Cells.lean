import Otpd.Lib.Bytes

/-!
# Strings in checked memory

The cells a pointer may touch, as a list, and the string functions of C on them.  Every
access is checked: one outside the cells is a `fault`, which is apart from the `fail` of a
function that turns its input down.  The rules say that a string function that starts in
front of a NUL never faults.
-/

set_option autoImplicit false

namespace Cells

open CMem

inductive Run (α : Type) where
  | fault
  | fail
  | done (a : α)

namespace Run

variable {α β : Type}

def bind : Run α → (α → Run β) → Run β
  | .fault, _ => .fault
  | .fail, _ => .fail
  | .done a, f => f a

instance : Monad Run where
  pure := .done
  bind := bind

@[simp]
theorem done_bind (a : α) (f : α → Run β) : (Run.done a >>= f) = f a := rfl

@[simp]
theorem pure_eq (a : α) : (pure a : Run α) = .done a := rfl

/-- An early return unless the condition holds. -/
def require (condition : Prop) [Decidable condition] : Run Unit :=
  if condition then .done () else .fail

def ofOption : Option α → Run α
  | none => .fail
  | some a => .done a

theorem bind_eq_done {r : Run α} {f : α → Run β} {b : β} (success : (r >>= f) = .done b) :
    ∃ a, r = .done a ∧ f a = .done b := by
  cases r with
  | fault => cases success
  | fail => cases success
  | done a => exact ⟨a, rfl, success⟩

theorem ofOption_eq_done {found : Option α} {a : α} (success : ofOption found = .done a) :
    found = some a := by
  cases found with
  | none => cases success
  | some b =>
      cases success
      rfl

theorem require_pos {condition : Prop} [Decidable condition] (holds : condition) :
    require condition = .done () := if_pos holds

theorem require_neg {condition : Prop} [Decidable condition] (fails : ¬ condition) :
    require condition = .fail := if_neg fails

theorem done_safe (a : α) : Run.done a ≠ .fault := by
  intro wrong
  cases wrong

theorem fail_safe : (Run.fail : Run α) ≠ .fault := by
  intro wrong
  cases wrong

theorem ofOption_safe (found : Option α) : ofOption found ≠ .fault := by
  cases found with
  | none => exact fail_safe
  | some a => exact done_safe a

theorem bind_safe_iff {r : Run α} {f : α → Run β} :
    (r >>= f) ≠ .fault ↔ r ≠ .fault ∧ ∀ a, r = .done a → f a ≠ .fault := by
  cases r with
  | fault => exact iff_of_false (fun safe => safe rfl) fun both => both.1 rfl
  | fail =>
      refine iff_of_true fail_safe ⟨fail_safe, ?_⟩
      intro a wrong
      cases wrong
  | done a =>
      rw [done_bind]
      constructor
      · intro next
        refine ⟨done_safe a, ?_⟩
        intro a' same
        cases same
        exact next
      · intro both
        exact both.2 a rfl

theorem bind_rest_safe_iff {r : Run α} {f : α → Run β} (rest : ∀ a, f a ≠ .fault) :
    (r >>= f) ≠ .fault ↔ r ≠ .fault := by
  cases r with
  | fault => exact iff_of_false (fun safe => safe rfl) fun safe => safe rfl
  | fail => exact iff_of_true fail_safe fail_safe
  | done a => exact iff_of_true (rest a) (done_safe a)

theorem bind_safe {r : Run α} {f : α → Run β} (safe : r ≠ .fault) (rest : ∀ a, f a ≠ .fault) :
    (r >>= f) ≠ .fault := (bind_rest_safe_iff rest).mpr safe

theorem require_safe (condition : Prop) [Decidable condition] : require condition ≠ .fault := by
  rw [require]
  split
  · exact done_safe ()
  · exact fail_safe

theorem require_safe_iff {condition : Prop} [Decidable condition] {f : Unit → Run α} :
    (require condition >>= f) ≠ .fault ↔ (condition → f () ≠ .fault) := by
  by_cases holds : condition
  · rw [require_pos holds, done_bind]
    exact ⟨fun safe _ => safe, fun safe => safe holds⟩
  · rw [require_neg holds]
    exact iff_of_true fail_safe fun yes => absurd yes holds

end Run

/-! ## Loads and stores -/

def load (mem : List Byte) (p : Nat) : Run Byte :=
  match mem[p]? with
  | none => .fault
  | some b => .done b

def store (mem : List Byte) (p : Nat) (bytes : List Byte) : Run (List Byte) :=
  if p + bytes.length ≤ mem.length then
    .done (mem.take p ++ (bytes ++ mem.drop (p + bytes.length)))
  else .fault

theorem load_lt {mem : List Byte} {p : Nat} (inside : p < mem.length) :
    load mem p = .done (mem.getD p 0) := by
  simp only [load, List.getD_eq_getElem?_getD, List.getElem?_eq_getElem inside, Option.getD_some]

theorem store_fits {mem : List Byte} {p : Nat} {bytes : List Byte}
    (fits : p + bytes.length ≤ mem.length) :
    store mem p bytes = .done (mem.take p ++ (bytes ++ mem.drop (p + bytes.length))) := if_pos fits

/-- One cell stored. -/
theorem store_cell {mem : List Byte} {p : Nat} (b : Byte) (inside : p < mem.length) :
    store mem p [b] = .done (mem.set p b) := by
  rw [store_fits (by rw [List.length_singleton]; omega), List.set_eq_take_append_cons_drop,
    if_pos inside]
  rfl

theorem load_between (front rest : List Byte) (b : Byte) :
    load (front ++ b :: rest) front.length = .done b := by
  rw [load_lt (by simp), List.getD_eq_getElem?_getD, List.getElem?_append_right (Nat.le_refl _),
    Nat.sub_self]
  rfl

theorem store_between (front rest : List Byte) (old new : Byte) :
    store (front ++ old :: rest) front.length [new] = .done (front ++ new :: rest) := by
  rw [store_cell new (by simp), List.set_append_right front.length new (Nat.le_refl _),
    Nat.sub_self, List.set_cons_zero]

theorem store_cell_done {mem mem' : List Byte} {p : Nat} {b : Byte}
    (stored : store mem p [b] = .done mem') : p < mem.length ∧ mem' = mem.set p b := by
  by_cases inside : p < mem.length
  · rw [store_cell b inside] at stored
    cases stored
    exact ⟨inside, rfl⟩
  · rw [store, if_neg (by rw [List.length_singleton]; omega)] at stored
    cases stored

/-! ## 32-bit indices -/

theorem index_toNat {j : Nat} (inside : j < 2 ^ 32) : (UInt32.ofNat j).toNat = j :=
  UInt32.toNat_ofNat_of_lt' inside

theorem index_next (front : List Byte) (b : Byte) :
    UInt32.ofNat front.length + 1 = UInt32.ofNat (front ++ [b]).length := by
  rw [List.length_append, List.length_singleton, UInt32.ofNat_add]
  rfl

theorem index_next_toNat {front : List Byte} (b : Byte) (inside : front.length + 1 < 2 ^ 32) :
    (UInt32.ofNat front.length + 1).toNat = (front ++ [b]).length := by
  rw [index_next front b, List.length_append, List.length_singleton]
  exact index_toNat inside

/-! ## Strings -/

/-- The characters up to the NUL, each of them read. -/
def string : List Byte → Run (List Byte)
  | [] => .fault
  | b :: rest =>
    if b = 0 then .done []
    else do
      let text ← string rest
      return b :: text

def strAt (mem : List Byte) (p : Nat) : Run (List Byte) := string (mem.drop p)

def strlen (mem : List Byte) (p : Nat) : Run Nat := do
  let text ← strAt mem p
  return text.length

def findChar (c : Byte) : List Byte → Run (Option Nat)
  | [] => .fault
  | b :: rest =>
    if b = c then .done (some 0)
    else if b = 0 then .done none
    else do
      let found ← findChar c rest
      return found.map (· + 1)

/-- `none` is the null pointer. -/
def strchr (mem : List Byte) (p : Nat) (c : Byte) : Run (Option Nat) := do
  let found ← findChar c (mem.drop p)
  return found.map (p + ·)

def startsWith : List Byte → List Byte → Run Bool
  | _, [] => .done true
  | [], _ :: _ => .fault
  | b :: rest, c :: name => if b = c then startsWith rest name else .done false

/-- `strncmp(p, name, strlen(name)) == 0`; `name` has no NUL to stop at. -/
def strncmpEq (mem : List Byte) (p : Nat) (name : List Byte) : Run Bool :=
  startsWith (mem.drop p) name

/-- A failing `strchr` ends the caller; otherwise `*q++ = '\0'`. -/
def cut (sep : Byte) (mem : List Byte) (p : Nat) : Run (List Byte × Nat) := do
  match ← strchr mem p sep with
  | none => .fail
  | some q =>
    let mem ← store mem q [0]
    return (mem, q + 1)

/-! ## What they return -/

theorem string_append {text : List Byte} (noNul : (0 : Byte) ∉ text) (rest : List Byte) :
    string (text ++ 0 :: rest) = .done text := by
  induction text with
  | nil => rfl
  | cons b text ih =>
      obtain ⟨notNul, noNul⟩ := List.ne_and_not_mem_of_not_mem_cons noNul
      rw [List.cons_append, string, if_neg (Ne.symm notNul), ih noNul]
      rfl

theorem string_done {mem text : List Byte} (read : string mem = .done text) :
    (0 : Byte) ∉ text ∧ ∃ rest, mem = text ++ 0 :: rest := by
  induction mem generalizing text with
  | nil => cases read
  | cons b mem ih =>
      rw [string] at read
      by_cases isNul : b = 0
      · rw [if_pos isNul] at read
        cases read
        exact ⟨List.not_mem_nil, mem, by rw [isNul]; rfl⟩
      · rw [if_neg isNul] at read
        obtain ⟨later, readLater, whole⟩ := Run.bind_eq_done read
        cases whole
        obtain ⟨noNul, rest, cells⟩ := ih readLater
        exact ⟨List.not_mem_cons_of_ne_of_not_mem (Ne.symm isNul) noNul, rest, by rw [cells]; rfl⟩

theorem strlen_done {mem : List Byte} {p n : Nat} (read : strlen mem p = .done n) :
    ∃ text rest, mem.drop p = text ++ 0 :: rest ∧ (0 : Byte) ∉ text ∧ text.length = n := by
  obtain ⟨text, readText, length⟩ := Run.bind_eq_done read
  obtain ⟨noNul, rest, cells⟩ := string_done readText
  cases length
  exact ⟨text, rest, cells, noNul, rfl⟩

theorem strlen_start {text : List Byte} (noNul : (0 : Byte) ∉ text) (rest : List Byte) :
    strlen (text ++ 0 :: rest) 0 = .done text.length := by
  rw [strlen, strAt, List.drop_zero, string_append noNul]
  rfl

theorem strAt_append {before text rest : List Byte} {p : Nat} (start : before.length = p)
    (noNul : (0 : Byte) ∉ text) : strAt (before ++ (text ++ 0 :: rest)) p = .done text := by
  rw [strAt, List.drop_left' start]
  exact string_append noNul rest

/-- A string written with its NUL. -/
theorem store_string (mem text : List Byte) (p : Nat) (fits : p + text.length + 1 ≤ mem.length) :
    ∃ rest, store mem p (text ++ [0]) = .done (mem.take p ++ (text ++ 0 :: rest)) ∧
      p + text.length + 1 + rest.length = mem.length := by
  refine ⟨mem.drop (p + (text ++ [(0 : Byte)]).length), ?_, ?_⟩
  · rw [store_fits (by rw [List.length_append, List.length_singleton]; omega), List.append_assoc]
    rfl
  · rw [List.length_drop, List.length_append, List.length_singleton]
    omega

theorem strAt_start {text : List Byte} (noNul : (0 : Byte) ∉ text) (rest : List Byte) :
    strAt (text ++ 0 :: rest) 0 = .done text := string_append noNul rest

theorem findChar_none {c : Byte} {bytes : List Byte} (terminated : (0 : Byte) ∈ bytes)
    (absent : splitAt c bytes = none) : findChar c bytes = .done none := by
  induction bytes with
  | nil => cases terminated
  | cons b rest ih =>
      rw [splitAt] at absent
      rw [findChar]
      by_cases isChar : b = c
      · rw [if_pos isChar] at absent
        cases absent
      · rw [if_neg isChar] at absent ⊢
        by_cases isNul : b = 0
        · rw [if_pos isNul]
        · rw [if_neg isNul] at absent ⊢
          have later : (0 : Byte) ∈ rest := by
            rcases List.mem_cons.mp terminated with here | later
            · exact absurd here.symm isNul
            · exact later
          cases split : splitAt c rest with
          | none =>
              rw [ih later split]
              rfl
          | some pair =>
              rw [split] at absent
              cases absent

theorem findChar_append {c : Byte} {field : List Byte} (noChar : c ∉ field)
    (noNul : (0 : Byte) ∉ field) (tail : List Byte) :
    findChar c (field ++ c :: tail) = .done (some field.length) := by
  induction field with
  | nil => rw [List.nil_append, findChar, if_pos rfl, List.length_nil]
  | cons b field ih =>
      obtain ⟨notChar, noChar⟩ := List.ne_and_not_mem_of_not_mem_cons noChar
      obtain ⟨notNul, noNul⟩ := List.ne_and_not_mem_of_not_mem_cons noNul
      rw [List.cons_append, findChar, if_neg (Ne.symm notChar), if_neg (Ne.symm notNul),
        ih noChar noNul]
      rfl

theorem startsWith_eq {bytes name : List Byte} (enough : name.length ≤ bytes.length) :
    startsWith bytes name = .done (decide (bytes.take name.length = name)) := by
  induction name generalizing bytes with
  | nil => simp [startsWith]
  | cons c name ih =>
      cases bytes with
      | nil => simp at enough
      | cons b bytes =>
          rw [startsWith]
          by_cases same : b = c
          · rw [if_pos same, ih (by simpa using enough), same]
            simp
          · rw [if_neg same]
            simp [same]

theorem strncmpEq_eq {mem name : List Byte} {p : Nat} (enough : p + name.length ≤ mem.length) :
    strncmpEq mem p name = .done (decide ((mem.drop p).take name.length = name)) :=
  startsWith_eq (by rw [List.length_drop]; omega)

section Cut

variable {sep : Byte} {mem : List Byte} {p : Nat}

theorem cut_none (terminated : (0 : Byte) ∈ mem.drop p) (absent : splitAt sep (mem.drop p) = none) :
    cut sep mem p = .fail := by
  rw [cut, strchr, findChar_none terminated absent]
  rfl

/-- The field lies in front of the new NUL; what follows is untouched, and still ends. -/
theorem cut_some (nonNul : sep ≠ 0) (terminated : (0 : Byte) ∈ mem.drop p) {field tail : List Byte}
    (split : splitAt sep (mem.drop p) = some (field, tail)) :
    ∃ mem', cut sep mem p = .done (mem', p + field.length + 1) ∧ strAt mem' p = .done field ∧
      mem'.drop (p + field.length + 1) = tail ∧ (0 : Byte) ∈ tail := by
  obtain ⟨parts, noSep, noNul⟩ := splitAt_eq split
  have sizes := congrArg List.length parts
  simp only [List.length_drop, List.length_append, List.length_cons] at sizes
  have whole : mem = mem.take p ++ (field ++ sep :: tail) := by
    rw [← parts, List.take_append_drop]
  have start : (mem.take p).length = p := by
    rw [List.length_take]
    omega
  have front : (mem.take p ++ field).length = p + field.length := by
    rw [List.length_append, start]
  have firsts : mem.take (p + field.length) = mem.take p ++ field := by
    conv_lhs => rw [whole, ← List.append_assoc]
    exact List.take_left' front
  have rest : mem.drop (p + field.length + 1) = tail := by
    have shape : mem = (mem.take p ++ field ++ [sep]) ++ tail := by simpa using whole
    conv_lhs => rw [shape]
    exact List.drop_left' (by rw [List.length_append, front]; rfl)
  have fits : p + field.length + [(0 : Byte)].length ≤ mem.length := by
    rw [List.length_singleton]
    omega
  refine ⟨mem.take p ++ (field ++ 0 :: tail), ?_, strAt_append start noNul, ?_, ?_⟩
  · rw [cut, strchr, parts, findChar_append noSep noNul]
    simp only [Run.done_bind, Run.pure_eq, Option.map_some]
    rw [store_fits fits, firsts, List.length_singleton, rest, List.append_assoc]
    rfl
  · have shape : mem.take p ++ (field ++ 0 :: tail) = (mem.take p ++ field ++ [0]) ++ tail := by
      simp
    rw [shape]
    exact List.drop_left' (by rw [List.length_append, front]; rfl)
  · rw [parts] at terminated
    rcases List.mem_append.mp terminated with inField | later
    · exact absurd inField noNul
    · rcases List.mem_cons.mp later with isSep | inTail
      · exact absurd isSep.symm nonNul
      · exact inTail

end Cut

end Cells

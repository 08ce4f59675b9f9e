import Mathlib.Data.List.Basic
import Mathlib.Logic.Function.Basic
import Mathlib.Tactic

/-!
# Doubly linked lists

`prev` and `next` are the link fields of a heap of cells.  `Seg` says that they spell
a list of cells between two given neighbours, `Linked` that they spell a whole one.
Two surgeries keep a list linked: `unlink` takes a cell out, `insertAfter` puts one
behind another.  Each writes the fields a pointer program would write.
-/

set_option autoImplicit false

namespace Dll

variable {A : Type*} {prev next prev' next' : A → Option A} {before after : Option A}
  {a : A} {xs ys : List A}

def Seg (prev next : A → Option A) : Option A → List A → Option A → Prop
  | _, [], _ => True
  | before, a :: rest, after =>
      prev a = before ∧ next a = rest.head?.or after ∧ Seg prev next (some a) rest after

def Linked (prev next : A → Option A) (cells : List A) : Prop := Seg prev next none cells none

theorem seg_append : Seg prev next before (xs ++ ys) after ↔
    Seg prev next before xs (ys.head?.or after) ∧ Seg prev next (xs.getLast?.or before) ys after := by
  induction xs generalizing before with
  | nil => simp [Seg]
  | cons a xs ih =>
      have last : ((a :: xs).getLast?).or before = xs.getLast?.or (some a) := by
        cases xs with
        | nil => rfl
        | cons b xs => simp [List.getLast?_cons]
      simp only [List.cons_append, Seg, ih, last, List.head?_append, Option.or_assoc, and_assoc]

/-- Links outside the list do not matter. -/
theorem Seg.frame (seg : Seg prev next before xs after) (samePrev : ∀ x ∈ xs, prev' x = prev x)
    (sameNext : ∀ x ∈ xs, next' x = next x) : Seg prev' next' before xs after := by
  induction xs generalizing before with
  | nil => trivial
  | cons a xs ih =>
      obtain ⟨back, forth, rest⟩ := seg
      refine ⟨(samePrev a List.mem_cons_self).trans back,
        (sameNext a List.mem_cons_self).trans forth, ?_⟩
      exact ih rest (fun x member => samePrev x (List.mem_cons_of_mem a member))
        (fun x member => sameNext x (List.mem_cons_of_mem a member))

variable [DecidableEq A]

/-- Write a link field through a pointer that may be null. -/
def set (links : A → Option A) (cell : Option A) (value : Option A) : A → Option A :=
  match cell with
  | none => links
  | some a => Function.update links a value

@[simp]
theorem set_self {links : A → Option A} {value : Option A} : set links (some a) value a = value :=
  Function.update_self ..

theorem set_of_ne {links : A → Option A} {cell value : Option A} (other : cell ≠ some a) :
    set links cell value a = links a := by
  cases cell with
  | none => rfl
  | some b => exact Function.update_of_ne (fun same => other (congrArg some same.symm)) ..

theorem Seg.set_before (seg : Seg prev next before xs after) (once : xs.Nodup)
    (before' : Option A) : Seg (set prev xs.head? before') next before' xs after := by
  cases xs with
  | nil => trivial
  | cons a xs =>
      obtain ⟨-, forth, rest⟩ := seg
      refine ⟨set_self, forth, rest.frame ?_ fun _ _ => rfl⟩
      intro x member
      apply set_of_ne
      rintro ⟨rfl⟩
      exact (List.nodup_cons.mp once).1 member

theorem Seg.set_after (seg : Seg prev next before xs after) (once : xs.Nodup)
    (after' : Option A) : Seg prev (set next xs.getLast? after') before xs after' := by
  rcases List.eq_nil_or_concat' xs with rfl | ⟨front, a, rfl⟩
  · trivial
  · obtain ⟨start, back, -, -⟩ := seg_append.mp seg
    rw [List.getLast?_concat]
    refine seg_append.mpr ⟨start.frame (fun _ _ => rfl) ?_, back, set_self, trivial⟩
    intro x member
    apply set_of_ne
    rintro ⟨rfl⟩
    exact List.disjoint_of_nodup_append once member (List.mem_singleton.mpr rfl)

/-- `a->prev->next = a->next` and `a->next->prev = a->prev`, where these exist. -/
theorem Linked.unlink (linked : Linked prev next (xs ++ a :: ys)) (once : (xs ++ a :: ys).Nodup) :
    prev a = xs.getLast? ∧ next a = ys.head? ∧
      Linked (set prev (next a) (prev a)) (set next (prev a) (next a)) (xs ++ ys) := by
  obtain ⟨front, back, forth, rest⟩ := seg_append.mp linked
  rw [Option.or_none] at back forth
  obtain ⟨onceFront, onceBack, apart⟩ := List.nodup_append.mp once
  have onceRest := (List.nodup_cons.mp onceBack).2
  refine ⟨back, forth, seg_append.mpr ⟨?_, ?_⟩⟩
  · rw [back, forth, Option.or_none]
    refine (front.set_after onceFront ys.head?).frame ?_ fun _ _ => rfl
    intro x member
    apply set_of_ne
    intro first
    exact apart x member x (List.mem_cons_of_mem a (List.mem_of_mem_head? first)) rfl
  · rw [back, forth, Option.or_none]
    refine (rest.set_before onceRest xs.getLast?).frame (fun _ _ => rfl) ?_
    intro x member
    apply set_of_ne
    intro last
    exact apart x (List.mem_of_mem_getLast? last) x (List.mem_cons_of_mem a member) rfl

/-- `a->next = b->next`, `a->prev = b`, `b->next->prev = a` where it exists, and
`b->next = a`. -/
theorem Linked.insertAfter {b : A} (linked : Linked prev next (xs ++ b :: ys))
    (once : (xs ++ b :: ys).Nodup) (fresh : a ∉ xs ++ b :: ys) :
    next b = ys.head? ∧
      Linked (set (set prev (some a) (some b)) (next b) (some a))
        (set (set next (some a) (next b)) (some b) (some a)) (xs ++ b :: a :: ys) := by
  have cut : xs ++ b :: ys = (xs ++ [b]) ++ ys := by simp
  rw [cut] at once fresh
  obtain ⟨front, rest⟩ := seg_append.mp (cut ▸ linked)
  obtain ⟨onceFront, onceRest, apart⟩ := List.nodup_append.mp once
  have forth : next b = ys.head? := by
    obtain ⟨-, -, forth, -⟩ := seg_append.mp front
    simpa using forth
  have notFront : a ∉ xs ++ [b] := fun member => fresh (List.mem_append_left _ member)
  have notRest : a ∉ ys := fun member => fresh (List.mem_append_right _ member)
  have inFront : b ∈ xs ++ [b] := List.mem_append_right xs (List.mem_singleton.mpr rfl)
  have notFirst : ∀ x ∈ xs ++ [b], ys.head? ≠ some x := fun x member first =>
    apart x member x (List.mem_of_mem_head? first) rfl
  have aNotFirst : ys.head? ≠ some a := fun first => notRest (List.mem_of_mem_head? first)
  refine ⟨forth, ?_⟩
  have cut' : xs ++ b :: a :: ys = (xs ++ [b]) ++ a :: ys := by simp
  rw [cut', forth]
  refine seg_append.mpr ⟨?_, ?_, ?_, ?_⟩
  · have ended := front.set_after onceFront (some a)
    rw [List.getLast?_concat] at ended
    refine ended.frame ?_ ?_
    · intro x member
      rw [set_of_ne (notFirst x member), set_of_ne]
      rintro ⟨rfl⟩
      exact notFront member
    · intro x member
      by_cases same : x = b
      · subst same
        rw [set_self, set_self]
      · rw [set_of_ne (fun wrong => same (Option.some.inj wrong).symm), set_of_ne,
          set_of_ne (fun wrong => same (Option.some.inj wrong).symm)]
        rintro ⟨rfl⟩
        exact notFront member
  · rw [set_of_ne aNotFirst, List.getLast?_concat]
    exact set_self
  · have notB : some b ≠ some a := by
      rintro ⟨rfl⟩
      exact notFront inFront
    rw [set_of_ne notB, Option.or_none]
    exact set_self
  · refine (rest.set_before onceRest (some a)).frame ?_ ?_
    · intro x member
      by_cases first : ys.head? = some x
      · rw [first]
        rw [set_self, set_self]
      · rw [set_of_ne first, set_of_ne first, set_of_ne]
        rintro ⟨rfl⟩
        exact notRest member
    · intro x member
      rw [set_of_ne, set_of_ne]
      · rintro ⟨rfl⟩
        exact notRest member
      · rintro ⟨rfl⟩
        exact apart b inFront b member rfl

end Dll

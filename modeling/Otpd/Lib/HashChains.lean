import Mathlib.Data.List.Basic
import Mathlib.Data.List.Perm.Basic
import Mathlib.Logic.Function.Basic
import Mathlib.Tactic

/-!
# Hash tables with chains

A table of list heads over a heap of cells that are linked by `next`.  `Chained` says
that the table holds a list of cells, each in the chain of its hash; putting a cell at the
head of its chain keeps this.  Going through all buckets meets every cell once.
-/

set_option autoImplicit false

namespace HashChains

variable {A : Type*} {next next' : A → Option A} {head : Option A} {a : A} {cells : List A}

/-- From `head` on, `next` spells the list and ends. -/
def Linked (next : A → Option A) : Option A → List A → Prop
  | head, [] => head = none
  | head, a :: rest => head = some a ∧ Linked next (next a) rest

/-- Links outside the list do not matter. -/
theorem Linked.frame (linked : Linked next head cells) (same : ∀ x ∈ cells, next' x = next x) :
    Linked next' head cells := by
  induction cells generalizing head with
  | nil => exact linked
  | cons a rest ih =>
      obtain ⟨isHead, later⟩ := linked
      refine ⟨isHead, ?_⟩
      rw [same a List.mem_cons_self]
      exact ih later fun x inside => same x (List.mem_cons_of_mem a inside)

section Table

variable (hash : A → Nat)

/-- The cells of one chain. -/
def bucket (cells : List A) (b : Nat) : List A := cells.filter fun a => hash a = b

def Chained (next : A → Option A) (first : Nat → Option A) (cells : List A) : Prop :=
  ∀ b, Linked next (first b) (bucket hash cells b)

variable {hash} {first : Nat → Option A} {b n : Nat}

theorem Chained.empty (next : A → Option A) : Chained hash next (fun _ => none) [] :=
  fun _ => rfl

theorem mem_bucket : a ∈ bucket hash cells b ↔ a ∈ cells ∧ hash a = b := by
  simp [bucket]

theorem bucket_length_le (cells : List A) (b : Nat) : (bucket hash cells b).length ≤ cells.length :=
  List.length_filter_le _ cells

/-- A new cell is put at the head of its chain. -/
theorem Chained.push [DecidableEq A] (chained : Chained hash next first cells) (fresh : a ∉ cells) :
    Chained hash (Function.update next a (first (hash a)))
      (Function.update first (hash a) (some a)) (a :: cells) := by
  have apart : ∀ b, ∀ x ∈ bucket hash cells b,
      Function.update next a (first (hash a)) x = next x := by
    intro b x inside
    apply Function.update_of_ne
    intro same
    exact fresh (same ▸ (mem_bucket.mp inside).1)
  intro b
  have old := (chained b).frame (apart b)
  by_cases here : hash a = b
  · subst here
    rw [bucket, List.filter_cons_of_pos (by simp), Function.update_self]
    refine ⟨rfl, ?_⟩
    rw [Function.update_self]
    exact old
  · rw [bucket, List.filter_cons_of_neg (by simpa using here),
      Function.update_of_ne (Ne.symm here)]
    exact old

/-- A search that only matches cells of one hash may stay in that chain. -/
theorem bucket_find {p : A → Bool} (one : ∀ x, p x = true → hash x = b) (cells : List A) :
    (bucket hash cells b).find? p = cells.find? p := by
  rw [bucket, List.find?_filter]
  congr 1
  funext x
  cases matched : p x with
  | false => simp
  | true => simp [one x matched]

/-- With keys that are pairwise distinct, a search by key finds the cell of that key. -/
theorem find_key {K : Type*} [DecidableEq K] {key : A → K} (distinct : (cells.map key).Nodup)
    (held : a ∈ cells) : cells.find? (fun x => key x = key a) = some a := by
  induction cells with
  | nil => cases held
  | cons x cells ih =>
      rw [List.map_cons, List.nodup_cons] at distinct
      rcases List.mem_cons.mp held with rfl | later
      · rw [List.find?_cons_of_pos (by simp)]
      · have other : key x ≠ key a := by
          intro same
          apply distinct.1
          rw [same]
          exact List.mem_map_of_mem later
        rw [List.find?_cons_of_neg (by simpa using other)]
        exact ih distinct.2 later

/-- The cells of the buckets from `b` up to `n`, chain by chain. -/
def bucketsFrom (hash : A → Nat) (cells : List A) (n b : Nat) : List A :=
  (List.range' b (n - b)).flatMap (bucket hash cells)

theorem bucketsFrom_end (done : n ≤ b) : bucketsFrom hash cells n b = [] := by
  rw [bucketsFrom, Nat.sub_eq_zero_of_le done]
  rfl

theorem bucketsFrom_next (more : b < n) :
    bucketsFrom hash cells n b = bucket hash cells b ++ bucketsFrom hash cells n (b + 1) := by
  rw [bucketsFrom, bucketsFrom, show n - b = n - (b + 1) + 1 by omega, List.range'_succ,
    List.flatMap_cons]

theorem bucketsFrom_perm (hash : A → Nat) (cells : List A) (n b : Nat) :
    (bucketsFrom hash cells n b).Perm (cells.filter fun a => b ≤ hash a ∧ hash a < n) := by
  induction left : n - b generalizing b with
  | zero =>
      rw [bucketsFrom_end (by omega), List.filter_eq_nil_iff.mpr]
      intro a _
      simp
      omega
  | succ left ih =>
      have here : ∀ a, (decide (hash a = b) && decide (b ≤ hash a ∧ hash a < n)) =
          decide (hash a = b) := by
        intro a
        rw [← Bool.decide_and, decide_eq_decide]
        omega
      have later : ∀ a, (!decide (hash a = b) && decide (b ≤ hash a ∧ hash a < n)) =
          decide (b + 1 ≤ hash a ∧ hash a < n) := by
        intro a
        rw [← decide_not, ← Bool.decide_and, decide_eq_decide]
        omega
      have split := List.filter_append_perm (fun a => decide (hash a = b))
        (cells.filter fun a => b ≤ hash a ∧ hash a < n)
      simp only [List.filter_filter, here, later] at split
      rw [bucketsFrom_next (by omega)]
      exact ((ih (b + 1) (by omega)).append_left _).trans split

/-- Every cell is in one of the chains, once. -/
theorem all_buckets_perm (hash : A → Nat) (cells : List A) (small : ∀ a ∈ cells, hash a < n) :
    (bucketsFrom hash cells n 0).Perm cells := by
  have kept : (cells.filter fun a => 0 ≤ hash a ∧ hash a < n) = cells := by
    rw [List.filter_eq_self]
    intro a inside
    simpa using small a inside
  have whole := bucketsFrom_perm hash cells n 0
  rw [kept] at whole
  exact whole

end Table

end HashChains

import Otpd.LockTable
import Otpd.Lib.HashChains

/-!
# The registry of gsmds

`gsmd_hash`, `gsmd_get` and `gsmd_next` of `gsmd.c` over a heap of `gsmd_t`, with the
static counter of the iterator.  Lookup and iteration are compared with the list of the
registered entries, newest first.
-/

set_option autoImplicit false

namespace Otpd

open CMem HashChains

/-- `gsmd_t` as far as the registry looks at it; pointers are indices into the heap. -/
structure GsmdNode where
  name : List Byte
  next : Option Nat
  deriving DecidableEq

/-- The heap and `gsmd_chain[]`. -/
structure GsmdTable where
  nodes : List GsmdNode
  chain : Nat → Option Nat

namespace GsmdTable

/-- The static `gsmd_chain` is zero; the nodes come from the configuration. -/
def init (nodes : List GsmdNode) : GsmdTable := ⟨nodes, fun _ => none⟩

/-! ## The source -/

def gsmdHash (table : GsmdTable) (gsmd : Nat) : Option GsmdTable := do
  let node ← table.nodes[gsmd]?
  let bucket := uhash node.name
  let next := table.chain bucket
  some ⟨table.nodes.set gsmd { node with next := next },
    Function.update table.chain bucket (some gsmd)⟩

/-- The `while` of `gsmd_get`; the outer `none` is a bad access or too little fuel. -/
def findName (table : GsmdTable) (name : List Byte) : Nat → Option Nat → Option (Option Nat)
  | 0, _ => none
  | _ + 1, none => some none
  | fuel + 1, some gsmd => do
      let node ← table.nodes[gsmd]?
      if node.name = name then some (some gsmd) else table.findName name fuel node.next

def gsmdGet (table : GsmdTable) (name : List Byte) (fuel : Nat) : Option (Option Nat) :=
  table.findName name fuel (table.chain (uhash name))

/-- Either `for` of `gsmd_next`, from `i` on: the pointer found and what `i` is left at. -/
def scan (table : GsmdTable) (i : Nat) : Option Nat × Nat :=
  if i < uhashSize then
    match table.chain i with
    | some gsmd => (some gsmd, i)
    | none => table.scan (i + 1)
  else (none, i)
termination_by uhashSize - i

/-- The static `i` goes in and comes out. -/
def gsmdNext (table : GsmdTable) (gsmd : Option Nat) (i : Nat) : Option (Option Nat × Nat) :=
  match gsmd with
  | none => some (table.scan 0)
  | some gsmd => do
      let node ← table.nodes[gsmd]?
      match node.next with
      | some next => some (some next, i)
      | none => some (table.scan (i + 1))

def hashAll (table : GsmdTable) (gsmds : List Nat) : Option GsmdTable :=
  gsmds.foldlM gsmdHash table

/-- `while ((g = gsmd_next(g)))`: the entries it visits, and `i` at the end. -/
def iterate (table : GsmdTable) : Nat → Option Nat → Nat → Option (List Nat × Nat)
  | 0, _, _ => none
  | fuel + 1, gsmd, i => do
      let (next, i) ← table.gsmdNext gsmd i
      match next with
      | none => some ([], i)
      | some next => do
          let (rest, i) ← table.iterate fuel (some next) i
          some (next :: rest, i)

/-! ## What the table holds -/

def nameOf (table : GsmdTable) (gsmd : Nat) : List Byte :=
  (table.nodes[gsmd]?.map GsmdNode.name).getD []

def nextOf (table : GsmdTable) (gsmd : Nat) : Option Nat := table.nodes[gsmd]?.bind GsmdNode.next

def hashOf (table : GsmdTable) (gsmd : Nat) : Nat := uhash (table.nameOf gsmd)

/-- The entries registered so far, newest first. -/
structure Holds (table : GsmdTable) (gsmds : List Nat) : Prop where
  inside : ∀ gsmd ∈ gsmds, gsmd < table.nodes.length
  chained : Chained table.hashOf table.nextOf table.chain gsmds

section Access

variable {table : GsmdTable} {gsmd : Nat}

theorem node_eq (inside : gsmd < table.nodes.length) :
    table.nodes[gsmd]? = some ⟨table.nameOf gsmd, table.nextOf gsmd⟩ := by
  rw [nameOf, nextOf, List.getElem?_eq_getElem inside]
  rfl

end Access

/-- The table after `gsmd_hash`. -/
def pushed (table : GsmdTable) (gsmd : Nat) : GsmdTable :=
  ⟨table.nodes.set gsmd ⟨table.nameOf gsmd, table.chain (table.hashOf gsmd)⟩,
    Function.update table.chain (table.hashOf gsmd) (some gsmd)⟩

section Register

variable {table table' : GsmdTable} {gsmd : Nat} {gsmds : List Nat}

theorem gsmdHash_eq (inside : gsmd < table.nodes.length) :
    table.gsmdHash gsmd = some (table.pushed gsmd) := by
  rw [gsmdHash, node_eq inside]
  rfl

theorem pushed_nameOf (inside : gsmd < table.nodes.length) :
    (table.pushed gsmd).nameOf = table.nameOf := by
  funext g
  rw [nameOf, pushed]
  by_cases same : gsmd = g
  · subst same
    rw [List.getElem?_set_self inside]
    rfl
  · rw [List.getElem?_set_ne same]
    rfl

theorem pushed_nextOf (inside : gsmd < table.nodes.length) :
    (table.pushed gsmd).nextOf =
      Function.update table.nextOf gsmd (table.chain (table.hashOf gsmd)) := by
  funext g
  rw [nextOf, pushed]
  by_cases same : gsmd = g
  · subst same
    rw [List.getElem?_set_self inside, Function.update_self]
    rfl
  · rw [List.getElem?_set_ne same, Function.update_of_ne (Ne.symm same)]
    rfl

theorem pushed_length (table : GsmdTable) (gsmd : Nat) :
    (table.pushed gsmd).nodes.length = table.nodes.length := List.length_set

theorem holds_init (nodes : List GsmdNode) : Holds (init nodes) [] :=
  ⟨by simp, Chained.empty _⟩

/-- One `gsmd_hash` holds one entry more. -/
theorem Holds.push (holds : Holds table gsmds) (inside : gsmd < table.nodes.length)
    (fresh : gsmd ∉ gsmds) : Holds (table.pushed gsmd) (gsmd :: gsmds) := by
  constructor
  · intro g held
    rw [pushed_length]
    rcases List.mem_cons.mp held with rfl | before
    · exact inside
    · exact holds.inside g before
  · have hashes : (table.pushed gsmd).hashOf = table.hashOf := by
      funext g
      rw [hashOf, pushed_nameOf inside, hashOf]
    rw [hashes, pushed_nextOf inside]
    exact holds.chained.push fresh

theorem hashAll_holds (holds : Holds table gsmds) (todo : List Nat)
    (inside : ∀ gsmd ∈ todo, gsmd < table.nodes.length) (once : (todo.reverse ++ gsmds).Nodup) :
    ∃ table', table.hashAll todo = some table' ∧ Holds table' (todo.reverse ++ gsmds) ∧
      table'.nameOf = table.nameOf := by
  induction todo generalizing table gsmds with
  | nil => exact ⟨table, rfl, holds, rfl⟩
  | cons gsmd todo ih =>
      have here := inside gsmd List.mem_cons_self
      rw [List.reverse_cons, List.append_assoc] at once ⊢
      have fresh : gsmd ∉ gsmds :=
        (List.nodup_cons.mp (List.nodup_append.mp once).2.1).1
      obtain ⟨table', all, held, names⟩ := ih (holds.push here fresh)
        (fun g later => by rw [pushed_length]; exact inside g (List.mem_cons_of_mem _ later)) once
      refine ⟨table', ?_, held, names.trans (pushed_nameOf here)⟩
      rw [hashAll, List.foldlM_cons, gsmdHash_eq here]
      exact all

end Register

/-! ## Lookup -/

section Lookup

variable {table : GsmdTable} {gsmds : List Nat}

theorem findName_linked (name : List Byte) {cells : List Nat} {fuel : Nat} {head : Option Nat}
    (linked : Linked table.nextOf head cells) (inside : ∀ g ∈ cells, g < table.nodes.length)
    (enough : cells.length < fuel) :
    table.findName name fuel head = some (cells.find? fun g => table.nameOf g = name) := by
  induction cells generalizing fuel head with
  | nil =>
      cases linked
      obtain ⟨fuel, rfl⟩ := Nat.exists_eq_add_of_lt enough
      rfl
  | cons g cells ih =>
      obtain ⟨rfl, linked⟩ := linked
      rw [List.length_cons] at enough
      obtain ⟨fuel, rfl⟩ : ∃ m, fuel = m + 1 := ⟨fuel - 1, by omega⟩
      rw [findName, node_eq (inside g List.mem_cons_self)]
      simp only [Option.bind_eq_bind, Option.bind_some]
      by_cases same : table.nameOf g = name
      · rw [if_pos same, List.find?_cons_of_pos (by simpa using same)]
      · rw [if_neg same, List.find?_cons_of_neg (by simpa using same)]
        exact ih linked (fun g later => inside g (List.mem_cons_of_mem _ later)) (by omega)

/-- `gsmd_get` returns the newest entry of that name. -/
theorem gsmdGet_eq (holds : Holds table gsmds) (name : List Byte) {fuel : Nat}
    (enough : gsmds.length < fuel) :
    table.gsmdGet name fuel = some (gsmds.find? fun g => table.nameOf g = name) := by
  have linked := holds.chained (uhash name)
  rw [gsmdGet, findName_linked name linked
    (fun g held => holds.inside g (mem_bucket.mp held).1)
      ((bucket_length_le gsmds (uhash name)).trans_lt enough),
    bucket_find]
  intro g same
  rw [hashOf, of_decide_eq_true same]

end Lookup

/-! ## Iteration -/

section Iterate

variable {table : GsmdTable} {gsmds : List Nat}

/-- The loop over the buckets stops at the first cell that is left, or past the table. -/
theorem scan_eq (holds : Holds table gsmds) (i : Nat) :
    (bucketsFrom table.hashOf gsmds uhashSize i = [] ∧ (table.scan i).1 = none) ∨
      ∃ g cells j, table.scan i = (some g, j) ∧ (∀ x ∈ g :: cells, x < table.nodes.length) ∧
        Linked table.nextOf (table.nextOf g) cells ∧
        bucketsFrom table.hashOf gsmds uhashSize i =
          g :: (cells ++ bucketsFrom table.hashOf gsmds uhashSize (j + 1)) := by
  induction left : uhashSize - i generalizing i with
  | zero =>
      left
      refine ⟨bucketsFrom_end (by omega), ?_⟩
      rw [scan, if_neg (by omega)]
  | succ left ih =>
      rw [scan, if_pos (by omega), bucketsFrom_next (by omega)]
      have linked := holds.chained i
      cases cells : bucket table.hashOf gsmds i with
      | nil =>
          rw [cells, Linked] at linked
          rw [linked]
          exact ih (i + 1) (by omega)
      | cons g rest =>
          rw [cells] at linked
          obtain ⟨first, linked⟩ := linked
          rw [first]
          right
          refine ⟨g, rest, i, rfl, ?_, linked, rfl⟩
          intro x here
          rw [← cells] at here
          exact holds.inside x (mem_bucket.mp here).1

/-- From an entry on: the rest of its chain, then the buckets behind it. -/
theorem iterate_from (holds : Holds table gsmds) (fuel : Nat) :
    ∀ (g : Nat) (cells : List Nat) (i : Nat), (∀ x ∈ g :: cells, x < table.nodes.length) →
      Linked table.nextOf (table.nextOf g) cells →
      cells.length + (bucketsFrom table.hashOf gsmds uhashSize (i + 1)).length < fuel →
        ∃ j, table.iterate fuel (some g) i =
          some (cells ++ bucketsFrom table.hashOf gsmds uhashSize (i + 1), j) := by
  induction fuel with
  | zero =>
      intro g cells i _ _ enough
      omega
  | succ fuel ih =>
      intro g cells i inside linked enough
      rw [iterate, gsmdNext, node_eq (inside g List.mem_cons_self)]
      cases cells with
      | cons x cells =>
          obtain ⟨next, linked⟩ := linked
          rw [next]
          rw [List.length_cons] at enough
          obtain ⟨j, rest⟩ := ih x cells i (fun y later => inside y (List.mem_cons_of_mem _ later))
            linked (by omega)
          refine ⟨j, ?_⟩
          simp only [Option.bind_eq_bind, Option.bind_some, rest, List.cons_append]
      | nil =>
          rw [Linked] at linked
          rw [linked]
          simp only [Option.bind_eq_bind, Option.bind_some, List.nil_append]
          obtain ⟨empty, scanned⟩ | ⟨x, cells, j, scanned, valid, later, left⟩ :=
            scan_eq holds (i + 1)
          · rw [scanned, empty]
            exact ⟨_, rfl⟩
          · rw [left, List.length_cons, List.length_append] at enough
            obtain ⟨j', rest⟩ := ih x cells j valid later (by omega)
            refine ⟨j', ?_⟩
            rw [scanned, left]
            simp only [rest, Option.bind_some]

theorem iterate_eq (holds : Holds table gsmds) (i : Nat) {fuel : Nat}
    (enough : gsmds.length < fuel) :
    ∃ visited j, table.iterate fuel none i = some (visited, j) ∧ visited.Perm gsmds := by
  have all := all_buckets_perm table.hashOf gsmds fun g _ => uhash_lt (table.nameOf g)
  have lengths := all.length_eq
  obtain ⟨fuel, rfl⟩ : ∃ m, fuel = m + 1 := ⟨fuel - 1, by omega⟩
  rw [iterate, gsmdNext]
  simp only [Option.bind_eq_bind, Option.bind_some]
  obtain ⟨empty, scanned⟩ | ⟨x, cells, j, scanned, valid, later, left⟩ := scan_eq holds 0
  · rw [scanned]
    rw [empty] at all
    exact ⟨[], _, rfl, all⟩
  · rw [left, List.length_cons, List.length_append] at lengths
    obtain ⟨j', rest⟩ := iterate_from holds fuel x cells j valid later (by omega)
    rw [scanned]
    simp only [rest, Option.bind_some]
    refine ⟨_, _, rfl, ?_⟩
    rw [← left]
    exact all

end Iterate

/-- After any sequence of `gsmd_hash` on entries of distinct names, each of them is found
under its name and nothing under any other, and an iteration from the null pointer visits
each of them once, whatever the static counter was. -/
theorem gsmd_registry (nodes : List GsmdNode) (gsmds : List Nat)
    (inside : ∀ gsmd ∈ gsmds, gsmd < nodes.length)
    (distinct : (gsmds.map (init nodes).nameOf).Nodup) :
    (∀ name : List Byte, uhash name < 64) ∧
      ∃ table, (init nodes).hashAll gsmds = some table ∧ table.nameOf = (init nodes).nameOf ∧
        ∀ fuel, gsmds.length < fuel →
          (∀ gsmd ∈ gsmds, table.gsmdGet (table.nameOf gsmd) fuel = some (some gsmd)) ∧
          (∀ name, name ∉ gsmds.map table.nameOf → table.gsmdGet name fuel = some none) ∧
          ∀ i, ∃ visited j, table.iterate fuel none i = some (visited, j) ∧ visited.Perm gsmds := by
  refine ⟨uhash_lt, ?_⟩
  have once : (gsmds.reverse ++ []).Nodup := by
    rw [List.append_nil, List.nodup_reverse]
    exact List.Nodup.of_map _ distinct
  obtain ⟨table, all, holds, names⟩ := hashAll_holds (holds_init nodes) gsmds inside once
  rw [List.append_nil] at holds
  refine ⟨table, all, names, ?_⟩
  intro fuel enough
  rw [← List.length_reverse] at enough
  refine ⟨?_, ?_, ?_⟩
  · intro gsmd held
    have newest : (gsmds.reverse.map table.nameOf).Nodup := by
      rw [names, List.map_reverse, List.nodup_reverse]
      exact distinct
    rw [gsmdGet_eq holds _ enough, find_key newest (List.mem_reverse.mpr held)]
  · intro name unknown
    rw [gsmdGet_eq holds _ enough, List.find?_eq_none.mpr]
    intro g held same
    apply unknown
    rw [← of_decide_eq_true same]
    exact List.mem_map_of_mem (List.mem_reverse.mp held)
  · intro i
    obtain ⟨visited, j, ended, perm⟩ := iterate_eq holds i enough
    exact ⟨visited, j, ended, perm.trans (List.reverse_perm gsmds)⟩

/-- Three sections, two of whose names hash alike, with stale links. -/
theorem gsmd_registry_three :
    let nodes : List GsmdNode := [⟨ascii "ab", some 2⟩, ⟨ascii "ba", none⟩, ⟨ascii "c", some 0⟩]
    uhash (ascii "ab") = uhash (ascii "ba") ∧
      ∃ table, (init nodes).hashAll [2, 0, 1] = some table ∧
        table.gsmdGet (ascii "ab") 4 = some (some 0) ∧ table.gsmdGet (ascii "d") 4 = some none ∧
        ∃ visited j, table.iterate 4 none 17 = some (visited, j) ∧ visited.Perm [2, 0, 1] := by
  intro nodes
  obtain ⟨-, table, all, names, found⟩ := gsmd_registry nodes [2, 0, 1] (by decide) (by decide)
  obtain ⟨known, unknown, visits⟩ := found 4 (by decide)
  have get_ab := known 0 (by decide)
  have get_d := unknown (ascii "d")
  rw [names] at get_ab get_d
  exact ⟨by decide, table, all, get_ab, get_d (by decide), visits 17⟩

end GsmdTable

end Otpd

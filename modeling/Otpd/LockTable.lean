import Otpd.Lock
import Otpd.Lib.Dll
import Otpd.Lib.Schedule

/-!
# The lock chains

`lock.c` with all its hash buckets: the nodes of every chain lie in one heap, and
each bucket has its `first` and `last`.  `Bucket` is the representation invariant of
one chain, held locks up to `last` and free ones behind it.
-/

set_option autoImplicit false

namespace Otpd

open CMem

/-! ## `uhash.c` -/

def base64 : List Nat :=
  [0,  0,  0,  0,  0,  0,  0,  0,  0,  0,  0,  0,  0,  0,  0,  0,
   0,  0,  0,  0,  0,  0,  0,  0,  0,  0,  0,  0,  0,  0,  0,  0,
   0,  0,  0,  0,  0,  0,  0,  0,  0,  0,  0,  0,  0,  0,  0,  0,
   0,  1,  2,  3,  4,  5,  6,  7,  8,  9,  0,  0,  0,  0,  0,  0,
   0, 10, 11, 12, 13, 14, 15, 16, 17, 18, 19, 20, 21, 22, 23, 24,
   25, 26, 27, 28, 29, 30, 31, 32, 33, 34, 35,  0,  0,  0,  0,  0,
   0, 36, 37, 38, 39, 40, 41, 42, 43, 44, 45, 46, 47, 48, 49, 50,
   51, 52, 53, 54, 55, 56, 57, 58, 59, 60, 61,  0,  0,  0,  0,  0]

def uhashSize : Nat := 64

def uhash (username : List Byte) : Nat :=
  username.foldl (fun bucket c => bucket ^^^ base64.getD c.toNat 0) 0

theorem base64_lt (i : Nat) : base64.getD i 0 < 64 := by
  have entries : base64.all (· < 64) = true := by decide
  rw [List.getD_eq_getElem?_getD]
  cases found : base64[i]? with
  | none => decide
  | some value => simpa using List.all_eq_true.mp entries value (List.mem_of_getElem? found)

theorem uhash_lt (username : List Byte) : uhash username < uhashSize := by
  have step : ∀ (rest : List Byte) (bucket : Nat), bucket < 64 →
      rest.foldl (fun bucket c => bucket ^^^ base64.getD c.toNat 0) bucket < 64 := by
    intro rest
    induction rest with
    | nil => exact fun _ small => small
    | cons c rest ih =>
        intro bucket small
        exact ih _ (Nat.xor_lt_two_pow (n := 6) small (base64_lt c.toNat))
  exact step username 0 (by decide)

/-! ## All buckets -/

/-- The heap of lock nodes and `lock_chain[]`. -/
structure LockTable where
  nodes : List LockNode
  first : Nat → Option Nat
  last : Nat → Option Nat

namespace LockTable

def init : LockTable where
  nodes := List.replicate uhashSize ⟨none, 0, none, none⟩
  first := fun bucket => if bucket < uhashSize then some bucket else none
  last := fun _ => none

def chain (table : LockTable) (bucket : Nat) : Chain :=
  ⟨table.nodes, table.first bucket, table.last bucket⟩

def store (table : LockTable) (bucket : Nat) (chain : Chain) : LockTable :=
  ⟨chain.nodes, Function.update table.first bucket chain.first,
    Function.update table.last bucket chain.last⟩

def lockGet (table : LockTable) (username : Username) (now : Int) :
    Option (Option Nat × LockTable) :=
  let bucket := uhash username.bytes
  (Otpd.lockGet (table.chain bucket) username now).map fun (lock, chain) =>
    (lock, table.store bucket chain)

def lockPut (table : LockTable) (lock : Nat) : Option LockTable := do
  let node ← table.nodes[lock]?
  let name ← node.username
  let bucket := uhash name.bytes
  (Otpd.lockPut (table.chain bucket) lock).map (table.store bucket)

end LockTable

/-! ## Fields of the heap -/

def fieldOf {F : Type} (field : LockNode → Option F) (nodes : List LockNode) (a : Nat) : Option F :=
  nodes[a]?.bind field

def nameOf : List LockNode → Nat → Option Username := fieldOf LockNode.username
def prevOf : List LockNode → Nat → Option Nat := fieldOf LockNode.prev
def nextOf : List LockNode → Nat → Option Nat := fieldOf LockNode.next

section Fields

variable {F : Type} {field : LockNode → Option F} {nodes : List LockNode} {a : Nat}
  {f : LockNode → LockNode}

theorem fieldOf_modify_same (same : ∀ node, field (f node) = field node) :
    fieldOf field (nodes.modify a f) = fieldOf field nodes := by
  funext b
  rw [fieldOf, fieldOf, List.getElem?_modify]
  cases nodes[b]? with
  | none => rfl
  | some node =>
      by_cases here : a = b
      · simp [here, same]
      · simp [here]

theorem fieldOf_modify_set (value : Option F) (sets : ∀ node, field (f node) = value)
    (inside : a < nodes.length) :
    fieldOf field (nodes.modify a f) = Function.update (fieldOf field nodes) a value := by
  funext b
  rw [fieldOf, List.getElem?_modify, Function.update_apply]
  by_cases here : b = a
  · subst here
    simp [List.getElem?_eq_getElem inside, sets]
  · rw [if_neg here]
    simp [fieldOf, Ne.symm here]

theorem fieldOf_append (new : LockNode) :
    fieldOf field (nodes ++ [new]) = Function.update (fieldOf field nodes) nodes.length (field new) := by
  funext b
  rw [fieldOf, Function.update_apply]
  by_cases here : b = nodes.length
  · subst here
    simp
  · rw [if_neg here, fieldOf]
    by_cases inside : b < nodes.length
    · rw [List.getElem?_append_left inside]
    · have outside : (nodes ++ [new]).length ≤ b := by
        rw [List.length_append, List.length_singleton]
        omega
      rw [List.getElem?_eq_none outside, List.getElem?_eq_none (by omega)]

theorem nameOf_eq {username : Username} (named : nameOf nodes a = some username) :
    ∃ node, nodes[a]? = some node ∧ node.username = some username :=
  Option.bind_eq_some_iff.mp named

end Fields

/-! ## One chain -/

/-- The chain of a bucket: first the held locks up to `last`, then the free nodes. -/
structure Bucket (chain : Chain) (bucket : Nat) (held free : List Nat) : Prop where
  nonempty : held ++ free ≠ []
  inside : ∀ a ∈ held ++ free, a < chain.nodes.length
  once : (held ++ free).Nodup
  linked : Dll.Linked (prevOf chain.nodes) (nextOf chain.nodes) (held ++ free)
  first : chain.first = (held ++ free).head?
  last : chain.last = held.getLast?
  named : ∀ a ∈ held, ∃ username, nameOf chain.nodes a = some username ∧
    uhash username.bytes = bucket
  distinct : (held.map (nameOf chain.nodes)).Nodup
  unnamed : ∀ a ∈ free, nameOf chain.nodes a = none

section Walk

variable {chain : Chain} {bucket : Nat} {held free : List Nat} {username : Username}

/-- `find_lock` stops at the first node of that name, or hands out the node behind the
last held one. -/
theorem findLockFrom_walk {last : Nat} : ∀ (rest : List Nat) (fuel a : Nat) (before : Option Nat),
    Dll.Seg (prevOf chain.nodes) (nextOf chain.nodes) before (a :: rest) free.head? →
    (a :: rest).Nodup → (a :: rest).getLast? = some last →
    (∀ c ∈ a :: rest, ∃ name, nameOf chain.nodes c = some name) → rest.length < fuel →
    findLockFrom chain username last fuel (some a) =
      match (a :: rest).find? (nameOf chain.nodes · = some username) with
      | some c => some (true, some c)
      | none => some (false, free.head?) := by
  intro rest
  induction rest with
  | nil =>
      intro fuel a before seg once ended named enough
      obtain ⟨fuel, rfl⟩ : ∃ n, fuel = n + 1 := ⟨fuel - 1, by omega⟩
      obtain ⟨name, here⟩ := named a List.mem_cons_self
      obtain ⟨node, stored, spelled⟩ := nameOf_eq here
      obtain rfl : a = last := by simpa using ended
      have forth : node.next = free.head? := by
        have := seg.2.1
        simpa [nextOf, fieldOf, stored] using this
      simp only [findLockFrom, stored, spelled, Option.bind_eq_bind, Option.bind_some]
      by_cases same : name = username
      · simp [same, here]
      · have other : nameOf chain.nodes a ≠ some username := by
          rw [here]
          exact fun wrong => same (Option.some.inj wrong)
        simp [same, other, forth]
  | cons b rest ih =>
      intro fuel a before seg once ended named enough
      obtain ⟨fuel, rfl⟩ : ∃ n, fuel = n + 1 := ⟨fuel - 1, by omega⟩
      obtain ⟨name, here⟩ := named a List.mem_cons_self
      obtain ⟨node, stored, spelled⟩ := nameOf_eq here
      have forth : node.next = some b := by
        have := seg.2.1
        simpa [nextOf, fieldOf, stored] using this
      have notLast : a ≠ last := by
        rintro rfl
        rw [List.getLast?_cons_cons] at ended
        exact (List.nodup_cons.mp once).1 (List.mem_of_mem_getLast? ended)
      have tail := ih fuel b (some a) seg.2.2 (List.nodup_cons.mp once).2
        (by rwa [List.getLast?_cons_cons] at ended)
        (fun c member => named c (List.mem_cons_of_mem a member))
        (by simp only [List.length_cons] at enough; omega)
      simp only [findLockFrom, stored, spelled, Option.bind_eq_bind, Option.bind_some, forth, tail,
        if_neg notLast]
      by_cases same : name = username
      · simp [same, here]
      · have other : nameOf chain.nodes a ≠ some username := by
          rw [here]
          exact fun wrong => same (Option.some.inj wrong)
        have passed : (a :: b :: rest).find? (nameOf chain.nodes · = some username) =
            (b :: rest).find? (nameOf chain.nodes · = some username) :=
          List.find?_cons_of_neg (by simpa using other)
        rw [if_neg same, passed]

theorem Bucket.enough (ok : Bucket chain bucket held free) : held.length ≤ chain.nodes.length := by
  have once : held.Nodup := (List.nodup_append.mp ok.once).1
  have covered : held ⊆ List.range chain.nodes.length := fun a member =>
    List.mem_range.mpr (ok.inside a (List.mem_append_left free member))
  simpa using (List.subperm_of_subset once covered).length_le

theorem Bucket.findLock (ok : Bucket chain bucket held free) (username : Username) :
    findLock chain username =
      match held.find? (nameOf chain.nodes · = some username) with
      | some c => some (true, some c)
      | none => some (false, free.head?) := by
  have seg := (Dll.seg_append.mp ok.linked).1
  have once := (List.nodup_append.mp ok.once).1
  have enough := ok.enough
  rw [Option.or_none] at seg
  cases held with
  | nil => simp only [Otpd.findLock, ok.last, ok.first, List.getLast?_nil, List.nil_append,
      List.find?_nil]
  | cons a rest =>
      obtain ⟨last, ended⟩ : ∃ last, (a :: rest).getLast? = some last :=
        ⟨_, List.getLast?_eq_getLast_of_ne_nil (List.cons_ne_nil a rest)⟩
      simp only [Otpd.findLock, ok.last, ok.first, ended, List.cons_append, List.head?_cons]
      refine findLockFrom_walk rest chain.nodes.length a none seg once ended ?_ ?_
      · intro c member
        obtain ⟨name, here, -⟩ := ok.named c member
        exact ⟨name, here⟩
      · simp only [List.length_cons] at enough
        omega

end Walk

section Get

variable {chain : Chain} {bucket : Nat} {held free : List Nat} {username : Username} {now : Int}

/-- Only the nodes of the chain decide whether it is well formed. -/
theorem Bucket.frame (ok : Bucket chain bucket held free) {nodes : List LockNode}
    (same : ∀ c ∈ held ++ free, nodes[c]? = chain.nodes[c]?) :
    Bucket ⟨nodes, chain.first, chain.last⟩ bucket held free where
  nonempty := ok.nonempty
  inside := by
    intro c member
    have stored : (nodes[c]?).isSome := by
      rw [same c member, List.getElem?_eq_getElem (ok.inside c member)]
      rfl
    simpa using stored
  once := ok.once
  linked := by
    refine ok.linked.frame ?_ ?_
    · intro c member
      rw [prevOf, fieldOf, fieldOf, same c member]
    · intro c member
      rw [nextOf, fieldOf, fieldOf, same c member]
  first := ok.first
  last := ok.last
  named := by
    intro c member
    obtain ⟨name, here, hashed⟩ := ok.named c member
    refine ⟨name, ?_, hashed⟩
    rw [nameOf, fieldOf, same c (List.mem_append_left free member)]
    exact here
  distinct := by
    have names : held.map (nameOf nodes) = held.map (nameOf chain.nodes) := by
      apply List.map_congr_left
      intro c member
      rw [nameOf, fieldOf, fieldOf, same c (List.mem_append_left free member)]
    rw [names]
    exact ok.distinct
  unnamed := by
    intro c member
    rw [nameOf, fieldOf, same c (List.mem_append_right held member)]
    exact ok.unnamed c member

theorem Bucket.lockGet_held (ok : Bucket chain bucket held free) {a : Nat} (member : a ∈ held)
    (named : nameOf chain.nodes a = some username)
    (fresh : ∀ node, chain.nodes[a]? = some node → now < node.ltime + lockExpiry) :
    lockGet chain username now = some (none, chain) := by
  have found : held.find? (nameOf chain.nodes · = some username) = some a := by
    cases found : held.find? (nameOf chain.nodes · = some username) with
    | none =>
        have := List.find?_eq_none.mp found a member
        simp [named] at this
    | some c =>
        have same : nameOf chain.nodes c = nameOf chain.nodes a := by
          rw [named]
          simpa using List.find?_some found
        have inHeld := List.mem_of_find?_eq_some found
        rw [List.inj_on_of_nodup_map ok.distinct inHeld member same]
  obtain ⟨node, stored, -⟩ := nameOf_eq named
  have notStale : ¬ now ≥ node.ltime + lockExpiry := by
    have := fresh node stored
    omega
  simp only [lockGet, ok.findLock username, found, stored, Option.bind_eq_bind, Option.bind_some,
    if_true, if_neg notStale]

theorem Bucket.not_found (absent : ∀ a ∈ held, nameOf chain.nodes a ≠ some username) :
    held.find? (nameOf chain.nodes · = some username) = none := by
  apply List.find?_eq_none.mpr
  intro a member
  simpa using absent a member

section Names

variable {name : Nat → Option Username} {lock : Nat}

theorem update_others (apart : lock ∉ held) :
    ∀ c ∈ held, Function.update name lock (some username) c = name c := by
  intro c member
  exact Function.update_of_ne (ne_of_mem_of_not_mem member apart) ..

/-- A node named behind the held ones. -/
theorem named_snoc (apart : lock ∉ held) (hashed : uhash username.bytes = bucket)
    (named : ∀ c ∈ held, ∃ user, name c = some user ∧ uhash user.bytes = bucket) :
    ∀ c ∈ held ++ [lock], ∃ user, Function.update name lock (some username) c = some user ∧
      uhash user.bytes = bucket := by
  intro c member
  rcases List.mem_append.mp member with before | new
  · rw [update_others apart c before]
    exact named c before
  · obtain rfl := List.mem_singleton.mp new
    exact ⟨username, Function.update_self .., hashed⟩

theorem distinct_snoc (apart : lock ∉ held) (absent : ∀ a ∈ held, name a ≠ some username)
    (distinct : (held.map name).Nodup) :
    ((held ++ [lock]).map (Function.update name lock (some username))).Nodup := by
  rw [List.map_append, List.map_congr_left (update_others apart), List.nodup_append]
  refine ⟨distinct, List.nodup_singleton _, ?_⟩
  rintro user listed other new rfl
  obtain ⟨a, member, here⟩ := List.mem_map.mp listed
  simp only [List.map_cons, List.map_nil, Function.update_self, List.mem_singleton] at new
  exact absent a member (here.trans new)

end Names

variable (now)

/-- A free node behind the held ones is taken over. -/
theorem Bucket.lockGet_reuse {lock : Nat} (ok : Bucket chain bucket held (lock :: free))
    (absent : ∀ a ∈ held, nameOf chain.nodes a ≠ some username)
    (hashed : uhash username.bytes = bucket) :
    ∃ chain', lockGet chain username now = some (some lock, chain') ∧
      Bucket chain' bucket (held ++ [lock]) free ∧
      chain'.nodes.length = chain.nodes.length ∧
      ∀ c, c ≠ lock → chain'.nodes[c]? = chain.nodes[c]? := by
  have cells : held ++ [lock] ++ free = held ++ lock :: free := by simp
  have inside : lock < chain.nodes.length :=
    ok.inside lock (List.mem_append_right held List.mem_cons_self)
  have apart : lock ∉ held := fun member =>
    List.disjoint_of_nodup_append ok.once member List.mem_cons_self
  have notFree : lock ∉ free :=
    (List.nodup_cons.mp (List.nodup_append.mp ok.once).2.1).1
  have prevs : prevOf (chain.nodes.modify lock ({ · with username := some username, ltime := now })) =
      prevOf chain.nodes := fieldOf_modify_same fun _ => rfl
  have nexts : nextOf (chain.nodes.modify lock ({ · with username := some username, ltime := now })) =
      nextOf chain.nodes := fieldOf_modify_same fun _ => rfl
  have names : nameOf (chain.nodes.modify lock ({ · with username := some username, ltime := now })) =
      Function.update (nameOf chain.nodes) lock (some username) :=
    fieldOf_modify_set _ (fun _ => rfl) inside
  refine ⟨{ chain.update lock ({ · with username := some username, ltime := now }) with
    last := some lock }, ?_, ?_, List.length_modify .., ?_⟩
  · simp only [lockGet, ok.findLock username, Bucket.not_found absent, List.head?_cons,
      Option.bind_eq_bind, Option.bind_some, Bool.false_eq_true, if_false]
  · exact {
      nonempty := by simp
      inside := by
        intro c member
        rw [cells] at member
        exact (ok.inside c member).trans_eq (List.length_modify ..).symm
      once := cells ▸ ok.once
      linked := by
        simp only [Chain.update, prevs, nexts, cells]
        exact ok.linked
      first := by
        rw [cells]
        exact ok.first
      last := List.getLast?_concat.symm
      named := by
        simp only [Chain.update, names]
        exact named_snoc apart hashed ok.named
      distinct := by
        simp only [Chain.update, names]
        exact distinct_snoc apart absent ok.distinct
      unnamed := by
        intro c member
        simp only [Chain.update, names]
        rw [Function.update_of_ne (ne_of_mem_of_not_mem member notFree)]
        exact ok.unnamed c (List.mem_cons_of_mem lock member) }
  · intro c other
    simp [Chain.update, Ne.symm other]

/-- With no free node left, one is allocated behind the last held one. -/
theorem Bucket.lockGet_alloc (ok : Bucket chain bucket held [])
    (absent : ∀ a ∈ held, nameOf chain.nodes a ≠ some username)
    (hashed : uhash username.bytes = bucket) :
    ∃ chain', lockGet chain username now = some (some chain.nodes.length, chain') ∧
      Bucket chain' bucket (held ++ [chain.nodes.length]) [] ∧
      chain'.nodes.length = chain.nodes.length + 1 ∧
      ∀ c ∉ held, c < chain.nodes.length → chain'.nodes[c]? = chain.nodes[c]? := by
  have inHeld := ok.inside
  have once := ok.once
  have linked := ok.linked
  have nonempty := ok.nonempty
  have headed := ok.first
  simp only [List.append_nil] at inHeld once linked nonempty headed
  obtain ⟨front, last, rfl⟩ : ∃ front last, held = front ++ [last] :=
    (List.eq_nil_or_concat' held).resolve_left nonempty
  have isLast : chain.last = some last := ok.last.trans List.getLast?_concat
  have inside : last < chain.nodes.length :=
    inHeld last (List.mem_append_right front (List.mem_singleton.mpr rfl))
  have fresh : chain.nodes.length ∉ front ++ [last] := fun member =>
    absurd (inHeld _ member) (Nat.lt_irrefl _)
  have ended : nextOf chain.nodes last = none := (linked.insertAfter once fresh).1
  have spelled := (linked.insertAfter once fresh).2
  rw [ended] at spelled
  have size : (chain.nodes.modify last ({ · with next := some chain.nodes.length })).length =
      chain.nodes.length := List.length_modify ..
  have prevs : prevOf (chain.nodes.modify last ({ · with next := some chain.nodes.length }) ++
      [⟨some username, now, some last, none⟩]) =
      Dll.set (prevOf chain.nodes) (some chain.nodes.length) (some last) := by
    rw [prevOf, fieldOf_append, size, fieldOf_modify_same]
    · rfl
    · exact fun _ => rfl
  have nexts : nextOf (chain.nodes.modify last ({ · with next := some chain.nodes.length }) ++
      [⟨some username, now, some last, none⟩]) =
      Dll.set (Dll.set (nextOf chain.nodes) (some chain.nodes.length) none) (some last)
        (some chain.nodes.length) := by
    rw [nextOf, fieldOf_append, size, fieldOf_modify_set (some chain.nodes.length)]
    · exact Function.update_comm (Nat.ne_of_lt inside) ..
    · exact fun _ => rfl
    · exact inside
  have names : nameOf (chain.nodes.modify last ({ · with next := some chain.nodes.length }) ++
      [⟨some username, now, some last, none⟩]) =
      Function.update (nameOf chain.nodes) chain.nodes.length (some username) := by
    rw [nameOf, fieldOf_append, size, fieldOf_modify_same]
    exact fun _ => rfl
  refine ⟨⟨chain.nodes.modify last ({ · with next := some chain.nodes.length }) ++
    [⟨some username, now, some last, none⟩], chain.first, some chain.nodes.length⟩, ?_, ?_, ?_, ?_⟩
  · simp only [lockGet, ok.findLock username, Bucket.not_found absent, List.head?_nil,
      Option.bind_eq_bind, Option.bind_some, Bool.false_eq_true, if_false, isLast, Chain.update]
  · exact {
      nonempty := by simp
      inside := by
        intro c member
        simp only [List.append_nil] at member
        simp only [List.length_append, List.length_modify, List.length_singleton]
        rcases List.mem_append.mp member with before | new
        · have := inHeld c before
          omega
        · rw [List.mem_singleton.mp new]
          omega
      once := by
        rw [List.append_nil, List.nodup_append]
        refine ⟨once, List.nodup_singleton _, ?_⟩
        intro a member b new
        rw [List.mem_singleton.mp new]
        exact ne_of_mem_of_not_mem member fresh
      linked := by
        simp only [prevs, nexts, List.append_nil, List.append_assoc, List.cons_append,
          List.nil_append]
        exact spelled
      first := by
        simp only [headed, List.append_nil, List.head?_append]
        cases front <;> rfl
      last := List.getLast?_concat.symm
      named := by
        simp only [names]
        exact named_snoc fresh hashed ok.named
      distinct := by
        simp only [names]
        exact distinct_snoc fresh absent ok.distinct
      unnamed := by simp }
  · rw [List.length_append, size, List.length_singleton]
  · intro c other old
    have notLast : last ≠ c := fun same =>
      other (List.mem_append_right front (List.mem_singleton.mpr same.symm))
    rw [List.getElem?_append_left (by rw [size]; exact old)]
    simp [notLast]

end Get

section Put

variable {chain : Chain} {bucket : Nat} {front mid free : List Nat} {lock last after : Nat}

theorem prevOf_eq {nodes : List LockNode} {node : LockNode} {a : Nat}
    (stored : nodes[a]? = some node) : prevOf nodes a = node.prev := by
  simp [prevOf, fieldOf, stored]

theorem nextOf_eq {nodes : List LockNode} {node : LockNode} {a : Nat}
    (stored : nodes[a]? = some node) : nextOf nodes a = node.next := by
  simp [nextOf, fieldOf, stored]

theorem map_update_of_not_mem {nodes : List LockNode} {held : List Nat} (apart : lock ∉ held)
    (name : Option Username) :
    held.map (Function.update (nameOf nodes) lock name) = held.map (nameOf nodes) := by
  apply List.map_congr_left
  intro c member
  exact Function.update_of_ne (ne_of_mem_of_not_mem member apart) ..

theorem Bucket.lockPut_last (ok : Bucket chain bucket (front ++ [lock]) free) :
    ∃ chain', lockPut chain lock = some chain' ∧ Bucket chain' bucket front (lock :: free) ∧
      chain'.nodes.length = chain.nodes.length ∧
      ∀ c, c ≠ lock → chain'.nodes[c]? = chain.nodes[c]? := by
  have cells : front ++ [lock] ++ free = front ++ lock :: free := by simp
  have once := cells ▸ ok.once
  have linked := cells ▸ ok.linked
  obtain ⟨name, here, -⟩ := ok.named lock (List.mem_append_right front (List.mem_singleton.mpr rfl))
  obtain ⟨node, stored, spelled⟩ := nameOf_eq here
  have inside : lock < chain.nodes.length := (List.getElem?_eq_some_iff.mp stored).1
  have back : node.prev = front.getLast? := (prevOf_eq stored).symm.trans (linked.unlink once).1
  have isLast : chain.last = some lock := ok.last.trans List.getLast?_concat
  have apart : lock ∉ front := fun member =>
    List.disjoint_of_nodup_append once member List.mem_cons_self
  have notFree : lock ∉ free := (List.nodup_cons.mp (List.nodup_append.mp once).2.1).1
  have prevs : prevOf (chain.nodes.modify lock ({ · with username := none })) =
      prevOf chain.nodes := fieldOf_modify_same fun _ => rfl
  have nexts : nextOf (chain.nodes.modify lock ({ · with username := none })) =
      nextOf chain.nodes := fieldOf_modify_same fun _ => rfl
  have names : nameOf (chain.nodes.modify lock ({ · with username := none })) =
      Function.update (nameOf chain.nodes) lock none := fieldOf_modify_set _ (fun _ => rfl) inside
  refine ⟨{ chain.update lock ({ · with username := none }) with last := node.prev }, ?_, ?_,
    List.length_modify .., ?_⟩
  · have isLast' : (chain.update lock ({ · with username := none })).last = some lock := isLast
    simp only [lockPut, stored, spelled, Option.bind_eq_bind, Option.bind_some, if_pos isLast']
  · exact {
      nonempty := by simp
      inside := by
        intro c member
        exact (ok.inside c (cells ▸ member)).trans_eq (List.length_modify ..).symm
      once := once
      linked := by
        simp only [Chain.update, prevs, nexts]
        exact linked
      first := ok.first.trans (congrArg List.head? cells)
      last := back
      named := by
        intro c member
        simp only [Chain.update, names]
        rw [Function.update_of_ne (ne_of_mem_of_not_mem member apart)]
        exact ok.named c (List.mem_append_left _ member)
      distinct := by
        simp only [Chain.update, names, map_update_of_not_mem apart]
        have distinct := ok.distinct
        rw [List.map_append] at distinct
        exact (List.nodup_append.mp distinct).1
      unnamed := by
        intro c member
        simp only [Chain.update, names]
        rcases List.mem_cons.mp member with rfl | behind
        · exact Function.update_self ..
        · rw [Function.update_of_ne (ne_of_mem_of_not_mem behind notFree)]
          exact ok.unnamed c behind }
  · intro c other
    simp [Chain.update, Ne.symm other]

def writeNext (nodes : List LockNode) (cell value : Option Nat) : List LockNode :=
  match cell with
  | some a => nodes.modify a ({ · with next := value })
  | none => nodes

def writePrev (nodes : List LockNode) (cell value : Option Nat) : List LockNode :=
  match cell with
  | some a => nodes.modify a ({ · with prev := value })
  | none => nodes

/-- The nodes after the first half of `lock_put`: `lock` is cleared and taken out. -/
def unlinked (nodes : List LockNode) (lock : Nat) (prev next : Option Nat) : List LockNode :=
  writePrev (writeNext (nodes.modify lock ({ · with username := none })) prev next) next prev

/-- The nodes after the second half: `lock` stands between `last` and `after`. -/
def relinked (nodes : List LockNode) (lock last after : Nat) : List LockNode :=
  ((nodes.modify lock ({ · with next := some after, prev := some last })).modify
    after ({ · with prev := some lock })).modify last ({ · with next := some lock })

/-- Where `last->next` is NULL, the second half dereferences it. -/
theorem lockPut_moves {node : LockNode} {name : Username}
    (stored : chain.nodes[lock]? = some node) (spelled : node.username = some name)
    (isLast : chain.last = some last) (other : last ≠ lock) :
    lockPut chain lock =
      (nextOf (unlinked chain.nodes lock node.prev node.next) last).map fun after =>
        { chain with nodes := relinked (unlinked chain.nodes lock node.prev node.next) lock last after } := by
  have notLast : ¬ some last = some lock := fun wrong => other (Option.some.inj wrong)
  simp only [lockPut, stored, spelled, Chain.update, isLast, if_neg notLast, Option.bind_eq_bind,
    Option.bind_some]
  cases node.prev <;> cases node.next <;>
    simp only [Option.bind_some, unlinked, writeNext, writePrev, nextOf, fieldOf, relinked,
      Option.map_eq_bind, Option.bind_assoc, Function.comp_def]

section Relinked

variable (nodes : List LockNode) (lock) {prev next cell value : Option Nat}

@[simp]
theorem writeNext_length : (writeNext nodes cell value).length = nodes.length := by
  cases cell with
  | none => rfl
  | some a => exact List.length_modify ..

@[simp]
theorem writePrev_length : (writePrev nodes cell value).length = nodes.length := by
  cases cell with
  | none => rfl
  | some a => exact List.length_modify ..

theorem writeNext_keeps {F : Type} {field : LockNode → Option F}
    (same : ∀ node : LockNode, field { node with next := value } = field node) :
    fieldOf field (writeNext nodes cell value) = fieldOf field nodes := by
  cases cell with
  | none => rfl
  | some a => exact fieldOf_modify_same same

theorem writePrev_keeps {F : Type} {field : LockNode → Option F}
    (same : ∀ node : LockNode, field { node with prev := value } = field node) :
    fieldOf field (writePrev nodes cell value) = fieldOf field nodes := by
  cases cell with
  | none => rfl
  | some a => exact fieldOf_modify_same same

theorem nextOf_writeNext (inside : ∀ a, cell = some a → a < nodes.length) :
    nextOf (writeNext nodes cell value) = Dll.set (nextOf nodes) cell value := by
  cases cell with
  | none => rfl
  | some a => exact fieldOf_modify_set value (fun _ => rfl) (inside a rfl)

theorem prevOf_writePrev (inside : ∀ a, cell = some a → a < nodes.length) :
    prevOf (writePrev nodes cell value) = Dll.set (prevOf nodes) cell value := by
  cases cell with
  | none => rfl
  | some a => exact fieldOf_modify_set value (fun _ => rfl) (inside a rfl)

theorem unlinked_length : (unlinked nodes lock prev next).length = nodes.length := by
  rw [unlinked, writePrev_length, writeNext_length, List.length_modify]

theorem unlinked_prev (inNext : ∀ n, next = some n → n < nodes.length) :
    prevOf (unlinked nodes lock prev next) = Dll.set (prevOf nodes) next prev := by
  have cleared : prevOf (nodes.modify lock ({ · with username := none })) = prevOf nodes :=
    fieldOf_modify_same fun _ => rfl
  rw [unlinked, prevOf_writePrev _ (by simpa using inNext), prevOf, writeNext_keeps _ fun _ => rfl]
  exact congrArg (Dll.set · next prev) cleared

theorem unlinked_next (inPrev : ∀ p, prev = some p → p < nodes.length) :
    nextOf (unlinked nodes lock prev next) = Dll.set (nextOf nodes) prev next := by
  have cleared : nextOf (nodes.modify lock ({ · with username := none })) = nextOf nodes :=
    fieldOf_modify_same fun _ => rfl
  rw [unlinked, nextOf, writePrev_keeps _ fun _ => rfl]
  exact (nextOf_writeNext _ (by simpa using inPrev)).trans (congrArg (Dll.set · prev next) cleared)

theorem unlinked_name (inLock : lock < nodes.length) :
    nameOf (unlinked nodes lock prev next) = Function.update (nameOf nodes) lock none := by
  rw [unlinked, nameOf, writePrev_keeps _ fun _ => rfl, writeNext_keeps _ fun _ => rfl]
  exact fieldOf_modify_set none (fun _ => rfl) inLock

theorem writeNext_other {c : Nat} (other : cell ≠ some c) :
    (writeNext nodes cell value)[c]? = nodes[c]? := by
  cases cell with
  | none => rfl
  | some a => exact List.getElem?_modify_ne _ nodes fun same => other (congrArg some same)

theorem writePrev_other {c : Nat} (other : cell ≠ some c) :
    (writePrev nodes cell value)[c]? = nodes[c]? := by
  cases cell with
  | none => rfl
  | some a => exact List.getElem?_modify_ne _ nodes fun same => other (congrArg some same)

theorem unlinked_other {c : Nat} (notLock : c ≠ lock) (notPrev : prev ≠ some c)
    (notNext : next ≠ some c) : (unlinked nodes lock prev next)[c]? = nodes[c]? := by
  rw [unlinked, writePrev_other _ notNext, writeNext_other _ notPrev]
  exact List.getElem?_modify_ne _ nodes notLock.symm

theorem relinked_length : (relinked nodes lock last after).length = nodes.length := by
  simp only [relinked, List.length_modify]

theorem relinked_other {c : Nat} (notLock : c ≠ lock) (notLast : c ≠ last) (notAfter : c ≠ after) :
    (relinked nodes lock last after)[c]? = nodes[c]? := by
  simp [relinked, notLock.symm, notLast.symm, notAfter.symm]

theorem relinked_prev (inLock : lock < nodes.length) (inAfter : after < nodes.length) :
    prevOf (relinked nodes lock last after) =
      Dll.set (Dll.set (prevOf nodes) (some lock) (some last)) (some after) (some lock) := by
  rw [prevOf, relinked, fieldOf_modify_same, fieldOf_modify_set (some lock),
    fieldOf_modify_set (some last)]
  · rfl
  all_goals first | exact fun _ => rfl | simpa only [List.length_modify]

theorem relinked_next (inLock : lock < nodes.length) (inLast : last < nodes.length) :
    nextOf (relinked nodes lock last after) =
      Dll.set (Dll.set (nextOf nodes) (some lock) (some after)) (some last) (some lock) := by
  rw [nextOf, relinked, fieldOf_modify_set (some lock), fieldOf_modify_same,
    fieldOf_modify_set (some after)]
  · rfl
  all_goals first | exact fun _ => rfl | simpa only [List.length_modify]

theorem relinked_name : nameOf (relinked nodes lock last after) = nameOf nodes := by
  rw [nameOf, relinked, fieldOf_modify_same, fieldOf_modify_same, fieldOf_modify_same]
  all_goals exact fun _ => rfl

end Relinked

section Moves

variable {prev next : Option Nat}

theorem middle_cells : front ++ lock :: (mid ++ [last]) ++ free =
    front ++ lock :: (mid ++ last :: free) := by simp

/-- The lock stands before `last`: it is unlinked, and what follows depends on the
node behind `last`. -/
theorem Bucket.lockPut_middle (ok : Bucket chain bucket (front ++ lock :: (mid ++ [last])) free)
    (isPrev : prev = front.getLast?) (isNext : next = (mid ++ last :: free).head?) :
    lockPut chain lock = (free.head?.map fun after =>
        { chain with nodes := relinked (unlinked chain.nodes lock prev next) lock last after }) ∧
      Dll.Linked (prevOf (unlinked chain.nodes lock prev next))
        (nextOf (unlinked chain.nodes lock prev next)) (front ++ mid ++ last :: free) ∧
      lock ∉ front ++ mid ++ last :: free ∧ (front ++ mid ++ last :: free).Nodup := by
  have once := middle_cells ▸ ok.once
  have linked := middle_cells ▸ ok.linked
  have inCells : ∀ c ∈ front ++ lock :: (mid ++ last :: free), c < chain.nodes.length :=
    fun c member => ok.inside c (by rwa [middle_cells])
  obtain ⟨back, forth, out⟩ := linked.unlink once
  rw [← isPrev] at back
  rw [← isNext] at forth
  have shorter : front ++ (mid ++ last :: free) = front ++ mid ++ last :: free := by simp
  have fresh : lock ∉ front ++ mid ++ last :: free := by
    rw [← shorter]
    exact (List.nodup_cons.mp (List.nodup_middle.mp once)).1
  have onceOut : (front ++ mid ++ last :: free).Nodup := by
    rw [← shorter]
    exact (List.nodup_cons.mp (List.nodup_middle.mp once)).2
  have inPrev : ∀ p, prev = some p → p < chain.nodes.length := fun p isP =>
    inCells p (List.mem_append_left _ (List.mem_of_mem_getLast? (isPrev ▸ isP)))
  have inNext : ∀ n, next = some n → n < chain.nodes.length := fun n isN =>
    inCells n (List.mem_append_right _
      (List.mem_cons_of_mem lock (List.mem_of_mem_head? (isNext ▸ isN))))
  rw [shorter, back, forth, ← unlinked_prev lock chain.nodes inNext,
    ← unlinked_next lock chain.nodes inPrev] at out
  have behind : nextOf (unlinked chain.nodes lock prev next) last = free.head? :=
    (out.unlink onceOut).2.1
  obtain ⟨name, here, -⟩ := ok.named lock (by simp)
  obtain ⟨node, stored, spelled⟩ := nameOf_eq here
  have isLast : chain.last = some last := by
    rw [ok.last, List.getLast?_append, List.getLast?_cons]
    simp
  have notLast : last ≠ lock := by
    rintro rfl
    exact fresh (by simp)
  have put := lockPut_moves stored spelled isLast notLast
  rw [← prevOf_eq stored, ← nextOf_eq stored, back, forth, behind] at put
  exact ⟨put, out, fresh, onceOut⟩

/-- A held lock that is neither first nor last moves behind the last one, provided a
free node follows there. -/
theorem Bucket.lockPut_inside
    (ok : Bucket chain bucket (front ++ lock :: (mid ++ [last])) (after :: free))
    (notFirst : front ≠ []) :
    ∃ chain', lockPut chain lock = some chain' ∧
      Bucket chain' bucket (front ++ mid ++ [last]) (lock :: after :: free) ∧
      chain'.nodes.length = chain.nodes.length ∧
      ∀ c ∉ front ++ lock :: (mid ++ [last]) ++ after :: free,
        chain'.nodes[c]? = chain.nodes[c]? := by
  obtain ⟨put, linked, fresh, once⟩ := ok.lockPut_middle rfl rfl
  have moved : front ++ mid ++ [last] ++ lock :: after :: free =
      (front ++ mid) ++ last :: lock :: after :: free := by simp
  have inCells : ∀ c ∈ front ++ lock :: (mid ++ last :: after :: free), c < chain.nodes.length :=
    fun c member => ok.inside c (by rwa [middle_cells])
  have inLock : lock < chain.nodes.length := inCells lock (by simp)
  have inLast : last < chain.nodes.length := inCells last (by simp)
  have inAfter : after < chain.nodes.length := inCells after (by simp)
  set nodes := unlinked chain.nodes lock front.getLast? (mid ++ last :: after :: free).head?
  have size : nodes.length = chain.nodes.length := unlinked_length ..
  have names : nameOf (relinked nodes lock last after) =
      Function.update (nameOf chain.nodes) lock none :=
    (relinked_name ..).trans (unlinked_name lock chain.nodes inLock)
  have apart : lock ∉ front ++ mid ++ [last] := by
    intro member
    apply fresh
    simp only [List.mem_append, List.mem_cons, List.not_mem_nil, or_false] at member ⊢
    tauto
  have oldHeld : ∀ c ∈ front ++ mid ++ [last], c ∈ front ++ lock :: (mid ++ [last]) := by
    intro c member
    simp only [List.mem_append, List.mem_cons] at member ⊢
    tauto
  refine ⟨_, put, ?_, (relinked_length ..).trans size, ?_⟩
  · exact {
      nonempty := by simp
      inside := by
        intro c member
        rw [relinked_length, size]
        apply inCells
        simp only [List.mem_append, List.mem_cons, List.not_mem_nil, or_false] at member ⊢
        tauto
      once := by
        have left : front ++ mid ++ [last] ++ after :: free =
            (front ++ mid) ++ last :: after :: free := by simp
        rw [List.nodup_middle, left]
        exact List.nodup_cons.mpr ⟨fresh, once⟩
      linked := by
        have spelled := (linked.insertAfter once fresh).2
        rw [(linked.unlink once).2.1, List.head?_cons] at spelled
        simp only [relinked_prev lock nodes (inLock.trans_eq size.symm) (inAfter.trans_eq size.symm),
          relinked_next lock nodes (inLock.trans_eq size.symm) (inLast.trans_eq size.symm), moved]
        exact spelled
      first := by
        obtain ⟨f, rest, rfl⟩ := List.exists_cons_of_ne_nil notFirst
        exact ok.first
      last := by
        have old := ok.last
        simpa [List.getLast?_cons] using old
      named := by
        intro c member
        simp only [names]
        rw [Function.update_of_ne (ne_of_mem_of_not_mem member apart)]
        exact ok.named c (oldHeld c member)
      distinct := by
        simp only [names, map_update_of_not_mem apart]
        refine ok.distinct.sublist (List.Sublist.map _ ?_)
        rw [List.append_assoc]
        exact (List.sublist_cons_self _ _).append_left front
      unnamed := by
        intro c member
        simp only [names]
        rcases List.mem_cons.mp member with rfl | behind
        · exact Function.update_self ..
        · have other : c ≠ lock := by
            rintro rfl
            exact fresh (List.mem_append_right _ (List.mem_cons_of_mem last behind))
          rw [Function.update_of_ne other]
          exact ok.unnamed c behind }
  · intro c outside
    rw [middle_cells] at outside
    have other : ∀ d ∈ front ++ lock :: (mid ++ last :: after :: free), c ≠ d := by
      rintro d member rfl
      exact outside member
    refine (relinked_other lock nodes (other lock (by simp)) (other last (by simp))
      (other after (by simp))).trans (unlinked_other lock chain.nodes (other lock (by simp)) ?_ ?_)
    · intro isPrev
      exact other c (List.mem_append_left _ (List.mem_of_mem_getLast? isPrev)) rfl
    · intro isNext
      exact other c
        (List.mem_append_right _ (List.mem_cons_of_mem lock (List.mem_of_mem_head? isNext))) rfl

/-- Releasing a lock before the last one with no free node behind: `last->next` is
dereferenced though NULL. -/
theorem Bucket.lockPut_null (ok : Bucket chain bucket (front ++ lock :: (mid ++ [last])) []) :
    lockPut chain lock = none := (ok.lockPut_middle rfl rfl).1

/-- Releasing the first of several held locks leaves `first` at the released node. -/
theorem Bucket.lockPut_first (ok : Bucket chain bucket (lock :: (mid ++ [last])) (after :: free)) :
    ∃ chain', lockPut chain lock = some chain' ∧ chain'.first = some lock ∧
      chain'.last = some last ∧ nameOf chain'.nodes lock = none := by
  have middle : Bucket chain bucket ([] ++ lock :: (mid ++ [last])) (after :: free) := ok
  refine ⟨_, (middle.lockPut_middle rfl rfl).1, ok.first, ?_, ?_⟩
  · have old := ok.last
    simpa [List.getLast?_cons] using old
  · have inLock : lock < chain.nodes.length := ok.inside lock (by simp)
    rw [relinked_name, unlinked_name lock chain.nodes inLock]
    exact Function.update_self ..

end Moves

end Put

end Otpd

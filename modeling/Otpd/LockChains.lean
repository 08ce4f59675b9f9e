import Otpd.LockTable

/-!
# Runs of the lock chains

Sequences of `lock_get` and `lock_put` over all buckets.  `WellFormed` is the
representation invariant of the whole table together with the locks that were handed
out and not put back.
-/

set_option autoImplicit false

namespace Otpd

open CMem

namespace LockTable

theorem store_chain (table : LockTable) (bucket : Nat) :
    table.store bucket (table.chain bucket) = table := by
  simp [store, chain]

theorem chain_store (table : LockTable) (bucket : Nat) (chain : Chain) :
    (table.store bucket chain).chain bucket = chain := by
  simp [store, LockTable.chain]

theorem chain_store_other (table : LockTable) {bucket other : Nat} (apart : other ≠ bucket)
    (chain : Chain) : (table.store bucket chain).chain other =
      ⟨chain.nodes, table.first other, table.last other⟩ := by
  simp [store, LockTable.chain, apart]

end LockTable

/-- Every allocated node is in exactly one chain, and every chain is well formed. -/
structure TableOk (table : LockTable) (held free : Nat → List Nat) : Prop where
  bucket : ∀ b < uhashSize, Bucket (table.chain b) b (held b) (free b)
  apart : ∀ b < uhashSize, ∀ b' < uhashSize, ∀ a ∈ held b ++ free b, a ∈ held b' ++ free b' → b = b'
  cover : ∀ a < table.nodes.length, ∃ b < uhashSize, a ∈ held b ++ free b

section Table

variable {table : LockTable} {held free : Nat → List Nat} {b : Nat}

/-- One chain was rewritten, with nodes of its own and newly allocated ones. -/
theorem TableOk.store (ok : TableOk table held free) (valid : b < uhashSize) {chain : Chain}
    {held' free' : List Nat} (new : Bucket chain b held' free')
    (cells : ∀ c, c ∈ held' ++ free' ↔
      c ∈ held b ++ free b ∨ (table.nodes.length ≤ c ∧ c < chain.nodes.length))
    (same : ∀ c ∉ held b ++ free b, c < table.nodes.length → chain.nodes[c]? = table.nodes[c]?) :
    TableOk (table.store b chain) (Function.update held b held') (Function.update free b free') := by
  have old : ∀ b' < uhashSize, b' ≠ b → ∀ c ∈ held b' ++ free b',
      c ∉ held b ++ free b ∧ c < table.nodes.length := by
    intro b' valid' other c member
    exact ⟨fun here => other (ok.apart b' valid' b valid c member here),
      (ok.bucket b' valid').inside c member⟩
  have mixed : ∀ b' < uhashSize, b' ≠ b → ∀ c ∈ held' ++ free', c ∉ held b' ++ free b' := by
    intro b' valid' other c member there
    obtain ⟨notHere, small⟩ := old b' valid' other c there
    rcases (cells c).mp member with here | ⟨large, -⟩
    · exact notHere here
    · omega
  refine ⟨?_, ?_, ?_⟩
  · intro b' valid'
    by_cases here : b' = b
    · subst here
      rw [LockTable.chain_store, Function.update_self, Function.update_self]
      exact new
    · rw [LockTable.chain_store_other table here, Function.update_of_ne here,
        Function.update_of_ne here]
      refine (ok.bucket b' valid').frame ?_
      intro c member
      obtain ⟨notHere, small⟩ := old b' valid' here c member
      exact same c notHere small
  · intro b1 valid1 b2 valid2 c in1 in2
    by_cases here1 : b1 = b
    · by_cases here2 : b2 = b
      · rw [here1, here2]
      · subst here1
        rw [Function.update_self, Function.update_self] at in1
        rw [Function.update_of_ne here2, Function.update_of_ne here2] at in2
        exact absurd in2 (mixed b2 valid2 here2 c in1)
    · rw [Function.update_of_ne here1, Function.update_of_ne here1] at in1
      by_cases here2 : b2 = b
      · subst here2
        rw [Function.update_self, Function.update_self] at in2
        exact absurd in1 (mixed b1 valid1 here1 c in2)
      · rw [Function.update_of_ne here2, Function.update_of_ne here2] at in2
        exact ok.apart b1 valid1 b2 valid2 c in1 in2
  · intro c small
    have mine : c ∈ held' ++ free' → ∃ b' < uhashSize,
        c ∈ Function.update held b held' b' ++ Function.update free b free' b' := by
      intro member
      refine ⟨b, valid, ?_⟩
      rw [Function.update_self, Function.update_self]
      exact member
    by_cases before : c < table.nodes.length
    · obtain ⟨b', valid', member⟩ := ok.cover c before
      by_cases here : b' = b
      · subst here
        exact mine ((cells c).mpr (.inl member))
      · refine ⟨b', valid', ?_⟩
        rw [Function.update_of_ne here, Function.update_of_ne here]
        exact member
    · exact mine ((cells c).mpr (.inr ⟨by omega, small⟩))

theorem TableOk.named (ok : TableOk table held free) (valid : b < uhashSize) {a : Nat}
    (member : a ∈ held b) :
    ∃ username, nameOf table.nodes a = some username ∧ uhash username.bytes = b :=
  (ok.bucket b valid).named a member

/-- A name that is held is held in its own bucket. -/
theorem TableOk.own_bucket (ok : TableOk table held free) (valid : b < uhashSize) {a : Nat}
    {username : Username} (member : a ∈ held b) (named : nameOf table.nodes a = some username) :
    b = uhash username.bytes := by
  obtain ⟨name, here, hashed⟩ := ok.named valid member
  rw [named] at here
  rw [Option.some.inj here]
  exact hashed.symm

variable {username : Username} {now : Int}

theorem TableOk.lockGet_held (ok : TableOk table held free) {a : Nat}
    (member : a ∈ held (uhash username.bytes)) (named : nameOf table.nodes a = some username)
    (fresh : ∀ node, table.nodes[a]? = some node → now < node.ltime + lockExpiry) :
    table.lockGet username now = some (none, table) := by
  have got := (ok.bucket _ (uhash_lt username.bytes)).lockGet_held member named fresh
  simp only [LockTable.lockGet, got, Option.map_some, LockTable.store_chain]

variable (now)

/-- A name that is not held is granted a node, which joins the held ones of its bucket. -/
theorem TableOk.lockGet_absent (ok : TableOk table held free)
    (absent : ∀ a ∈ held (uhash username.bytes), nameOf table.nodes a ≠ some username) :
    ∃ lock table' free', table.lockGet username now = some (some lock, table') ∧
      TableOk table' (Function.update held (uhash username.bytes)
        (held (uhash username.bytes) ++ [lock])) free' ∧
      ∀ b < uhashSize, lock ∉ held b := by
  have valid := uhash_lt username.bytes
  set b := uhash username.bytes with isB
  have mine := ok.bucket b valid
  cases spare : free b with
  | nil =>
      rw [spare] at mine
      obtain ⟨chain, got, new, size, same⟩ := mine.lockGet_alloc now absent isB.symm
      refine ⟨table.nodes.length, table.store b chain, Function.update free b [], ?_, ?_, ?_⟩
      · simp only [LockTable.lockGet, ← isB, got, Option.map_some]
        rfl
      · refine ok.store valid new ?_ ?_
        · intro c
          rw [spare]
          have here : (table.chain b).nodes.length = table.nodes.length := rfl
          have only : c = table.nodes.length ↔
              table.nodes.length ≤ c ∧ c < table.nodes.length + 1 := by omega
          simp only [List.append_nil, List.mem_append, List.mem_singleton, size, here, only]
        · intro c outside small
          exact same c (fun member => outside (List.mem_append_left _ member)) small
      · intro b' valid' member
        have := (ok.bucket b' valid').inside _ (List.mem_append_left _ member)
        exact Nat.lt_irrefl _ this
  | cons lock rest =>
      rw [spare] at mine
      obtain ⟨chain, got, new, size, same⟩ := mine.lockGet_reuse now absent isB.symm
      have inFree : lock ∈ free b := by
        rw [spare]
        exact List.mem_cons_self
      refine ⟨lock, table.store b chain, Function.update free b rest, ?_, ?_, ?_⟩
      · simp only [LockTable.lockGet, ← isB, got, Option.map_some]
      · refine ok.store valid new ?_ ?_
        · intro c
          rw [spare]
          have here : (table.chain b).nodes.length = table.nodes.length := rfl
          simp only [List.mem_append, List.mem_cons, List.not_mem_nil, or_false, size, here]
          have bound : ¬ (table.nodes.length ≤ c ∧ c < table.nodes.length) := by omega
          tauto
        · intro c outside _
          refine same c ?_
          rintro rfl
          exact outside (List.mem_append_right _ inFree)
      · intro b' valid' member
        have b'b := ok.apart b' valid' b valid lock (List.mem_append_left _ member)
          (List.mem_append_right _ inFree)
        subst b'b
        have once := mine.once
        exact List.disjoint_of_nodup_append once member List.mem_cons_self

end Table

/-! ## Sequences of calls -/

/-- `out`: the locks returned by a `lock_get` and not yet put. -/
structure LockWorld where
  table : LockTable
  out : List Nat

def LockWorld.start : LockWorld := ⟨LockTable.init, []⟩

inductive LockEvent where
  | get (username : Username) (now : Int)
  | put (lock : Nat)

/-- `none` is a NULL dereference. -/
def lockStep (w : LockWorld) : LockEvent → Option LockWorld
  | .get username now => (w.table.lockGet username now).map fun (lock, table) =>
      ⟨table, lock.toList ++ w.out⟩
  | .put lock => (w.table.lockPut lock).map fun table => ⟨table, w.out.erase lock⟩

/-- A put is of a lock that is out, and no lock out is 24 s old. -/
def LockRule (w : LockWorld) : LockEvent → Prop
  | .get _ now => ∀ lock ∈ w.out, ∀ node, w.table.nodes[lock]? = some node →
      now < node.ltime + lockExpiry
  | .put lock => lock ∈ w.out

/-- The chains are well formed and their held locks are those that are out. -/
def WellFormed (w : LockWorld) : Prop :=
  ∃ held free, TableOk w.table held free ∧ w.out.Nodup ∧
    ∀ lock, lock ∈ w.out ↔ ∃ b < uhashSize, lock ∈ held b

def LockWorld.Held (w : LockWorld) (username : Username) : Prop :=
  ∃ lock ∈ w.out, nameOf w.table.nodes lock = some username

/-- The call dereferences no NULL and leaves well-formed chains, and `lock_get` fails
exactly when the name is held. -/
def LockCallOk (w : LockWorld) : LockEvent → Prop
  | .get username now => ∃ lock table, w.table.lockGet username now = some (lock, table) ∧
      WellFormed ⟨table, lock.toList ++ w.out⟩ ∧ (lock = none ↔ w.Held username)
  | .put lock => ∃ table, w.table.lockPut lock = some table ∧ WellFormed ⟨table, w.out.erase lock⟩

/-- The lock put is the last one of its chain, or it is not the first one and a free
node follows the last. -/
def PutInPlace (w : LockWorld) : LockEvent → Prop
  | .get _ _ => True
  | .put lock => ∀ username, nameOf w.table.nodes lock = some username →
      w.table.last (uhash username.bytes) = some lock ∨
        (w.table.first (uhash username.bytes) ≠ some lock ∧
          ∃ last, w.table.last (uhash username.bytes) = some last ∧
            nextOf w.table.nodes last ≠ none)

theorem LockCallOk.step {w w' : LockWorld} {e : LockEvent} (ok : LockCallOk w e)
    (taken : lockStep w e = some w') : WellFormed w' := by
  cases e with
  | get username now =>
      obtain ⟨lock, table, got, formed, -⟩ := ok
      simp only [lockStep, got, Option.map_some, Option.some.injEq] at taken
      subst taken
      exact formed
  | put lock =>
      obtain ⟨table, put, formed⟩ := ok
      simp only [lockStep, put, Option.map_some, Option.some.injEq] at taken
      subst taken
      exact formed

section Calls

variable {w : LockWorld} {username : Username} {now : Int} {lock : Nat}

theorem lockGet_ok (formed : WellFormed w) (rule : LockRule w (.get username now)) :
    LockCallOk w (.get username now) := by
  obtain ⟨held, free, ok, once, outs⟩ := formed
  have valid := uhash_lt username.bytes
  by_cases holds : w.Held username
  · obtain ⟨lock, out, named⟩ := holds
    obtain ⟨b, validB, member⟩ := (outs lock).mp out
    have here := ok.own_bucket validB member named
    subst here
    refine ⟨none, w.table, ok.lockGet_held member named (rule lock out), ?_, ?_⟩
    · exact ⟨held, free, ok, once, outs⟩
    · simp only [true_iff]
      exact ⟨lock, out, named⟩
  · have absent : ∀ a ∈ held (uhash username.bytes), nameOf w.table.nodes a ≠ some username := by
      intro a member named
      exact holds ⟨a, (outs a).mpr ⟨_, valid, member⟩, named⟩
    obtain ⟨lock, table, free', got, ok', fresh⟩ := ok.lockGet_absent now absent
    refine ⟨some lock, table, got, ⟨_, free', ok', ?_, ?_⟩, by simp [holds]⟩
    · refine List.nodup_cons.mpr ⟨?_, once⟩
      intro out
      obtain ⟨b, validB, member⟩ := (outs lock).mp out
      exact fresh b validB member
    · intro a
      simp only [Option.toList_some, List.cons_append, List.nil_append, List.mem_cons, outs]
      constructor
      · rintro (rfl | ⟨b, validB, member⟩)
        · exact ⟨_, valid, by rw [Function.update_self]; simp⟩
        · refine ⟨b, validB, ?_⟩
          by_cases here : b = uhash username.bytes
          · subst here
            rw [Function.update_self]
            exact List.mem_append_left _ member
          · rw [Function.update_of_ne here]
            exact member
      · rintro ⟨b, validB, member⟩
        by_cases here : b = uhash username.bytes
        · subst here
          rw [Function.update_self] at member
          rcases List.mem_append.mp member with old | new
          · exact .inr ⟨_, valid, old⟩
          · exact .inl (List.mem_singleton.mp new)
        · rw [Function.update_of_ne here] at member
          exact .inr ⟨b, validB, member⟩

/-- The chain of bucket `b` was rewritten so that `lock` is no longer held. -/
theorem wellFormed_release {held free : Nat → List Nat} {b : Nat} {chain : Chain}
    {held' free' : List Nat} (ok : TableOk w.table held free) (once : w.out.Nodup)
    (outs : ∀ lock, lock ∈ w.out ↔ ∃ b < uhashSize, lock ∈ held b) (valid : b < uhashSize)
    (new : Bucket chain b held' free') (size : chain.nodes.length = w.table.nodes.length)
    (left : (held b).Perm (lock :: held')) (cells : (held' ++ free').Perm (held b ++ free b))
    (same : ∀ c ∉ held b ++ free b, chain.nodes[c]? = w.table.nodes[c]?) :
    WellFormed ⟨w.table.store b chain, w.out.erase lock⟩ := by
  have member : lock ∈ held b := left.mem_iff.mpr List.mem_cons_self
  have onceHeld : (lock :: held').Nodup :=
    left.nodup_iff.mp (List.nodup_append.mp (ok.bucket b valid).once).1
  refine ⟨_, _, ok.store valid new ?_ (fun c outside _ => same c outside), once.erase lock, ?_⟩
  · intro c
    have bound : ¬ (w.table.nodes.length ≤ c ∧ c < chain.nodes.length) := by omega
    rw [cells.mem_iff]
    simp only [bound, or_false]
  · intro c
    rw [once.mem_erase_iff, outs]
    constructor
    · rintro ⟨other, b', valid', there⟩
      refine ⟨b', valid', ?_⟩
      by_cases here : b' = b
      · subst here
        rw [Function.update_self]
        exact (List.mem_cons.mp (left.mem_iff.mp there)).resolve_left other
      · rw [Function.update_of_ne here]
        exact there
    · rintro ⟨b', valid', there⟩
      by_cases here : b' = b
      · subst here
        rw [Function.update_self] at there
        exact ⟨ne_of_mem_of_not_mem there (List.nodup_cons.mp onceHeld).1, b', valid',
          left.mem_iff.mpr (List.mem_cons_of_mem lock there)⟩
      · rw [Function.update_of_ne here] at there
        refine ⟨?_, b', valid', there⟩
        rintro rfl
        exact here (ok.apart b' valid' b valid c (List.mem_append_left _ there)
          (List.mem_append_left _ member))

/-- The first held lock of a bucket is never a released one. -/
theorem WellFormed.first_named {b first last : Nat} (formed : WellFormed w) (valid : b < uhashSize)
    (isFirst : w.table.first b = some first) (isLast : w.table.last b = some last) :
    nameOf w.table.nodes first ≠ none := by
  obtain ⟨held, free, ok, -, -⟩ := formed
  have bucket := ok.bucket b valid
  have headed : (held b ++ free b).head? = some first := bucket.first.symm.trans isFirst
  have ended : (held b).getLast? = some last := bucket.last.symm.trans isLast
  cases locks : held b with
  | nil =>
      rw [locks] at ended
      cases ended
  | cons a rest =>
      rw [locks] at headed
      obtain rfl : a = first := by simpa using headed
      obtain ⟨username, named, -⟩ := bucket.named a (by rw [locks]; exact List.mem_cons_self)
      have named : nameOf w.table.nodes a = some username := named
      rw [named]
      exact Option.some_ne_none username

theorem lockPut_eq {b : Nat} {username : Username} (named : nameOf w.table.nodes lock = some username)
    (hashed : uhash username.bytes = b) :
    w.table.lockPut lock = (lockPut (w.table.chain b) lock).map (w.table.store b) := by
  obtain ⟨node, stored, spelled⟩ := nameOf_eq named
  simp only [LockTable.lockPut, stored, spelled, hashed, Option.bind_eq_bind, Option.bind_some]

section Put

variable {held free : Nat → List Nat} {b : Nat} {front mid rest : List Nat} {last after : Nat}

theorem lockPut_last_ok (ok : TableOk w.table held free) (once : w.out.Nodup)
    (outs : ∀ lock, lock ∈ w.out ↔ ∃ b < uhashSize, lock ∈ held b) (valid : b < uhashSize)
    (split : held b = front ++ [lock]) : LockCallOk w (.put lock) := by
  have bucket := ok.bucket b valid
  obtain ⟨username, named, hashed⟩ := ok.named valid (a := lock) (by rw [split]; simp)
  rw [split] at bucket
  obtain ⟨chain, released, new, size, same⟩ := bucket.lockPut_last
  have put := lockPut_eq named hashed
  rw [released, Option.map_some] at put
  refine ⟨_, put, wellFormed_release ok once outs valid new size ?_ ?_ ?_⟩
  · rw [split]
    exact List.perm_append_singleton lock front
  · rw [split, List.append_assoc]
    rfl
  · intro c outside
    refine same c ?_
    rintro rfl
    exact outside (by rw [split]; simp)

theorem lockPut_inside_ok (ok : TableOk w.table held free) (once : w.out.Nodup)
    (outs : ∀ lock, lock ∈ w.out ↔ ∃ b < uhashSize, lock ∈ held b) (valid : b < uhashSize)
    (split : held b = front ++ lock :: (mid ++ [last])) (spare : free b = after :: rest)
    (notFirst : front ≠ []) : LockCallOk w (.put lock) := by
  have bucket := ok.bucket b valid
  obtain ⟨username, named, hashed⟩ := ok.named valid (a := lock) (by rw [split]; simp)
  rw [split, spare] at bucket
  obtain ⟨chain, released, new, size, same⟩ := bucket.lockPut_inside notFirst
  have put := lockPut_eq named hashed
  rw [released, Option.map_some] at put
  refine ⟨_, put, wellFormed_release ok once outs valid new size ?_ ?_ ?_⟩
  · rw [split, List.append_assoc]
    exact List.perm_middle
  · rw [split, spare]
    refine List.perm_middle.trans ?_
    have moved : lock :: (front ++ mid ++ [last] ++ after :: rest) =
        lock :: (front ++ (mid ++ [last] ++ after :: rest)) := by simp
    have whole : front ++ lock :: (mid ++ [last]) ++ after :: rest =
        front ++ lock :: (mid ++ [last] ++ after :: rest) := by simp
    rw [moved, whole]
    exact List.perm_middle.symm
  · intro c outside
    rw [split, spare] at outside
    exact same c outside

theorem lockPut_null_fails (ok : TableOk w.table held free) (valid : b < uhashSize)
    (split : held b = front ++ lock :: (mid ++ [last])) (spare : free b = []) :
    ¬ LockCallOk w (.put lock) := by
  have bucket := ok.bucket b valid
  obtain ⟨username, named, hashed⟩ := ok.named valid (a := lock) (by rw [split]; simp)
  rw [split, spare] at bucket
  have put := lockPut_eq named hashed
  rw [bucket.lockPut_null] at put
  rintro ⟨table, wrong, -⟩
  rw [put] at wrong
  cases wrong

theorem lockPut_first_fails (ok : TableOk w.table held free) (valid : b < uhashSize)
    (split : held b = lock :: (mid ++ [last])) (spare : free b = after :: rest) :
    ¬ LockCallOk w (.put lock) := by
  have bucket := ok.bucket b valid
  obtain ⟨username, named, hashed⟩ := ok.named valid (a := lock) (by rw [split]; simp)
  rw [split, spare] at bucket
  obtain ⟨chain, released, first', last', cleared⟩ := bucket.lockPut_first
  have put := lockPut_eq named hashed
  rw [released, Option.map_some] at put
  rintro ⟨table, got, formed⟩
  rw [put] at got
  cases got
  have isFirst : (w.table.store b chain).first b = some lock :=
    (Function.update_self ..).trans first'
  have isLast : (w.table.store b chain).last b = some last :=
    (Function.update_self ..).trans last'
  exact formed.first_named valid isFirst isLast cleared

/-- What the fields of the chain say about a lock before the last one. -/
theorem TableOk.middle (ok : TableOk w.table held free) (valid : b < uhashSize)
    (split : held b = front ++ lock :: (mid ++ [last])) :
    w.table.last b = some last ∧ last ≠ lock ∧
      nextOf w.table.nodes last = (free b).head? ∧
      (w.table.first b = some lock ↔ front = []) := by
  have bucket := ok.bucket b valid
  rw [split] at bucket
  have cells : front ++ lock :: (mid ++ [last]) ++ free b =
      (front ++ lock :: mid) ++ last :: free b := by simp
  have once := bucket.once
  have linked := bucket.linked
  rw [cells] at once linked
  have isLast : (w.table.chain b).last = some last := by
    rw [bucket.last]
    simp [List.getLast?_cons]
  have starts : w.table.first b = (front ++ lock :: (mid ++ [last]) ++ free b).head? := bucket.first
  refine ⟨isLast, ?_, (linked.unlink once).2.1, ?_⟩
  · rintro rfl
    exact List.disjoint_of_nodup_append once (by simp) List.mem_cons_self
  · rw [starts]
    cases front with
    | nil => simp
    | cons f front =>
        have other : f ≠ lock := by
          rintro rfl
          simp at once
        simpa using other

end Put

theorem lockPut_ok_iff (formed : WellFormed w) (rule : LockRule w (.put lock)) :
    LockCallOk w (.put lock) ↔ PutInPlace w (.put lock) := by
  obtain ⟨held, free, ok, once, outs⟩ := formed
  obtain ⟨b, valid, member⟩ := (outs lock).mp rule
  obtain ⟨username, named, hashed⟩ := ok.named valid member
  have place : PutInPlace w (.put lock) ↔ (w.table.last b = some lock ∨
      (w.table.first b ≠ some lock ∧ ∃ last, w.table.last b = some last ∧
        nextOf w.table.nodes last ≠ none)) := by
    simp only [PutInPlace, named, Option.some.injEq, forall_eq', hashed]
  rw [place]
  obtain ⟨front, rest, split⟩ := List.append_of_mem member
  rcases List.eq_nil_or_concat' rest with rfl | ⟨mid, last, rfl⟩
  · have isLast : w.table.last b = (held b).getLast? := (ok.bucket b valid).last
    rw [split, List.getLast?_concat] at isLast
    exact iff_of_true (lockPut_last_ok ok once outs valid split) (.inl isLast)
  · obtain ⟨isLast, other, behind, isFirst⟩ := ok.middle valid split
    have notLast : w.table.last b ≠ some lock := by
      rw [isLast]
      exact fun wrong => other (Option.some.inj wrong)
    cases spare : free b with
    | nil =>
        refine iff_of_false (lockPut_null_fails ok valid split spare) ?_
        rintro (wrong | ⟨-, last', isLast', follows⟩)
        · exact notLast wrong
        · rw [isLast] at isLast'
          cases isLast'
          exact follows (by rw [behind, spare]; rfl)
    | cons after rest =>
        by_cases first : front = []
        · subst first
          refine iff_of_false (lockPut_first_fails ok valid split spare) ?_
          rintro (wrong | ⟨wrong, -⟩)
          · exact notLast wrong
          · exact wrong (isFirst.mpr rfl)
        · refine iff_of_true (lockPut_inside_ok ok once outs valid split spare first) (.inr ?_)
          refine ⟨fun wrong => first (isFirst.mp wrong), last, isLast, ?_⟩
          rw [behind, spare]
          exact Option.some_ne_none after

theorem lockCallOk_iff (formed : WellFormed w) {e : LockEvent} (rule : LockRule w e) :
    LockCallOk w e ↔ PutInPlace w e := by
  cases e with
  | get username now => exact iff_of_true (lockGet_ok formed rule) trivial
  | put lock => exact lockPut_ok_iff formed rule

end Calls

/-! ## Whole sequences -/

theorem wellFormed_start : WellFormed LockWorld.start := by
  have blank : ∀ {F : Type} (field : LockNode → Option F), field ⟨none, 0, none, none⟩ = none →
      ∀ a, fieldOf field LockTable.init.nodes a = none := by
    intro F field empty a
    simp only [fieldOf, LockTable.init, List.getElem?_replicate]
    split
    · exact empty
    · rfl
  refine ⟨fun _ => [], fun b => [b], ⟨?_, ?_, ?_⟩, List.nodup_nil, ?_⟩
  · intro b valid
    exact {
      nonempty := List.cons_ne_nil b []
      inside := by
        intro a member
        obtain rfl := List.mem_singleton.mp member
        simpa [LockTable.chain, LockWorld.start, LockTable.init] using valid
      once := List.nodup_singleton b
      linked := ⟨blank LockNode.prev rfl b, blank LockNode.next rfl b, trivial⟩
      first := if_pos valid
      last := rfl
      named := by simp
      distinct := List.nodup_nil
      unnamed := fun a _ => blank LockNode.username rfl a }
  · intro b _ b' _ a inB inB'
    exact (List.mem_singleton.mp inB).symm.trans (List.mem_singleton.mp inB')
  · intro a inside
    exact ⟨a, by simpa [LockWorld.start, LockTable.init] using inside, by simp⟩
  · simp [LockWorld.start]

theorem lock_chains_kept_iff (es : List LockEvent)
    (rule : Schedule.Along lockStep LockRule LockWorld.start es) :
    (Schedule.Along lockStep LockCallOk LockWorld.start es ∧
      ∃ w, Schedule.run lockStep LockWorld.start es = some w ∧ WellFormed w) ↔
    Schedule.Along lockStep PutInPlace LockWorld.start es := by
  have same := Schedule.along_iff WellFormed LockCallOk
    (fun w e formed rule => lockCallOk_iff formed rule)
    (fun w e next _ _ ok taken => ok.step taken) wellFormed_start rule
  constructor
  · rintro ⟨calls, -⟩
    exact same.mp calls
  · intro places
    have calls := same.mpr places
    refine ⟨calls, Schedule.run_total WellFormed ?_ wellFormed_start calls⟩
    intro w e _ ok
    cases e with
    | get username now =>
        obtain ⟨lock, table, got, formed, -⟩ := ok
        exact ⟨_, by simp only [lockStep, got, Option.map_some], formed⟩
    | put lock =>
        obtain ⟨table, put, formed⟩ := ok
        exact ⟨_, by simp only [lockStep, put, Option.map_some], formed⟩

instance (w : LockWorld) : ∀ e, Decidable (LockRule w e)
  | .get _ now => inferInstanceAs (Decidable
      (∀ lock ∈ w.out, ∀ node ∈ w.table.nodes[lock]?, now < node.ltime + lockExpiry))
  | .put lock => inferInstanceAs (Decidable (lock ∈ w.out))

instance (w : LockWorld) : ∀ e, Decidable (PutInPlace w e)
  | .get _ _ => .isTrue trivial
  | .put lock => inferInstanceAs (Decidable (∀ username ∈ nameOf w.table.nodes lock,
      w.table.last (uhash username.bytes) = some lock ∨
        (w.table.first (uhash username.bytes) ≠ some lock ∧
          ∃ last ∈ w.table.last (uhash username.bytes), nextOf w.table.nodes last ≠ none)))

/-- Users whose names hash to the same bucket. -/
def userAbc : Username := ⟨ascii "abc", by decide, by decide⟩
def userAcb : Username := ⟨ascii "acb", by decide, by decide⟩
def userBac : Username := ⟨ascii "bac", by decide, by decide⟩
def userBca : Username := ⟨ascii "bca", by decide, by decide⟩

/-- Four users at once; the last one leaves first, then one from the middle. -/
def fourUsers : List LockEvent :=
  [.get userAbc 0, .get userAcb 1, .get userBac 2, .get userBca 3, .put 66, .put 64,
    .get userAcb 4]

theorem lock_chains_kept_four :
    Schedule.Along lockStep LockCallOk LockWorld.start fourUsers ∧
      ∃ w, Schedule.run lockStep LockWorld.start fourUsers = some w ∧ WellFormed w :=
  (lock_chains_kept_iff fourUsers (by decide +kernel)).mpr (by decide +kernel)

/-- Two users of one bucket; the first to come is the first to leave. -/
def twoUsers : List LockEvent := [.get userAbc 0, .get userAcb 1, .put (uhash (ascii "abc"))]

theorem lock_put_null_dereference :
    Schedule.Along lockStep LockRule LockWorld.start twoUsers ∧
      Schedule.run lockStep LockWorld.start twoUsers = none :=
  ⟨by decide +kernel, Option.isNone_iff_eq_none.mp (by decide +kernel)⟩

end Otpd

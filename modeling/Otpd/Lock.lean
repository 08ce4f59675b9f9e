import Otpd.Types

/-!
# The user lock

`lock.c` for one hash bucket.  A node's address is its index in `nodes`; `none` as
the result of an operation stands for a NULL dereference.  Each operation runs
under the chain mutex, so it is one step here.
-/

set_option autoImplicit false

namespace Otpd

open CMem

/-- `ulock_t`. -/
structure LockNode where
  username : Option Username
  ltime : Int
  prev : Option Nat
  next : Option Nat
  deriving DecidableEq

/-- `struct ulock_chain_t` and the nodes allocated for it. -/
structure Chain where
  nodes : List LockNode
  first : Option Nat
  last : Option Nat
  deriving DecidableEq

def lockInit : Chain := ⟨[⟨none, 0, none, none⟩], some 0, none⟩

def Chain.update (chain : Chain) (lock : Nat) (f : LockNode → LockNode) : Chain :=
  { chain with nodes := chain.nodes.modify lock f }

/-- The walk of `find_lock`, for at most `fuel` nodes. -/
def findLockFrom (chain : Chain) (username : Username) (last : Nat) :
    Nat → Option Nat → Option (Bool × Option Nat)
  | 0, _ => none
  | _ + 1, none => none
  | fuel + 1, some lock => do
      let node ← chain.nodes[lock]?
      let name ← node.username
      if name = username then some (true, some lock)
      else if lock = last then some (false, node.next)
      else findLockFrom chain username last fuel node.next

/-- The flag tells whether the lock was found; otherwise the node is the one to
use, or NULL when one has to be allocated. -/
def findLock (chain : Chain) (username : Username) : Option (Bool × Option Nat) :=
  match chain.last with
  | none => some (false, chain.first)
  | some last => findLockFrom chain username last chain.nodes.length chain.first

def lockExpiry : Int := 24000000000

def lockGet (chain : Chain) (username : Username) (now : Int) : Option (Option Nat × Chain) := do
  let (waslocked, found) ← findLock chain username
  if waslocked then
    let lock ← found
    let node ← chain.nodes[lock]?
    if now ≥ node.ltime + lockExpiry then
      some (some lock, chain.update lock ({ · with ltime := now }))
    else some (none, chain)
  else
    match found with
    | some lock =>
        let chain := chain.update lock ({ · with username := some username, ltime := now })
        some (some lock, { chain with last := some lock })
    | none => do
        let last ← chain.last
        let lock := chain.nodes.length
        let chain := chain.update last ({ · with next := some lock })
        some (some lock,
          ⟨chain.nodes ++ [⟨some username, now, some last, none⟩], chain.first, some lock⟩)

def lockPut (chain : Chain) (lock : Nat) : Option Chain := do
  let node ← chain.nodes[lock]?
  -- `uhash(lock->username)` reads the name
  let _ ← node.username
  let chain := chain.update lock ({ · with username := none })
  if chain.last = some lock then some { chain with last := node.prev }
  else do
    let chain := match node.prev with
      | some prev => chain.update prev ({ · with next := node.next })
      | none => chain
    let chain := match node.next with
      | some next => chain.update next ({ · with prev := node.prev })
      | none => chain
    let last ← chain.last
    let lastNode ← chain.nodes[last]?
    let after ← lastNode.next
    let chain := chain.update lock ({ · with next := some after, prev := some last })
    let chain := chain.update after ({ · with prev := some lock })
    some (chain.update last ({ · with next := some lock }))

/-! ## One user in the bucket -/

/-- No lock is held, and `lock` is the node at the head of the chain. -/
structure Chain.Free (chain : Chain) (lock : Nat) : Prop where
  first : chain.first = some lock
  last : chain.last = none
  node : ∃ node, chain.nodes[lock]? = some node ∧ node.prev = none

/-- The one lock held is that of `username`, since `ltime`. -/
structure Chain.Held (chain : Chain) (lock : Nat) (username : Username) (ltime : Int) : Prop where
  first : chain.first = some lock
  last : chain.last = some lock
  node : ∃ node, chain.nodes[lock]? = some node ∧ node.prev = none ∧
    node.username = some username ∧ node.ltime = ltime

theorem lockInit_free : lockInit.Free 0 := ⟨rfl, rfl, _, rfl, rfl⟩

theorem Chain.update_get {chain : Chain} {lock : Nat} {node : LockNode}
    (stored : chain.nodes[lock]? = some node) (f : LockNode → LockNode) :
    (chain.update lock f).nodes[lock]? = some (f node) := by
  simp [Chain.update, stored]

theorem lockGet_free {chain : Chain} {lock : Nat} (free : chain.Free lock) (username : Username)
    (now : Int) : ∃ chain', lockGet chain username now = some (some lock, chain') ∧
      chain'.Held lock username now := by
  obtain ⟨node, stored, head⟩ := free.node
  have found : findLock chain username = some (false, some lock) := by
    simp only [findLock, free.last, free.first]
  refine ⟨{ chain.update lock ({ · with username := some username, ltime := now }) with
    last := some lock }, ?_, ?_⟩
  · simp only [lockGet, found, Option.bind_eq_bind, Option.bind_some, Bool.false_eq_true, if_false]
  · exact ⟨free.first, rfl, _, Chain.update_get stored _, head, rfl, rfl⟩

theorem findLock_held {chain : Chain} {lock : Nat} {username : Username} {ltime : Int}
    (held : chain.Held lock username ltime) : findLock chain username = some (true, some lock) := by
  obtain ⟨node, stored, -, name, -⟩ := held.node
  have nonempty : ∃ n, chain.nodes.length = n + 1 := by
    obtain ⟨inside, -⟩ := List.getElem?_eq_some_iff.mp stored
    exact ⟨chain.nodes.length - 1, by omega⟩
  obtain ⟨n, size⟩ := nonempty
  simp only [findLock, held.last, held.first, size, findLockFrom, stored, name,
    Option.bind_eq_bind, Option.bind_some, if_true]

theorem lockGet_held {chain : Chain} {lock : Nat} {username : Username} {ltime : Int}
    (held : chain.Held lock username ltime) {now : Int} (fresh : now < ltime + lockExpiry) :
    lockGet chain username now = some (none, chain) := by
  obtain ⟨node, stored, -, -, since⟩ := held.node
  have notStale : ¬ now ≥ node.ltime + lockExpiry := by
    rw [since]
    omega
  simp only [lockGet, findLock_held held, stored, Option.bind_eq_bind, Option.bind_some, if_true,
    if_neg notStale]

/-- A stale lock is granted again, the same node with a new time. -/
theorem lockGet_stale {chain : Chain} {lock : Nat} {username : Username} {ltime : Int}
    (held : chain.Held lock username ltime) {now : Int} (stale : now ≥ ltime + lockExpiry) :
    ∃ chain', lockGet chain username now = some (some lock, chain') ∧
      chain'.Held lock username now := by
  obtain ⟨node, stored, head, name, since⟩ := held.node
  have expired : now ≥ node.ltime + lockExpiry := by
    rw [since]
    exact stale
  refine ⟨chain.update lock ({ · with ltime := now }), ?_, ?_⟩
  · simp only [lockGet, findLock_held held, stored, Option.bind_eq_bind, Option.bind_some, if_true,
      if_pos expired]
  · exact ⟨held.first, held.last, _, Chain.update_get stored _, head, name, rfl⟩

theorem lockPut_held {chain : Chain} {lock : Nat} {username : Username} {ltime : Int}
    (held : chain.Held lock username ltime) :
    ∃ chain', lockPut chain lock = some chain' ∧ chain'.Free lock ∧
      ∃ node, chain'.nodes[lock]? = some node ∧ node.username = none := by
  obtain ⟨node, stored, head, name, -⟩ := held.node
  refine ⟨{ chain.update lock ({ · with username := none }) with last := node.prev }, ?_, ?_⟩
  · have isLast : (chain.update lock ({ · with username := none })).last = some lock := held.last
    simp only [lockPut, stored, name, Option.bind_eq_bind, Option.bind_some, if_pos isLast]
  · exact ⟨⟨held.first, head, _, Chain.update_get stored _, head⟩, _, Chain.update_get stored _, rfl⟩

end Otpd

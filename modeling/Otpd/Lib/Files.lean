import Mathlib.Tactic

/-!
# A directory of files

Names lead to inodes and inodes hold bytes.  Both are cached: `past` are earlier
directories, latest first, that may still be the one on disk, and `synced` says of an
inode that its bytes are there.  A crash goes back to one of these directories and keeps
some first part of an inode that was not synced.

`Everywhere` is a property of all the entries a crash may bring back; each operation has
a rule for it.
-/

set_option autoImplicit false

namespace Files

open Function

structure Disk (N α : Type) where
  dir : N → Option Nat
  past : List (N → Option Nat)
  data : Nat → List α
  synced : Nat → Bool
  next : Nat

namespace Disk

variable {N α : Type}

def contents (disk : Disk N α) (name : N) : Option (List α) := (disk.dir name).map disk.data

def setDir (disk : Disk N α) (dir : N → Option Nat) : Disk N α :=
  { disk with dir := dir, past := disk.dir :: disk.past }

/-- Bytes are added at the end. -/
def append (disk : Disk N α) (ino : Nat) (bytes : List α) : Disk N α :=
  { disk with
    data := update disk.data ino (disk.data ino ++ bytes)
    synced := update disk.synced ino false }

def fsync (disk : Disk N α) (ino : Nat) : Disk N α :=
  { disk with synced := update disk.synced ino true }

/-- The directory as it is now reaches the disk, except for the last `k` changes. -/
def settle (disk : Disk N α) (k : Nat) : Disk N α := { disk with past := disk.past.take k }

/-- `k` changes of the directory are lost; `keep` is how much is left of the inodes. -/
def crash (disk : Disk N α) (k : Nat) (keep : Nat → Nat) : Disk N α where
  dir := ((disk.dir :: disk.past)[k]?).getD disk.dir
  past := []
  data := fun ino => if disk.synced ino then disk.data ino else (disk.data ino).take (keep ino)
  synced := fun _ => true
  next := disk.next

section Names

variable [DecidableEq N]

def newFile (disk : Disk N α) (name : N) : Disk N α where
  dir := update disk.dir name (some disk.next)
  past := disk.dir :: disk.past
  data := update disk.data disk.next []
  synced := update disk.synced disk.next false
  next := disk.next + 1

/-- `open` with `O_CREAT` and `O_EXCL`: a new empty file, with its inode. -/
def create (disk : Disk N α) (name : N) : Option (Nat × Disk N α) :=
  if (disk.dir name).isSome then none else some (disk.next, disk.newFile name)

/-- A file of the new name is replaced. -/
def rename (disk : Disk N α) (old new : N) : Option (Disk N α) :=
  (disk.dir old).map fun ino =>
    disk.setDir (update (update disk.dir old none) new (some ino))

def unlink (disk : Disk N α) (name : N) : Disk N α := disk.setDir (update disk.dir name none)

end Names

/-- Nothing is only in memory. -/
structure AtRest (disk : Disk N α) : Prop where
  past : disk.past = []
  inside : ∀ name ino, disk.dir name = some ino → ino < disk.next
  synced : ∀ ino < disk.next, disk.synced ino = true

/-! ## The entries of all directories -/

def Everywhere (disk : Disk N α) (P : N → Nat → Prop) : Prop :=
  ∀ dir ∈ disk.dir :: disk.past, ∀ name ino, dir name = some ino → P name ino

section Rules

variable {disk : Disk N α} {P Q : N → Nat → Prop}

theorem Everywhere.here (all : disk.Everywhere P) {name : N} {ino : Nat}
    (entry : disk.dir name = some ino) : P name ino :=
  all disk.dir List.mem_cons_self name ino entry

theorem Everywhere.imp (all : disk.Everywhere P) (gives : ∀ name ino, P name ino → Q name ino) :
    disk.Everywhere Q :=
  fun dir member name ino entry => gives name ino (all dir member name ino entry)

theorem Everywhere.and (all : disk.Everywhere P) (also : disk.Everywhere Q) :
    disk.Everywhere fun name ino => P name ino ∧ Q name ino :=
  fun dir member name ino entry =>
    ⟨all dir member name ino entry, also dir member name ino entry⟩

theorem Everywhere.setDir (all : disk.Everywhere P) {dir : N → Option Nat}
    (entries : ∀ name ino, dir name = some ino → P name ino) :
    (disk.setDir dir).Everywhere P := by
  intro dir' member
  rcases List.mem_cons.mp member with rfl | earlier
  · exact entries
  · exact all dir' earlier

theorem Everywhere.append (all : disk.Everywhere P) (ino : Nat) (bytes : List α) :
    (disk.append ino bytes).Everywhere P := all

theorem Everywhere.fsync (all : disk.Everywhere P) (ino : Nat) :
    (disk.fsync ino).Everywhere P := all

theorem Everywhere.settle (all : disk.Everywhere P) (k : Nat) : (disk.settle k).Everywhere P := by
  intro dir member
  refine all dir ?_
  rcases List.mem_cons.mp member with rfl | earlier
  · exact List.mem_cons_self
  · exact List.mem_cons_of_mem _ (List.mem_of_mem_take earlier)

theorem crash_dir (disk : Disk N α) (k : Nat) (keep : Nat → Nat) :
    (disk.crash k keep).dir ∈ disk.dir :: disk.past := by
  simp only [crash]
  cases found : (disk.dir :: disk.past)[k]? with
  | none => exact List.mem_cons_self
  | some dir => exact List.mem_of_getElem? found

theorem Everywhere.crash (all : disk.Everywhere P) (k : Nat) (keep : Nat → Nat) :
    (disk.crash k keep).Everywhere P := by
  intro dir member
  rcases List.mem_cons.mp member with rfl | none
  · exact all _ (disk.crash_dir k keep)
  · cases none

theorem crash_data_prefix (disk : Disk N α) (k : Nat) (keep : Nat → Nat) (ino : Nat) :
    (disk.crash k keep).data ino <+: disk.data ino := by
  simp only [Disk.crash]
  split
  · exact List.prefix_rfl
  · exact List.take_prefix _ _

theorem crash_data_synced (k : Nat) (keep : Nat → Nat) {ino : Nat}
    (synced : disk.synced ino = true) : (disk.crash k keep).data ino = disk.data ino := by
  simp only [Disk.crash, synced, if_true]

theorem append_data_ne (disk : Disk N α) {ino other : Nat} (bytes : List α)
    (ne : other ≠ ino) : (disk.append ino bytes).data other = disk.data other :=
  update_of_ne ne _ _

variable [DecidableEq N]

/-- The rules for one entry that is set, and for one that is taken away. -/
theorem Everywhere.update (all : disk.Everywhere P) {name : N} {ino : Nat} (here : P name ino) :
    ∀ name' ino', Function.update disk.dir name (some ino) name' = some ino' → P name' ino' := by
  intro name' ino' entry
  rw [update_apply] at entry
  split at entry
  · rename_i same
    cases entry
    rw [same]
    exact here
  · exact all.here entry

theorem Everywhere.erase (all : disk.Everywhere P) {name : N} :
    ∀ name' ino', Function.update disk.dir name none name' = some ino' → P name' ino' := by
  intro name' ino' entry
  rw [update_apply] at entry
  split at entry
  · cases entry
  · exact all.here entry

theorem create_eq {name : N} {made : Nat × Disk N α} (created : disk.create name = some made) :
    disk.dir name = none ∧ made = (disk.next, disk.newFile name) := by
  rw [create] at created
  split_ifs at created with taken
  cases created
  exact ⟨Option.not_isSome_iff_eq_none.mp taken, rfl⟩

theorem Everywhere.newFile (all : disk.Everywhere P) {name : N} (new : P name disk.next) :
    (disk.newFile name).Everywhere P := by
  intro dir member
  rcases List.mem_cons.mp member with rfl | earlier
  · exact all.update new
  · exact all dir earlier

theorem Everywhere.rename (all : disk.Everywhere P) {old new : N} {disk' : Disk N α}
    (renamed : disk.rename old new = some disk')
    (moved : ∀ ino, disk.dir old = some ino → P new ino) : disk'.Everywhere P := by
  obtain ⟨ino, entry, rfl⟩ := Option.map_eq_some_iff.mp renamed
  refine all.setDir ?_
  intro name' ino' found
  rw [update_apply] at found
  split at found
  · rename_i same
    cases found
    rw [same]
    exact moved ino entry
  · exact all.erase name' ino' found

theorem Everywhere.unlink (all : disk.Everywhere P) (name : N) : (disk.unlink name).Everywhere P :=
  all.setDir all.erase

end Rules

end Disk

end Files

import Otpd.StateDir

/-!
# The state files as one store

When no user's name is that of another with six characters of `mkstemp` added, the
state directory is an atomic store: a `state_write` takes effect at one moment or not at
all, a `state_read` gives what was there at one moment, and a crash goes back to what
was there at some earlier moment, for all users the same one.
-/

set_option autoImplicit false

namespace Otpd

open CMem
open Files (Disk)
open Function

/-- `past` are the earlier values, latest first, that a crash may bring back, and
`snapshot` what the `state_read` of a thread is going to give. -/
structure AtomicStore (users : Set Username) where
  value : users → Store
  past : List (users → Store)
  snapshot : Nat → Option (Username × Store)
  results : List IoResult

namespace AtomicStore

variable {users : Set Username}

def start (value : users → Store) : AtomicStore users := ⟨value, [], fun _ => none, []⟩

inductive Step (a : AtomicStore users) : AtomicStore users → Prop where
  | put (user : users) (record : StateRecord) :
      Step a { a with
        value := update a.value user (some (stateLineOf user record))
        past := a.value :: a.past
        results := a.results ++ [.wrote user record] }
  | notPut (user : users) (record : StateRecord) :
      Step a { a with results := a.results ++ [.notWritten user record] }
  | unchanged : Step a { a with past := a.value :: a.past }
  | take (t : Nat) (user : users) :
      Step a { a with
        snapshot := update a.snapshot t (some (user, a.value user))
        results := a.results ++ [.opened t user] }
  | give (t : Nat) (user : Username) (value : Store) (taken : a.snapshot t = some (user, value)) :
      Step a { a with
        snapshot := update a.snapshot t none
        results := a.results ++ [.gave t user (stateRead true value)] }
  | notGiven (t : Nat) (user : Username) :
      Step a { a with
        snapshot := update a.snapshot t none
        results := a.results ++ [.gave t user none] }
  | settle (k : Nat) : Step a { a with past := a.past.take k }
  | crash (k : Nat) :
      Step a
        { value := ((a.value :: a.past)[k]?).getD a.value
          past := []
          snapshot := fun _ => none
          results := a.results ++ [.crashed] }

/-- What a result says of the state of a user: only a reported write sets it. -/
def noted (user : Username) (value : Store) : IoResult → Store
  | .wrote user' record => if user' = user then some (stateLineOf user' record) else value
  | _ => value

/-- The state of a user after the last reported write. -/
def lastWrote (start : Store) (user : Username) (results : List IoResult) : Store :=
  results.foldl (noted user) start

theorem lastWrote_append (start : Store) (user : Username) (results : List IoResult)
    (result : IoResult) :
    lastWrote start user (results ++ [result]) =
      noted user (lastWrote start user results) result := by
  rw [lastWrote, List.foldl_append]
  rfl

/-- Without a crash, no reported write is lost and nothing else is stored. -/
theorem value_lastWrote {value : users → Store} {a : AtomicStore users}
    (steps : Relation.ReflTransGen Step (start value) a) (noCrash : .crashed ∉ a.results)
    (user : users) : a.value user = lastWrote (value user) user a.results := by
  induction steps with
  | refl => rfl
  | tail _ step ih =>
      cases step with
      | put user' record =>
          rw [lastWrote_append, ← ih fun crashed => noCrash (List.mem_append_left _ crashed)]
          simp only [noted, update_apply, Subtype.ext_iff, eq_comm]
      | crash k => exact absurd (List.mem_append_right _ (List.mem_singleton_self _)) noCrash
      | unchanged | settle => exact ih noCrash
      | notPut | take | give | notGiven =>
          rw [lastWrote_append]
          exact ih fun crashed => noCrash (List.mem_append_left _ crashed)

end AtomicStore

/-! ## The directory simulates it -/

/-- The inode of the temporary file that a thread has made. -/
def IoPhase.inode? : IoPhase → Option Nat
  | .writing _ _ _ fd _ | .written _ _ _ fd | .closed _ _ _ fd => some fd
  | _ => none

section Simulation

variable (dir : Statedir) (users : Set Username)

/-- What a directory says the users' states are. -/
def view (data : Nat → List Byte) (d : List Byte → Option Nat) (user : users) : Store :=
  (d (stateFilename dir user)).map data

/-- The inode is on disk, and nobody writes it any more. -/
structure SettledInode (w : DirWorld) (ino : Nat) : Prop where
  inside : ino < w.disk.next
  synced : w.disk.synced ino = true
  unwritten : ∀ t, (w.phase t).inode? ≠ some ino

/-- The user's own temporary file, and its inode as far as it was written. -/
structure OwnFile (w : DirWorld) (user : Username) (record : StateRecord)
    (tmpfilename : List Byte) (fd : Nat) (rest : List Byte) : Prop where
  known : user ∈ users
  named : Temporary dir user tmpfilename
  entry : w.disk.dir tmpfilename = some fd
  data : w.disk.data fd ++ rest = stateLineOf user record

def StorePhase (w : DirWorld) (a : AtomicStore users) (t : Nat) : IoPhase → Prop
  | .idle => True
  | .writing user record tmpfilename fd rest => OwnFile dir users w user record tmpfilename fd rest
  | .written user record tmpfilename fd => OwnFile dir users w user record tmpfilename fd []
  | .closed user record tmpfilename fd =>
      OwnFile dir users w user record tmpfilename fd [] ∧ w.disk.synced fd = true
  | .undoing user _ tmpfilename =>
      user ∈ users ∧ Temporary dir user tmpfilename ∧ w.disk.dir tmpfilename ≠ none
  | .reading user fd buf =>
      a.snapshot t = some (user, some (w.disk.data fd)) ∧ SettledInode w fd ∧
        buf <+: w.disk.data fd ∧ buf.length ≤ gsmMaxStateLen

structure StoreSim (w : DirWorld) (a : AtomicStore users) : Prop where
  values : a.value :: a.past = (w.disk.dir :: w.disk.past).map (view dir users w.disk.data)
  settled : w.disk.Everywhere fun name ino =>
    ∀ user ∈ users, name = stateFilename dir user → SettledInode w ino
  inside : w.disk.Everywhere fun _ ino => ino < w.disk.next
  phases : ∀ t, StorePhase dir users w a t (w.phase t)
  aloneTmp : ∀ t t' tmpfilename, (w.phase t).tmp? = some tmpfilename →
    (w.phase t').tmp? = some tmpfilename → t = t'
  aloneInode : ∀ t t' fd, (w.phase t).inode? = some fd → (w.phase t').inode? = some fd → t = t'
  results : a.results = w.results

/-- No user's state file has the name of a temporary file. -/
def Apart : Prop := ∀ user ∈ users, ∀ user' ∈ users, ¬ Temporary dir user (stateFilename dir user')

/-- The users are known, and `fsync` does what it is for. -/
def Orderly : IoEvent → Prop
  | .stateWrite _ user _ _ | .stateRead _ user _ => user ∈ users
  | .fsync _ ok => ok = true
  | _ => True

variable {dir users} {w w' : DirWorld} {a a' : AtomicStore users} {t : Nat}

/-- What a step of thread `t` leaves to the others. -/
structure LeftAlone (t : Nat) (w w' : DirWorld) (a a' : AtomicStore users) : Prop where
  phase : ∀ t', t' ≠ t → w'.phase t' = w.phase t'
  snapshot : ∀ t', t' ≠ t → a'.snapshot t' = a.snapshot t'
  entry : ∀ t' tmpfilename, t' ≠ t → (w.phase t').tmp? = some tmpfilename →
    w'.disk.dir tmpfilename = w.disk.dir tmpfilename
  inode : ∀ t' fd, t' ≠ t → (w.phase t').inode? = some fd →
    w'.disk.data fd = w.disk.data fd ∧ w'.disk.synced fd = w.disk.synced fd
  settled : ∀ ino, SettledInode w ino → SettledInode w' ino ∧ w'.disk.data ino = w.disk.data ino

theorem LeftAlone.ownFile (leftAlone : LeftAlone t w w' a a') {t' : Nat} (other : t' ≠ t)
    {user : Username} {record : StateRecord} {tmpfilename : List Byte} {fd : Nat} {rest : List Byte}
    (tmp : (w.phase t').tmp? = some tmpfilename) (inode : (w.phase t').inode? = some fd)
    (own : OwnFile dir users w user record tmpfilename fd rest) :
    OwnFile dir users w' user record tmpfilename fd rest where
  known := own.known
  named := own.named
  entry := (leftAlone.entry t' tmpfilename other tmp).trans own.entry
  data := by
    rw [(leftAlone.inode t' fd other inode).1]
    exact own.data

theorem LeftAlone.others (leftAlone : LeftAlone t w w' a a') {t' : Nat} (other : t' ≠ t)
    (here : StorePhase dir users w a t' (w.phase t')) :
    StorePhase dir users w' a' t' (w'.phase t') := by
  rw [leftAlone.phase t' other]
  cases at_ : w.phase t' with
  | idle => trivial
  | writing user record tmpfilename fd rest =>
      rw [at_] at here
      exact leftAlone.ownFile other (by rw [at_]; rfl) (by rw [at_]; rfl) here
  | written user record tmpfilename fd =>
      rw [at_] at here
      exact leftAlone.ownFile other (by rw [at_]; rfl) (by rw [at_]; rfl) here
  | closed user record tmpfilename fd =>
      rw [at_] at here
      refine ⟨leftAlone.ownFile other (by rw [at_]; rfl) (by rw [at_]; rfl) here.1, ?_⟩
      rw [(leftAlone.inode t' fd other (by rw [at_]; rfl)).2]
      exact here.2
  | undoing user record tmpfilename =>
      rw [at_] at here
      obtain ⟨known, named, present⟩ := here
      refine ⟨known, named, ?_⟩
      rw [leftAlone.entry t' tmpfilename other (by rw [at_]; rfl)]
      exact present
  | reading user fd buf =>
      rw [at_] at here
      obtain ⟨taken, settled, front, short⟩ := here
      obtain ⟨settled', same⟩ := leftAlone.settled fd settled
      rw [StorePhase, leftAlone.snapshot t' other, same]
      exact ⟨taken, settled', front, short⟩

/-- The views do not change with the data of inodes that no state file has. -/
theorem StoreSim.view_eq (sim : StoreSim dir users w a) {data : Nat → List Byte}
    (same : ∀ ino, SettledInode w ino → data ino = w.disk.data ino) :
    (w.disk.dir :: w.disk.past).map (view dir users data) = a.value :: a.past := by
  rw [sim.values]
  refine List.map_congr_left ?_
  intro d member
  funext user
  cases entry : d (stateFilename dir user) with
  | none => simp [view, entry]
  | some ino => simp [view, entry, same ino (sim.settled d member _ ino entry user user.2 rfl)]

theorem StoreSim.step_of (sim : StoreSim dir users w a) (leftAlone : LeftAlone t w w' a a')
    (here : StorePhase dir users w' a' t (w'.phase t))
    (values : a'.value :: a'.past = (w'.disk.dir :: w'.disk.past).map (view dir users w'.disk.data))
    (settled : w'.disk.Everywhere fun name ino =>
      ∀ user ∈ users, name = stateFilename dir user → SettledInode w' ino)
    (inside : w'.disk.Everywhere fun _ ino => ino < w'.disk.next)
    (tmp : ∀ t', t' ≠ t → ∀ tmpfilename, (w'.phase t).tmp? = some tmpfilename →
      (w.phase t').tmp? ≠ some tmpfilename)
    (inode : ∀ t', t' ≠ t → ∀ fd, (w'.phase t).inode? = some fd → (w.phase t').inode? ≠ some fd)
    (results : a'.results = w'.results) : StoreSim dir users w' a' where
  values := values
  settled := settled
  inside := inside
  phases := by
    intro t'
    by_cases same : t' = t
    · subst same
      exact here
    · exact leftAlone.others same (sim.phases t')
  aloneTmp := by
    intro t₁ t₂ name first second
    by_cases one : t₁ = t
    · by_cases two : t₂ = t
      · rw [one, two]
      · rw [one] at first
        rw [leftAlone.phase t₂ two] at second
        exact absurd second (tmp t₂ two name first)
    · by_cases two : t₂ = t
      · rw [two] at second
        rw [leftAlone.phase t₁ one] at first
        exact absurd first (tmp t₁ one name second)
      · rw [leftAlone.phase t₁ one] at first
        rw [leftAlone.phase t₂ two] at second
        exact sim.aloneTmp t₁ t₂ name first second
  aloneInode := by
    intro t₁ t₂ fd first second
    by_cases one : t₁ = t
    · by_cases two : t₂ = t
      · rw [one, two]
      · rw [one] at first
        rw [leftAlone.phase t₂ two] at second
        exact absurd second (inode t₂ two fd first)
    · by_cases two : t₂ = t
      · rw [two] at second
        rw [leftAlone.phase t₁ one] at first
        exact absurd first (inode t₁ one fd second)
      · rw [leftAlone.phase t₁ one] at first
        rw [leftAlone.phase t₂ two] at second
        exact sim.aloneInode t₁ t₂ fd first second
  results := results

theorem SettledInode.keep {ino : Nat} (settled : SettledInode w ino)
    (next : w.disk.next ≤ w'.disk.next) (synced : w'.disk.synced ino = true)
    (unwritten : ∀ t' fd, (w'.phase t').inode? = some fd → (w.phase t').inode? = some fd ∨ fd ≠ ino) :
    SettledInode w' ino where
  inside := Nat.lt_of_lt_of_le settled.inside next
  synced := synced
  unwritten := by
    intro t' written
    rcases unwritten t' ino written with before | other
    · exact settled.unwritten t' before
    · exact other rfl

/-- A step that only takes the thread on, and may note what happened. -/
theorem StoreSim.setPhase_only (sim : StoreSim dir users w a) {phase : IoPhase}
    {calls : List (Username × StateRecord)} {results : List IoResult}
    (snapshot : ∀ t', t' ≠ t → a'.snapshot t' = a.snapshot t') (value : a'.value = a.value)
    (past : a'.past = a.past) (noted : a'.results = results)
    (tmp : ∀ tmp, phase.tmp? = some tmp → (w.phase t).tmp? = some tmp)
    (inode : ∀ fd, phase.inode? = some fd → (w.phase t).inode? = some fd)
    (here : ∀ w' : DirWorld, w'.disk = w.disk → (∀ ino, SettledInode w ino → SettledInode w' ino) →
      StorePhase dir users w' a' t phase) :
    StoreSim dir users ⟨w.disk, (w.setPhase t phase).phase, calls, results⟩ a' := by
  have before : ∀ t' fd, ((w.setPhase t phase).phase t').inode? = some fd →
      (w.phase t').inode? = some fd := by
    intro t' fd written
    by_cases same : t' = t
    · subst same
      rw [DirWorld.setPhase_self] at written
      exact inode fd written
    · rwa [DirWorld.setPhase_ne w same] at written
  have settled : ∀ ino, SettledInode w ino →
      SettledInode ⟨w.disk, (w.setPhase t phase).phase, calls, results⟩ ino := fun ino settled =>
    settled.keep (Nat.le_refl _) settled.synced fun t' fd written => Or.inl (before t' fd written)
  refine sim.step_of (t := t)
    { phase := fun t' other => w.setPhase_ne other phase
      snapshot := snapshot
      entry := fun _ _ _ _ => rfl
      inode := fun _ _ _ _ => ⟨rfl, rfl⟩
      settled := fun ino here => ⟨settled ino here, rfl⟩ } ?_ ?_ ?_ sim.inside ?_ ?_ noted
  · rw [show (w.setPhase t phase).phase t = phase from w.setPhase_self t phase]
    exact here _ rfl settled
  · rw [value, past]
    exact sim.values
  · exact sim.settled.imp fun name ino isFile user known same =>
      settled ino (isFile user known same)
  · intro t' other name has
    rw [show (w.setPhase t phase).phase t = phase from w.setPhase_self t phase] at has
    intro alsoHas
    exact other (sim.aloneTmp t' t name alsoHas (tmp name has))
  · intro t' other fd has
    rw [show (w.setPhase t phase).phase t = phase from w.setPhase_self t phase] at has
    intro alsoHas
    exact other (sim.aloneInode t' t fd alsoHas (inode fd has))

theorem StoreSim.inode_inside (sim : StoreSim dir users w a) {t' fd : Nat}
    (has : (w.phase t').inode? = some fd) : fd < w.disk.next := by
  have here := sim.phases t'
  cases at_ : w.phase t' with
  | writing user record tmpfilename fd' rest =>
      rw [at_] at here has
      cases has
      exact sim.inside.here here.entry
  | written user record tmpfilename fd' =>
      rw [at_] at here has
      cases has
      exact sim.inside.here here.entry
  | closed user record tmpfilename fd' =>
      rw [at_] at here has
      cases has
      exact sim.inside.here here.1.entry
  | _ => rw [at_] at has; cases has

theorem StoreSim.tmp_named (sim : StoreSim dir users w a) {t' : Nat} {tmpfilename : List Byte}
    (has : (w.phase t').tmp? = some tmpfilename) :
    (∃ user ∈ users, Temporary dir user tmpfilename) ∧ w.disk.dir tmpfilename ≠ none := by
  have here := sim.phases t'
  have ofOwn : ∀ {user record fd rest}, OwnFile dir users w user record tmpfilename fd rest →
      (∃ user ∈ users, Temporary dir user tmpfilename) ∧ w.disk.dir tmpfilename ≠ none :=
    fun own => ⟨⟨_, own.known, own.named⟩, by rw [own.entry]; exact Option.some_ne_none _⟩
  cases at_ : w.phase t' with
  | writing user record tmp fd rest =>
      rw [at_] at here has
      cases has
      exact ofOwn here
  | written user record tmp fd =>
      rw [at_] at here has
      cases has
      exact ofOwn here
  | closed user record tmp fd =>
      rw [at_] at here has
      cases has
      exact ofOwn here.1
  | undoing user record tmp =>
      rw [at_] at here has
      cases has
      exact ⟨⟨user, here.1, here.2.1⟩, here.2.2⟩
  | idle => rw [at_] at has; cases has
  | reading user fd buf => rw [at_] at has; cases has

/-- `mkstemp`. -/
theorem StoreSim.create (sim : StoreSim dir users w a) (apart : Apart dir users)
    {user : Username} (record : StateRecord) {tmpfilename : List Byte} (known : user ∈ users)
    (named : Temporary dir user tmpfilename) (absent : w.disk.dir tmpfilename = none)
    (calls : List (Username × StateRecord)) :
    StoreSim dir users
      ⟨w.disk.newFile tmpfilename, (w.setPhase t (.writing user record tmpfilename w.disk.next
        (stateLineOf user record))).phase, calls, w.results⟩
      { a with past := a.value :: a.past } := by
  have data : ∀ ino, ino ≠ w.disk.next →
      (w.disk.newFile tmpfilename).data ino = w.disk.data ino := fun ino ne =>
    update_of_ne ne _ _
  have synced : ∀ ino, ino ≠ w.disk.next →
      (w.disk.newFile tmpfilename).synced ino = w.disk.synced ino := fun ino ne =>
    update_of_ne ne _ _
  have entry : ∀ name, name ≠ tmpfilename →
      (w.disk.newFile tmpfilename).dir name = w.disk.dir name := fun name ne =>
    update_of_ne ne _ _
  have here : (w.setPhase t (.writing user record tmpfilename w.disk.next
      (stateLineOf user record))).phase t = .writing user record tmpfilename w.disk.next
        (stateLineOf user record) := w.setPhase_self t _
  have settled : ∀ ino, SettledInode w ino → SettledInode
      ⟨w.disk.newFile tmpfilename, (w.setPhase t (.writing user record tmpfilename w.disk.next
        (stateLineOf user record))).phase, calls, w.results⟩ ino := by
    intro ino settled
    have ne := Nat.ne_of_lt settled.inside
    refine settled.keep (Nat.le_succ _) ((synced ino ne).trans settled.synced) ?_
    intro t' fd written
    by_cases same : t' = t
    · subst same
      rw [here] at written
      cases written
      exact Or.inr (Ne.symm ne)
    · rw [w.setPhase_ne same] at written
      exact Or.inl written
  refine sim.step_of (t := t)
    { phase := fun t' other => w.setPhase_ne other _
      snapshot := fun _ _ => rfl
      entry := ?_
      inode := ?_
      settled := fun ino before =>
        ⟨settled ino before, data ino (Nat.ne_of_lt before.inside)⟩ } ?_ ?_ ?_ ?_ ?_ ?_ sim.results
  · intro t' name other has
    refine entry name ?_
    rintro rfl
    exact (sim.tmp_named has).2 absent
  · intro t' fd other has
    have ne := Nat.ne_of_lt (sim.inode_inside has)
    exact ⟨data fd ne, synced fd ne⟩
  · rw [here]
    refine ⟨known, named, update_self _ _ _, ?_⟩
    rw [show (w.disk.newFile tmpfilename).data w.disk.next = [] from update_self _ _ _,
      List.nil_append]
  · have views : (w.disk.dir :: w.disk.past).map
        (view dir users (w.disk.newFile tmpfilename).data) = a.value :: a.past :=
      sim.view_eq fun ino before => data ino (Nat.ne_of_lt before.inside)
    have unchanged : view dir users (w.disk.newFile tmpfilename).data
        (w.disk.newFile tmpfilename).dir = a.value := by
      rw [← (List.cons.inj views).1]
      funext user'
      rw [view, entry _ ?_, view]
      rintro same
      exact apart user known user' user'.2 (same ▸ named)
    calc a.value :: (a.value :: a.past)
        = view dir users (w.disk.newFile tmpfilename).data (w.disk.newFile tmpfilename).dir ::
            (w.disk.dir :: w.disk.past).map (view dir users (w.disk.newFile tmpfilename).data) := by
          rw [views, unchanged]
      _ = _ := rfl
  · refine (sim.settled.imp ?_).newFile ?_
    · intro name ino isFile user' known' same
      exact settled ino (isFile user' known' same)
    · intro user' known' same
      exact absurd (same ▸ named) (apart user known user' known')
  · exact (sim.inside.imp fun _ ino inside => Nat.lt_succ_of_lt inside).newFile (Nat.lt_succ_self _)
  · intro t' other name has
    rw [here] at has
    cases has
    intro also
    exact (sim.tmp_named also).2 absent
  · intro t' other fd has
    rw [here] at has
    cases has
    intro also
    exact absurd (sim.inode_inside also) (Nat.lt_irrefl _)

/-- `write`. -/
theorem StoreSim.append (sim : StoreSim dir users w a) {user : Username} {record : StateRecord}
    {tmpfilename : List Byte} {fd : Nat} {rest : List Byte}
    (at_ : w.phase t = .writing user record tmpfilename fd rest) {n : Nat} {phase : IoPhase}
    (next : (rest.drop n = [] ∧ phase = .written user record tmpfilename fd) ∨
      phase = .writing user record tmpfilename fd (rest.drop n)) :
    StoreSim dir users
      ⟨w.disk.append fd (rest.take n), (w.setPhase t phase).phase, w.calls, w.results⟩ a := by
  have own : OwnFile dir users w user record tmpfilename fd rest := by
    have here := sim.phases t
    rwa [at_] at here
  have there : (w.disk.append fd (rest.take n)).data fd = w.disk.data fd ++ rest.take n :=
    update_self _ _ _
  have data : ∀ ino, ino ≠ fd → (w.disk.append fd (rest.take n)).data ino = w.disk.data ino :=
    fun ino ne => update_of_ne ne _ _
  have synced : ∀ ino, ino ≠ fd →
      (w.disk.append fd (rest.take n)).synced ino = w.disk.synced ino :=
    fun ino ne => update_of_ne ne _ _
  have mine : (w.phase t).inode? = some fd := by rw [at_]; rfl
  have here : (w.setPhase t phase).phase t = phase := w.setPhase_self t _
  have stays : phase.inode? = some fd ∧ phase.tmp? = some tmpfilename := by
    rcases next with ⟨-, rfl⟩ | rfl
    · exact ⟨rfl, rfl⟩
    · exact ⟨rfl, rfl⟩
  have notMine : ∀ ino, SettledInode w ino → ino ≠ fd := by
    rintro ino settled rfl
    exact settled.unwritten t mine
  have settled : ∀ ino, SettledInode w ino → SettledInode
      ⟨w.disk.append fd (rest.take n), (w.setPhase t phase).phase, w.calls, w.results⟩ ino := by
    intro ino settled
    refine settled.keep (Nat.le_refl _) ((synced ino (notMine ino settled)).trans settled.synced) ?_
    intro t' fd' written
    by_cases same : t' = t
    · subst same
      rw [here, stays.1] at written
      cases written
      exact Or.inl mine
    · rw [w.setPhase_ne same] at written
      exact Or.inl written
  have front : w.disk.data fd ++ rest.take n ++ rest.drop n = stateLineOf user record := by
    rw [List.append_assoc, List.take_append_drop]
    exact own.data
  refine sim.step_of (t := t)
    { phase := fun t' other => w.setPhase_ne other _
      snapshot := fun _ _ => rfl
      entry := fun _ _ _ _ => rfl
      inode := ?_
      settled := fun ino before =>
        ⟨settled ino before, data ino (notMine ino before)⟩ } ?_ ?_ ?_ sim.inside ?_ ?_ sim.results
  · intro t' fd' other has
    have ne : fd' ≠ fd := by
      rintro rfl
      exact other (sim.aloneInode t' t fd' has mine)
    exact ⟨data fd' ne, synced fd' ne⟩
  · rw [here]
    rcases next with ⟨ended, rfl⟩ | rfl
    · refine ⟨own.known, own.named, own.entry, ?_⟩
      rw [there, ← front, ended]
    · refine ⟨own.known, own.named, own.entry, ?_⟩
      rw [there]
      exact front
  · exact (sim.view_eq fun ino before => data ino (notMine ino before)).symm
  · exact sim.settled.imp fun name ino isFile user' known' same =>
      settled ino (isFile user' known' same)
  · intro t' other name has
    rw [here, stays.2] at has
    cases has
    intro also
    exact other (sim.aloneTmp t' t _ also (by rw [at_]; rfl))
  · intro t' other fd' has
    rw [here, stays.1] at has
    cases has
    intro also
    exact other (sim.aloneInode t' t _ also mine)

theorem StoreSim.fsync (sim : StoreSim dir users w a) {user : Username} {record : StateRecord}
    {tmpfilename : List Byte} {fd : Nat} (at_ : w.phase t = .written user record tmpfilename fd) :
    StoreSim dir users ⟨w.disk.fsync fd,
      (w.setPhase t (.closed user record tmpfilename fd)).phase, w.calls, w.results⟩ a := by
  have own : OwnFile dir users w user record tmpfilename fd [] := by
    have here := sim.phases t
    rwa [at_] at here
  have mine : (w.phase t).inode? = some fd := by rw [at_]; rfl
  have here : (w.setPhase t (.closed user record tmpfilename fd)).phase t =
      .closed user record tmpfilename fd := w.setPhase_self t _
  have synced : ∀ ino, ino ≠ fd → (w.disk.fsync fd).synced ino = w.disk.synced ino :=
    fun ino ne => update_of_ne ne _ _
  have notMine : ∀ ino, SettledInode w ino → ino ≠ fd := by
    rintro ino settled rfl
    exact settled.unwritten t mine
  have settled : ∀ ino, SettledInode w ino → SettledInode ⟨w.disk.fsync fd,
      (w.setPhase t (.closed user record tmpfilename fd)).phase, w.calls, w.results⟩ ino := by
    intro ino settled
    refine settled.keep (Nat.le_refl _) ((synced ino (notMine ino settled)).trans settled.synced) ?_
    intro t' fd' written
    by_cases same : t' = t
    · subst same
      rw [here] at written
      cases written
      exact Or.inl mine
    · rw [w.setPhase_ne same] at written
      exact Or.inl written
  refine sim.step_of (t := t)
    { phase := fun t' other => w.setPhase_ne other _
      snapshot := fun _ _ => rfl
      entry := fun _ _ _ _ => rfl
      inode := ?_
      settled := fun ino before => ⟨settled ino before, rfl⟩ } ?_ sim.values ?_ sim.inside ?_ ?_
    sim.results
  · intro t' fd' other has
    refine ⟨rfl, synced fd' ?_⟩
    rintro rfl
    exact other (sim.aloneInode t' t fd' has mine)
  · rw [here]
    exact ⟨⟨own.known, own.named, own.entry, own.data⟩, update_self _ _ _⟩
  · exact sim.settled.imp fun name ino isFile user' known' same =>
      settled ino (isFile user' known' same)
  · intro t' other name has
    rw [here] at has
    cases has
    intro also
    exact other (sim.aloneTmp t' t _ also (by rw [at_]; rfl))
  · intro t' other fd' has
    rw [here] at has
    cases has
    intro also
    exact other (sim.aloneInode t' t _ also mine)

theorem StoreSim.rename (sim : StoreSim dir users w a) (apart : Apart dir users)
    {user : Username} {record : StateRecord} {tmpfilename : List Byte} {fd : Nat}
    (at_ : w.phase t = .closed user record tmpfilename fd) {disk : Disk (List Byte) Byte}
    (renamed : w.disk.rename tmpfilename (stateFilename dir user) = some disk)
    (known : user ∈ users) :
    StoreSim dir users
      ⟨disk, (w.setPhase t .idle).phase, w.calls, w.results ++ [.wrote user record]⟩
      { a with
        value := update a.value ⟨user, known⟩ (some (stateLineOf user record))
        past := a.value :: a.past
        results := a.results ++ [.wrote user record] } := by
  obtain ⟨own, synced⟩ : OwnFile dir users w user record tmpfilename fd [] ∧
      w.disk.synced fd = true := by
    have here := sim.phases t
    rwa [at_] at here
  have mine : (w.phase t).inode? = some fd := by rw [at_]; rfl
  have notTmp : ∀ user' ∈ users, stateFilename dir user' ≠ tmpfilename := by
    rintro user' known' rfl
    exact apart user known user' known' own.named
  rw [Disk.rename, own.entry] at renamed
  cases renamed
  have here : (w.setPhase t .idle).phase t = .idle := w.setPhase_self t _
  have moved : ∀ user' ∈ users,
      (update (update w.disk.dir tmpfilename none) (stateFilename dir user) (some fd))
        (stateFilename dir user') =
      if user' = user then some fd else w.disk.dir (stateFilename dir user') := by
    intro user' known'
    by_cases same : user' = user
    · subst same
      rw [if_pos rfl, update_self]
    · rw [if_neg same, update_of_ne fun files => same (stateFilename_inj files),
        update_of_ne (notTmp user' known')]
  have unwritten : ∀ t' ino, ((w.setPhase t .idle).phase t').inode? = some ino →
      t' ≠ t ∧ (w.phase t').inode? = some ino := by
    intro t' ino written
    by_cases same : t' = t
    · subst same
      rw [here] at written
      cases written
    · rw [w.setPhase_ne same] at written
      exact ⟨same, written⟩
  have settled : ∀ ino, SettledInode w ino ∨ ino = fd → SettledInode
      ⟨w.disk.setDir (update (update w.disk.dir tmpfilename none) (stateFilename dir user) (some fd)),
        (w.setPhase t .idle).phase, w.calls, w.results ++ [.wrote user record]⟩ ino := by
    intro ino before
    rcases before with settled | rfl
    · exact settled.keep (Nat.le_refl _) settled.synced fun t' fd' written =>
        Or.inl (unwritten t' fd' written).2
    · refine ⟨sim.inode_inside mine, synced, ?_⟩
      intro t' written
      obtain ⟨other, also⟩ := unwritten t' ino written
      exact other (sim.aloneInode t' t ino also mine)
  refine sim.step_of (t := t)
    { phase := fun t' other => w.setPhase_ne other _
      snapshot := fun _ _ => rfl
      entry := ?_
      inode := fun _ _ _ _ => ⟨rfl, rfl⟩
      settled := fun ino before => ⟨settled ino (Or.inl before), rfl⟩ } ?_ ?_ ?_ ?_ ?_ ?_ ?_
  · intro t' name other has
    obtain ⟨⟨user', known', named'⟩, -⟩ := sim.tmp_named has
    have notFile : name ≠ stateFilename dir user := by
      rintro rfl
      exact apart user' known' user known named'
    have notOwn : name ≠ tmpfilename := by
      rintro rfl
      exact other (sim.aloneTmp t' t _ has (by rw [at_]; rfl))
    exact (update_of_ne notFile _ _).trans (update_of_ne notOwn _ _)
  · rw [here]
    trivial
  · have stored : update a.value ⟨user, known⟩ (some (stateLineOf user record)) =
        view dir users w.disk.data
          (update (update w.disk.dir tmpfilename none) (stateFilename dir user) (some fd)) := by
      funext user'
      rw [view, moved user' user'.2, update_apply, (List.cons.inj sim.values).1]
      by_cases same : user' = ⟨user, known⟩
      · subst same
        rw [if_pos rfl, if_pos rfl, ← own.data, List.append_nil]
        rfl
      · rw [if_neg same, if_neg fun users => same (Subtype.ext users)]
        rfl
    rw [stored, sim.values]
    rfl
  · refine Disk.Everywhere.setDir (sim.settled.imp ?_) ?_
    · intro name ino isFile user' known' same
      exact settled ino (Or.inl (isFile user' known' same))
    · rintro name ino found user' known' rfl
      rw [moved user' known'] at found
      split_ifs at found
      · cases found
        exact settled fd (Or.inr rfl)
      · exact settled ino (Or.inl (sim.settled.here found user' known' rfl))
  · refine sim.inside.setDir ?_
    intro name ino found
    rw [update_apply] at found
    split_ifs at found
    · cases found
      exact sim.inode_inside mine
    · exact sim.inside.erase name ino found
  · intro t' _ name has
    rw [here] at has
    cases has
  · intro t' _ fd' has
    rw [here] at has
    cases has
  · exact congrArg (· ++ _) sim.results

theorem StoreSim.unlink (sim : StoreSim dir users w a) (apart : Apart dir users)
    {user : Username} {record : StateRecord} {tmpfilename : List Byte}
    (at_ : w.phase t = .undoing user record tmpfilename) :
    StoreSim dir users
      ⟨w.disk.unlink tmpfilename, (w.setPhase t .idle).phase, w.calls,
        w.results ++ [.notWritten user record]⟩
      { a with
        past := a.value :: a.past
        results := a.results ++ [.notWritten user record] } := by
  obtain ⟨known, named, -⟩ : user ∈ users ∧ Temporary dir user tmpfilename ∧
      w.disk.dir tmpfilename ≠ none := by
    have here := sim.phases t
    rwa [at_] at here
  have here : (w.setPhase t .idle).phase t = .idle := w.setPhase_self t _
  have settled : ∀ ino, SettledInode w ino → SettledInode
      ⟨w.disk.unlink tmpfilename, (w.setPhase t .idle).phase, w.calls,
        w.results ++ [.notWritten user record]⟩ ino := by
    intro ino settled
    refine settled.keep (Nat.le_refl _) settled.synced ?_
    intro t' fd written
    by_cases same : t' = t
    · subst same
      rw [here] at written
      cases written
    · rw [w.setPhase_ne same] at written
      exact Or.inl written
  refine sim.step_of (t := t)
    { phase := fun t' other => w.setPhase_ne other _
      snapshot := fun _ _ => rfl
      entry := ?_
      inode := fun _ _ _ _ => ⟨rfl, rfl⟩
      settled := fun ino before => ⟨settled ino before, rfl⟩ } ?_ ?_ ?_ (sim.inside.unlink _) ?_ ?_ ?_
  · intro t' name other has
    refine update_of_ne ?_ _ _
    rintro rfl
    exact other (sim.aloneTmp t' t _ has (by rw [at_]; rfl))
  · rw [here]
    trivial
  · have unchanged : a.value =
        view dir users w.disk.data (update w.disk.dir tmpfilename none) := by
      rw [(List.cons.inj sim.values).1]
      funext user'
      rw [view, view, update_of_ne]
      intro same
      exact apart user known user' user'.2 (same ▸ named)
    calc a.value :: (a.value :: a.past)
        = view dir users w.disk.data (update w.disk.dir tmpfilename none) ::
            (w.disk.dir :: w.disk.past).map (view dir users w.disk.data) := by
          rw [← unchanged, sim.values]
      _ = _ := rfl
  · exact (sim.settled.imp fun name ino isFile user' known' same =>
      settled ino (isFile user' known' same)).unlink tmpfilename
  · intro t' _ name has
    rw [here] at has
    cases has
  · intro t' _ fd' has
    rw [here] at has
    cases has
  · exact congrArg (· ++ _) sim.results

theorem StoreSim.settle (sim : StoreSim dir users w a) (k : Nat) :
    StoreSim dir users { w with disk := w.disk.settle k } { a with past := a.past.take k } where
  values := by
    have values := sim.values
    rw [List.map_cons, List.cons_eq_cons] at values
    rw [values.1, values.2, ← List.map_take]
    rfl
  settled := (sim.settled.settle k).imp fun name ino isFile user known same =>
    (isFile user known same).keep (Nat.le_refl _) (isFile user known same).synced
      fun _ _ written => Or.inl written
  inside := sim.inside.settle k
  phases := by
    intro t'
    have leftAlone : LeftAlone (t' + 1) w { w with disk := w.disk.settle k } a
        { a with past := a.past.take k } :=
      { phase := fun _ _ => rfl
        snapshot := fun _ _ => rfl
        entry := fun _ _ _ _ => rfl
        inode := fun _ _ _ _ => ⟨rfl, rfl⟩
        settled := fun ino before => ⟨⟨before.inside, before.synced, before.unwritten⟩, rfl⟩ }
    exact leftAlone.others (Nat.ne_of_lt (Nat.lt_succ_self t')) (sim.phases t')
  aloneTmp := sim.aloneTmp
  aloneInode := sim.aloneInode
  results := sim.results

theorem StoreSim.crash (sim : StoreSim dir users w a) (k : Nat) (keep : Nat → Nat) :
    StoreSim dir users
      { w.log .crashed with disk := w.disk.crash k keep, phase := fun _ => .idle }
      { value := ((a.value :: a.past)[k]?).getD a.value
        past := []
        snapshot := fun _ => none
        results := a.results ++ [.crashed] } where
  values := by
    have views := sim.view_eq fun ino settled => Disk.crash_data_synced k keep settled.synced
    have first := (List.cons.inj views).1
    simp only [Disk.crash, List.map_cons, List.map_nil, List.cons.injEq, and_true]
    rw [← views, List.getElem?_map, ← first, Option.getD_map]
    rfl
  settled := (sim.settled.crash k keep).imp fun name ino isFile user known same =>
    ⟨(isFile user known same).inside, rfl, fun _ absent => by cases absent⟩
  inside := sim.inside.crash k keep
  phases := fun _ => trivial
  aloneTmp := fun _ _ _ absent => by cases absent
  aloneInode := fun _ _ _ absent => by cases absent
  results := congrArg (· ++ _) sim.results

/-! ## Runs -/

theorem StoreSim.step (sim : StoreSim dir users w a) (apart : Apart dir users) {event : IoEvent}
    (orderly : Orderly users event) (taken : w.step dir event = some w') :
    ∃ a', Relation.ReflTransGen AtomicStore.Step a a' ∧ StoreSim dir users w' a' := by
  cases event with
  | stateWrite t user record suffix =>
      have known : user ∈ users := orderly
      simp only [DirWorld.step] at taken
      split at taken
      · split_ifs at taken
        split at taken
        · cases taken
          refine ⟨_, .single (.notPut ⟨user, known⟩ record), ?_⟩
          exact sim.setPhase_only (fun _ _ => rfl) rfl rfl (congrArg (· ++ _) sim.results)
            (fun _ absent => by cases absent) (fun _ absent => by cases absent)
            fun _ _ _ => trivial
        · simp only [Option.bind_eq_bind, Option.bind_eq_some_iff] at taken
          obtain ⟨tmpfilename, named, made, created, stored⟩ := taken
          obtain ⟨absent, rfl⟩ := Disk.create_eq created
          cases stored
          refine ⟨_, .single .unchanged, ?_⟩
          exact sim.create apart record known (mkstempName_temporary named) absent _
      · cases taken
  | write t n =>
      simp only [DirWorld.step] at taken
      split at taken
      · rename_i user record tmpfilename fd rest at_
        have own : OwnFile dir users w user record tmpfilename fd rest := by
          have here := sim.phases t
          rwa [at_] at here
        cases n with
        | none =>
            cases taken
            refine ⟨a, .refl, sim.setPhase_only (fun _ _ => rfl) rfl rfl sim.results ?_
              (fun _ absent => by cases absent) ?_⟩
            · intro tmp has
              rw [at_]
              exact has
            · intro w' disk _
              refine ⟨own.known, own.named, ?_⟩
              rw [disk, own.entry]
              exact Option.some_ne_none _
        | some n =>
            simp only at taken
            split_ifs at taken with short ended
            · cases taken
              exact ⟨a, .refl, sim.append at_ (Or.inl ⟨ended, rfl⟩)⟩
            · cases taken
              exact ⟨a, .refl, sim.append at_ (Or.inr rfl)⟩
      · cases taken
  | fsync t ok =>
      cases orderly
      simp only [DirWorld.step] at taken
      split at taken
      · rename_i user record tmpfilename fd at_
        cases taken
        exact ⟨a, .refl, sim.fsync at_⟩
      · cases taken
  | rename t ok =>
      simp only [DirWorld.step] at taken
      split at taken
      · rename_i user record tmpfilename fd at_
        have own : OwnFile dir users w user record tmpfilename fd [] := by
          have here := sim.phases t
          rw [at_] at here
          exact here.1
        split_ifs at taken
        · obtain ⟨disk, renamed, rfl⟩ := Option.map_eq_some_iff.mp taken
          exact ⟨_, .single (.put ⟨user, own.known⟩ record), sim.rename apart at_ renamed own.known⟩
        · cases taken
          refine ⟨a, .refl, sim.setPhase_only (fun _ _ => rfl) rfl rfl sim.results ?_
            (fun _ absent => by cases absent) ?_⟩
          · intro tmp has
            rw [at_]
            exact has
          · intro w' disk _
            refine ⟨own.known, own.named, ?_⟩
            rw [disk, own.entry]
            exact Option.some_ne_none _
      · cases taken
  | unlink t ok =>
      simp only [DirWorld.step] at taken
      split at taken
      · rename_i user record tmpfilename at_
        have known : user ∈ users := by
          have here := sim.phases t
          rw [at_] at here
          exact here.1
        cases ok with
        | false =>
            cases taken
            refine ⟨_, .single (.notPut ⟨user, known⟩ record), ?_⟩
            exact sim.setPhase_only (fun _ _ => rfl) rfl rfl (congrArg (· ++ _) sim.results)
              (fun _ absent => by cases absent) (fun _ absent => by cases absent)
              fun _ _ _ => trivial
        | true =>
            cases taken
            have noted : Relation.ReflTransGen AtomicStore.Step a
                { a with
                  past := a.value :: a.past
                  results := a.results ++ [.notWritten user record] } :=
              .tail (.single .unchanged) (.notPut ⟨user, known⟩ record)
            exact ⟨_, noted, sim.unlink apart at_⟩
      · cases taken
  | stateRead t user opened =>
      have known : user ∈ users := orderly
      simp only [DirWorld.step] at taken
      split at taken
      · split_ifs at taken
        · cases taken
          refine ⟨_, .single (.notGiven t user), ?_⟩
          exact sim.setPhase_only (fun t' other => update_of_ne other _ _) rfl rfl
            (congrArg (· ++ _) sim.results) (fun _ absent => by cases absent)
            (fun _ absent => by cases absent) fun _ _ _ => trivial
        · have value : a.value ⟨user, known⟩ =
              (w.disk.dir (stateFilename dir user)).map w.disk.data := by
            rw [(List.cons.inj sim.values).1]
            rfl
          have snapshot : update a.snapshot t (some (user, a.value ⟨user, known⟩)) t =
              some (user, a.value ⟨user, known⟩) := update_self _ _ _
          have others : ∀ t', t' ≠ t → update a.snapshot t (some (user, a.value ⟨user, known⟩)) t' =
              a.snapshot t' := fun t' other => update_of_ne other _ _
          split at taken
          · rename_i absent
            cases taken
            have empty : a.value ⟨user, known⟩ = none := by
              rw [value, show w.disk.dir (stateFilename dir user) = none from absent]
              rfl
            refine ⟨_, .tail (.single (.take t ⟨user, known⟩)) (.give t user none ?_), ?_⟩
            · exact snapshot.trans (by rw [empty])
            · refine sim.setPhase_only ?_ rfl rfl ?_ (fun _ absent => by cases absent)
                (fun _ absent => by cases absent) fun _ _ _ => trivial
              · exact fun t' other => (update_of_ne other _ _).trans (others t' other)
              · exact congrArg (· ++ _ ++ _) sim.results
          · rename_i fd entry
            cases taken
            refine ⟨_, .single (.take t ⟨user, known⟩), ?_⟩
            refine sim.setPhase_only others rfl rfl (congrArg (· ++ _) sim.results)
              (fun _ absent => by cases absent) (fun _ absent => by cases absent) ?_
            intro w' disk settled
            refine ⟨snapshot.trans ?_, settled fd (sim.settled.here entry user known rfl),
              List.nil_prefix, Nat.zero_le _⟩
            rw [value, show w.disk.dir (stateFilename dir user) = some fd from entry, disk]
            rfl
      · cases taken
  | read t rc =>
      simp only [DirWorld.step] at taken
      split at taken
      · rename_i user fd buf at_
        obtain ⟨snapshot, settled, front, short⟩ : a.snapshot t = some (user, some (w.disk.data fd)) ∧
            SettledInode w fd ∧ buf <+: w.disk.data fd ∧ buf.length ≤ gsmMaxStateLen := by
          have here := sim.phases t
          rwa [at_] at here
        cases rc with
        | again =>
            cases taken
            exact ⟨a, .refl, sim⟩
        | error =>
            cases taken
            refine ⟨_, .single (.notGiven t user), ?_⟩
            exact sim.setPhase_only (fun t' other => update_of_ne other _ _) rfl rfl
              (congrArg (· ++ _) sim.results) (fun _ absent => by cases absent)
              (fun _ absent => by cases absent) fun _ _ _ => trivial
        | bytes n =>
            simp only at taken
            split_ifs at taken with most zero ended
            · cases taken
              refine ⟨a, .refl, sim.setPhase_only (fun _ _ => rfl) rfl rfl sim.results
                (fun _ absent => by cases absent) (fun _ absent => by cases absent) ?_⟩
              intro w' disk stays
              rw [StorePhase, disk]
              refine ⟨snapshot, stays fd settled, ?_, ?_⟩
              · obtain ⟨tail, split⟩ := front
                rw [← split, List.drop_left]
                exact List.prefix_append_right_inj _ |>.mpr (List.take_prefix n tail)
              · simp only [readable] at most
                simp only [List.length_append, List.length_take, List.length_drop]
                omega
            · cases taken
              refine ⟨_, .single (.give t user _ snapshot), ?_⟩
              rw [← endRead_eq front short ended]
              exact sim.setPhase_only (fun t' other => update_of_ne other _ _) rfl rfl
                (congrArg (· ++ _) sim.results) (fun _ absent => by cases absent)
                (fun _ absent => by cases absent) fun _ _ _ => trivial
      · cases taken
  | settle k =>
      cases taken
      exact ⟨_, .single (.settle k), sim.settle k⟩
  | crash k keep =>
      cases taken
      exact ⟨_, .single (.crash k), sim.crash k keep⟩

theorem storeSim_start {disk : Disk (List Byte) Byte} (rest : disk.AtRest) :
    StoreSim dir users (.start disk) (.start fun user => disk.contents (stateFilename dir user)) where
  values := by
    simp only [DirWorld.start, rest.past]
    rfl
  settled := by
    intro d member name ino entry _ _ _
    rw [DirWorld.start, rest.past] at member
    cases List.mem_singleton.mp member
    have inside := rest.inside name ino entry
    exact ⟨inside, rest.synced ino inside, fun _ absent => by cases absent⟩
  inside := by
    intro d member name ino entry
    rw [DirWorld.start, rest.past] at member
    cases List.mem_singleton.mp member
    exact rest.inside name ino entry
  phases := fun _ => trivial
  aloneTmp := fun _ _ _ absent => by cases absent
  aloneInode := fun _ _ _ absent => by cases absent
  results := rfl

theorem apart_of_names (names : ∀ user ∈ users, ∀ user' ∈ users, ∀ s : List Byte, s.length = 6 →
    (∀ c ∈ s, mkstempChar c = true) → user'.bytes ≠ user.bytes ++ s) : Apart dir users := by
  rintro user known user' known' ⟨s, size, chars, same⟩
  rw [stateFilename_eq, stateFilename_eq, List.append_assoc, List.cons_append] at same
  exact names user known user' known' s size chars
    (List.cons.inj (List.append_cancel_left same)).2

end Simulation

/-- In every run of `state_read` and `state_write` for such users, whatever else fails and
wherever the machine crashes, the calls and crashes come to what they come to on the atomic
store, and each user's file holds what the store has for him: the last record reported as
written, when there was no crash. -/
theorem state_store_atomic (dir : Statedir) (users : Set Username)
    (names : ∀ user ∈ users, ∀ user' ∈ users, ∀ s : List Byte, s.length = 6 →
      (∀ c ∈ s, mkstempChar c = true) → user'.bytes ≠ user.bytes ++ s)
    (start : Disk (List Byte) Byte) (rest : start.AtRest) (events : List IoEvent)
    (orderly : ∀ event ∈ events, Orderly users event) (w : DirWorld)
    (run : Schedule.run (DirWorld.step dir) (.start start) events = some w) :
    ∃ a : AtomicStore users,
      Relation.ReflTransGen AtomicStore.Step
        (.start fun user => start.contents (stateFilename dir user)) a ∧
      a.results = w.results ∧
      (∀ user : users, w.disk.contents (stateFilename dir user) = a.value user) ∧
      (.crashed ∉ w.results → ∀ user : users, w.disk.contents (stateFilename dir user) =
        AtomicStore.lastWrote (start.contents (stateFilename dir user)) user w.results) := by
  obtain ⟨a, steps, sim⟩ := Schedule.run_invariant
    (fun w => ∃ a : AtomicStore users, Relation.ReflTransGen AtomicStore.Step
      (.start fun user => start.contents (stateFilename dir user)) a ∧ StoreSim dir users w a)
    (fun w event w' ⟨a, steps, sim⟩ orderly taken => by
      obtain ⟨a', more, sim'⟩ := sim.step (apart_of_names names) orderly taken
      exact ⟨a', steps.trans more, sim'⟩)
    ⟨_, .refl, storeSim_start rest⟩ (Schedule.along_of_mem orderly) run
  have stored : ∀ user : users, w.disk.contents (stateFilename dir user) = a.value user := by
    intro user
    rw [(List.cons.inj sim.values).1]
    rfl
  refine ⟨a, steps, sim.results, stored, ?_⟩
  intro noCrash user
  rw [← sim.results] at noCrash ⊢
  rw [stored user, AtomicStore.value_lastWrote steps noCrash user]

/-- Two threads write for one user, the second after its first `write` failed. -/
def twoWriters : List IoEvent :=
  [.stateWrite 0 henry State.init.record (some (ascii "AbC123")),
    .stateWrite 1 henry State.init.record (some (ascii "AbC124")), .write 0 (some 5),
    .write 1 none, .write 0 (some 13), .unlink 1 false, .fsync 0 true, .rename 0 true]

/-- A crash, and a read of what is left. -/
def crashThenRead : List IoEvent :=
  [.crash 0 fun _ => 0, .stateRead 1 henry true, .read 1 (.bytes 18), .read 1 (.bytes 0)]

theorem henry_apart : ∀ user ∈ ({henry} : Set Username), ∀ user' ∈ ({henry} : Set Username),
    ∀ s : List Byte, s.length = 6 → (∀ c ∈ s, mkstempChar c = true) →
      user'.bytes ≠ user.bytes ++ s := by
  rintro user rfl user' rfl s size _ same
  have sizes := congrArg List.length same
  rw [List.length_append, size] at sizes
  omega

theorem writers_orderly : ∀ event ∈ twoWriters ++ crashThenRead, Orderly {henry} event := by
  intro event member
  simp only [twoWriters, crashThenRead, List.cons_append, List.nil_append, List.mem_cons,
    List.not_mem_nil, or_false] at member
  rcases member with rfl | rfl | rfl | rfl | rfl | rfl | rfl | rfl | rfl | rfl | rfl | rfl <;>
    simp [Orderly]

theorem state_store_atomic_two :
    (∃ w, Schedule.run (DirWorld.step sampleStatedir) (.start emptyDisk)
        (twoWriters ++ crashThenRead) = some w ∧
      ∃ a : AtomicStore {henry},
        Relation.ReflTransGen AtomicStore.Step
          (.start fun user => emptyDisk.contents (stateFilename sampleStatedir user)) a ∧
        a.results = w.results ∧
        ∀ user : ({henry} : Set Username),
          w.disk.contents (stateFilename sampleStatedir user) = a.value user) ∧
      ∃ w, Schedule.run (DirWorld.step sampleStatedir) (.start emptyDisk) twoWriters = some w ∧
        .crashed ∉ w.results ∧
        w.disk.contents (stateFilename sampleStatedir henry) =
          AtomicStore.lastWrote none henry w.results := by
  have isSome : (Schedule.run (DirWorld.step sampleStatedir) (.start emptyDisk)
      (twoWriters ++ crashThenRead)).isSome = true := by
    decide +kernel
  have quiet : (Schedule.run (DirWorld.step sampleStatedir) (.start emptyDisk) twoWriters).map
      (·.results) = some [.notWritten henry State.init.record, .wrote henry State.init.record] := by
    decide +kernel
  constructor
  · obtain ⟨w, run⟩ := Option.isSome_iff_exists.mp isSome
    obtain ⟨a, steps, results, stored, -⟩ := state_store_atomic sampleStatedir {henry} henry_apart
      emptyDisk emptyDisk_atRest _ writers_orderly w run
    exact ⟨w, run, a, steps, results, stored⟩
  · obtain ⟨w, run, results⟩ := Option.map_eq_some_iff.mp quiet
    obtain ⟨a, -, -, -, last⟩ := state_store_atomic sampleStatedir {henry} henry_apart
      emptyDisk emptyDisk_atRest _
      (fun event member => writers_orderly event (List.mem_append_left _ member)) w run
    have noCrash : .crashed ∉ w.results := by
      rw [results]
      simp
    exact ⟨w, run, noCrash, last noCrash ⟨henry, rfl⟩⟩

end Otpd

import Otpd.Concurrent
import Otpd.LockChains

/-!
# The daemon

Any number of threads run `verify` in local state mode, each for a user of its own
choice: the lock chains are those of `lock.c`, with all users in the one table, and every
user has a state file.  For each user the threads simulate the critical sections of
`Otpd.Lib.Serial`, so each user is served as if there were no others.
-/

set_option autoImplicit false

namespace Otpd

open CMem

/-! ## Names in the lock chains -/

section Names

variable {chain chain' : Chain} {username : Username} {now : Int} {lock : Nat}

theorem findLockFrom_found {last : Nat} {fuel : Nat} {at_ : Option Nat}
    (found : findLockFrom chain username last fuel at_ = some (true, some lock)) :
    nameOf chain.nodes lock = some username := by
  induction fuel generalizing at_ with
  | zero => cases found
  | succ fuel ih =>
      cases at_ with
      | none => cases found
      | some a =>
          simp only [findLockFrom] at found
          obtain ⟨node, stored, found⟩ := Option.bind_eq_some_iff.mp found
          obtain ⟨name, spelled, found⟩ := Option.bind_eq_some_iff.mp found
          by_cases same : name = username
          · rw [if_pos same] at found
            cases found
            rw [nameOf, fieldOf, stored, Option.bind_some, spelled, same]
          · rw [if_neg same] at found
            by_cases ended : a = last
            · rw [if_pos ended] at found
              cases found
            · rw [if_neg ended] at found
              exact ih found

theorem findLock_found (found : findLock chain username = some (true, some lock)) :
    nameOf chain.nodes lock = some username := by
  rw [findLock] at found
  cases ended : chain.last with
  | none =>
      rw [ended] at found
      cases found
  | some last =>
      rw [ended] at found
      exact findLockFrom_found found

/-- A grant names its node and no other. -/
structure Granted (chain chain' : Chain) (username : Username) (lock : Nat) : Prop where
  others : ∀ c, c ≠ lock → nameOf chain'.nodes c = nameOf chain.nodes c
  own : ∀ name, nameOf chain'.nodes lock = some name → name = username

theorem granted_modify {f : LockNode → LockNode}
    (names : ∀ node, (f node).username = some username) {nodes : List LockNode}
    (same : nodes = chain.nodes.modify lock f) {first last : Option Nat} :
    Granted chain ⟨nodes, first, last⟩ username lock := by
  subst same
  refine ⟨?_, ?_⟩
  · intro c other
    rw [nameOf, fieldOf, fieldOf, List.getElem?_modify_ne _ _ other.symm]
  · intro name here
    obtain ⟨node, stored, spelled⟩ := nameOf_eq here
    rw [List.getElem?_modify_eq] at stored
    obtain ⟨old, -, rfl⟩ := Option.map_eq_some_iff.mp stored
    rw [names] at spelled
    exact (Option.some.inj spelled).symm

theorem lockGet_granted (got : lockGet chain username now = some (some lock, chain')) :
    Granted chain chain' username lock := by
  rw [lockGet] at got
  obtain ⟨⟨waslocked, found⟩, searched, got⟩ := Option.bind_eq_some_iff.mp got
  cases waslocked with
  | true =>
      obtain ⟨lock', isFound, got⟩ := Option.bind_eq_some_iff.mp got
      subst isFound
      obtain ⟨node, stored, got⟩ := Option.bind_eq_some_iff.mp got
      by_cases expired : now ≥ node.ltime + lockExpiry
      · rw [if_pos expired] at got
        cases got
        have names : nameOf (chain.update lock ({ · with ltime := now })).nodes =
            nameOf chain.nodes := fieldOf_modify_same fun _ => rfl
        refine ⟨?_, ?_⟩
        · intro c _
          rw [names]
        · intro name here
          rw [names, findLock_found searched] at here
          exact (Option.some.inj here).symm
      · rw [if_neg expired] at got
        cases got
  | false =>
      cases found with
      | some lock' =>
          cases got
          exact granted_modify (fun _ => rfl) rfl
      | none =>
          obtain ⟨last, ended, got⟩ := Option.bind_eq_some_iff.mp got
          cases got
          have names : nameOf
              ((chain.update last ({ · with next := some chain.nodes.length })).nodes ++
                [⟨some username, now, some last, none⟩]) =
              Function.update (nameOf chain.nodes) chain.nodes.length (some username) := by
            rw [nameOf, fieldOf_append, Chain.update, List.length_modify, fieldOf_modify_same]
            exact fun _ => rfl
          refine ⟨?_, ?_⟩
          · intro c other
            rw [names, Function.update_of_ne other]
          · intro name here
            rw [names, Function.update_self] at here
            exact (Option.some.inj here).symm

theorem lockGet_refused (got : lockGet chain username now = some (none, chain')) :
    chain' = chain := by
  rw [lockGet] at got
  obtain ⟨⟨waslocked, found⟩, -, got⟩ := Option.bind_eq_some_iff.mp got
  cases waslocked with
  | true =>
      obtain ⟨lock', -, got⟩ := Option.bind_eq_some_iff.mp got
      obtain ⟨node, -, got⟩ := Option.bind_eq_some_iff.mp got
      by_cases expired : now ≥ node.ltime + lockExpiry
      · rw [if_pos expired] at got
        cases got
      · rw [if_neg expired] at got
        cases got
        rfl
  | false =>
      cases found with
      | some lock' => cases got
      | none =>
          obtain ⟨last, -, got⟩ := Option.bind_eq_some_iff.mp got
          cases got

/-- `lock_put` takes the name off its node, and leaves the others. -/
theorem lockPut_names (put : lockPut chain lock = some chain') :
    nameOf chain'.nodes = Function.update (nameOf chain.nodes) lock none := by
  cases stored : chain.nodes[lock]? with
  | none =>
      simp only [lockPut, stored, Option.bind_eq_bind, Option.bind_none] at put
      cases put
  | some node =>
      have inside : lock < chain.nodes.length := (List.getElem?_eq_some_iff.mp stored).1
      cases spelled : node.username with
      | none =>
          simp only [lockPut, stored, spelled, Option.bind_eq_bind, Option.bind_some,
            Option.bind_none] at put
          cases put
      | some name =>
          by_cases isLast : chain.last = some lock
          · have isLast' : (chain.update lock ({ · with username := none })).last = some lock :=
              isLast
            simp only [lockPut, stored, spelled, Option.bind_eq_bind, Option.bind_some,
              if_pos isLast'] at put
            cases put
            exact fieldOf_modify_set none (fun _ => rfl) inside
          · cases ended : chain.last with
            | none =>
                have notLast : ¬ (none : Option Nat) = some lock := (Option.some_ne_none lock).symm
                simp only [lockPut, stored, spelled, Chain.update, ended, if_neg notLast,
                  Option.bind_eq_bind, Option.bind_some] at put
                cases back : node.prev <;> cases forth : node.next <;> rw [back, forth] at put <;>
                  cases put
            | some last =>
                have other : last ≠ lock := by
                  intro same
                  exact isLast (ended.trans (congrArg some same))
                rw [lockPut_moves stored spelled ended other] at put
                obtain ⟨after, -, rfl⟩ := Option.map_eq_some_iff.mp put
                rw [relinked_name, unlinked_name lock chain.nodes inside]

end Names

section TableNames

variable {table table' : LockTable} {username : Username} {now : Int} {lock : Nat}

theorem LockTable.lockGet_refused (got : table.lockGet username now = some (none, table')) :
    table' = table := by
  obtain ⟨⟨found, chain⟩, walked, same⟩ := Option.map_eq_some_iff.mp got
  cases same
  rw [Otpd.lockGet_refused walked, LockTable.store_chain]

theorem LockTable.lockGet_granted (got : table.lockGet username now = some (some lock, table')) :
    (∀ c, c ≠ lock → nameOf table'.nodes c = nameOf table.nodes c) ∧
      ∀ name, nameOf table'.nodes lock = some name → name = username := by
  obtain ⟨⟨found, chain⟩, walked, same⟩ := Option.map_eq_some_iff.mp got
  cases same
  have granted := Otpd.lockGet_granted walked
  exact ⟨granted.others, granted.own⟩

theorem LockTable.lockPut_names (put : table.lockPut lock = some table') :
    nameOf table'.nodes = Function.update (nameOf table.nodes) lock none := by
  obtain ⟨node, -, put⟩ := Option.bind_eq_some_iff.mp put
  obtain ⟨name, -, put⟩ := Option.bind_eq_some_iff.mp put
  obtain ⟨chain, released, rfl⟩ := Option.map_eq_some_iff.mp put
  exact Otpd.lockPut_names released

end TableNames

section Formed

variable {w : LockWorld} {lock : Nat} {username : Username}

/-- A lock that is out is held under a name. -/
theorem WellFormed.out_named (formed : WellFormed w) (out : lock ∈ w.out) :
    ∃ name, nameOf w.table.nodes lock = some name := by
  obtain ⟨held, free, ok, -, outs⟩ := formed
  obtain ⟨b, valid, member⟩ := (outs lock).mp out
  obtain ⟨name, named, -⟩ := ok.named valid member
  exact ⟨name, named⟩

theorem WellFormed.name_inj (formed : WellFormed w) {lock' : Nat} (out : lock ∈ w.out)
    (out' : lock' ∈ w.out) (named : nameOf w.table.nodes lock = some username)
    (named' : nameOf w.table.nodes lock' = some username) : lock = lock' := by
  obtain ⟨held, free, ok, -, outs⟩ := formed
  obtain ⟨b, valid, member⟩ := (outs lock).mp out
  obtain ⟨b', valid', member'⟩ := (outs lock').mp out'
  have same : b = b' :=
    (ok.own_bucket valid member named).trans (ok.own_bucket valid' member' named').symm
  subst same
  exact List.inj_on_of_nodup_map (ok.bucket b valid).distinct member member'
    (named.trans named'.symm)

end Formed

/-! ## Threads over the lock table -/

/-- `order` records who was granted a lock, oldest first. -/
structure Daemon where
  thread : Nat → Thread
  locks : LockWorld
  file : Username → Store
  order : List Nat

def Daemon.start (file : Username → Store) : Daemon :=
  ⟨fun _ => .ready, LockWorld.start, file, []⟩

def Daemon.set (d : Daemon) (i : Nat) (thread : Thread) : Daemon :=
  { d with thread := Function.update d.thread i thread }

@[simp]
theorem Daemon.set_self (d : Daemon) (i : Nat) (thread : Thread) :
    (d.set i thread).thread i = thread :=
  Function.update_self ..

theorem Daemon.set_ne (d : Daemon) {i j : Nat} (other : j ≠ i) (thread : Thread) :
    (d.set i thread).thread j = d.thread j :=
  Function.update_of_ne other ..

/-- The next step of a thread, with what `xgethrtime` says.  `none` is a NULL dereference in
`lock.c`. -/
def Daemon.step (crypto : Crypto) (calls : Nat → Call) (d : Daemon) :
    Nat × Int → Option Daemon
  | (i, hr) =>
    let username := (calls i).request.username
    match d.thread i with
    | .ready =>
      match prepareCall crypto (calls i) with
      | .error exit => some (d.set i (.done (earlyReply (calls i) exit)))
      | .ok p => some (d.set i (.prepared p))
    | .prepared p =>
      match d.locks.table.lockGet username hr with
      | none => none
      | some (none, table) =>
          some { d.set i (.done serviceErrReply) with locks := ⟨table, d.locks.out⟩ }
      | some (some lock, table) =>
          some { d.set i (.inside lock (.locked p)) with
            locks := ⟨table, lock :: d.locks.out⟩, order := d.order ++ [i] }
    | .inside lock section_ =>
      match section_.result with
      | none =>
          let next := section_.work crypto (calls i) (d.file username)
          some { d.set i (.inside lock next.1) with
            file := Function.update d.file username next.2 }
      | some reply =>
        match d.locks.table.lockPut lock with
        | none => none
        | some table =>
            some { d.set i (.done reply) with locks := ⟨table, d.locks.out.erase lock⟩ }
    | .done _ => some d

/-- No lock is 24 s old at a `lock_get`, and a lock is put back where its chain survives it. -/
def Daemon.Rule (calls : Nat → Call) (d : Daemon) : Nat × Int → Prop
  | (i, hr) =>
    match d.thread i with
    | .prepared _ => LockRule d.locks (.get (calls i).request.username hr)
    | .inside lock section_ => section_.result.isSome = true → PutInPlace d.locks (.put lock)
    | _ => True

instance Daemon.Rule.decidable (calls : Nat → Call) (d : Daemon) :
    ∀ e, Decidable (d.Rule calls e)
  | (i, hr) =>
      match thread : d.thread i with
      | .ready => .isTrue (by simp only [Daemon.Rule, thread])
      | .prepared _ =>
          decidable_of_iff (LockRule d.locks (.get (calls i).request.username hr))
            (by simp only [Daemon.Rule, thread])
      | .inside lock section_ =>
          decidable_of_iff (section_.result.isSome = true → PutInPlace d.locks (.put lock))
            (by simp only [Daemon.Rule, thread])
      | .done _ => .isTrue (by simp only [Daemon.Rule, thread])

/-- No lock is 24 s old at a `lock_get`. -/
def Daemon.Timely (calls : Nat → Call) (d : Daemon) : Nat × Int → Prop
  | (i, hr) =>
    match d.thread i with
    | .prepared _ => LockRule d.locks (.get (calls i).request.username hr)
    | _ => True

instance Daemon.Timely.decidable (calls : Nat → Call) (d : Daemon) :
    ∀ e, Decidable (d.Timely calls e)
  | (i, hr) =>
      match thread : d.thread i with
      | .ready => .isTrue (by simp only [Daemon.Timely, thread])
      | .prepared _ =>
          decidable_of_iff (LockRule d.locks (.get (calls i).request.username hr))
            (by simp only [Daemon.Timely, thread])
      | .inside _ _ => .isTrue (by simp only [Daemon.Timely, thread])
      | .done _ => .isTrue (by simp only [Daemon.Timely, thread])

/-- The calls of the user that got the lock, in the order in which they got it. -/
def Daemon.granted (calls : Nat → Call) (d : Daemon) (user : Username) : List Nat :=
  d.order.filter fun i => (calls i).request.username = user

/-! ## The threads simulate the sections of their users -/

/-- The critical sections of each user. -/
abbrev Family := Username → Serial.System Nat Store Section Reply

section Simulation

variable (crypto : Crypto) (calls : Nat → Call)

structure DaemonSim (d : Daemon) (family : Family) : Prop where
  formed : WellFormed d.locks
  threads : ∀ i, ∃ lock, ThreadSim crypto calls lock i (d.thread i)
    ((family (calls i).request.username).phase i)
  strangers : ∀ user i, (calls i).request.username ≠ user → (family user).phase i = .idle
  files : ∀ user, d.file user = (family user).store
  orders : ∀ user, d.granted calls user = (family user).order
  names : ∀ i lock section_, d.thread i = .inside lock section_ → lock ∈ d.locks.out ∧
    nameOf d.locks.table.nodes lock = some (calls i).request.username
  free : ∀ user, (family user).holder = none → ¬ d.locks.Held user

/-- Each user's sections take steps of their own. -/
def Reaches (file : Username → Store) (family : Family) : Prop :=
  ∀ user, Relation.ReflTransGen (Serial.Step (program crypto calls))
    (Serial.System.start (file user)) (family user)

variable {crypto calls} {d d' : Daemon} {family : Family} {file : Username → Store} {i : Nat}
  {sys' : Serial.System Nat Store Section Reply}

theorem Reaches.step (reaches : Reaches crypto calls file family) {user : Username}
    (step : Serial.Step (program crypto calls) (family user) sys') :
    Reaches crypto calls file (Function.update family user sys') := by
  intro other
  by_cases here : other = user
  · subst here
    rw [Function.update_self]
    exact (reaches other).tail step
  · rw [Function.update_of_ne here]
    exact reaches other

/-- Thread `i` and the sections of its user moved, and no others. -/
structure Moved (calls : Nat → Call) (d d' : Daemon) (family : Family) (i : Nat)
    (sys' : Serial.System Nat Store Section Reply) : Prop where
  thread : ∀ j, j ≠ i → d'.thread j = d.thread j
  phase : ∀ j, j ≠ i → sys'.phase j = (family (calls i).request.username).phase j
  file : d'.file (calls i).request.username = sys'.store
  files : ∀ user, user ≠ (calls i).request.username → d'.file user = d.file user
  order : d'.granted calls (calls i).request.username = sys'.order
  orders : ∀ user, user ≠ (calls i).request.username →
    d'.granted calls user = d.granted calls user

theorem DaemonSim.moved (sim : DaemonSim crypto calls d family)
    (moved : Moved calls d d' family i sys') (formed : WellFormed d'.locks)
    (here : ∃ lock, ThreadSim crypto calls lock i (d'.thread i) (sys'.phase i))
    (names : ∀ j lock section_, d'.thread j = .inside lock section_ → lock ∈ d'.locks.out ∧
      nameOf d'.locks.table.nodes lock = some (calls j).request.username)
    (free : sys'.holder = none → ¬ d'.locks.Held (calls i).request.username)
    (others : ∀ user, user ≠ (calls i).request.username → d'.locks.Held user →
      d.locks.Held user) :
    DaemonSim crypto calls d' (Function.update family (calls i).request.username sys') where
  formed := formed
  threads := by
    intro j
    by_cases same : j = i
    · subst same
      rw [Function.update_self]
      exact here
    · rw [moved.thread j same]
      by_cases user : (calls j).request.username = (calls i).request.username
      · rw [user, Function.update_self, moved.phase j same, ← user]
        exact sim.threads j
      · rw [Function.update_of_ne user]
        exact sim.threads j
  strangers := by
    intro user j stranger
    by_cases mine : user = (calls i).request.username
    · subst mine
      have other : j ≠ i := by
        intro same
        exact stranger (by rw [same])
      rw [Function.update_self, moved.phase j other]
      exact sim.strangers _ j stranger
    · rw [Function.update_of_ne mine]
      exact sim.strangers user j stranger
  files := by
    intro user
    by_cases mine : user = (calls i).request.username
    · subst mine
      rw [Function.update_self]
      exact moved.file
    · rw [Function.update_of_ne mine, moved.files user mine]
      exact sim.files user
  orders := by
    intro user
    by_cases mine : user = (calls i).request.username
    · subst mine
      rw [Function.update_self]
      exact moved.order
    · rw [Function.update_of_ne mine, moved.orders user mine]
      exact sim.orders user
  names := names
  free := by
    intro user noHolder
    by_cases mine : user = (calls i).request.username
    · subst mine
      rw [Function.update_self] at noHolder
      exact free noHolder
    · rw [Function.update_of_ne mine] at noHolder
      intro held
      exact sim.free user noHolder (others user mine held)

theorem DaemonSim.idle (sim : DaemonSim crypto calls d family)
    (outside : d.thread i = .ready ∨ ∃ p, d.thread i = .prepared p) :
    (family (calls i).request.username).phase i = .idle := by
  obtain ⟨lock, here⟩ := sim.threads i
  cases phase : (family (calls i).request.username).phase i with
  | idle => rfl
  | inside _ => rcases outside with thread | ⟨p, thread⟩ <;> simp [ThreadSim, phase, thread] at here
  | done _ => rcases outside with thread | ⟨p, thread⟩ <;> simp [ThreadSim, phase, thread] at here

theorem DaemonSim.inside (sim : DaemonSim crypto calls d family) {lock : Nat} {section_ : Section}
    (thread : d.thread i = .inside lock section_) :
    (family (calls i).request.username).phase i = .inside section_ := by
  obtain ⟨lock', here⟩ := sim.threads i
  cases phase : (family (calls i).request.username).phase i with
  | idle => simp [ThreadSim, phase, thread] at here
  | inside section' =>
      simp only [ThreadSim, phase, thread] at here
      rw [here.2]
  | done _ => simp [ThreadSim, phase, thread] at here

/-- Who is inside the sections of a user is a thread for that user, inside. -/
theorem DaemonSim.inside_thread (sim : DaemonSim crypto calls d family) {user : Username}
    {section_ : Section} (phase : (family user).phase i = .inside section_) :
    (calls i).request.username = user ∧ ∃ lock, d.thread i = .inside lock section_ := by
  have mine : (calls i).request.username = user := by
    by_contra stranger
    rw [sim.strangers user i stranger] at phase
    cases phase
  subst mine
  obtain ⟨lock, here⟩ := sim.threads i
  rw [phase] at here
  refine ⟨rfl, ?_⟩
  cases thread : d.thread i with
  | ready => simp [ThreadSim, thread] at here
  | prepared p => simp [ThreadSim, thread] at here
  | inside lock' section' =>
      simp only [ThreadSim, thread] at here
      exact ⟨lock', by rw [here.2]⟩
  | done reply => simp [ThreadSim, thread] at here

theorem DaemonSim.done_iff (sim : DaemonSim crypto calls d family) {reply : Reply} :
    d.thread i = .done reply ↔
      (family (calls i).request.username).phase i = .done reply := by
  obtain ⟨lock, here⟩ := sim.threads i
  cases thread : d.thread i <;>
    cases phase : (family (calls i).request.username).phase i <;> simp_all [ThreadSim]

theorem DaemonSim.start (file : Username → Store) :
    DaemonSim crypto calls (Daemon.start file) fun user => Serial.System.start (file user) where
  formed := wellFormed_start
  threads := fun _ => ⟨0, trivial⟩
  strangers := fun _ _ _ => rfl
  files := fun _ => rfl
  orders := fun _ => rfl
  names := fun _ _ _ thread => by cases thread
  free := by
    intro user _ held
    obtain ⟨lock, out, -⟩ := held
    cases out

/-- The state of the daemon is explained by steps of each user's sections. -/
def Explained (crypto : Crypto) (calls : Nat → Call) (file : Username → Store) (d : Daemon) :
    Prop :=
  ∃ family, DaemonSim crypto calls d family ∧ Reaches crypto calls file family

theorem DaemonSim.names_set (sim : DaemonSim crypto calls d family) {thread : Thread}
    (here : ∀ lock section_, thread = .inside lock section_ → lock ∈ d.locks.out ∧
      nameOf d.locks.table.nodes lock = some (calls i).request.username) :
    ∀ j lock section_, (d.set i thread).thread j = .inside lock section_ → lock ∈ d.locks.out ∧
      nameOf d.locks.table.nodes lock = some (calls j).request.username := by
  intro j lock section_ inside
  by_cases same : j = i
  · subst same
    rw [d.set_self] at inside
    exact here lock section_ inside
  · rw [d.set_ne same] at inside
    exact sim.names j lock section_ inside

theorem DaemonSim.moved_set (sim : DaemonSim crypto calls d family) (thread : Thread)
    (phase : Serial.Phase Section Reply) (locks : LockWorld) (holder : Option Nat) :
    Moved calls d { d.set i thread with locks := locks } family i
      { (family (calls i).request.username).set i phase with holder := holder } where
  thread := fun _ other => Function.update_of_ne other ..
  phase := fun _ other => Serial.System.set_phase_ne _ other phase
  file := sim.files _
  files := fun _ _ => rfl
  order := sim.orders _
  orders := fun _ _ => rfl

theorem DaemonSim.moved_granted (sim : DaemonSim crypto calls d family) (thread : Thread)
    (phase : Serial.Phase Section Reply) (locks : LockWorld) (holder : Option Nat) :
    Moved calls d { d.set i thread with locks := locks, order := d.order ++ [i] } family i
      { (family (calls i).request.username).set i phase with
        holder := holder, order := (family (calls i).request.username).order ++ [i] } where
  thread := fun _ other => Function.update_of_ne other ..
  phase := fun _ other => Serial.System.set_phase_ne _ other phase
  file := sim.files _
  files := fun _ _ => rfl
  order := by
    rw [← sim.orders, Daemon.granted, Daemon.granted, List.filter_append, List.filter_singleton,
      decide_eq_true rfl]
    rfl
  orders := by
    intro user other
    have stranger : decide ((calls i).request.username = user) = false :=
      decide_eq_false (Ne.symm other)
    rw [Daemon.granted, Daemon.granted, List.filter_append, List.filter_singleton, stranger]
    exact List.append_nil _

section Steps

variable (sim : DaemonSim crypto calls d family) (reaches : Reaches crypto calls file family)
include sim reaches

theorem DaemonSim.step_ready (thread : d.thread i = .ready) (hr : Int) :
    ∃ d', d.step crypto calls (i, hr) = some d' ∧ Explained crypto calls file d' := by
  have phase := sim.idle (Or.inl thread)
  simp only [Daemon.step, thread]
  cases prepared : prepareCall crypto (calls i) with
  | error exit =>
      refine ⟨_, rfl, _, ?_, reaches.step (.bypass i (earlyReply (calls i) exit) phase ?_)⟩
      · refine sim.moved (sim.moved_set _ _ d.locks _) sim.formed ⟨0, ?_⟩ (sim.names_set ?_)
          (sim.free _) fun _ _ held => held
        · simp only [Daemon.set_self, Serial.System.set_phase_self]
          rfl
        · intro lock section_ inside
          cases inside
      · simp [program, prepared]
  | ok p =>
      refine ⟨_, rfl, family, ?_, reaches⟩
      exact {
        formed := sim.formed
        threads := by
          intro j
          by_cases same : j = i
          · subst same
            rw [d.set_self, phase]
            exact ⟨0, prepared⟩
          · rw [d.set_ne same]
            exact sim.threads j
        strangers := sim.strangers
        files := sim.files
        orders := sim.orders
        names := sim.names_set fun _ _ inside => by cases inside
        free := sim.free }

/-- A user whose sections have a holder holds a lock. -/
theorem DaemonSim.held {user : Username} {j : Nat} (holder : (family user).holder = some j) :
    d.locks.Held user := by
  obtain ⟨log, base, consistent⟩ := Serial.reaches_consistent (reaches user)
  rcases consistent.current with ⟨nobody, -⟩ | ⟨k, section_, -, phase, -⟩
  · rw [nobody] at holder
    cases holder
  · obtain ⟨rfl, lock, thread⟩ := sim.inside_thread phase
    exact ⟨lock, sim.names k lock section_ thread⟩

theorem DaemonSim.step_prepared {p : Prepared} (thread : d.thread i = .prepared p) {hr : Int}
    (rule : LockRule d.locks (.get (calls i).request.username hr)) :
    ∃ d', d.step crypto calls (i, hr) = some d' ∧ Explained crypto calls file d' := by
  have phase := sim.idle (Or.inr ⟨p, thread⟩)
  obtain ⟨_, prepared⟩ := sim.threads i
  simp only [ThreadSim, thread, phase] at prepared
  have entry : (program crypto calls).entry i = .ok (.locked p) := by simp [program, prepared]
  obtain ⟨found, table, got, formed, refused⟩ := lockGet_ok sim.formed rule
  cases found with
  | none =>
      obtain rfl := LockTable.lockGet_refused got
      have held := refused.mp rfl
      cases holder : (family (calls i).request.username).holder with
      | none => exact absurd held (sim.free _ holder)
      | some j =>
          simp only [Daemon.step, thread, got]
          refine ⟨_, rfl, _, ?_, reaches.step (.refuse i j (.locked p) phase entry holder)⟩
          refine sim.moved (sim.moved_set _ _ d.locks _) sim.formed ⟨0, ?_⟩ (sim.names_set ?_) ?_
            fun _ _ held => held
          · simp only [Daemon.set_self, Serial.System.set_phase_self]
            rfl
          · intro lock section_ inside
            cases inside
          · intro nobody
            exact sim.free _ nobody
  | some lock =>
      have absent : ¬ d.locks.Held (calls i).request.username := by
        intro held
        cases refused.mpr held
      have noHolder : (family (calls i).request.username).holder = none := by
        cases holder : (family (calls i).request.username).holder with
        | none => rfl
        | some j => exact absurd (sim.held reaches holder) absent
      obtain ⟨others, own⟩ := LockTable.lockGet_granted got
      have fresh : lock ∉ d.locks.out := by
        obtain ⟨_, _, -, once, -⟩ := formed
        exact (List.nodup_cons.mp once).1
      have named : nameOf table.nodes lock = some (calls i).request.username := by
        obtain ⟨name, here⟩ : ∃ name, nameOf table.nodes lock = some name :=
          formed.out_named List.mem_cons_self
        rw [← own name here]
        exact here
      simp only [Daemon.step, thread, got]
      refine ⟨_, rfl, _, ?_, reaches.step (.acquire i (.locked p) phase entry noHolder)⟩
      refine sim.moved (sim.moved_granted _ _ ⟨table, lock :: d.locks.out⟩ _) formed ⟨lock, ?_⟩
        ?_ ?_ ?_
      · simp only [Daemon.set_self, Serial.System.set_phase_self]
        exact ⟨rfl, rfl⟩
      · intro j lock' section_ inside
        by_cases same : j = i
        · subst same
          simp only [Daemon.set_self] at inside
          cases inside
          exact ⟨List.mem_cons_self, named⟩
        · simp only [d.set_ne same] at inside
          obtain ⟨out, named'⟩ := sim.names j lock' section_ inside
          refine ⟨List.mem_cons_of_mem lock out, ?_⟩
          rw [others lock' (ne_of_mem_of_not_mem out fresh)]
          exact named'
      · intro nobody
        cases nobody
      · rintro user other ⟨lock', out, named'⟩
        have before : lock' ≠ lock := by
          rintro rfl
          rw [named] at named'
          exact other (Option.some.inj named').symm
        refine ⟨lock', (List.mem_cons.mp out).resolve_left before, ?_⟩
        rw [← others lock' before]
        exact named'

theorem DaemonSim.step_work {lock : Nat} {section_ : Section}
    (thread : d.thread i = .inside lock section_) (unfinished : section_.result = none) (hr : Int) :
    ∃ d', d.step crypto calls (i, hr) = some d' ∧ Explained crypto calls file d' := by
  have phase := sim.inside thread
  simp only [Daemon.step, thread, unfinished]
  refine ⟨_, rfl, _, ?_, reaches.step (.work i section_ phase unfinished)⟩
  rw [← sim.files]
  refine sim.moved ?_ sim.formed ⟨lock, ?_⟩ (sim.names_set ?_) (sim.free _) fun _ _ held => held
  · exact {
      thread := fun _ other => d.set_ne other _
      phase := fun _ other => Serial.System.set_phase_ne _ other _
      file := Function.update_self ..
      files := fun _ other => Function.update_of_ne other ..
      order := sim.orders _
      orders := fun _ _ => rfl }
  · simp only [Daemon.set_self, Serial.System.set_phase_self]
    exact ⟨rfl, rfl⟩
  · intro lock' section' inside
    cases inside
    exact sim.names i lock section_ thread

theorem DaemonSim.step_put {lock : Nat} {section_ : Section} {reply : Reply}
    (thread : d.thread i = .inside lock section_) (finished : section_.result = some reply)
    (place : PutInPlace d.locks (.put lock)) (hr : Int) :
    ∃ d', d.step crypto calls (i, hr) = some d' ∧ Explained crypto calls file d' := by
  have phase := sim.inside thread
  obtain ⟨out, named⟩ := sim.names i lock section_ thread
  obtain ⟨table, put, formed⟩ := (lockPut_ok_iff sim.formed out).mpr place
  have cleared := LockTable.lockPut_names put
  have kept : ∀ {lock'}, lock' ≠ lock →
      nameOf table.nodes lock' = nameOf d.locks.table.nodes lock' := by
    intro lock' other
    rw [cleared, Function.update_of_ne other]
  simp only [Daemon.step, thread, finished, put]
  refine ⟨_, rfl, _, ?_, reaches.step (.release i section_ reply phase finished)⟩
  refine sim.moved (sim.moved_set _ _ ⟨table, d.locks.out.erase lock⟩ _) formed ⟨0, ?_⟩ ?_ ?_ ?_
  · simp only [Daemon.set_self, Serial.System.set_phase_self]
    rfl
  · intro j lock' section' inside
    by_cases same : j = i
    · subst same
      simp only [Daemon.set_self] at inside
      cases inside
    · simp only [d.set_ne same] at inside
      obtain ⟨out', named'⟩ := sim.names j lock' section' inside
      -- one lock for two threads would put both inside the sections of one user
      have other : lock' ≠ lock := by
        rintro rfl
        rw [named] at named'
        have sameUser := Option.some.inj named'
        obtain ⟨log, base, consistent⟩ := Serial.reaches_consistent
          (reaches (calls i).request.username)
        obtain ⟨-, -, -, alone⟩ := consistent.holder phase
        exact same (alone j section' (by rw [sameUser]; exact sim.inside inside))
      exact ⟨(List.mem_erase_of_ne other).mpr out', by rw [kept other]; exact named'⟩
  · rintro - ⟨lock', out', named'⟩
    have other : lock' ≠ lock := by
      rintro rfl
      rw [cleared, Function.update_self] at named'
      cases named'
    rw [kept other] at named'
    exact other (sim.formed.name_inj (List.mem_of_mem_erase out') out named' named)
  · rintro user - ⟨lock', out', named'⟩
    have other : lock' ≠ lock := by
      rintro rfl
      rw [cleared, Function.update_self] at named'
      cases named'
    rw [kept other] at named'
    exact ⟨lock', List.mem_of_mem_erase out', named'⟩

end Steps

theorem Explained.step (explained : Explained crypto calls file d) {e : Nat × Int}
    (rule : d.Rule calls e) :
    ∃ d', d.step crypto calls e = some d' ∧ Explained crypto calls file d' := by
  obtain ⟨family, sim, reaches⟩ := explained
  obtain ⟨i, hr⟩ := e
  cases thread : d.thread i with
  | ready => exact sim.step_ready reaches thread hr
  | prepared p =>
      simp only [Daemon.Rule, thread] at rule
      exact sim.step_prepared reaches thread rule
  | inside lock section_ =>
      simp only [Daemon.Rule, thread] at rule
      cases finished : section_.result with
      | none => exact sim.step_work reaches thread finished hr
      | some reply => exact sim.step_put reaches thread finished (rule (by rw [finished]; rfl)) hr
  | done reply => exact ⟨d, by simp only [Daemon.step, thread], family, sim, reaches⟩

theorem Explained.start (file : Username → Store) :
    Explained crypto calls file (Daemon.start file) :=
  ⟨_, DaemonSim.start file, fun _ => .refl⟩

end Simulation

/-! ## Each user is served alone -/

/-- No thread of the user is inside; threads of other users may be. -/
def Daemon.Quiescent (calls : Nat → Call) (d : Daemon) (user : Username) : Prop :=
  ∀ i lock section_, (calls i).request.username = user → d.thread i ≠ .inside lock section_

/-- Two threads of one user are never inside together. -/
def Daemon.Exclusive (calls : Nat → Call) (d : Daemon) : Prop :=
  ∀ i lock section_ j lock' section', d.thread i = .inside lock section_ →
    d.thread j = .inside lock' section' →
    (calls i).request.username = (calls j).request.username → i = j

/-- A thread that got no lock replied what `verify` replies without one. -/
def Daemon.TurnedAway (crypto : Crypto) (calls : Nat → Call) (d : Daemon) : Prop :=
  ∀ i reply, d.thread i = .done reply → i ∉ d.order →
    ∀ s, reply = (serve crypto s ((calls i).withLock false)).1.reply

/-- The replies to the user and the user's file are those of the user's own calls that got the
lock, one after the other. -/
structure Daemon.Serialised (crypto : Crypto) (calls : Nat → Call) (file : Username → Store)
    (d : Daemon) (user : Username) : Prop where
  once : (d.granted calls user).Nodup
  kept : d.file user = Runs.final (serve crypto) (file user)
    ((d.granted calls user).map fun i => (calls i).withLock true)
  replies : (d.granted calls user).map d.thread =
    (session crypto (file user) ((d.granted calls user).map fun i => (calls i).withLock true)).map
      fun exchange => .done exchange.out.reply

/-- The names of two users do not hash to one bucket. -/
def HashedApart (calls : Nat → Call) : Prop :=
  ∀ i j, uhash (calls i).request.username.bytes = uhash (calls j).request.username.bytes →
    (calls i).request.username = (calls j).request.username

section Simulation

variable {crypto : Crypto} {calls : Nat → Call} {d : Daemon} {family : Family}
  {file : Username → Store} (sim : DaemonSim crypto calls d family)
  (reaches : Reaches crypto calls file family)
include sim reaches

theorem DaemonSim.exclusive : d.Exclusive calls := by
  intro i lock section_ j lock' section' here there sameUser
  obtain ⟨log, base, consistent⟩ := Serial.reaches_consistent (reaches (calls i).request.username)
  obtain ⟨-, -, -, alone⟩ := consistent.holder (sim.inside here)
  refine (alone j section' ?_).symm
  rw [sameUser]
  exact sim.inside there

/-- The user holds a lock as long as a thread for the user is inside. -/
theorem DaemonSim.held_iff {user : Username} :
    d.locks.Held user ↔ ¬ d.Quiescent calls user := by
  constructor
  · intro held quiet
    cases holder : (family user).holder with
    | none => exact sim.free user holder held
    | some j =>
        obtain ⟨log, base, consistent⟩ := Serial.reaches_consistent (reaches user)
        rcases consistent.current with ⟨nobody, -⟩ | ⟨k, section_, -, phase, -⟩
        · rw [nobody] at holder
          cases holder
        · obtain ⟨mine, lock, thread⟩ := sim.inside_thread phase
          exact quiet k lock section_ mine thread
  · intro busy
    by_contra free
    apply busy
    rintro i lock section_ rfl thread
    exact free ⟨lock, sim.names i lock section_ thread⟩

/-- Where the users of the calls hash apart, a chain has one held lock at most. -/
theorem DaemonSim.in_place
    (apart : HashedApart calls) {i lock : Nat} {section_ : Section}
    (thread : d.thread i = .inside lock section_) : PutInPlace d.locks (.put lock) := by
  obtain ⟨out, named⟩ := sim.names i lock section_ thread
  have formed := sim.formed
  obtain ⟨held, free, ok, -, outs⟩ := sim.formed
  obtain ⟨b, valid, member⟩ := (outs lock).mp out
  have alone : ∀ c ∈ held b, c = lock := by
    intro c there
    have outC := (outs c).mpr ⟨b, valid, there⟩
    obtain ⟨name, spelled, hashed⟩ := ok.named valid there
    have busy : ¬ d.Quiescent calls name := (sim.held_iff reaches).mp ⟨c, outC, spelled⟩
    simp only [Daemon.Quiescent, not_forall, not_not] at busy
    obtain ⟨j, _, _, rfl, -⟩ := busy
    have sameUser := apart j i (hashed.trans (ok.own_bucket valid member named))
    exact formed.name_inj outC out (spelled.trans (congrArg some sameUser)) named
  have single : held b = [lock] := by
    have once := (List.nodup_append.mp (ok.bucket b valid).once).1
    exact List.perm_singleton.mp ((List.perm_ext_iff_of_nodup once (List.nodup_singleton lock)).mpr
      fun c => ⟨fun there => List.mem_singleton.mpr (alone c there),
        fun same => List.mem_singleton.mp same ▸ member⟩)
  have isLast : d.locks.table.last b = (held b).getLast? := (ok.bucket b valid).last
  intro username here
  left
  rw [← ok.own_bucket valid member here, isLast, single]
  rfl

end Simulation

variable {crypto : Crypto} {calls : Nat → Call} {file : Username → Store} {d : Daemon}

theorem Explained.run {events : List (Nat × Int)}
    (rule : Schedule.Along (Daemon.step crypto calls) (Daemon.Rule calls) (Daemon.start file)
      events) :
    ∃ d, Schedule.run (Daemon.step crypto calls) (Daemon.start file) events = some d ∧
      Explained crypto calls file d :=
  Schedule.run_total (Explained crypto calls file) (fun _ _ explained rule => explained.step rule)
    (Explained.start file) rule

theorem Explained.rule (explained : Explained crypto calls file d)
    (apart : HashedApart calls) {e : Nat × Int}
    (timely : d.Timely calls e) : d.Rule calls e := by
  obtain ⟨family, sim, reaches⟩ := explained
  obtain ⟨i, hr⟩ := e
  simp only [Daemon.Timely] at timely
  simp only [Daemon.Rule]
  cases thread : d.thread i with
  | ready => trivial
  | prepared p =>
      rw [thread] at timely
      exact timely
  | inside lock section_ => exact fun _ => sim.in_place reaches apart thread
  | done reply => trivial

end Otpd

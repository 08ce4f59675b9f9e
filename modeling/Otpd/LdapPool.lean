import Otpd.Lib.Schedule
import Mathlib.Logic.Function.Basic
import Mathlib.Data.List.Count

/-!
# The pool of LDAP connections

Threads that run `ldap_get` over one pool of connections.  A step of a thread takes it
from one of the places below to the next; what the LDAP library and `update_timeout`
return there comes with the event.  Entries are numbered in the order they were added,
which is the list from its end.
-/

set_option autoImplicit false

namespace Otpd

/-- `ldap_ld_t`: the thread that locked `mutex`, and whether `ld` is a connection. -/
structure LdapLd where
  mutex : Option Nat := none
  ld : Bool := false
  used : Bool := false

/-- Where a thread is.  `walking left` is the loop of `getldp` with the entries below
`left` still to try; after `putldp` on a dead connection it is `retrying`. -/
inductive LdapPlace where
  | out
  | walking (left : Nat)
  | connecting (ldp : Nat)
  | searching (ldp : Nat)
  | found (ldp : Nat)
  | retrying (ldp : Nat)
  deriving DecidableEq

/-- The entry the thread got and has not put back. -/
def LdapPlace.ldp : LdapPlace → Option Nat
  | .connecting ldp | .searching ldp | .found ldp => some ldp
  | .out | .walking _ | .retrying _ => none

structure LdapPool where
  ldps : Nat → LdapLd
  count : Nat
  place : Nat → LdapPlace

/-- The calls of `getldp` that connect and bind; false goes to `timeout_or_err`. -/
structure ConnectCalls where
  startTls : Bool
  startTlsTime : Bool
  startTlsResult : Bool
  installTls : Bool
  installTlsTime : Bool
  saslBind : Bool
  connectTime : Bool
  bindResult : Bool
  bindTime : Bool

/-- The connect time is subtracted under the test that guards the TLS calls. -/
def ConnectCalls.bound (calls : ConnectCalls) (tls : Bool) : Bool :=
  (!tls || (calls.startTls && calls.startTlsTime && calls.startTlsResult &&
    calls.installTls && calls.installTlsTime)) &&
  calls.saslBind && (!tls || calls.connectTime) && calls.bindResult && calls.bindTime

inductive SearchRc where
  | success
  | serverDown
  | error
  deriving DecidableEq

/-- What the calls return that the thread makes in its next step; `expired` is
`update_timeout` after the server went down. -/
structure LdapEvent where
  thread : Nat
  connect : ConnectCalls
  search : SearchRc
  expired : Bool

inductive PoolCall where
  | get (ldp : Nat)
  | put (ldp : Nat) (unbind : Bool)
  deriving DecidableEq

def LdapPool.set (pool : LdapPool) (i : Nat) (ldp : LdapLd) : LdapPool :=
  { pool with ldps := Function.update pool.ldps i ldp }

def LdapPool.goto (pool : LdapPool) (t : Nat) (place : LdapPlace) : LdapPool :=
  { pool with place := Function.update pool.place t place }

/-- A new entry is inserted at the head, already locked. -/
def LdapPool.add (pool : LdapPool) (t : Nat) : LdapPool :=
  { pool.set pool.count { mutex := some t } with count := pool.count + 1 }

/-- Neither the unbind nor the unlock asks who holds the entry. -/
def putldp (pool : LdapPool) (i : Nat) (unbind : Bool) : LdapPool :=
  pool.set i { pool.ldps i with ld := (pool.ldps i).ld && !unbind, mutex := none }

/-- One step of the thread in `ldap_get`, and the call of `getldp` or `putldp` that
takes effect in it. -/
def ldapGetStep (tls : Bool) (pool : LdapPool) (e : LdapEvent) : LdapPool × Option PoolCall :=
  match pool.place e.thread with
  | .out => (pool.goto e.thread (.walking pool.count), none)
  | .walking 0 =>
      ((pool.add e.thread).goto e.thread (.connecting pool.count), some (.get pool.count))
  | .walking (i + 1) =>
      if (pool.ldps i).mutex = none then
        ((pool.set i { pool.ldps i with mutex := some e.thread }).goto e.thread (.connecting i),
          some (.get i))
      else (pool.goto e.thread (.walking i), none)
  | .connecting i =>
      if (pool.ldps i).ld then (pool.goto e.thread (.searching i), none)
      else
        ((pool.set i { pool.ldps i with ld := e.connect.bound tls, used := false }).goto e.thread
          (.searching i), none)
  | .searching i =>
      if (pool.ldps i).ld = false then
        ((putldp pool i false).goto e.thread .out, some (.put i false))
      else
        match e.search with
        | .success =>
            ((pool.set i { pool.ldps i with used := true }).goto e.thread (.found i), none)
        | .serverDown =>
            if (pool.ldps i).used then
              ((putldp pool i true).goto e.thread (.retrying i), some (.put i true))
            else ((putldp pool i true).goto e.thread .out, some (.put i true))
        | .error => ((putldp pool i true).goto e.thread .out, some (.put i true))
  | .found i => ((putldp pool i false).goto e.thread .out, some (.put i false))
  | .retrying i =>
      -- `goto out_filter` puts the entry that the retry has already put
      if e.expired then ((putldp pool i true).goto e.thread .out, some (.put i true))
      else (pool.goto e.thread (.walking pool.count), none)

/-- The pool, and the calls each thread has made so far. -/
structure PoolRun where
  pool : LdapPool
  calls : Nat → List PoolCall

def PoolRun.start : PoolRun := ⟨⟨fun _ => {}, 0, fun _ => .out⟩, fun _ => []⟩

def PoolRun.next (tls : Bool) (s : PoolRun) (e : LdapEvent) : PoolRun where
  pool := (ldapGetStep tls s.pool e).1
  calls := Function.update s.calls e.thread
    (s.calls e.thread ++ (ldapGetStep tls s.pool e).2.toList)

def poolStep (tls : Bool) (s : PoolRun) (e : LdapEvent) : Option PoolRun :=
  some (s.next tls e)

/-- A get opens an entry, and only a put of that entry closes it. -/
def pairCall : Option Nat → PoolCall → Option (Option Nat)
  | none, .get i => some (some i)
  | some i, .put j _ => if i = j then some none else none
  | _, _ => none

/-- A put is by the thread that holds the entry; after the step the calls of every
thread are in pairs, with none open outside `ldap_get`, and no two threads are at one
entry. -/
structure ExclusiveUse (tls : Bool) (s : PoolRun) (e : LdapEvent) : Prop where
  holder : ∀ i unbind, (ldapGetStep tls s.pool e).2 = some (.put i unbind) →
    (s.pool.ldps i).mutex = some e.thread
  paired : ∀ t, ∃ held, Schedule.run pairCall none ((s.next tls e).calls t) = some held ∧
    ((s.next tls e).pool.place t = .out → held = none)
  alone : ∀ i t u, ((s.next tls e).pool.place t).ldp = some i →
    ((s.next tls e).pool.place u).ldp = some i → t = u

/-- Whoever has an entry puts it back within three steps of its own. -/
def PutFollows (tls : Bool) (es : List LdapEvent) : Prop :=
  ∀ before after s last t i, es = before ++ after →
    Schedule.run (poolStep tls) PoolRun.start before = some s →
    Schedule.run (poolStep tls) s after = some last →
    (s.pool.place t).ldp = some i → 3 ≤ after.countP (·.thread = t) →
    ∃ unbind rest, last.calls t = s.calls t ++ .put i unbind :: rest

/-- There is time left when the thread comes back from a server that is down. -/
def TimeLeft (s : PoolRun) (e : LdapEvent) : Prop :=
  ∀ i, s.pool.place e.thread = .retrying i → e.expired = false

/-! ## What a step can do -/

inductive PoolMove (pool next : LdapPool) (e : LdapEvent) : Option PoolCall → Prop
  | inside (count : next.count = pool.count)
      (mutexes : ∀ j, (next.ldps j).mutex = (pool.ldps j).mutex)
      (ldp : (next.place e.thread).ldp = (pool.place e.thread).ldp) :
      PoolMove pool next e none
  | get (i : Nat) (before : (pool.place e.thread).ldp = none)
      (free : (pool.ldps i).mutex = none ∨ i = pool.count) (within : i < next.count)
      (grown : pool.count ≤ next.count)
      (mutexes : ∀ j, (next.ldps j).mutex = if j = i then some e.thread else (pool.ldps j).mutex)
      (ldp : (next.place e.thread).ldp = some i) :
      PoolMove pool next e (some (.get i))
  | put (i : Nat) (unbind : Bool)
      (before : (pool.place e.thread).ldp = some i ∨
        pool.place e.thread = .retrying i ∧ e.expired = true)
      (count : next.count = pool.count)
      (mutexes : ∀ j, (next.ldps j).mutex = if j = i then none else (pool.ldps j).mutex)
      (ldp : (next.place e.thread).ldp = none) :
      PoolMove pool next e (some (.put i unbind))

section Moves

variable {pool : LdapPool} {i j t u : Nat} {ldp : LdapLd} {place : LdapPlace}

@[simp] theorem set_count : (pool.set i ldp).count = pool.count := rfl

@[simp] theorem set_place : (pool.set i ldp).place = pool.place := rfl

@[simp] theorem goto_count : (pool.goto t place).count = pool.count := rfl

@[simp] theorem goto_ldps : (pool.goto t place).ldps = pool.ldps := rfl

@[simp] theorem goto_place : (pool.goto t place).place t = place := Function.update_self ..

theorem goto_place_of_ne (other : u ≠ t) : (pool.goto t place).place u = pool.place u :=
  Function.update_of_ne other ..

@[simp] theorem add_count : (pool.add t).count = pool.count + 1 := rfl

@[simp] theorem add_place : (pool.add t).place = pool.place := rfl

@[simp] theorem putldp_count {unbind : Bool} : (putldp pool i unbind).count = pool.count := rfl

@[simp] theorem putldp_place {unbind : Bool} : (putldp pool i unbind).place = pool.place := rfl

theorem set_mutex :
    ((pool.set i ldp).ldps j).mutex = if j = i then ldp.mutex else (pool.ldps j).mutex := by
  simp only [LdapPool.set, Function.update_apply]
  split <;> rfl

theorem set_mutex_same (same : ldp.mutex = (pool.ldps i).mutex) :
    ((pool.set i ldp).ldps j).mutex = (pool.ldps j).mutex := by
  rw [set_mutex]
  split
  · rename_i here
    rw [here, same]
  · rfl

end Moves

theorem ldapGetStep_place (tls : Bool) (pool : LdapPool) (e : LdapEvent) {u : Nat}
    (other : u ≠ e.thread) : (ldapGetStep tls pool e).1.place u = pool.place u := by
  have stays (q : LdapPool) (place : LdapPlace) (same : q.place = pool.place) :
      (q.goto e.thread place).place u = pool.place u := by
    rw [goto_place_of_ne other, same]
  unfold ldapGetStep
  repeat' split
  all_goals exact stays _ _ rfl

/-- Every step stays with the entry it has, gets one that is free or puts one back. -/
theorem ldapGetStep_move (tls : Bool) {pool : LdapPool} (e : LdapEvent)
    (walks : ∀ n, pool.place e.thread = .walking n → n ≤ pool.count) :
    PoolMove pool (ldapGetStep tls pool e).1 e (ldapGetStep tls pool e).2 := by
  unfold ldapGetStep
  cases at_ : pool.place e.thread with
  | out => exact .inside rfl (fun _ => rfl) (by simp [at_, LdapPlace.ldp])
  | walking left =>
      cases left with
      | zero =>
          exact .get _ (by simp [at_, LdapPlace.ldp]) (.inr rfl) (Nat.lt_succ_self _)
            (Nat.le_succ _) (fun j => set_mutex) (by simp [LdapPlace.ldp])
      | succ i =>
          have within : i < pool.count := walks (i + 1) at_
          dsimp only
          split
          · rename_i free
            exact .get _ (by simp [at_, LdapPlace.ldp]) (.inl free) within (Nat.le_refl _)
              (fun j => set_mutex) (by simp [LdapPlace.ldp])
          · exact .inside rfl (fun _ => rfl) (by simp [at_, LdapPlace.ldp])
  | connecting i =>
      dsimp only
      split
      · exact .inside rfl (fun _ => rfl) (by simp [at_, LdapPlace.ldp])
      · exact .inside rfl (fun j => set_mutex_same rfl) (by simp [at_, LdapPlace.ldp])
  | searching i =>
      have held : (pool.place e.thread).ldp = some i := by rw [at_]; rfl
      dsimp only
      split
      · exact .put i false (.inl held) rfl (fun j => set_mutex) (by simp [LdapPlace.ldp])
      · cases e.search with
        | success => exact .inside rfl (fun j => set_mutex_same rfl) (by simp [at_, LdapPlace.ldp])
        | serverDown =>
            dsimp only
            split
            · exact .put i true (.inl held) rfl (fun j => set_mutex) (by simp [LdapPlace.ldp])
            · exact .put i true (.inl held) rfl (fun j => set_mutex) (by simp [LdapPlace.ldp])
        | error => exact .put i true (.inl held) rfl (fun j => set_mutex) (by simp [LdapPlace.ldp])
  | found i =>
      have held : (pool.place e.thread).ldp = some i := by rw [at_]; rfl
      exact .put i false (.inl held) rfl (fun j => set_mutex) (by simp [LdapPlace.ldp])
  | retrying i =>
      dsimp only
      split
      · rename_i expired
        exact .put i true (.inr ⟨at_, expired⟩) rfl (fun j => set_mutex) (by simp [LdapPlace.ldp])
      · exact .inside rfl (fun _ => rfl) (by simp [at_, LdapPlace.ldp])

theorem ldapGetStep_walks (tls : Bool) {pool : LdapPool} (e : LdapEvent) {n : Nat}
    (walks : ∀ n, pool.place e.thread = .walking n → n ≤ pool.count)
    (now : (ldapGetStep tls pool e).1.place e.thread = .walking n) :
    n ≤ (ldapGetStep tls pool e).1.count := by
  unfold ldapGetStep at now ⊢
  cases at_ : pool.place e.thread with
  | out =>
      simp only [at_, goto_place, LdapPlace.walking.injEq] at now
      exact now.ge
  | walking left =>
      cases left with
      | zero => simp [at_] at now
      | succ i =>
          have within : i < pool.count := walks (i + 1) at_
          simp only [at_] at now ⊢
          split at now
          · simp at now
          · rename_i taken
            rw [if_neg taken]
            simp only [goto_place, LdapPlace.walking.injEq] at now
            exact now ▸ within.le
  | connecting i => simp only [at_] at now; split at now <;> simp at now
  | searching i =>
      simp only [at_] at now
      repeat' split at now
      all_goals simp at now
  | found i => simp [at_] at now
  | retrying i =>
      simp only [at_] at now ⊢
      split at now
      · simp at now
      · rename_i inTime
        rw [if_neg inTime]
        simp only [goto_place, LdapPlace.walking.injEq] at now
        exact now.ge

/-! ## What holds in every state -/

structure PoolInv (s : PoolRun) : Prop where
  walks : ∀ t n, s.pool.place t = .walking n → n ≤ s.pool.count
  holds : ∀ t i, (s.pool.place t).ldp = some i →
    (s.pool.ldps i).mutex = some t ∧ i < s.pool.count
  paired : ∀ t, Schedule.run pairCall none (s.calls t) = some (s.pool.place t).ldp

theorem poolInv_start : PoolInv PoolRun.start where
  walks := fun _ _ wrong => by cases wrong
  holds := fun _ _ wrong => by cases wrong
  paired := fun _ => rfl

section Step

variable {tls : Bool} {s : PoolRun} {e : LdapEvent}

theorem next_calls :
    (s.next tls e).calls e.thread = s.calls e.thread ++ (ldapGetStep tls s.pool e).2.toList :=
  Function.update_self ..

theorem next_calls_of_ne {u : Nat} (other : u ≠ e.thread) :
    (s.next tls e).calls u = s.calls u :=
  Function.update_of_ne other ..

theorem next_place_of_ne {u : Nat} (other : u ≠ e.thread) :
    (s.next tls e).pool.place u = s.pool.place u :=
  ldapGetStep_place tls s.pool e other

/-- The holder of an entry stays its holder through a step of another thread. -/
theorem PoolInv.kept (inv : PoolInv s) (inTime : TimeLeft s e) {u i : Nat}
    (other : u ≠ e.thread) (has : (s.pool.place u).ldp = some i) :
    ((ldapGetStep tls s.pool e).1.ldps i).mutex = some u ∧
      i < (ldapGetStep tls s.pool e).1.count := by
  obtain ⟨held, within⟩ := inv.holds u i has
  have move := ldapGetStep_move tls e (inv.walks e.thread)
  generalize (ldapGetStep tls s.pool e).2 = call at move
  cases move with
  | inside count mutexes ldp =>
      rw [mutexes, count]
      exact ⟨held, within⟩
  | get j before free withinJ grown mutexes ldp =>
      have apart : i ≠ j := by
        rintro rfl
        rcases free with free | new
        · simp [free] at held
        · omega
      rw [mutexes, if_neg apart]
      exact ⟨held, within.trans_le grown⟩
  | put j unbind before count mutexes ldp =>
      have own : (s.pool.place e.thread).ldp = some j := by
        rcases before with own | ⟨retry, late⟩
        · exact own
        · simp [inTime j retry] at late
      have apart : i ≠ j := by
        rintro rfl
        have again := (inv.holds e.thread i own).1
        rw [held] at again
        exact other (Option.some.inj again)
      rw [mutexes, if_neg apart, count]
      exact ⟨held, within⟩

theorem PoolInv.holds_step (inv : PoolInv s) (inTime : TimeLeft s e) (u i : Nat)
    (has : ((ldapGetStep tls s.pool e).1.place u).ldp = some i) :
    ((ldapGetStep tls s.pool e).1.ldps i).mutex = some u ∧
      i < (ldapGetStep tls s.pool e).1.count := by
  by_cases same : u = e.thread
  · subst same
    have move := ldapGetStep_move tls e (inv.walks e.thread)
    generalize (ldapGetStep tls s.pool e).2 = call at move
    cases move with
    | inside count mutexes ldp =>
        rw [ldp] at has
        rw [mutexes, count]
        exact inv.holds e.thread i has
    | get j before free within grown mutexes ldp =>
        rw [ldp] at has
        cases has
        rw [mutexes, if_pos rfl]
        exact ⟨rfl, within⟩
    | put j unbind before count mutexes ldp =>
        rw [ldp] at has
        cases has
  · rw [ldapGetStep_place tls s.pool e same] at has
    exact inv.kept inTime same has

/-- The call that a step makes is the one the pairing waits for. -/
theorem PoolInv.pairCall_step (inv : PoolInv s) (inTime : TimeLeft s e) :
    Schedule.run pairCall (s.pool.place e.thread).ldp (ldapGetStep tls s.pool e).2.toList =
      some ((ldapGetStep tls s.pool e).1.place e.thread).ldp := by
  have move := ldapGetStep_move tls e (inv.walks e.thread)
  generalize (ldapGetStep tls s.pool e).2 = call at move ⊢
  cases move with
  | inside count mutexes ldp =>
      rw [ldp]
      rfl
  | get j before free within grown mutexes ldp =>
      rw [before, ldp]
      rfl
  | put j unbind before count mutexes ldp =>
      rcases before with own | ⟨retry, late⟩
      · rw [own, ldp]
        simp [Schedule.run, pairCall]
      · simp [inTime j retry] at late

theorem PoolInv.step (inv : PoolInv s) (inTime : TimeLeft s e) : PoolInv (s.next tls e) := by
  refine ⟨?_, inv.holds_step inTime, ?_⟩
  · intro u n now
    by_cases same : u = e.thread
    · subst same
      exact ldapGetStep_walks tls e (inv.walks e.thread) now
    · rw [next_place_of_ne same] at now
      have grown : s.pool.count ≤ (ldapGetStep tls s.pool e).1.count := by
        have move := ldapGetStep_move tls e (inv.walks e.thread)
        generalize (ldapGetStep tls s.pool e).2 = call at move
        cases move with
        | inside count | put _ _ _ count => exact count.ge
        | get _ _ _ _ grown => exact grown
      exact (inv.walks u n now).trans grown
  · intro u
    by_cases same : u = e.thread
    · subst same
      rw [next_calls, Schedule.run_append, inv.paired]
      exact inv.pairCall_step inTime
    · rw [next_calls_of_ne same, next_place_of_ne same]
      exact inv.paired u

theorem PoolInv.exclusive (inv : PoolInv s) (inTime : TimeLeft s e) : ExclusiveUse tls s e where
  holder := by
    intro i unbind call
    have move := ldapGetStep_move tls e (inv.walks e.thread)
    rw [call] at move
    cases move with
    | put _ _ before count mutexes ldp =>
        rcases before with own | ⟨retry, late⟩
        · exact (inv.holds e.thread i own).1
        · simp [inTime i retry] at late
  paired := by
    intro t
    refine ⟨_, (inv.step inTime).paired t, ?_⟩
    intro out
    rw [out]
    rfl
  alone := by
    intro i t u first second
    have after : PoolInv (s.next tls e) := inv.step inTime
    have holder := (after.holds t i first).1
    rw [(after.holds u i second).1] at holder
    exact (Option.some.inj holder).symm

/-- A thread that gives up after its retry puts an entry it has already put. -/
theorem PoolInv.timeLeft (inv : PoolInv s) (use : ExclusiveUse tls s e) : TimeLeft s e := by
  intro i retry
  cases late : e.expired with
  | false => rfl
  | true =>
      obtain ⟨held, pairs, -⟩ := use.paired e.thread
      have closed : Schedule.run pairCall none (s.calls e.thread) = some none := by
        rw [inv.paired, retry]
        rfl
      have again : (ldapGetStep tls s.pool e).2 = some (.put i true) := by
        simp [ldapGetStep, retry, late]
      rw [next_calls, Schedule.run_append, closed, again] at pairs
      cases pairs

end Step

/-! ## The put that follows a get -/

def LdapPlace.stepsToPut : LdapPlace → Nat
  | .connecting _ => 3
  | .searching _ => 2
  | .found _ => 1
  | .out | .walking _ | .retrying _ => 0

theorem stepsToPut_le_three (place : LdapPlace) : place.stepsToPut ≤ 3 := by
  cases place <;> simp [LdapPlace.stepsToPut]

/-- A thread with an entry puts it back, or is one step nearer to that. -/
theorem ldapGetStep_nearer (tls : Bool) {pool : LdapPool} (e : LdapEvent) {i : Nat}
    (has : (pool.place e.thread).ldp = some i) :
    (∃ unbind, (ldapGetStep tls pool e).2 = some (.put i unbind)) ∨
      (ldapGetStep tls pool e).2 = none ∧
        ((ldapGetStep tls pool e).1.place e.thread).ldp = some i ∧
        ((ldapGetStep tls pool e).1.place e.thread).stepsToPut + 1 =
          (pool.place e.thread).stepsToPut := by
  unfold ldapGetStep
  cases at_ : pool.place e.thread with
  | out | walking _ | retrying _ => simp [at_, LdapPlace.ldp] at has
  | connecting j =>
      rw [at_] at has
      cases Option.some.inj has
      dsimp only
      split
      · exact .inr ⟨rfl, by simp [LdapPlace.ldp], by simp [LdapPlace.stepsToPut]⟩
      · exact .inr ⟨rfl, by simp [LdapPlace.ldp], by simp [LdapPlace.stepsToPut]⟩
  | searching j =>
      rw [at_] at has
      cases Option.some.inj has
      dsimp only
      split
      · exact .inl ⟨false, rfl⟩
      · cases e.search with
        | success => exact .inr ⟨rfl, by simp [LdapPlace.ldp], by simp [LdapPlace.stepsToPut]⟩
        | serverDown =>
            dsimp only
            split
            · exact .inl ⟨true, rfl⟩
            · exact .inl ⟨true, rfl⟩
        | error => exact .inl ⟨true, rfl⟩
  | found j =>
      rw [at_] at has
      cases Option.some.inj has
      exact .inl ⟨false, rfl⟩

theorem poolRun_calls {tls : Bool} {s last : PoolRun} {es : List LdapEvent}
    (reached : Schedule.run (poolStep tls) s es = some last) (t : Nat) :
    ∃ more, last.calls t = s.calls t ++ more := by
  induction es generalizing s with
  | nil =>
      cases Option.some.inj reached
      exact ⟨[], by simp⟩
  | cons e es ih =>
      have rest : Schedule.run (poolStep tls) (s.next tls e) es = some last := reached
      obtain ⟨more, calls⟩ := ih rest
      by_cases same : t = e.thread
      · subst same
        rw [next_calls, List.append_assoc] at calls
        exact ⟨_, calls⟩
      · rw [next_calls_of_ne same] at calls
        exact ⟨more, calls⟩

theorem put_follows {tls : Bool} {s last : PoolRun} {es : List LdapEvent} {t i : Nat}
    (reached : Schedule.run (poolStep tls) s es = some last)
    (has : (s.pool.place t).ldp = some i)
    (turns : (s.pool.place t).stepsToPut ≤ es.countP (·.thread = t)) :
    ∃ unbind rest, last.calls t = s.calls t ++ .put i unbind :: rest := by
  induction es generalizing s with
  | nil =>
      exfalso
      cases at_ : s.pool.place t with
      | out | walking _ | retrying _ => simp [at_, LdapPlace.ldp] at has
      | connecting _ | searching _ | found _ => simp [at_, LdapPlace.stepsToPut] at turns
  | cons e es ih =>
      have onwards : Schedule.run (poolStep tls) (s.next tls e) es = some last := reached
      by_cases same : e.thread = t
      · subst same
        rw [List.countP_cons_of_pos (by simp)] at turns
        rcases ldapGetStep_nearer tls e has with ⟨unbind, put⟩ | ⟨quiet, still, nearer⟩
        · obtain ⟨more, calls⟩ := poolRun_calls onwards e.thread
          rw [next_calls, put] at calls
          exact ⟨unbind, more, by rw [calls]; simp⟩
        · have fewer : ((s.next tls e).pool.place e.thread).stepsToPut ≤
              es.countP (·.thread = e.thread) :=
            Nat.le_of_succ_le_succ (nearer.le.trans turns)
          obtain ⟨unbind, rest, calls⟩ := ih onwards still fewer
          rw [next_calls, quiet] at calls
          exact ⟨unbind, rest, by rw [calls]; simp⟩
      · have other := Ne.symm same
        rw [List.countP_cons_of_neg (by simp [same])] at turns
        rw [← next_place_of_ne other] at has turns
        obtain ⟨unbind, rest, calls⟩ := ih onwards has turns
        rw [next_calls_of_ne other] at calls
        exact ⟨unbind, rest, calls⟩

/-! ## Exclusive use -/

theorem ldap_pool_exclusive_iff (tls : Bool) (es : List LdapEvent) :
    (Schedule.Along (poolStep tls) (ExclusiveUse tls) PoolRun.start es ∧ PutFollows tls es) ↔
      Schedule.Along (poolStep tls) TimeLeft PoolRun.start es := by
  have follows : PutFollows tls es := by
    intro before after s last t i _ _ reached has turns
    exact put_follows reached has ((stepsToPut_le_three _).trans turns)
  have same : Schedule.Along (poolStep tls) (ExclusiveUse tls) PoolRun.start es ↔
      Schedule.Along (poolStep tls) TimeLeft PoolRun.start es := by
    refine Schedule.along_iff PoolInv (ExclusiveUse tls) ?_ ?_ poolInv_start
      (Schedule.along_of_forall fun _ _ => trivial)
    · intro s e inv _
      exact ⟨inv.timeLeft, inv.exclusive⟩
    · intro s e next inv _ use taken
      cases Option.some.inj taken
      exact inv.step (inv.timeLeft use)
  rw [same]
  exact and_iff_left follows

/-- No field is false where the calls succeed. -/
def connects : ConnectCalls := ⟨true, true, true, true, true, true, true, true, true⟩

def LdapEvent.ok (thread : Nat) : LdapEvent := ⟨thread, connects, .success, false⟩

/-- Thread 0 has used the entry, finds the server down and puts the entry back; thread 1
takes it and connects. -/
def serverRestart : List LdapEvent :=
  [.ok 0, .ok 0, .ok 0, .ok 0, .ok 0, .ok 0, .ok 0, .ok 0, ⟨0, connects, .serverDown, false⟩,
    .ok 1, .ok 1, .ok 1]

/-- Then `update_timeout` in thread 0 returns `LDAP_TIMEOUT`. -/
def noTimeLeft : LdapEvent := ⟨0, connects, .success, true⟩

theorem ldap_entry_used_twice :
    ¬ (Schedule.Along (poolStep false) (ExclusiveUse false) PoolRun.start
        (serverRestart ++ [noTimeLeft, .ok 2, .ok 2]) ∧
      PutFollows false (serverRestart ++ [noTimeLeft, .ok 2, .ok 2])) ∧
    ∃ last, Schedule.run (poolStep false) PoolRun.start
        (serverRestart ++ [noTimeLeft, .ok 2, .ok 2]) = some last ∧
      (last.pool.place 1).ldp = some 0 ∧ (last.pool.place 2).ldp = some 0 := by
  refine ⟨?_, _, rfl, rfl, rfl⟩
  rintro ⟨along, -⟩
  have use : ExclusiveUse false _ noTimeLeft := along.at_event rfl
  exact absurd (use.holder 0 true rfl) (by decide)

end Otpd

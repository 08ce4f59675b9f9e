import Otpd.Failover

/-!
# When the failover thread switches

One variable holds the timeout of both modes: set from `fo_timeout` after every
`sem_wait`, from `fb_timeout` at a failover and, on the backup, by `RESET_FAILBACK`.  The
runs here also record when the thread was last woken, failed over and last
heard something bad.
-/

set_option autoImplicit false

namespace Otpd

open CMem

inductive ProbeResult where
  | bad
  | answer
  | neither
  deriving DecidableEq

/-- What one pass of the loop learns of the primary: a valid `A` is the answer, and a
failed `send` or `poll` says nothing. -/
def ProbeOutcome.result (g : FailoverGsmd) (w : Failover) : ProbeOutcome → ProbeResult
  | .sendFails _ => .neither
  | .pollFails _ => .neither
  | .pollTimesOut => .bad
  | .recvFails _ => .bad
  | .received pp stale =>
      match failoverValidate g.key w.seq pp stale with
      | some (.valid _ pmsg) => if pmsg.getD 0 0 = 65 then .answer else .bad
      | _ => .bad

/-- `woken` is the last return of `sem_wait`, logged as "signalled", and `answered` whether
a valid `A` has come in since. -/
structure Switches where
  w : Failover
  clock : Int
  woken : Option Int
  answered : Bool
  failed : Option Int
  bad : Option Int

def switchesInit (clock : Int) : Switches := ⟨failoverInit clock, clock, none, false, none, none⟩

/-- The first and the last reading of the clock in an event. -/
def FailoverEvent.readings (clock : Int) : FailoverEvent → Int × Int
  | .signal => (clock, clock)
  | .woken _ now => (now, now)
  | .interrupted _ now => (now, now)
  | .attempt now later _ => (now, later)
  | .timesOut now later => (now, later)
  | .trywait _ => (clock, clock)

def Switches.note (g : FailoverGsmd) (s : Switches) : FailoverEvent → Switches
  | .signal => s
  | .woken _ now => { s with woken := some now, answered := false }
  | .interrupted _ now => { s with woken := some now, answered := false }
  | .attempt _ later outcome =>
      match outcome.result g s.w with
      | .bad => { s with bad := some later }
      | .answer => { s with answered := true }
      | .neither => s
  | .timesOut _ later => if s.w.active then s else { s with failed := some later }
  | .trywait _ => s

/-- The clock does not go back from one event to the next. -/
def switchStep (g : FailoverGsmd) (s : Switches) (e : FailoverEvent) : Option Switches :=
  let (now, later) := e.readings s.clock
  if s.clock ≤ now ∧ now ≤ later then
    (failoverStep g s.w e).map fun w => { s.note g e with w, clock := later }
  else none

/-! ## What is due -/

/-- The times from which a full `fb_timeout` has to pass. -/
def Switches.Counted (s : Switches) (t : Int) : Prop := s.failed = some t ∨ s.bad = some t

/-- The backup is taken only at a timeout, `fo_timeout` after the wake-up and unanswered. -/
def FailoverDue (g : FailoverGsmd) (s : Switches) (e : FailoverEvent) : Prop :=
  ∀ s', switchStep g s e = some s' → s.w.active = false → s'.w.active = true →
    ∃ now later t, e = .timesOut now later ∧ s.woken = some t ∧ t + g.foTimeout ≤ now ∧
      s.answered = false

/-- The primary is taken back only at a timeout, `fb_timeout` after the failover and
everything bad. -/
def FailbackDue (g : FailoverGsmd) (s : Switches) (e : FailoverEvent) : Prop :=
  ∀ s', switchStep g s e = some s' → s.w.active = true → s'.w.active = false →
    ∃ now later, e = .timesOut now later ∧ s.failed.isSome = true ∧
      ∀ t, s.Counted t → t + g.fbTimeout ≤ now

/-- The thread wakes up on the primary, or so late on the backup that `fb_timeout` has passed
when `fo_timeout` has. -/
def Switches.OnTime (g : FailoverGsmd) (s : Switches) (now : Int) : Prop :=
  s.w.place = .waiting → s.w.active = true →
    ∀ t, s.Counted t → t + g.fbTimeout ≤ now + g.foTimeout

def WakesOnTime (g : FailoverGsmd) (s : Switches) : FailoverEvent → Prop
  | .woken _ now => s.OnTime g now
  | .interrupted _ now => s.OnTime g now
  | _ => True

/-! ## The timeout through one event -/

/-- A pass of the loop: only something bad on the backup moves the timeout, and an answer
on the primary ends the probing. -/
structure Attempted (g : FailoverGsmd) (w w' : Failover) (later : Int) (result : ProbeResult) :
    Prop where
  active : w'.active = w.active
  place : w'.place = w.place ∨ w'.place = .reset
  reset : result = .bad → w.active = true → w'.timeout = later + g.fbTimeout
  kept : result ≠ .bad ∨ w.active = false → w'.timeout = w.timeout
  answered : result = .answer → w.active = false → w'.place = .reset

/-- What an event does to the mode, the place and the timeout. -/
def TimedStep (g : FailoverGsmd) (w w' : Failover) : FailoverEvent → Prop
  | .signal => w'.active = w.active ∧ w'.place = w.place ∧ w'.timeout = w.timeout
  | .woken _ now =>
      w.place = .waiting ∧ w'.active = w.active ∧ w'.timeout = now + g.foTimeout
  | .interrupted _ now =>
      w.place = .waiting ∧ w'.active = w.active ∧ w'.timeout = now + g.foTimeout
  | .attempt _ later outcome => w.place = .probing ∧ Attempted g w w' later (outcome.result g w)
  | .timesOut now later =>
      w.place = .probing ∧ w.timeout ≤ now ∧
        if w.active then w'.active = false ∧ w'.place = .reset
        else w'.active = true ∧ w'.timeout = later + g.fbTimeout
  | .trywait _ => w'.active = w.active ∧ w'.place ≠ .probing

section Step

variable {g : FailoverGsmd} {w w' : Failover} {e : FailoverEvent} {later : Int}

theorem Failover.resetFailback_attempted (g : FailoverGsmd) (w : Failover) (later : Int) :
    Attempted g w (w.resetFailback g later) later .bad := by
  cases backup : w.active with
  | true =>
      rw [resetFailback, if_pos backup]
      exact ⟨rfl, .inl rfl, fun _ _ => rfl, by simp [backup], by simp⟩
  | false =>
      rw [resetFailback, if_neg (by simp [backup])]
      exact ⟨rfl, .inl rfl, by simp [backup], fun _ => rfl, by simp⟩

theorem Failover.receive_attempted {pp stale : List Byte}
    (taken : w.receive g later pp stale = some w') :
    Attempted g w w' later ((ProbeOutcome.received pp stale).result g w) := by
  obtain ⟨validation, validated, rfl⟩ := Option.map_eq_some_iff.mp taken
  simp only [ProbeOutcome.result, validated]
  cases validation with
  | valid len pmsg =>
      simp only
      split_ifs with answer backup
      · exact ⟨rfl, .inl rfl, by simp, fun _ => rfl, by simp [backup]⟩
      · exact ⟨rfl, .inr rfl, by simp, fun _ => rfl, fun _ _ => rfl⟩
      · exact w.resetFailback_attempted g later
  | seqno => exact w.resetFailback_attempted g later
  | invalid error => exact w.resetFailback_attempted g later

theorem attempted_neither (active : w'.active = w.active)
    (place : w'.place = w.place ∨ w'.place = .reset) (timeout : w'.timeout = w.timeout) :
    Attempted g w w' later .neither :=
  ⟨active, place, fun wrong => (by cases wrong), fun _ => timeout, fun wrong => (by cases wrong)⟩

/-- A failed `send` or `poll` is retried or leads to `reset`. -/
theorem attempted_or_reset {again : Prop} [Decidable again] (sent : Failover)
    (active : sent.active = w.active) (place : sent.place = w.place)
    (timeout : sent.timeout = w.timeout)
    (taken : (if again then some sent else some { sent with place := .reset }) = some w') :
    Attempted g w w' later .neither := by
  by_cases retried : again
  · rw [if_pos retried] at taken
    cases taken
    exact attempted_neither active (.inl place) timeout
  · rw [if_neg retried] at taken
    cases taken
    exact attempted_neither active (.inr rfl) timeout

theorem Failover.attempt_attempted {outcome : ProbeOutcome}
    (taken : w.attempt g later outcome = some w') :
    Attempted g w w' later (outcome.result g w) := by
  cases outcome with
  | sendFails errno =>
      rw [attempt] at taken
      exact attempted_or_reset w rfl rfl rfl taken
  | pollFails errno =>
      rw [attempt] at taken
      exact attempted_or_reset w.send rfl rfl rfl taken
  | pollTimesOut =>
      cases taken
      exact { w.send.resetFailback_attempted g later with }
  | recvFails errno =>
      cases taken
      exact { w.send.resetFailback_attempted g later with }
  | received pp stale => exact { receive_attempted (w := w.send) taken with }

theorem failoverStep_timed (taken : failoverStep g w e = some w') : TimedStep g w w' e := by
  cases e with
  | signal =>
      cases taken
      exact ⟨rfl, rfl, rfl⟩
  | woken seq now =>
      simp only [failoverStep] at taken
      split at taken
      · split at taken
        · obtain ⟨-, active, -, -, timeout, -⟩ := Failover.wake_eq taken
          exact ⟨‹_›, active, timeout⟩
        · cases taken
      · cases taken
  | interrupted seq now =>
      simp only [failoverStep] at taken
      split at taken
      · split at taken
        · obtain ⟨-, active, -, -, timeout, -⟩ := Failover.wake_eq taken
          exact ⟨‹_›, active, timeout⟩
        · cases taken
      · cases taken
  | attempt now later outcome =>
      simp only [failoverStep] at taken
      split at taken
      · split at taken
        · exact ⟨‹_›, { Failover.attempt_attempted taken with }⟩
        · cases taken
      · cases taken
  | timesOut now later =>
      simp only [failoverStep] at taken
      split at taken
      · split at taken
        · rename_i probing late
          refine ⟨probing, late.2.1, ?_⟩
          split at taken
          · rename_i backup
            cases taken
            rw [if_pos backup]
            exact ⟨rfl, rfl⟩
          · rename_i primary
            cases taken
            rw [if_neg primary]
            exact ⟨rfl, rfl⟩
        · cases taken
      · cases taken
  | trywait eagain =>
      simp only [failoverStep] at taken
      split at taken
      · cases taken
        exact ⟨rfl, by simp⟩
      · cases taken
        exact ⟨rfl, by cases eagain <;> simp⟩
      · cases taken

end Step

/-! ## What the timeout stands for -/

/-- While the primary is probed and active, nothing has answered since the wake-up the
timeout is counted from. -/
def UnansweredSince (g : FailoverGsmd) (s : Switches) : Prop :=
  s.w.place = .probing → s.w.active = false →
    s.answered = false ∧ ∃ t, s.woken = some t ∧ s.w.timeout = t + g.foTimeout

/-- While the backup is active, the timeout leaves everything counted a full interval. -/
structure IntervalKept (g : FailoverGsmd) (s : Switches) : Prop where
  failed : s.w.active = true → s.failed.isSome = true
  past : ∀ t, s.Counted t → t ≤ s.clock
  interval : s.w.place = .probing → s.w.active = true →
    ∀ t, s.Counted t → t + g.fbTimeout ≤ s.w.timeout

section Invariants

variable {g : FailoverGsmd} {s s' : Switches} {e : FailoverEvent}

theorem switchStep_cases (taken : switchStep g s e = some s') :
    ∃ now later w, e.readings s.clock = (now, later) ∧ s.clock ≤ now ∧ now ≤ later ∧
      failoverStep g s.w e = some w ∧ TimedStep g s.w w e ∧
      s' = { s.note g e with w, clock := later } := by
  simp only [switchStep] at taken
  split at taken
  · obtain ⟨w, step, rfl⟩ := Option.map_eq_some_iff.mp taken
    rename_i ordered
    exact ⟨_, _, w, rfl, ordered.1, ordered.2, step, failoverStep_timed step, rfl⟩
  · cases taken

theorem switchStep_taken {w : Failover} {now later : Int}
    (readings : e.readings s.clock = (now, later)) (ordered : s.clock ≤ now ∧ now ≤ later)
    (taken : failoverStep g s.w e = some w) :
    switchStep g s e = some { s.note g e with w, clock := later } := by
  simp only [switchStep, readings, if_pos ordered, taken, Option.map_some]

theorem UnansweredSince.step (inv : UnansweredSince g s) (taken : switchStep g s e = some s') :
    UnansweredSince g s' := by
  obtain ⟨now, later, w, -, -, -, -, timed, rfl⟩ := switchStep_cases taken
  intro probing primary
  cases e with
  | signal =>
      obtain ⟨active, place, timeout⟩ := timed
      obtain ⟨unanswered, t, woken, since⟩ := inv (place ▸ probing) (active ▸ primary)
      exact ⟨unanswered, t, woken, timeout.trans since⟩
  | woken seq now =>
      obtain ⟨-, -, timeout⟩ := timed
      exact ⟨rfl, now, rfl, timeout⟩
  | interrupted seq now =>
      obtain ⟨-, -, timeout⟩ := timed
      exact ⟨rfl, now, rfl, timeout⟩
  | attempt now later outcome =>
      obtain ⟨before, attempted⟩ := timed
      have same : s.w.active = false := attempted.active ▸ primary
      obtain ⟨unanswered, t, woken, since⟩ := inv before same
      have timeout := attempted.kept (.inr same)
      cases result : outcome.result g s.w with
      | bad =>
          simp only [Switches.note, result]
          exact ⟨unanswered, t, woken, timeout.trans since⟩
      | answer =>
          have reset := attempted.answered result same
          rw [reset] at probing
          cases probing
      | neither =>
          simp only [Switches.note, result]
          exact ⟨unanswered, t, woken, timeout.trans since⟩
  | timesOut now later =>
      obtain ⟨-, -, switched⟩ := timed
      split_ifs at switched
      · obtain ⟨-, reset⟩ := switched
        rw [reset] at probing
        cases probing
      · rw [switched.1] at primary
        cases primary
  | trywait eagain => exact (timed.2 probing).elim

/-- The mode changes at a timeout and nowhere else. -/
theorem switched_at_timeout (taken : switchStep g s e = some s')
    (switched : s'.w.active ≠ s.w.active) :
    ∃ now later, e = .timesOut now later ∧ s.w.place = .probing ∧ s.w.timeout ≤ now := by
  obtain ⟨first, last, w, -, -, -, -, timed, rfl⟩ := switchStep_cases taken
  cases e with
  | signal => exact (switched timed.1).elim
  | woken seq now => exact (switched timed.2.1).elim
  | interrupted seq now => exact (switched timed.2.1).elim
  | attempt now later outcome => exact (switched timed.2.active).elim
  | timesOut now later => exact ⟨now, later, rfl, timed.1, timed.2.1⟩
  | trywait eagain => exact (switched timed.1).elim

theorem UnansweredSince.due (inv : UnansweredSince g s) : FailoverDue g s e := by
  intro s' taken primary backup
  obtain ⟨now, later, rfl, probing, late⟩ := switched_at_timeout taken (by simp [primary, backup])
  obtain ⟨unanswered, t, woken, since⟩ := inv probing primary
  exact ⟨now, later, t, rfl, woken, since ▸ late, unanswered⟩

/-- What an event adds to the times counted. -/
theorem Switches.counted_note {t : Int} (counted : (s.note g e).Counted t) :
    s.Counted t ∨
      (∃ now outcome, e = .attempt now t outcome ∧ outcome.result g s.w = .bad) ∨
      (∃ now, e = .timesOut now t ∧ s.w.active = false) := by
  cases e with
  | signal => exact .inl counted
  | woken seq now => exact .inl counted
  | interrupted seq now => exact .inl counted
  | attempt now later outcome =>
      simp only [note] at counted
      split at counted
      · rename_i result
        rcases counted with failed | bad
        · exact .inl (.inl failed)
        · cases bad
          exact .inr (.inl ⟨now, outcome, rfl, result⟩)
      · exact .inl counted
      · exact .inl counted
  | timesOut now later =>
      simp only [note] at counted
      split_ifs at counted with backup
      · exact .inl counted
      · rcases counted with failed | bad
        · cases failed
          exact .inr (.inr ⟨now, rfl, Bool.eq_false_iff.mpr backup⟩)
        · exact .inl (.inr bad)
  | trywait eagain => exact .inl counted

theorem IntervalKept.step (inv : IntervalKept g s) (ontime : WakesOnTime g s e)
    (taken : switchStep g s e = some s') : IntervalKept g s' := by
  obtain ⟨first, last, w, readings, ordered, together, -, timed, rfl⟩ := switchStep_cases taken
  have past : ∀ t, s.Counted t → t ≤ last := fun t counted =>
    Int.le_trans (inv.past t counted) (Int.le_trans ordered together)
  cases e with
  | signal =>
      cases readings
      obtain ⟨active, place, timeout⟩ := timed
      exact ⟨fun backup => inv.failed (active ▸ backup), past, fun probing backup t counted =>
        timeout ▸ inv.interval (place ▸ probing) (active ▸ backup) t counted⟩
  | woken seq now =>
      obtain ⟨waiting, active, timeout⟩ := timed
      exact ⟨fun backup => inv.failed (active ▸ backup), past, fun _ backup t counted =>
        timeout ▸ ontime waiting (active ▸ backup) t counted⟩
  | interrupted seq now =>
      obtain ⟨waiting, active, timeout⟩ := timed
      exact ⟨fun backup => inv.failed (active ▸ backup), past, fun _ backup t counted =>
        timeout ▸ ontime waiting (active ▸ backup) t counted⟩
  | attempt now later outcome =>
      cases readings
      obtain ⟨before, attempted⟩ := timed
      have failed : (s.note g (.attempt first last outcome)).failed = s.failed := by
        simp only [Switches.note]
        split <;> rfl
      have kept : ∀ t, (s.note g (.attempt first last outcome)).Counted t →
          s.Counted t ∨ (t = last ∧ outcome.result g s.w = .bad) := by
        intro t counted
        rcases Switches.counted_note counted with old | ⟨_, _, same, bad⟩ | ⟨_, wrong, -⟩
        · exact .inl old
        · cases same
          exact .inr ⟨rfl, bad⟩
        · cases wrong
      refine ⟨fun backup => ?_, fun t counted => ?_, fun _ backup t counted => ?_⟩
      · exact failed ▸ inv.failed (attempted.active ▸ backup)
      · rcases kept t counted with old | ⟨rfl, -⟩
        · exact past t old
        · exact Int.le_refl _
      · have same : s.w.active = true := attempted.active ▸ backup
        by_cases bad : outcome.result g s.w = .bad
        · have timeout := attempted.reset bad same
          rcases kept t counted with old | ⟨rfl, -⟩
          · have := past t old
            simp only [timeout]
            omega
          · exact Int.le_of_eq timeout.symm
        · have timeout := attempted.kept (.inl bad)
          rcases kept t counted with old | ⟨-, wrong⟩
          · exact timeout ▸ inv.interval before same t old
          · exact (bad wrong).elim
  | timesOut now later =>
      cases readings
      obtain ⟨-, -, switched⟩ := timed
      cases backup : s.w.active with
      | true =>
          rw [if_pos backup] at switched
          have noted : s.note g (.timesOut first last) = s := if_pos backup
          rw [noted]
          refine ⟨fun wrong => ?_, past, fun _ wrong => ?_⟩
          · cases switched.1.symm.trans wrong
          · cases switched.1.symm.trans wrong
      | false =>
          have primary : ¬ s.w.active = true := by simp [backup]
          rw [if_neg primary] at switched
          have noted : s.note g (.timesOut first last) = { s with failed := some last } :=
            if_neg primary
          have counted' : ∀ t, Switches.Counted { s with failed := some last } t → t ≤ last := by
            rintro t (failed | bad)
            · exact Int.le_of_eq (Option.some.inj failed).symm
            · exact past t (.inr bad)
          rw [noted]
          refine ⟨fun _ => rfl, counted', fun _ _ t counted => ?_⟩
          have := counted' t counted
          simp only [switched.2]
          omega
  | trywait eagain =>
      cases readings
      obtain ⟨active, away⟩ := timed
      exact ⟨fun backup => inv.failed (active ▸ backup), past, fun probing => (away probing).elim⟩

theorem IntervalKept.due (inv : IntervalKept g s) : FailbackDue g s e := by
  intro s' taken backup primary
  obtain ⟨now, later, rfl, probing, late⟩ := switched_at_timeout taken (by simp [primary, backup])
  exact ⟨now, later, rfl, inv.failed backup, fun t counted =>
    Int.le_trans (inv.interval probing backup t counted) late⟩

theorem switchesInit_unanswered (g : FailoverGsmd) (clock : Int) :
    UnansweredSince g (switchesInit clock) := by
  intro probing
  cases probing

theorem switchesInit_kept (g : FailoverGsmd) (clock : Int) :
    IntervalKept g (switchesInit clock) where
  failed := fun backup => by cases backup
  past := by
    rintro t (failed | bad)
    · cases failed
    · cases bad
  interval := fun probing => by cases probing

end Invariants

/-- Without a hard failure of `send` or `poll` on the backup no wake-up finds it active. -/
theorem switches_polling {g : FailoverGsmd} {clock : Int} {es : List FailoverEvent}
    (polls : Schedule.Along (switchStep g) (fun s e => PollsOn s.w e) (switchesInit clock) es) :
    Schedule.Along (switchStep g) (WakesOnTime g) (switchesInit clock) es := by
  refine Schedule.Along.of_invariant (fun s => s.w.place ≠ .probing → s.w.active = false) ?_ ?_
    (fun _ => rfl) polls
  · intro s e primary _
    have ontime : ∀ now, s.OnTime g now := by
      intro now waiting backup
      rw [primary (by simp [waiting])] at backup
      cases backup
    cases e with
    | woken seq now => exact ontime now
    | interrupted seq now => exact ontime now
    | _ => trivial
  · intro s e next primary polls taken
    obtain ⟨_, _, w, -, -, -, step, -, rfl⟩ := switchStep_cases taken
    exact failoverStep_primary primary polls step

/-- The condition cannot be spared: woken too early on the backup, the thread fails back
after `fo_timeout` if nothing comes in. -/
theorem early_wake_fails_back {g : FailoverGsmd} {s : Switches} {sem : Nat} {seq : UInt32}
    {now t : Int} (waiting : s.w.place = .waiting) (signalled : s.w.sem = sem + 1)
    (backup : s.w.active = true) (ordered : s.w.clock ≤ now ∧ s.clock ≤ now)
    (forward : 0 ≤ g.foTimeout) (counted : s.Counted t)
    (early : now + g.foTimeout < t + g.fbTimeout) :
    ∃ s', switchStep g s (.woken seq now) = some s' ∧
      ¬ FailbackDue g s' (.timesOut (now + g.foTimeout) (now + g.foTimeout)) := by
  obtain ⟨w, wakes⟩ := Failover.wake_total g { s.w with sem } seq now
  obtain ⟨place, active, -, clock, timeout, -, -⟩ := Failover.wake_eq wakes
  have still : w.active = true := active.trans backup
  have step : failoverStep g s.w (.woken seq now) = some w :=
    (failoverStep_woken waiting signalled ordered.1).trans wakes
  refine ⟨_, switchStep_taken rfl ⟨ordered.2, Int.le_refl now⟩ step, ?_⟩
  intro due
  have late : w.clock ≤ now + g.foTimeout ∧ w.timeout ≤ now + g.foTimeout ∧
      now + g.foTimeout ≤ now + g.foTimeout := by omega
  have back : failoverStep g w (.timesOut (now + g.foTimeout) (now + g.foTimeout)) =
      some { w with active := false, place := .reset, clock := now + g.foTimeout } := by
    simp only [failoverStep, place, if_pos late, still, if_true]
  have inorder : now ≤ now + g.foTimeout ∧ now + g.foTimeout ≤ now + g.foTimeout := by omega
  obtain ⟨_, _, same, -, elapsed⟩ := due _ (switchStep_taken rfl inorder back) still rfl
  cases same
  exact Int.not_le.mpr early (elapsed t counted)

/-- Failover is due in every run, and failback in every run that wakes up on time. -/
theorem switches_after_interval (g : FailoverGsmd) (clock : Int) (es : List FailoverEvent) :
    Schedule.Along (switchStep g) (FailoverDue g) (switchesInit clock) es ∧
      (Schedule.Along (switchStep g) (WakesOnTime g) (switchesInit clock) es →
        Schedule.Along (switchStep g) (FailbackDue g) (switchesInit clock) es) := by
  constructor
  · have always : Schedule.Along (switchStep g) (fun _ _ => True) (switchesInit clock) es :=
      Schedule.along_of_forall fun _ _ => trivial
    refine Schedule.Along.of_invariant (UnansweredSince g) ?_ ?_
      (switchesInit_unanswered g clock) always
    · intro s e inv _
      exact inv.due
    · intro s e next inv _ taken
      exact inv.step taken
  · intro ontime
    refine Schedule.Along.of_invariant (IntervalKept g) ?_ ?_ (switchesInit_kept g clock) ontime
    · intro s e inv _
      exact inv.due
    · intro s e next inv ontime taken
      exact inv.step ontime taken

/-! ## Runs -/

theorem failoverStep_sleeps {g : FailoverGsmd} {w : Failover} {eagain : Bool}
    (reset : w.place = .reset) (unsignalled : w.sem = 0) :
    failoverStep g w (.trywait eagain) = some { w with place := .waiting } := by
  simp only [failoverStep, reset, unsignalled]

theorem switches_toBackup (key : GsmdKey) :
    ∃ s, Schedule.run (switchStep (probedGsmd key)) (switchesInit 0) toBackup = some s ∧
      s.w.place = .probing ∧ s.w.active = true ∧ s.w.sem = 0 ∧ s.w.clock = 5 ∧
      s.w.timeout = 15 ∧ s.clock = 5 ∧ s.failed = some 5 ∧ s.bad = none := by
  obtain ⟨w, wakes⟩ := (failoverInit 0).wake_total (probedGsmd key) 0 0
  obtain ⟨place, active, sem, clock, timeout, -, -⟩ := Failover.wake_eq wakes
  have primary : ¬ w.active = true := by simp [active, failoverInit]
  let signalled : Switches := { switchesInit 0 with w := { failoverInit 0 with sem := 1 } }
  let woken : Switches := { switchesInit 0 with w, woken := some 0 }
  have first : switchStep (probedGsmd key) (switchesInit 0) .signal = some signalled :=
    switchStep_taken rfl ⟨Int.le_refl 0, Int.le_refl 0⟩ rfl
  have second : switchStep (probedGsmd key) signalled (.woken 0 0) = some woken :=
    switchStep_taken rfl ⟨Int.le_refl 0, Int.le_refl 0⟩
      ((failoverStep_woken rfl rfl (Int.le_refl 0)).trans wakes)
  have late : w.clock ≤ 5 ∧ w.timeout ≤ 5 ∧ (5 : Int) ≤ 5 := by
    simp [clock, timeout, probedGsmd]
  have fails : failoverStep (probedGsmd key) w (.timesOut 5 5) =
      some { w with active := true, timeout := 15, clock := 5 } := by
    simp only [failoverStep, place, if_pos late, if_neg primary]
    rfl
  have inorder : woken.clock ≤ 5 ∧ (5 : Int) ≤ 5 := ⟨show (0 : Int) ≤ 5 by decide, Int.le_refl 5⟩
  have third : switchStep (probedGsmd key) woken (.timesOut 5 5) = some
      { woken with
        w := { w with active := true, timeout := 15, clock := 5 }, clock := 5,
        failed := some 5 } := by
    rw [switchStep_taken rfl inorder fails]
    simp only [Switches.note, woken, if_neg primary]
  refine ⟨{ woken with
    w := { w with active := true, timeout := 15, clock := 5 }, clock := 5, failed := some 5 },
    ?_, place, rfl, sem, rfl, rfl, rfl, rfl, rfl⟩
  simp only [toBackup, Schedule.run, first, second, third, Option.bind_some]

/-- There and back, ten seconds later. -/
theorem switches_after_ten :
    ∃ (key : GsmdKey) (s : Switches),
      Schedule.run (switchStep (probedGsmd key)) (switchesInit 0) (toBackup ++ [.timesOut 15 15]) =
        some s ∧
      s.w.active = false ∧
      Schedule.Along (switchStep (probedGsmd key)) (FailoverDue (probedGsmd key)) (switchesInit 0)
        (toBackup ++ [.timesOut 15 15]) ∧
      Schedule.Along (switchStep (probedGsmd key)) (FailbackDue (probedGsmd key)) (switchesInit 0)
        (toBackup ++ [.timesOut 15 15]) := by
  obtain ⟨scontext, -, keyed⟩ := helixSetkey_keyed (u := List.replicate 16 7) (by decide)
  let g : FailoverGsmd := probedGsmd ⟨scontext, keyed⟩
  obtain ⟨s, reached, place, active, -, clock, timeout, now, -, -⟩ :=
    switches_toBackup ⟨scontext, keyed⟩
  have late : s.w.clock ≤ 15 ∧ s.w.timeout ≤ 15 ∧ (15 : Int) ≤ 15 := by
    simp [clock, timeout]
  have back : failoverStep g s.w (.timesOut 15 15) =
      some { s.w with active := false, place := .reset, clock := 15 } := by
    simp only [failoverStep, place, if_pos late, active, if_true]
  have inorder : s.clock ≤ 15 ∧ (15 : Int) ≤ 15 := by
    simp [now]
  have ontime : Schedule.Along (switchStep g) (WakesOnTime g) (switchesInit 0)
      (toBackup ++ [.timesOut 15 15]) := by
    refine ⟨trivial, fun signalled first => ⟨?_, fun _ _ => ⟨trivial, fun _ _ => ⟨trivial,
      fun _ _ => trivial⟩⟩⟩⟩
    cases first
    intro waiting backup
    cases backup
  obtain ⟨failover, failback⟩ := switches_after_interval g 0 (toBackup ++ [.timesOut 15 15])
  refine ⟨⟨scontext, keyed⟩, { s.note g (.timesOut 15 15) with
    w := { s.w with active := false, place := .reset, clock := 15 }, clock := 15 },
    ?_, rfl, failover, failback ontime⟩
  rw [Schedule.run_append, reached, Option.bind_some, Schedule.run,
    switchStep_taken rfl inorder back]
  rfl

/-- The primary refuses a probe on the backup, and a stalled request wakes the thread. -/
def refusedOnBackup : List FailoverEvent :=
  [.attempt 6 6 (.sendFails .econnrefused), .trywait false, .signal]

/-- Woken on the backup at 7, the thread fails back at 12, seven seconds after the failover. -/
theorem failback_too_early :
    ∃ key : GsmdKey,
      ¬ Schedule.Along (switchStep (probedGsmd key)) (FailbackDue (probedGsmd key))
        (switchesInit 0) (toBackup ++ refusedOnBackup ++ [.woken 1 7, .timesOut 12 12]) := by
  obtain ⟨scontext, -, keyed⟩ := helixSetkey_keyed (u := List.replicate 16 7) (by decide)
  let g : FailoverGsmd := probedGsmd ⟨scontext, keyed⟩
  obtain ⟨s, reached, place, active, sem, clock, timeout, now, failed, bad⟩ :=
    switches_toBackup ⟨scontext, keyed⟩
  have intime : s.w.clock ≤ 6 ∧ 6 < s.w.timeout ∧ (6 : Int) ≤ 6 := by
    simp [clock, timeout]
  have inorder : s.clock ≤ 6 ∧ (6 : Int) ≤ 6 := by
    simp [now]
  have refused : failoverStep g s.w (.attempt 6 6 (.sendFails .econnrefused)) =
      some { s.w with place := .reset, clock := 6 } := by
    simp only [failoverStep, place, if_pos intime, Failover.attempt]
    rfl
  let stopped : Switches := { s with w := { s.w with place := .reset, clock := 6 }, clock := 6 }
  have first : switchStep g s (.attempt 6 6 (.sendFails .econnrefused)) = some stopped :=
    switchStep_taken rfl inorder refused
  let slept : Switches := { stopped with w := { stopped.w with place := .waiting } }
  have second : switchStep g stopped (.trywait false) = some slept :=
    switchStep_taken rfl ⟨Int.le_refl 6, Int.le_refl 6⟩ (failoverStep_sleeps rfl sem)
  let signalled : Switches := { slept with w := { slept.w with sem := slept.w.sem + 1 } }
  have third : switchStep g slept .signal = some signalled :=
    switchStep_taken rfl ⟨Int.le_refl 6, Int.le_refl 6⟩ rfl
  obtain ⟨woken, wakes, undue⟩ : ∃ s', switchStep g signalled (.woken 1 7) = some s' ∧
      ¬ FailbackDue g s' (.timesOut 12 12) := by
    have ordered : signalled.w.clock ≤ 7 ∧ signalled.clock ≤ 7 :=
      ⟨show (6 : Int) ≤ 7 by decide, show (6 : Int) ≤ 7 by decide⟩
    exact early_wake_fails_back rfl rfl active ordered (show (0 : Int) ≤ 5 by decide)
      (.inl failed) (show (7 : Int) + 5 < 5 + 10 by decide)
  have reached' : Schedule.run (switchStep g) (switchesInit 0)
      (toBackup ++ refusedOnBackup ++ [.woken 1 7]) = some woken := by
    simp only [Schedule.run_append, reached, refusedOnBackup, Schedule.run, first, second, third,
      wakes, Option.bind_some, g]
  have split : toBackup ++ refusedOnBackup ++ [.woken 1 7, .timesOut 12 12] =
      (toBackup ++ refusedOnBackup ++ [.woken 1 7]) ++ .timesOut 12 12 :: [] := by simp
  refine ⟨⟨scontext, keyed⟩, ?_⟩
  intro along
  rw [split] at along
  exact undue (along.at_event reached')

end Otpd

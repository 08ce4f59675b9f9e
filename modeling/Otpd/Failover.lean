import Otpd.Framing
import Otpd.Lib.Schedule

/-!
# The failover thread

`failover_thread` for a gsmd with a backup: asleep in `sem_wait`, probing the primary
in the inner loop, or at the label `reset` where it takes back what is left of the
semaphore.  The request lies in one buffer that is set up once, before the loop.
-/

set_option autoImplicit false

namespace Otpd

open CMem

inductive Errno where
  | eagain
  | ewouldblock
  | econnrefused
  | eintr
  | other (n : Nat)
  deriving DecidableEq

/-- How one pass of the inner loop ends. -/
inductive ProbeOutcome where
  | sendFails (errno : Errno)
  | pollFails (errno : Errno)
  | pollTimesOut
  | recvFails (errno : Errno)
  | received (pp stale : List Byte)

/-- Clock readings are arguments of the events that take them; `later` is the second
one, of `RESET_FAILBACK` or after a failover. -/
inductive FailoverEvent where
  | signal
  | woken (seq : UInt32) (now : Int)
  | interrupted (seq : UInt32) (now : Int)
  | attempt (now later : Int) (outcome : ProbeOutcome)
  | timesOut (now later : Int)
  | trywait (eagain : Bool)

inductive FailoverPlace where
  | waiting
  | probing
  | reset
  deriving DecidableEq

structure FailoverGsmd where
  key : GsmdKey
  streamid : UInt32 × UInt32
  foTimeout : Int
  fbTimeout : Int

/-- `nonce`, `cmsg` and `mac` are `c.msg`.  `drawn` has the numbers of all wake-ups so
far and `sent` every datagram with the wake-up it was sent after. -/
structure Failover where
  place : FailoverPlace
  active : Bool
  sem : Nat
  clock : Int
  timeout : Int
  seq : UInt32
  nonce : Buffer 16
  cmsg : List Byte
  mac : Buffer 16
  drawn : List UInt32
  sent : List (Nat × List Byte)

def probeText : List Byte := [71, 32, 33, 0]

def failoverInit (clock : Int) : Failover :=
  ⟨.waiting, false, 0, clock, 0, 0, Buffer.zero 16, probeText, Buffer.zero 16, [], []⟩

def Failover.datagram (w : Failover) : List Byte := w.nonce.bytes ++ (w.cmsg ++ w.mac.bytes)

def Failover.send (w : Failover) : Failover :=
  { w with sent := w.sent ++ [(w.drawn.length, w.datagram)] }

/-- `RESET_FAILBACK`. -/
def Failover.resetFailback (g : FailoverGsmd) (w : Failover) (later : Int) : Failover :=
  if w.active then { w with timeout := later + g.fbTimeout, clock := later } else w

/-- After `sem_wait`: the message is encrypted where it lies. -/
def Failover.wake (g : FailoverGsmd) (w : Failover) (seq : UInt32) (now : Int) : Option Failover :=
  let nonce := gsmdNonce g.streamid 4 71 seq
  (helixEncrypt g.key.scontext (helixNonce g.key.scontext nonce) w.cmsg).map fun out =>
    { w with
      place := .probing, clock := now, timeout := now + g.foTimeout, seq, nonce,
      cmsg := out.text, mac := out.mac, drawn := w.drawn ++ [seq] }

/-- A datagram on the primary's socket; `none` when decryption runs over the buffer. -/
def Failover.receive (g : FailoverGsmd) (w : Failover) (later : Int) (pp stale : List Byte) :
    Option Failover :=
  (failoverValidate g.key w.seq pp stale).map fun
    | .valid _ pmsg =>
        if pmsg.getD 0 0 = 65 then
          if w.active then w else { w with place := .reset }
        else w.resetFailback g later
    | _ => w.resetFailback g later

def Failover.attempt (g : FailoverGsmd) (w : Failover) (later : Int) :
    ProbeOutcome → Option Failover
  | .sendFails errno =>
      if errno = .eagain ∨ errno = .ewouldblock then some w else some { w with place := .reset }
  | .pollFails errno =>
      if errno = .eagain then some w.send else some { w.send with place := .reset }
  | .pollTimesOut => some (w.send.resetFailback g later)
  | .recvFails _ => some (w.send.resetFailback g later)
  | .received pp stale => w.send.receive g later pp stale

def failoverStep (g : FailoverGsmd) (w : Failover) : FailoverEvent → Option Failover
  | .signal => some { w with sem := w.sem + 1 }
  | .woken seq now =>
      match w.place, w.sem with
      | .waiting, sem + 1 => if w.clock ≤ now then { w with sem }.wake g seq now else none
      | _, _ => none
  | .interrupted seq now =>
      match w.place with
      | .waiting => if w.clock ≤ now then w.wake g seq now else none
      | _ => none
  | .attempt now later outcome =>
      match w.place with
      | .probing =>
          if w.clock ≤ now ∧ now < w.timeout ∧ now ≤ later then
            { w with clock := now }.attempt g later outcome
          else none
      | _ => none
  | .timesOut now later =>
      match w.place with
      | .probing =>
          if w.clock ≤ now ∧ w.timeout ≤ now ∧ now ≤ later then
            if w.active then some { w with active := false, place := .reset, clock := now }
            else some { w with active := true, timeout := later + g.fbTimeout, clock := later }
          else none
      | _ => none
  | .trywait eagain =>
      match w.place, w.sem with
      | .reset, 0 => some { w with place := .waiting }
      | .reset, sem + 1 =>
          some { w with sem, place := if eagain then .waiting else .reset }
      | _, _ => none

/-! ## What a step does -/

/-- The failures that lead to `goto reset`. -/
def ProbeOutcome.Hard : ProbeOutcome → Prop
  | .sendFails errno => errno ≠ .eagain ∧ errno ≠ .ewouldblock
  | .pollFails errno => errno ≠ .eagain
  | _ => False

section Step

variable {g : FailoverGsmd} {w w' : Failover} {e : FailoverEvent}

theorem Failover.resetFailback_eq (g : FailoverGsmd) (w : Failover) (later : Int) :
    ∃ clock timeout, w.resetFailback g later = { w with clock, timeout } := by
  rw [resetFailback]
  split
  · exact ⟨_, _, rfl⟩
  · exact ⟨w.clock, w.timeout, rfl⟩

theorem Failover.receive_cases {later : Int} {pp stale : List Byte}
    (taken : w.receive g later pp stale = some w') :
    (∃ clock timeout, w' = { w with clock, timeout }) ∨
      (w.active = false ∧ w' = { w with place := .reset }) := by
  obtain ⟨validation, -, rfl⟩ := Option.map_eq_some_iff.mp taken
  cases validation with
  | valid len pmsg =>
      simp only
      split_ifs with answer backup
      · exact .inl ⟨w.clock, w.timeout, rfl⟩
      · exact .inr ⟨Bool.eq_false_iff.mpr backup, rfl⟩
      · exact .inl (w.resetFailback_eq g later)
  | seqno => exact .inl (w.resetFailback_eq g later)
  | invalid error => exact .inl (w.resetFailback_eq g later)

theorem Failover.attempt_cases {later : Int} {outcome : ProbeOutcome}
    (taken : w.attempt g later outcome = some w') :
    ∃ sent, (sent = w.sent ∨ sent = w.send.sent) ∧
      ((∃ clock timeout, w' = { w with clock, timeout, sent }) ∨
        ((outcome.Hard ∨ w.active = false) ∧ w' = { w with place := .reset, sent })) := by
  cases outcome with
  | sendFails errno =>
      refine ⟨w.sent, .inl rfl, ?_⟩
      simp only [attempt] at taken
      split at taken
      · exact .inl ⟨w.clock, w.timeout, (Option.some.inj taken).symm⟩
      · rename_i hard
        exact .inr ⟨.inl (not_or.mp hard), (Option.some.inj taken).symm⟩
  | pollFails errno =>
      refine ⟨w.send.sent, .inr rfl, ?_⟩
      simp only [attempt] at taken
      split at taken
      · exact .inl ⟨w.clock, w.timeout, (Option.some.inj taken).symm⟩
      · rename_i hard
        exact .inr ⟨.inl hard, (Option.some.inj taken).symm⟩
  | pollTimesOut =>
      obtain ⟨clock, timeout, reset⟩ := w.send.resetFailback_eq g later
      exact ⟨w.send.sent, .inr rfl, .inl ⟨clock, timeout, (Option.some.inj taken).symm.trans reset⟩⟩
  | recvFails errno =>
      obtain ⟨clock, timeout, reset⟩ := w.send.resetFailback_eq g later
      exact ⟨w.send.sent, .inr rfl, .inl ⟨clock, timeout, (Option.some.inj taken).symm.trans reset⟩⟩
  | received pp stale =>
      refine ⟨w.send.sent, .inr rfl, ?_⟩
      rcases receive_cases taken with ⟨clock, timeout, rfl⟩ | ⟨primary, rfl⟩
      · exact .inl ⟨clock, timeout, rfl⟩
      · exact .inr ⟨.inr primary, rfl⟩

theorem failoverStep_cases (taken : failoverStep g w e = some w') :
    (∃ sem, w' = { w with sem }) ∨
    (w.place = .waiting ∧ ∃ sem seq now, Failover.wake g { w with sem } seq now = some w') ∨
    (w.place = .probing ∧ ∃ clock timeout sent, (sent = w.sent ∨ sent = w.send.sent) ∧
      w' = { w with clock, timeout, sent }) ∨
    (w.place = .probing ∧
      ((∃ now later outcome, e = .attempt now later outcome ∧ outcome.Hard) ∨ w.active = false) ∧
      ∃ clock sent, (sent = w.sent ∨ sent = w.send.sent) ∧
        w' = { w with place := .reset, clock, sent }) ∨
    (w.place = .probing ∧ ∃ clock timeout, w' = { w with active := true, clock, timeout }) ∨
    (w.place = .probing ∧ ∃ clock, w' = { w with active := false, place := .reset, clock }) ∨
    (w.place = .reset ∧ ∃ sem place, place ≠ .probing ∧ w' = { w with sem, place }) := by
  cases e with
  | signal => exact .inl ⟨_, (Option.some.inj taken).symm⟩
  | woken seq now =>
      simp only [failoverStep] at taken
      split at taken
      · split at taken
        · exact .inr (.inl ⟨‹_›, _, seq, now, taken⟩)
        · cases taken
      · cases taken
  | interrupted seq now =>
      simp only [failoverStep] at taken
      split at taken
      · split at taken
        · exact .inr (.inl ⟨‹_›, w.sem, seq, now, taken⟩)
        · cases taken
      · cases taken
  | attempt now later outcome =>
      simp only [failoverStep] at taken
      split at taken
      · split at taken
        · obtain ⟨sent, logged, ⟨clock, timeout, rfl⟩ | ⟨why, rfl⟩⟩ := Failover.attempt_cases taken
          · exact .inr (.inr (.inl ⟨‹_›, clock, timeout, sent, logged, rfl⟩))
          · refine .inr (.inr (.inr (.inl ⟨‹_›, ?_, now, sent, logged, rfl⟩)))
            rcases why with hard | primary
            · exact .inl ⟨now, later, outcome, rfl, hard⟩
            · exact .inr primary
        · cases taken
      · cases taken
  | timesOut now later =>
      simp only [failoverStep] at taken
      split at taken
      · split at taken
        · split at taken
          · exact .inr (.inr (.inr (.inr (.inr (.inl ⟨‹_›, now, (Option.some.inj taken).symm⟩)))))
          · exact .inr (.inr (.inr (.inr (.inl ⟨‹_›, later, _, (Option.some.inj taken).symm⟩))))
        · cases taken
      · cases taken
  | trywait eagain =>
      simp only [failoverStep] at taken
      split at taken
      · exact .inr (.inr (.inr (.inr (.inr (.inr
          ⟨‹_›, w.sem, .waiting, by decide, (Option.some.inj taken).symm⟩)))))
      · refine .inr (.inr (.inr (.inr (.inr (.inr
          ⟨‹_›, _, _, ?_, (Option.some.inj taken).symm⟩)))))
        cases eagain
        · decide
        · decide
      · cases taken

end Step

/-! ## Asleep on the primary -/

def Failover.Blocked (w : Failover) : Prop := w.place = .waiting ∧ w.sem = 0

/-- While the backup is active neither `send` nor `poll` fails for good. -/
def PollsOn (w : Failover) : FailoverEvent → Prop
  | .attempt _ _ outcome => w.active = true → ¬ outcome.Hard
  | _ => True

section Sleep

variable {g : FailoverGsmd} {w w' : Failover}

theorem Failover.wake_eq {seq : UInt32} {now : Int} (woken : w.wake g seq now = some w') :
    w'.place = .probing ∧ w'.active = w.active ∧ w'.sem = w.sem ∧ w'.clock = now ∧
      w'.timeout = now + g.foTimeout ∧ w'.drawn = w.drawn ++ [seq] ∧ w'.sent = w.sent := by
  obtain ⟨out, -, rfl⟩ := Option.map_eq_some_iff.mp woken
  exact ⟨rfl, rfl, rfl, rfl, rfl, rfl, rfl⟩

theorem failoverStep_primary {e : FailoverEvent} (primary : w.place ≠ .probing → w.active = false)
    (polls : PollsOn w e) (taken : failoverStep g w e = some w') :
    w'.place ≠ .probing → w'.active = false := by
  intro away
  rcases failoverStep_cases taken with ⟨sem, rfl⟩ | ⟨-, sem, seq, now, woken⟩ |
    ⟨probing, clock, timeout, sent, -, rfl⟩ | ⟨probing, why, clock, sent, -, rfl⟩ |
    ⟨probing, clock, timeout, rfl⟩ | ⟨-, clock, rfl⟩ | ⟨reset, sem, place, -, rfl⟩
  · exact primary away
  · exact (away (Failover.wake_eq woken).1).elim
  · exact (away probing).elim
  · rcases why with ⟨now, later, outcome, rfl, hard⟩ | primary
    · exact Bool.eq_false_iff.mpr fun backup => polls backup hard
    · exact primary
  · exact (away probing).elim
  · rfl
  · exact primary (by rw [reset]; decide)

end Sleep

theorem failover_sleeps_on_primary (g : FailoverGsmd) (clock : Int) (es : List FailoverEvent)
    (w : Failover) (polls : Schedule.Along (failoverStep g) PollsOn (failoverInit clock) es)
    (reached : Schedule.run (failoverStep g) (failoverInit clock) es = some w)
    (blocked : w.Blocked) : w.active = false := by
  have primary : w.place ≠ .probing → w.active = false := by
    refine Schedule.run_invariant (fun w => w.place ≠ .probing → w.active = false) ?_
      (fun _ => rfl) polls reached
    intro before e after primary polls taken
    exact failoverStep_primary primary polls taken
  apply primary
  rw [blocked.1]
  decide

/-- The condition cannot be spared: any such failure leaves the thread asleep on the backup. -/
theorem hard_failure_blocks {g : FailoverGsmd} {w : Failover} {now later : Int}
    {outcome : ProbeOutcome} (probing : w.place = .probing) (backup : w.active = true)
    (unsignalled : w.sem = 0) (hard : outcome.Hard)
    (intime : w.clock ≤ now ∧ now < w.timeout ∧ now ≤ later) :
    ∃ w', Schedule.run (failoverStep g) w [.attempt now later outcome, .trywait false] = some w' ∧
      w'.Blocked ∧ w'.active = true := by
  have stopped : ∃ sent, failoverStep g w (.attempt now later outcome) =
      some { w with place := .reset, clock := now, sent } := by
    simp only [failoverStep, probing, if_pos intime]
    cases outcome with
    | sendFails errno => exact ⟨w.sent, if_neg (not_or.mpr hard)⟩
    | pollFails errno => exact ⟨w.send.sent, if_neg hard⟩
    | pollTimesOut => exact hard.elim
    | recvFails errno => exact hard.elim
    | received pp stale => exact hard.elim
  obtain ⟨sent, stopped⟩ := stopped
  have slept : failoverStep g { w with place := .reset, clock := now, sent } (.trywait false) =
      some { w with place := .waiting, clock := now, sent } := by
    simp only [failoverStep, unsignalled]
  refine ⟨{ w with place := .waiting, clock := now, sent }, ?_, ⟨rfl, unsignalled⟩, backup⟩
  simp only [Schedule.run, stopped, slept, Option.bind_some]

/-! ## One failover -/

theorem Failover.wake_total (g : FailoverGsmd) (w : Failover) (seq : UInt32) (now : Int) :
    ∃ w', w.wake g seq now = some w' := by
  obtain ⟨out, encrypted, -⟩ := helixDecrypt_encrypt
    (helixNonce g.key.scontext (gsmdNonce g.streamid 4 71 seq)) g.key.keyed w.cmsg
  exact ⟨_, by rw [wake, encrypted]; rfl⟩

def probedGsmd (key : GsmdKey) : FailoverGsmd := ⟨key, (1, 2), 5, 10⟩

def toBackup : List FailoverEvent := [.signal, .woken 0 0, .timesOut 5 5]

theorem failoverStep_woken {g : FailoverGsmd} {w : Failover} {sem : Nat} {seq : UInt32} {now : Int}
    (waiting : w.place = .waiting) (signalled : w.sem = sem + 1) (ordered : w.clock ≤ now) :
    failoverStep g w (.woken seq now) = Failover.wake g { w with sem } seq now := by
  simp only [failoverStep, waiting, signalled, if_pos ordered]

theorem toBackup_runs (key : GsmdKey) :
    ∃ w, Schedule.run (failoverStep (probedGsmd key)) (failoverInit 0) toBackup = some w ∧
      w.place = .probing ∧ w.active = true ∧ w.sem = 0 ∧ w.clock = 5 ∧ w.timeout = 15 := by
  obtain ⟨woken, step⟩ := (failoverInit 0).wake_total (probedGsmd key) 0 0
  obtain ⟨place, active, sem, clock, timeout, -, -⟩ := Failover.wake_eq step
  have first : failoverStep (probedGsmd key) (failoverInit 0) .signal =
      some { failoverInit 0 with sem := 1 } := rfl
  have wakes : failoverStep (probedGsmd key) { failoverInit 0 with sem := 1 } (.woken 0 0) =
      some woken := by
    rw [failoverStep_woken rfl rfl (Int.le_refl 0)]
    exact step
  have late : woken.clock ≤ 5 ∧ woken.timeout ≤ 5 ∧ (5 : Int) ≤ 5 := by
    simp [clock, timeout, probedGsmd]
  have fails : failoverStep (probedGsmd key) woken (.timesOut 5 5) =
      some { woken with active := true, timeout := 15, clock := 5 } := by
    simp only [failoverStep, place, if_pos late, active]
    rfl
  refine ⟨{ woken with active := true, timeout := 15, clock := 5 }, ?_, place, rfl, sem, rfl, rfl⟩
  simp only [toBackup, Schedule.run, first, wakes, fails, Option.bind_some]

/-- There and back without a failure. -/
theorem failover_sleeps_on_primary_again :
    ∃ (key : GsmdKey) (w : Failover),
      Schedule.Along (failoverStep (probedGsmd key)) PollsOn (failoverInit 0)
        (toBackup ++ [.timesOut 15 15, .trywait false]) ∧
      Schedule.run (failoverStep (probedGsmd key)) (failoverInit 0)
        (toBackup ++ [.timesOut 15 15, .trywait false]) = some w ∧
      w.Blocked ∧ w.active = false := by
  obtain ⟨scontext, -, keyed⟩ := helixSetkey_keyed (u := List.replicate 16 7) (by decide)
  obtain ⟨w, failed, place, active, sem, clock, timeout⟩ := toBackup_runs ⟨scontext, keyed⟩
  have late : w.clock ≤ 15 ∧ w.timeout ≤ 15 ∧ (15 : Int) ≤ 15 := by
    simp [clock, timeout]
  have back : failoverStep (probedGsmd ⟨scontext, keyed⟩) w (.timesOut 15 15) =
      some { w with active := false, place := .reset, clock := 15 } := by
    simp only [failoverStep, place, if_pos late, active, if_true]
  have slept : failoverStep (probedGsmd ⟨scontext, keyed⟩)
      { w with active := false, place := .reset, clock := 15 } (.trywait false) =
      some { w with active := false, place := .waiting, clock := 15 } := by
    simp only [failoverStep, sem]
  have polls : Schedule.Along (failoverStep (probedGsmd ⟨scontext, keyed⟩)) PollsOn (failoverInit 0)
      (toBackup ++ [.timesOut 15 15, .trywait false]) :=
    ⟨trivial, fun _ _ => ⟨trivial, fun _ _ => ⟨trivial, fun _ _ => ⟨trivial, fun _ _ =>
      ⟨trivial, fun _ _ => trivial⟩⟩⟩⟩⟩
  have reached : Schedule.run (failoverStep (probedGsmd ⟨scontext, keyed⟩)) (failoverInit 0)
      (toBackup ++ [.timesOut 15 15, .trywait false]) =
      some { w with active := false, place := .waiting, clock := 15 } := by
    rw [Schedule.run_append, failed, Option.bind_some]
    simp only [Schedule.run, back, slept, Option.bind_some]
  have blocked : Failover.Blocked { w with active := false, place := .waiting, clock := 15 } :=
    ⟨rfl, sem⟩
  exact ⟨⟨scontext, keyed⟩, _, polls, reached, blocked,
    failover_sleeps_on_primary _ 0 _ _ polls reached blocked⟩

/-- The host of the primary is up again and its gsmd is not. -/
theorem failover_sleeps_on_backup :
    ∃ (key : GsmdKey) (w : Failover),
      Schedule.run (failoverStep (probedGsmd key)) (failoverInit 0)
        (toBackup ++ [.attempt 6 6 (.sendFails .econnrefused), .trywait false]) = some w ∧
      w.Blocked ∧ w.active = true := by
  obtain ⟨scontext, -, keyed⟩ := helixSetkey_keyed (u := List.replicate 16 7) (by decide)
  obtain ⟨w, failed, place, active, sem, clock, timeout⟩ := toBackup_runs ⟨scontext, keyed⟩
  have intime : w.clock ≤ 6 ∧ 6 < w.timeout ∧ (6 : Int) ≤ 6 := by
    simp [clock, timeout]
  have hard : (ProbeOutcome.sendFails .econnrefused).Hard := ⟨by decide, by decide⟩
  obtain ⟨w', stopped, blocked, backup⟩ :=
    hard_failure_blocks (g := probedGsmd ⟨scontext, keyed⟩) place active sem hard intime
  refine ⟨⟨scontext, keyed⟩, w', ?_, blocked, backup⟩
  rw [Schedule.run_append, failed, Option.bind_some, stopped]

end Otpd

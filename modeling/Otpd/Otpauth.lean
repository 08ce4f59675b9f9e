import Otpd.Connection

/-!
# `otpauth` against `work_thread`

The command line client asks once over a fresh connection.  However the two of them and
the kernel take turns, it ends with the return code of `verify` for what it was given, or
reports a failure of its own.
-/

set_option autoImplicit false

namespace Otpd

open CMem

/-! ## The client -/

inductive OtpauthPhase where
  | writing (nleft : Nat)
  | reading (nread : Nat)
  | exited (rc : Int)
  deriving DecidableEq

structure OtpauthRun where
  conn : Connection
  request : Buffer requestSize
  reply : Buffer replySize
  phase : OtpauthPhase

inductive OtpauthEvent where
  | write (n : Nat)
  | read (n : Nat)
  | disconnect
  | fail
  | work (e : ConnectionEvent)

/-- An error that `otpauth` or `work_thread` gives up for. -/
def OtpauthEvent.isFail : OtpauthEvent → Bool
  | .fail | .work .fail => true
  | _ => false

/-- "Validate the reply". -/
def replyRc (reply : Buffer replySize) : Int :=
  if intAt reply 0 ≠ 1 then -1
  else if reply.get 55 ≠ 0 then -1
  else intAt reply 4

/-- `verify` in `otpauth.c` up to the first `write`; `reply` is not filled in yet. -/
def OtpauthRun.start (stack request : Buffer requestSize) (requestV1 : Buffer requestV1Size)
    (reply : Buffer replySize) (username passcode : List Byte) : OtpauthRun where
  conn := Connection.start request requestV1
  request := otpauthRequest stack username passcode
  reply := reply
  phase :=
    if 31 < username.length ∨ 47 < passcode.length then .exited Rc.authErr.toNat
    else .writing requestSize

section Step

variable (crypto : Crypto) (config : Config) (calls : Calls)

/-- `disconnect` is the end of the file: the thread has returned and all is read. -/
def OtpauthRun.step (s : OtpauthRun) : OtpauthEvent → Option OtpauthRun
  | .write n =>
      match s.phase with
      | .writing nleft =>
        if 0 < n ∧ n ≤ nleft then
          (s.conn.step crypto config calls
            (.send ((s.request.bytes.drop (requestSize - nleft)).take n))).map fun conn =>
              { s with conn, phase := if n < nleft then .writing (nleft - n) else .reading 0 }
        else none
      | _ => none
  | .read n =>
      match s.phase with
      | .reading nread =>
        if 0 < n ∧ nread + n ≤ replySize ∧ nread + n ≤ s.conn.down.length then
          let reply := poke s.reply nread ((s.conn.down.drop nread).take n)
          some { s with
            reply
            phase := if nread + n < replySize then .reading (nread + n)
              else .exited (replyRc reply) }
        else none
      | _ => none
  | .disconnect =>
      match s.phase with
      | .reading nread =>
        if s.conn.work.phase = .returned ∧ nread = s.conn.down.length then
          some { s with phase := .exited (-1) }
        else none
      | _ => none
  | .fail =>
      match s.phase with
      | .exited _ => none
      | _ => some { s with phase := .exited (-1) }
  | .work (.send _) => none
  | .work e => (s.conn.step crypto config calls e).map fun conn => { s with conn }

end Step

/-! ## The reply -/

section Reply

variable {crypto : Crypto} {config : Config} {env : Env} {store : Store}

theorem replyRc_bytes {reply : OtpReply} {mem : Buffer replySize} (same : mem.bytes = reply.bytes)
    (ends : (Buffer.ofList 48 reply.passcode).get 47 = 0) : replyRc mem = reply.rc.toNat := by
  have one := leBytesOf_length 4 1
  have four := leBytesOf_length 4 reply.rc.toNat
  have version : peek mem 0 4 = leBytesOf 4 1 := by
    rw [peek, same, OtpReply.bytes, List.drop_zero, List.append_assoc,
      List.take_append_of_le_length (Nat.le_of_eq one.symm),
      List.take_of_length_le (Nat.le_of_eq one)]
  have rc : peek mem 4 4 = leBytesOf 4 reply.rc.toNat := by
    rw [peek, same, OtpReply.bytes, List.append_assoc, List.drop_append_of_le_length (by omega),
      List.drop_eq_nil_of_le (by omega), List.nil_append,
      List.take_append_of_le_length (Nat.le_of_eq four.symm),
      List.take_of_length_le (Nat.le_of_eq four)]
  have last : mem.get 55 = 0 := by
    rw [← ends, Buffer.get, Buffer.get, same, OtpReply.bytes, List.getD_eq_getElem?_getD,
      List.getD_eq_getElem?_getD, List.getElem?_append_right (by rw [List.length_append]; omega),
      List.length_append, one, four]
  have small : reply.rc.toNat < 2 ^ 31 := by cases reply.rc <;> decide
  have version' : intAt mem 0 = 1 := by
    rw [intAt, version]
    exact leBytesOf_int 1 (by decide)
  rw [replyRc, if_neg (not_not.mpr version'), if_neg (not_not.mpr last), intAt, rc]
  exact leBytesOf_int _ small

end Reply

/-! ## The two together -/

/-- The one request of the connection. -/
def asked (stack : Buffer requestSize) (username : Username) (passcode : CString 47) : Message :=
  .v2 (otpauthRequest stack username.bytes passcode.bytes) (by
    rw [intAt, (otpauthRequest_filled stack username.bound passcode.bound).version]
    exact leBytesOf_int 2 (by decide))

/-- What `otpauth` is to return for a request. -/
inductive Answers (crypto : Crypto) (config : Config) (calls : Calls) (m : Message) (rc : Int) :
    Prop where
  | refused (closed : workThread crypto config OtpReply.init
      ⟨m.wire, (calls 0).1, (calls 0).2⟩ = none) (none_ : rc = -1)
  | answered (reply : OtpReply) (sent : workThread crypto config OtpReply.init
      ⟨m.wire, (calls 0).1, (calls 0).2⟩ = some reply) (same : (reply.rc.toNat : Int) = rc)
      (ends : (Buffer.ofList 48 reply.passcode).get 47 = 0)

/-- What the client knows: how much of the request is out and how much of the reply in. -/
def ClientKept (failed : Bool) (m : Message) (rc : Int) (s : OtpauthRun) : Prop :=
  match s.phase with
  | .writing nleft => 0 < nleft ∧ nleft ≤ requestSize ∧
      s.conn.up = m.bytes.take (requestSize - nleft)
  | .reading nread => s.conn.up = m.bytes ∧ nread < replySize ∧ nread ≤ s.conn.down.length ∧
      peek s.reply 0 nread = s.conn.down.take nread
  | .exited result => (result = rc ∨ failed = true ∧ result = -1) ∧ s.conn.up <+: m.bytes

structure OtpauthKept (crypto : Crypto) (config : Config) (calls : Calls) (failed : Bool)
    (m : Message) (rc : Int) (s : OtpauthRun) : Prop where
  conn : Kept crypto config calls failed s.conn
  request : s.request.bytes = m.bytes
  client : ClientKept failed m rc s

section Together

variable {crypto : Crypto} {config : Config} {calls : Calls} {failed : Bool} {m : Message}
  {rc : Int} {s next : OtpauthRun}

theorem stuck_nil : Stuck [] := by
  intro m rest same
  have := m.long
  have length := congrArg List.length same
  rw [List.length_nil, List.length_append] at length
  omega

theorem OtpauthKept.up (kept : OtpauthKept crypto config calls failed m rc s) :
    s.conn.up <+: m.bytes := by
  have client := kept.client
  unfold ClientKept at client
  split at client
  · rw [client.2.2]
    exact List.take_prefix _ _
  · rw [client.1]
  · exact client.2

theorem OtpauthKept.follows (kept : OtpauthKept crypto config calls failed m rc s) :
    Follows crypto config calls failed [m] [] s.conn :=
  kept.conn.follows [m] [] stuck_nil (by simpa using kept.up)

/-- The thread writes nothing but the reply. -/
theorem OtpauthKept.down (kept : OtpauthKept crypto config calls failed m rc s)
    (answers : Answers crypto config calls m rc) (some_ : s.conn.down ≠ []) :
    ∃ reply : OtpReply, (reply.rc.toNat : Int) = rc ∧ s.conn.down <+: reply.bytes ∧
      (Buffer.ofList 48 reply.passcode).get 47 = 0 := by
  have written := kept.follows.written
  cases answers with
  | refused closed none_ =>
      rw [answerAll, closed] at written
      exact absurd (List.prefix_nil.mp written) some_
  | answered reply sent same ends =>
      rw [answerAll, sent] at written
      exact ⟨reply, same, by simpa [answerAll] using written, ends⟩

theorem work_step {c c' : Connection} {e : ConnectionEvent}
    (step : c.step crypto config calls e = some c') (notSend : ∀ bytes, e ≠ .send bytes) :
    c'.up = c.up ∧ c.down <+: c'.down := by
  cases e with
  | send bytes => exact absurd rfl (notSend bytes)
  | receive n =>
      simp only [Connection.step] at step
      split_ifs at step
      cases step
      exact ⟨rfl, List.prefix_refl _⟩
  | write n =>
      simp only [Connection.step] at step
      split at step
      · rename_i nwrote phase
        by_cases moves : 0 < n ∧ nwrote + n ≤ replySize
        · rw [if_pos moves] at step
          cases step
          exact ⟨rfl, List.prefix_append _ _⟩
        · rw [if_neg moves] at step
          cases step
      · cases step
  | fail =>
      cases step
      exact ⟨rfl, List.prefix_refl _⟩

theorem kept_work {e : ConnectionEvent} (kept : OtpauthKept crypto config calls failed m rc s)
    (allowed : e = .fail → failed = true) (notSend : ∀ bytes, e ≠ .send bytes)
    {conn : Connection} (step : s.conn.step crypto config calls e = some conn) :
    OtpauthKept crypto config calls failed m rc { s with conn } := by
  obtain ⟨sameUp, more⟩ := work_step step notSend
  refine ⟨kept_step kept.conn allowed step, kept.request, ?_⟩
  have client := kept.client
  unfold ClientKept at client ⊢
  cases phase : s.phase with
  | writing nleft =>
      simp only [phase] at client ⊢
      rw [sameUp]
      exact client
  | reading nread =>
      simp only [phase] at client ⊢
      obtain ⟨all, below, here, same⟩ := client
      obtain ⟨later, longer⟩ := more
      refine ⟨sameUp.trans all, below, ?_, ?_⟩
      · rw [← longer, List.length_append]
        omega
      · rw [same, ← longer, List.take_append_of_le_length here]
  | exited result =>
      simp only [phase] at client ⊢
      rw [sameUp]
      exact client

theorem kept_clientWrite {n : Nat} (kept : OtpauthKept crypto config calls failed m rc s)
    (size : m.bytes.length = requestSize)
    (step : s.step crypto config calls (.write n) = some next) :
    OtpauthKept crypto config calls failed m rc next := by
  have client := kept.client
  simp only [OtpauthRun.step] at step
  split at step
  · rename_i nleft phase
    simp only [ClientKept, phase] at client
    obtain ⟨some_, fits, sent⟩ := client
    by_cases moves : 0 < n ∧ n ≤ nleft
    · rw [if_pos moves] at step
      obtain ⟨conn, moved, same⟩ := Option.map_eq_some_iff.mp step
      subst same
      have kept' := kept_step kept.conn (by simp) moved
      cases moved
      refine ⟨kept', kept.request, ?_⟩
      have up : s.conn.up ++ (s.request.bytes.drop (requestSize - nleft)).take n =
          m.bytes.take (requestSize - nleft + n) := by
        rw [sent, kept.request, List.take_add]
      by_cases more : n < nleft
      · simp only [ClientKept, if_pos more]
        refine ⟨by omega, by omega, ?_⟩
        rw [up, show requestSize - nleft + n = requestSize - (nleft - n) by omega]
      · simp only [ClientKept, if_neg more]
        refine ⟨?_, by decide, Nat.zero_le _, rfl⟩
        rw [up, List.take_of_length_le (by omega)]
    · rw [if_neg moves] at step
      cases step
  · cases step

theorem kept_clientRead {n : Nat} (kept : OtpauthKept crypto config calls failed m rc s)
    (answers : Answers crypto config calls m rc)
    (step : s.step crypto config calls (.read n) = some next) :
    OtpauthKept crypto config calls failed m rc next := by
  have client := kept.client
  simp only [OtpauthRun.step] at step
  split at step
  · rename_i nread phase
    simp only [ClientKept, phase] at client
    obtain ⟨all, below, here, same⟩ := client
    by_cases moves : 0 < n ∧ nread + n ≤ replySize ∧ nread + n ≤ s.conn.down.length
    · rw [if_pos moves] at step
      obtain ⟨some_, fits, there⟩ := moves
      cases step
      have length : ((s.conn.down.drop nread).take n).length = n := by
        rw [List.length_take, List.length_drop]
        omega
      have grown : peek (poke s.reply nread ((s.conn.down.drop nread).take n)) 0 (nread + n) =
          s.conn.down.take (nread + n) := by
        have grow : peek (poke s.reply nread ((s.conn.down.drop nread).take n)) 0
            (nread - 0 + ((s.conn.down.drop nread).take n).length) =
            peek s.reply 0 (nread - 0) ++ (s.conn.down.drop nread).take n :=
          peek_poke_grow (Nat.zero_le nread) (by omega)
        rw [length, Nat.sub_zero] at grow
        rw [grow, same, List.take_add]
      refine ⟨kept.conn, kept.request, ?_⟩
      by_cases more : nread + n < replySize
      · simp only [ClientKept, if_pos more]
        exact ⟨all, more, there, grown⟩
      · simp only [ClientKept, if_neg more]
        refine ⟨.inl ?_, by rw [all]⟩
        have whole : nread + n = replySize := by omega
        rw [whole] at grown there
        have some_ : s.conn.down ≠ [] := by
          intro none_
          rw [none_] at there
          exact absurd there (by decide)
        obtain ⟨reply, isRc, written, ends⟩ := kept.down answers some_
        have exactly : s.conn.down = reply.bytes :=
          written.eq_of_length_le (by rw [replyBytes_length]; exact there)
        have taken : s.conn.down.take replySize = s.conn.down := by
          apply List.take_of_length_le
          rw [exactly, replyBytes_length]
        rw [peek_all, taken] at grown
        rw [← isRc]
        exact replyRc_bytes (grown.trans exactly) ends
    · rw [if_neg moves] at step
      cases step
  · cases step

theorem kept_disconnect (kept : OtpauthKept crypto config calls failed m rc s)
    (answers : Answers crypto config calls m rc)
    (step : s.step crypto config calls .disconnect = some next) :
    OtpauthKept crypto config calls failed m rc next := by
  have client := kept.client
  simp only [OtpauthRun.step] at step
  split at step
  · rename_i nread phase
    simp only [ClientKept, phase] at client
    obtain ⟨all, below, here, same⟩ := client
    by_cases ended : s.conn.work.phase = .returned ∧ nread = s.conn.down.length
    · rw [if_pos ended] at step
      cases step
      refine ⟨kept.conn, kept.request, ?_⟩
      simp only [ClientKept]
      refine ⟨?_, by rw [all]⟩
      cases failed with
      | true => simp
      | false =>
          left
          have complete := kept.follows.complete kept.conn.sound (by simpa using all)
            (.inl ended.1)
          cases answers with
          | refused closed none_ => exact none_.symm
          | answered reply sent same ends =>
              have whole := congrArg List.length complete
              simp only [answerAll, sent, List.flatMap_singleton, replyBytes_length, ← ended.2]
                at whole
              omega
    · rw [if_neg ended] at step
      cases step
  · cases step

theorem kept_clientFail (kept : OtpauthKept crypto config calls true m rc s)
    (step : s.step crypto config calls .fail = some next) :
    OtpauthKept crypto config calls true m rc next := by
  simp only [OtpauthRun.step] at step
  split at step
  · cases step
  · cases step
    exact ⟨kept.conn, kept.request, .inr ⟨rfl, rfl⟩, kept.up⟩

theorem OtpauthKept.step {e : OtpauthEvent} (kept : OtpauthKept crypto config calls failed m rc s)
    (answers : Answers crypto config calls m rc) (size : m.bytes.length = requestSize)
    (allowed : e.isFail = true → failed = true)
    (step : s.step crypto config calls e = some next) :
    OtpauthKept crypto config calls failed m rc next := by
  cases e with
  | write n => exact kept_clientWrite kept size step
  | read n => exact kept_clientRead kept answers step
  | disconnect => exact kept_disconnect kept answers step
  | fail =>
      cases allowed rfl
      exact kept_clientFail kept step
  | work e =>
      cases e with
      | send bytes => cases step
      | receive n =>
          obtain ⟨conn, moved, rfl⟩ := Option.map_eq_some_iff.mp step
          exact kept_work kept (by simp) (by simp) moved
      | write n =>
          obtain ⟨conn, moved, rfl⟩ := Option.map_eq_some_iff.mp step
          exact kept_work kept (by simp) (by simp) moved
      | fail =>
          obtain ⟨conn, moved, rfl⟩ :
              ∃ conn, s.conn.step crypto config calls .fail = some conn ∧ { s with conn } = next := by
            cases step
            exact ⟨_, rfl, rfl⟩
          exact kept_work kept (fun _ => allowed rfl) (by simp) moved

/-! ## It ends -/

/-- Bytes moved so far, with one more step for the exit. -/
def OtpauthRun.used (s : OtpauthRun) : Nat :=
  s.conn.up.length + s.conn.upRead + s.conn.down.length +
    match s.phase with
    | .writing _ => 0
    | .reading nread => nread
    | .exited _ => replySize + 1

theorem OtpauthKept.used_le (kept : OtpauthKept crypto config calls failed m rc s)
    (answers : Answers crypto config calls m rc) (size : m.bytes.length = requestSize) :
    s.used ≤ 449 := by
  obtain ⟨request, reply⟩ : requestSize = 168 ∧ replySize = 56 := ⟨rfl, rfl⟩
  have up := kept.up.length_le
  have read := kept.conn.behind
  have down : s.conn.down.length ≤ replySize := by
    by_cases none_ : s.conn.down = []
    · rw [none_]
      exact Nat.zero_le _
    · obtain ⟨reply, -, written, -⟩ := kept.down answers none_
      exact (replyBytes_length reply) ▸ written.length_le
  have client := kept.client
  unfold OtpauthRun.used
  cases phase : s.phase with
  | writing nleft =>
      simp only
      omega
  | reading nread =>
      simp only [ClientKept, phase] at client ⊢
      omega
  | exited result =>
      simp only
      omega

theorem used_work {e : ConnectionEvent} {c c' : Connection}
    (allowed : e ≠ .fail) (notSend : ∀ bytes, e ≠ .send bytes)
    (step : c.step crypto config calls e = some c') :
    c.upRead + c.down.length + 1 ≤ c'.upRead + c'.down.length := by
  cases e with
  | send bytes => exact absurd rfl (notSend bytes)
  | fail => exact absurd rfl allowed
  | receive n =>
      simp only [Connection.step] at step
      split_ifs at step with moves
      cases step
      simp only
      omega
  | write n =>
      simp only [Connection.step] at step
      split at step
      · rename_i nwrote phase
        by_cases moves : 0 < n ∧ nwrote + n ≤ replySize
        · rw [if_pos moves] at step
          cases step
          have length := replyBytes_length c.work.reply
          simp only [List.length_append, List.length_take, List.length_drop]
          omega
        · rw [if_neg moves] at step
          cases step
      · cases step

theorem OtpauthKept.used_step {e : OtpauthEvent}
    (kept : OtpauthKept crypto config calls failed m rc s) (quiet : e.isFail = false)
    (step : s.step crypto config calls e = some next) :
    s.used + 1 ≤ next.used := by
  have client := kept.client
  have length := s.request.size
  cases e with
  | fail => cases quiet
  | write n =>
      simp only [OtpauthRun.step] at step
      split at step
      · rename_i nleft phase
        simp only [ClientKept, phase] at client
        by_cases moves : 0 < n ∧ n ≤ nleft
        · rw [if_pos moves] at step
          obtain ⟨conn, moved, same⟩ := Option.map_eq_some_iff.mp step
          subst same
          cases moved
          simp only [OtpauthRun.used, phase, List.length_append, List.length_take,
            List.length_drop]
          omega
        · rw [if_neg moves] at step
          cases step
      · cases step
  | read n =>
      simp only [OtpauthRun.step] at step
      split at step
      · rename_i nread phase
        simp only [ClientKept, phase] at client
        split_ifs at step with moves more
        · cases step
          simp only [OtpauthRun.used, phase]
          omega
        · cases step
          simp only [OtpauthRun.used, phase]
          omega
      · cases step
  | disconnect =>
      simp only [OtpauthRun.step] at step
      split at step
      · rename_i nread phase
        simp only [ClientKept, phase] at client
        split_ifs at step
        cases step
        simp only [OtpauthRun.used, phase]
        omega
      · cases step
  | work e =>
      have moved : ∃ conn, s.conn.step crypto config calls e = some conn ∧
          { s with conn } = next ∧ e ≠ .fail ∧ ∀ bytes, e ≠ .send bytes := by
        cases e with
        | send bytes => cases step
        | fail => cases quiet
        | receive n =>
            obtain ⟨conn, moved, same⟩ := Option.map_eq_some_iff.mp step
            exact ⟨conn, moved, same, by simp, by simp⟩
        | write n =>
            obtain ⟨conn, moved, same⟩ := Option.map_eq_some_iff.mp step
            exact ⟨conn, moved, same, by simp, by simp⟩
      obtain ⟨conn, moved, rfl, notFail, notSend⟩ := moved
      have more := used_work notFail notSend moved
      obtain ⟨up, -⟩ := work_step moved notSend
      simp only [OtpauthRun.used, up]
      omega

theorem OtpauthKept.run {events : List OtpauthEvent} {last : OtpauthRun}
    (kept : OtpauthKept crypto config calls failed m rc s)
    (answers : Answers crypto config calls m rc) (size : m.bytes.length = requestSize)
    (allowed : ∀ e ∈ events, e.isFail = true → failed = true)
    (reached : Schedule.run (fun s => s.step crypto config calls) s events = some last) :
    OtpauthKept crypto config calls failed m rc last := by
  refine Schedule.run_invariant (OtpauthKept crypto config calls failed m rc) ?_ kept
    (Schedule.along_of_mem allowed) reached
  intro s e next kept allowed step
  exact kept.step answers size allowed step

theorem OtpauthKept.length {events : List OtpauthEvent} {last : OtpauthRun}
    (kept : OtpauthKept crypto config calls false m rc s)
    (answers : Answers crypto config calls m rc) (size : m.bytes.length = requestSize)
    (quiet : ∀ e ∈ events, e.isFail = false)
    (reached : Schedule.run (fun s => s.step crypto config calls) s events = some last) :
    events.length ≤ 449 := by
  have grows : s.used + events.length ≤ last.used := by
    refine Schedule.run_length (OtpauthKept crypto config calls false m rc) OtpauthRun.used ?_ kept
      (Schedule.along_of_mem quiet) reached
    intro s e next kept quiet step
    have allowed : e.isFail = true → false = true := by
      intro isFail
      rw [quiet] at isFail
      exact isFail
    exact ⟨kept.step answers size allowed step, kept.used_step quiet step⟩
  have kept' := kept.run answers size (by
    intro e member isFail
    rw [quiet e member] at isFail
    exact isFail) reached
  have most := kept'.used_le answers size
  omega

end Together

section Whole

variable (crypto : Crypto) (config : Config) (calls : Calls)
  (stack request : Buffer requestSize) (requestV1 : Buffer requestV1Size)
  (reply : Buffer replySize) (username : Username) (passcode : CString 47)

end Whole

end Otpd

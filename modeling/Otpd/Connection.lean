import Otpd.Wire

/-!
# A connection to `work_thread`

A plugin writes what it likes, whenever it likes; `read` and `write` move as many bytes as
the kernel pleases.  A socket is all that was ever written to it and how much of that has
been read.
-/

set_option autoImplicit false

namespace Otpd

open CMem

/-! ## `work_thread`, one system call at a time -/

/-- The number of bytes that the loop has moved; `returned` is behind `RETURN`. -/
inductive WorkPhase where
  | version (nread : Nat)
  | request (nread : Nat)
  | requestV1 (nread : Nat)
  | reply (nwrote : Nat)
  | returned
  deriving DecidableEq

/-- `handled` counts the requests answered so far. -/
structure WorkState where
  request : Buffer requestSize
  requestV1 : Buffer requestV1Size
  reply : OtpReply
  handled : Nat
  phase : WorkPhase

/-- What `verify` observes when it is called for the nth request. -/
abbrev Calls := Nat → Env × Store

/-- The third argument of `read`. -/
def WorkState.wanted (w : WorkState) : Nat :=
  match w.phase with
  | .version nread => 4 - nread
  | .request nread => requestSize - nread
  | .requestV1 nread => requestV1Size - nread
  | .reply _ => 0
  | .returned => 0

section Work

variable (crypto : Crypto) (config : Config) (calls : Calls)

/-- "Validate the request", `verify` and the start of `send_reply`. -/
def WorkState.answer (w : WorkState) : WorkState :=
  match workThread crypto config w.reply
      ⟨requestAt w.request, (calls w.handled).1, (calls w.handled).2⟩ with
  | none => { w with phase := .returned }
  | some reply => { w with reply, handled := w.handled + 1, phase := .reply 0 }

/-- `read` has returned these bytes. -/
def WorkState.receive (w : WorkState) (chunk : List Byte) : WorkState :=
  match w.phase with
  | .version nread =>
      let request := poke w.request nread chunk
      let nread := nread + chunk.length
      if nread < 4 then { w with request, phase := .version nread }
      else if intAt request 0 = 2 then { w with request, phase := .request nread }
      else if intAt request 0 = 1 then { w with request, phase := .requestV1 nread }
      else { w with request, phase := .returned }
  | .request nread =>
      let request := poke w.request nread chunk
      let nread := nread + chunk.length
      if nread < requestSize then { w with request, phase := .request nread }
      else { w with request }.answer crypto config calls
  | .requestV1 nread =>
      let requestV1 := poke w.requestV1 nread chunk
      let nread := nread + chunk.length
      if nread < requestV1Size then { w with requestV1, phase := .requestV1 nread }
      else
        { w with requestV1, request := convertV1 w.request requestV1 }.answer crypto config calls
  | .reply _ => w
  | .returned => w

/-! ## The sockets -/

structure Connection where
  work : WorkState
  up : List Byte
  upRead : Nat
  down : List Byte

inductive ConnectionEvent where
  | send (bytes : List Byte)
  | receive (n : Nat)
  | write (n : Nat)
  | fail

/-- The start of the thread; the stack holds anything. -/
def Connection.start (request : Buffer requestSize) (requestV1 : Buffer requestV1Size) :
    Connection :=
  ⟨⟨request, requestV1, OtpReply.init, 0, .version 0⟩, [], 0, []⟩

/-- `read` and `write` move at least a byte; `fail` is an error of either, or the end of
the file. -/
def Connection.step (c : Connection) : ConnectionEvent → Option Connection
  | .send bytes => some { c with up := c.up ++ bytes }
  | .receive n =>
      if 0 < n ∧ n ≤ c.work.wanted ∧ c.upRead + n ≤ c.up.length then
        some { c with
          work := c.work.receive crypto config calls ((c.up.drop c.upRead).take n)
          upRead := c.upRead + n }
      else none
  | .write n =>
      match c.work.phase with
      | .reply nwrote =>
        if 0 < n ∧ nwrote + n ≤ replySize then
          some { c with
            work.phase := if nwrote + n < replySize then .reply (nwrote + n) else .version 0
            down := c.down ++ (c.work.reply.bytes.drop nwrote).take n }
        else none
      | _ => none
  | .fail => some { c with work.phase := .returned }

/-! ## The requests and the replies in a stream -/

inductive Message where
  | v2 (mem : Buffer requestSize) (version : intAt mem 0 = 2)
  | v1 (mem : Buffer requestV1Size) (version : intAt mem 0 = 1)

def Message.bytes : Message → List Byte
  | .v2 mem _ => mem.bytes
  | .v1 mem _ => mem.bytes

def Message.wire : Message → WireRequest
  | .v2 mem _ => requestAt mem
  | .v1 mem _ => requestV1At mem

/-- The replies, up to the first request that is not answered. -/
def answerAll : OtpReply → Nat → List Message → List OtpReply
  | _, _, [] => []
  | reply, k, m :: ms =>
    match workThread crypto config reply ⟨m.wire, (calls k).1, (calls k).2⟩ with
    | none => []
    | some next => next :: answerAll next (k + 1) ms

/-- What starts with no whole request: too short, or of a version unknown. -/
def Stuck (tail : List Byte) : Prop := ∀ (m : Message) (rest : List Byte), tail ≠ m.bytes ++ rest

end Work

/-! ## Messages -/

/-- The `int` at the start. -/
def versionOf (bytes : List Byte) : Int := (BitVec.ofNat 32 (leNat (bytes.take 4))).toInt

theorem versionOf_append {front : List Byte} (rest : List Byte) (enough : 4 ≤ front.length) :
    versionOf (front ++ rest) = versionOf front := by
  rw [versionOf, versionOf, List.take_append_of_le_length enough]

theorem Message.sizes (m : Message) :
    versionOf m.bytes = 2 ∧ m.bytes.length = requestSize ∨
      versionOf m.bytes = 1 ∧ m.bytes.length = requestV1Size := by
  cases m with
  | v2 mem version => exact .inl ⟨version, mem.size⟩
  | v1 mem version => exact .inr ⟨version, mem.size⟩

theorem Message.long (m : Message) : 4 ≤ m.bytes.length := by
  have small : requestSize = 168 ∧ requestV1Size = 216 := ⟨rfl, rfl⟩
  rcases m.sizes with ⟨-, length⟩ | ⟨-, length⟩ <;> omega

theorem Message.bytes_inj {m m' : Message} (same : m.bytes = m'.bytes) : m = m' := by
  cases m with
  | v2 mem version =>
      cases m' with
      | v2 mem' version' =>
          cases Buffer.ext same
          rfl
      | v1 mem' version' =>
          have sizes : mem.bytes.length = mem'.bytes.length := congrArg List.length same
          rw [mem.size, mem'.size] at sizes
          cases sizes
  | v1 mem version =>
      cases m' with
      | v2 mem' version' =>
          have sizes : mem.bytes.length = mem'.bytes.length := congrArg List.length same
          rw [mem.size, mem'.size] at sizes
          cases sizes
      | v1 mem' version' =>
          cases Buffer.ext same
          rfl

/-- Where a message ends can be told from its start. -/
theorem Message.prefix_free {m m' : Message} {rest rest' : List Byte}
    (same : m.bytes ++ rest = m'.bytes ++ rest') : m = m' ∧ rest = rest' := by
  have version : versionOf m.bytes = versionOf m'.bytes := by
    rw [← versionOf_append rest m.long, same, versionOf_append rest' m'.long]
  have length : m.bytes.length = m'.bytes.length := by
    rcases m.sizes with ⟨is2, length⟩ | ⟨is1, length⟩
    · rcases m'.sizes with ⟨-, length'⟩ | ⟨is1', -⟩
      · rw [length, length']
      · rw [is2, is1'] at version
        cases version
    · rcases m'.sizes with ⟨is2', -⟩ | ⟨-, length'⟩
      · rw [is1, is2'] at version
        cases version
      · rw [length, length']
  obtain ⟨bytes, rests⟩ := List.append_inj same length
  exact ⟨Message.bytes_inj bytes, rests⟩

/-- Every stream is requests and then what no request starts. -/
theorem messages_split (stream : List Byte) :
    ∃ (ms : List Message) (tail : List Byte), stream = ms.flatMap Message.bytes ++ tail ∧
      Stuck tail := by
  induction size : stream.length using Nat.strong_induction_on generalizing stream with
  | h n ih =>
      by_cases stuck : Stuck stream
      · exact ⟨[], stream, rfl, stuck⟩
      · obtain ⟨m, rest, rfl⟩ : ∃ (m : Message) (rest : List Byte), stream = m.bytes ++ rest := by
          simpa [Stuck] using stuck
        have shorter : rest.length < n := by
          have := m.long
          rw [List.length_append] at size
          omega
        obtain ⟨ms, tail, rfl, ended⟩ := ih _ shorter rest rfl
        exact ⟨m :: ms, tail, by simp, ended⟩

/-! ## One `read` -/

section Receive

variable (crypto : Crypto) (config : Config) (calls : Calls)

/-- What has been read of the request that is being read. -/
def WorkState.partialBytes (w : WorkState) : List Byte :=
  match w.phase with
  | .version nread => peek w.request 0 nread
  | .request nread => peek w.request 0 nread
  | .requestV1 nread => peek w.request 0 4 ++ peek w.requestV1 4 (nread - 4)
  | .reply _ => []
  | .returned => []

/-- The counts stay below the sizes, and the version has been looked at. -/
def WorkState.Sound (w : WorkState) : Prop :=
  match w.phase with
  | .version nread => nread < 4
  | .request nread => 4 ≤ nread ∧ nread < requestSize ∧ intAt w.request 0 = 2
  | .requestV1 nread => 4 ≤ nread ∧ nread < requestV1Size ∧ intAt w.request 0 = 1
  | .reply nwrote => nwrote < replySize
  | .returned => True

/-- What a `read` comes to; `bytes` is the request as far as it is there. -/
inductive Received (w : WorkState) (bytes : List Byte) (next : WorkState) : Prop where
  | more (sound : next.Sound) (waiting : 0 < next.wanted) (same : next.partialBytes = bytes)
      (reply : next.reply = w.reply) (handled : next.handled = w.handled)
  | closed (m : Message) (whole : bytes = m.bytes)
      (refused : workThread crypto config w.reply
        ⟨m.wire, (calls w.handled).1, (calls w.handled).2⟩ = none)
      (phase : next.phase = .returned)
  | answered (m : Message) (whole : bytes = m.bytes)
      (reply : workThread crypto config w.reply
        ⟨m.wire, (calls w.handled).1, (calls w.handled).2⟩ = some next.reply)
      (phase : next.phase = .reply 0) (handled : next.handled = w.handled + 1)
  | unknown (four : 4 ≤ bytes.length) (version : versionOf bytes ≠ 2 ∧ versionOf bytes ≠ 1)
      (phase : next.phase = .returned)

variable {crypto config calls}

theorem received_answer {before w : WorkState} {m : Message} (reply : w.reply = before.reply)
    (handled : w.handled = before.handled)
    (same : validate (requestAt w.request) = validate m.wire) :
    Received crypto config calls before m.bytes (w.answer crypto config calls) := by
  have agree : workThread crypto config w.reply
      ⟨requestAt w.request, (calls w.handled).1, (calls w.handled).2⟩ =
        workThread crypto config before.reply
          ⟨m.wire, (calls before.handled).1, (calls before.handled).2⟩ := by
    rw [workThread_congr same, reply, handled]
  cases answer : workThread crypto config before.reply
      ⟨m.wire, (calls before.handled).1, (calls before.handled).2⟩ with
  | none =>
      refine .closed m rfl answer ?_
      rw [WorkState.answer, agree, answer]
  | some next =>
      rw [WorkState.answer, agree, answer]
      exact .answered m rfl answer rfl (congrArg (· + 1) handled)

theorem receive_version {w : WorkState} {nread : Nat} {chunk : List Byte}
    (phase : w.phase = .version nread) (sound : w.Sound) (fits : chunk.length ≤ w.wanted) :
    Received crypto config calls w (w.partialBytes ++ chunk)
      (w.receive crypto config calls chunk) := by
  simp only [WorkState.Sound, phase] at sound
  simp only [WorkState.wanted, phase] at fits
  have size : requestSize = 168 := rfl
  have grown : peek (poke w.request nread chunk) 0 (nread + chunk.length) =
      w.partialBytes ++ chunk := by
    have grow : peek (poke w.request nread chunk) 0 (nread - 0 + chunk.length) =
        peek w.request 0 (nread - 0) ++ chunk := peek_poke_grow (Nat.zero_le nread) (by omega)
    rw [Nat.sub_zero] at grow
    rw [grow, WorkState.partialBytes, phase]
  rw [WorkState.receive, phase]
  simp only
  by_cases short : nread + chunk.length < 4
  · rw [if_pos short, ← grown]
    exact .more short (Nat.sub_pos_of_lt short) rfl rfl rfl
  · have four : nread + chunk.length = 4 := by omega
    rw [four] at grown
    rw [if_neg short, four, ← grown]
    by_cases is2 : intAt (poke w.request nread chunk) 0 = 2
    · rw [if_pos is2]
      exact .more ⟨Nat.le_refl 4, by decide, is2⟩ (show 0 < requestSize - 4 by decide) rfl rfl rfl
    · rw [if_neg is2]
      by_cases is1 : intAt (poke w.request nread chunk) 0 = 1
      · rw [if_pos is1]
        refine .more ⟨Nat.le_refl 4, by decide, is1⟩ (show 0 < requestV1Size - 4 by decide) ?_
          rfl rfl
        exact List.append_nil _
      · rw [if_neg is1]
        have length : (peek (poke w.request nread chunk) 0 4).length = 4 := peek_length (by decide)
        have version : versionOf (peek (poke w.request nread chunk) 0 4) =
            intAt (poke w.request nread chunk) 0 := by
          rw [versionOf, List.take_of_length_le (Nat.le_of_eq length), intAt]
        exact .unknown (Nat.le_of_eq length.symm) (by rw [version]; exact ⟨is2, is1⟩) rfl

theorem receive_request {w : WorkState} {nread : Nat} {chunk : List Byte}
    (phase : w.phase = .request nread) (sound : w.Sound) (fits : chunk.length ≤ w.wanted) :
    Received crypto config calls w (w.partialBytes ++ chunk)
      (w.receive crypto config calls chunk) := by
  simp only [WorkState.Sound, phase] at sound
  simp only [WorkState.wanted, phase] at fits
  obtain ⟨four, below, version⟩ := sound
  have grown : peek (poke w.request nread chunk) 0 (nread + chunk.length) =
      w.partialBytes ++ chunk := by
    have grow : peek (poke w.request nread chunk) 0 (nread - 0 + chunk.length) =
        peek w.request 0 (nread - 0) ++ chunk := peek_poke_grow (Nat.zero_le nread) (by omega)
    rw [Nat.sub_zero] at grow
    rw [grow, WorkState.partialBytes, phase]
  have version' : intAt (poke w.request nread chunk) 0 = 2 := by
    rw [intAt, peek_poke_other (by omega) (by omega)]
    exact version
  rw [WorkState.receive, phase]
  simp only
  by_cases short : nread + chunk.length < requestSize
  · rw [if_pos short, ← grown]
    exact .more ⟨by omega, short, version'⟩ (Nat.sub_pos_of_lt short) rfl rfl rfl
  · have whole : nread + chunk.length = requestSize := by omega
    rw [if_neg short, ← grown, whole, peek_all]
    exact received_answer (m := .v2 _ version') rfl rfl rfl

/-- The request as the plugin sent it; the thread leaves the version where it first read
it. -/
def wholeV1 (w : WorkState) (requestV1 : Buffer requestV1Size) : Buffer requestV1Size :=
  poke requestV1 0 (peek w.request 0 4)

theorem wholeV1_bytes (w : WorkState) (requestV1 : Buffer requestV1Size) :
    (wholeV1 w requestV1).bytes =
      peek w.request 0 4 ++ peek requestV1 4 (requestV1Size - 4) := by
  have front : (peek w.request 0 4).length = 4 := peek_length (by decide)
  rw [wholeV1, poke_start (by rw [front]; decide), front]

theorem convertV1_whole (w : WorkState) (requestV1 : Buffer requestV1Size) :
    convertV1 w.request (wholeV1 w requestV1) = convertV1 w.request requestV1 := by
  have front : (peek w.request 0 4).length = 4 := peek_length (by decide)
  have size : requestV1Size = 216 := rfl
  simp (disch := omega) only [convertV1, wholeV1, peek_poke_other]

theorem receive_requestV1 {w : WorkState} {nread : Nat} {chunk : List Byte}
    (phase : w.phase = .requestV1 nread) (sound : w.Sound) (fits : chunk.length ≤ w.wanted) :
    Received crypto config calls w (w.partialBytes ++ chunk)
      (w.receive crypto config calls chunk) := by
  simp only [WorkState.Sound, phase] at sound
  simp only [WorkState.wanted, phase] at fits
  obtain ⟨four, below, version⟩ := sound
  have grown : peek w.request 0 4 ++
      peek (poke w.requestV1 nread chunk) 4 (nread + chunk.length - 4) =
      w.partialBytes ++ chunk := by
    have grow : peek (poke w.requestV1 nread chunk) 4 (nread - 4 + chunk.length) =
        peek w.requestV1 4 (nread - 4) ++ chunk := peek_poke_grow four (by omega)
    rw [show nread - 4 + chunk.length = nread + chunk.length - 4 by omega] at grow
    rw [grow, WorkState.partialBytes, phase, List.append_assoc]
  rw [WorkState.receive, phase]
  simp only
  by_cases short : nread + chunk.length < requestV1Size
  · rw [if_pos short, ← grown]
    exact .more ⟨by omega, short, version⟩ (Nat.sub_pos_of_lt short) rfl rfl rfl
  · have whole : nread + chunk.length = requestV1Size := by omega
    have front : (peek w.request 0 4).length = 4 := peek_length (by decide)
    have version' : intAt (wholeV1 w (poke w.requestV1 nread chunk)) 0 = 1 := by
      rw [intAt, wholeV1, peek_poke_self (by rw [front]; decide) front]
      exact version
    rw [if_neg short, ← grown, whole, ← wholeV1_bytes]
    refine received_answer (m := .v1 _ version') rfl rfl ?_
    rw [← convertV1_whole]
    exact (convertV1_fields _ _ version').validate

theorem receive_cases {w : WorkState} {chunk : List Byte} (sound : w.Sound) (some_ : chunk ≠ [])
    (fits : chunk.length ≤ w.wanted) :
    Received crypto config calls w (w.partialBytes ++ chunk)
      (w.receive crypto config calls chunk) := by
  have length : 0 < chunk.length := List.length_pos_iff.mpr some_
  cases phase : w.phase with
  | version nread => exact receive_version phase sound fits
  | request nread => exact receive_request phase sound fits
  | requestV1 nread => exact receive_requestV1 phase sound fits
  | reply nwrote =>
      rw [WorkState.wanted, phase] at fits
      simp only at fits
      omega
  | returned =>
      rw [WorkState.wanted, phase] at fits
      simp only at fits
      omega

end Receive

/-! ## A whole connection -/

section Follow

variable {crypto : Crypto} {config : Config} {calls : Calls} {failed : Bool}

theorem replyBytes_length (reply : OtpReply) : reply.bytes.length = replySize := by
  rw [OtpReply.bytes, List.length_append, List.length_append, leBytesOf_length, leBytesOf_length,
    Buffer.size]

/-- The stream is known to its end: `rest` are the requests that are not answered yet.
Nothing is missing behind `RETURN` either, unless a system call has `failed`. -/
inductive Follows (crypto : Crypto) (config : Config) (calls : Calls) (failed : Bool)
    (ms : List Message) (tail : List Byte) (c : Connection) : Prop where
  | reading (rest : List Message) (replies : List OtpReply) (waiting : 0 < c.work.wanted)
      (total : answerAll crypto config calls OtpReply.init 0 ms =
        replies ++ answerAll crypto config calls c.work.reply c.work.handled rest)
      (count : replies.length + rest.length = ms.length)
      (ahead : rest.flatMap Message.bytes ++ tail =
        c.work.partialBytes ++ (ms.flatMap Message.bytes ++ tail).drop c.upRead)
      (wrote : c.down = replies.flatMap OtpReply.bytes)
  | writing (nwrote : Nat) (rest : List Message) (replies : List OtpReply)
      (phase : c.work.phase = .reply nwrote)
      (total : answerAll crypto config calls OtpReply.init 0 ms =
        replies ++ answerAll crypto config calls c.work.reply c.work.handled rest)
      (count : replies.length + rest.length = ms.length)
      (ahead : rest.flatMap Message.bytes ++ tail =
        (ms.flatMap Message.bytes ++ tail).drop c.upRead)
      (wrote : replies.flatMap OtpReply.bytes = c.down ++ c.work.reply.bytes.drop nwrote)
  | returned (phase : c.work.phase = .returned)
      (wrote : c.down <+:
        (answerAll crypto config calls OtpReply.init 0 ms).flatMap OtpReply.bytes)
      (complete : failed = false →
        c.down = (answerAll crypto config calls OtpReply.init 0 ms).flatMap OtpReply.bytes)

structure Kept (crypto : Crypto) (config : Config) (calls : Calls) (failed : Bool)
    (c : Connection) : Prop where
  sound : c.work.Sound
  behind : c.upRead ≤ c.up.length
  follows : ∀ ms tail, Stuck tail → c.up <+: ms.flatMap Message.bytes ++ tail →
    Follows crypto config calls failed ms tail c

/-- Nothing that was written is ever taken back. -/
theorem Follows.written {ms : List Message} {tail : List Byte} {c : Connection}
    (follows : Follows crypto config calls failed ms tail c) :
    c.down <+: (answerAll crypto config calls OtpReply.init 0 ms).flatMap OtpReply.bytes := by
  cases follows with
  | reading rest replies waiting total count ahead wrote =>
      rw [total, List.flatMap_append, wrote]
      exact List.prefix_append _ _
  | writing nwrote rest replies phase total count ahead wrote =>
      rw [total, List.flatMap_append, wrote, List.append_assoc]
      exact List.prefix_append _ _
  | returned phase wrote complete => exact wrote

theorem drop_within {a b : List Byte} (within : a <+: b) {k n : Nat} (enough : k + n ≤ a.length) :
    b.drop k = (a.drop k).take n ++ b.drop (k + n) := by
  obtain ⟨later, rfl⟩ := within
  have same : ((a ++ later).drop k).take n = (a.drop k).take n := by
    rw [List.drop_append_of_le_length (by omega), List.take_append_of_le_length]
    rw [List.length_drop]
    omega
  rw [← same, ← List.drop_drop, List.take_append_drop]

/-- A whole request at the head of the stream is the next one. -/
theorem next_message {rest : List Message} {tail more : List Byte} {m : Message}
    (stuck : Stuck tail) (ahead : rest.flatMap Message.bytes ++ tail = m.bytes ++ more) :
    ∃ rest', rest = m :: rest' ∧ rest'.flatMap Message.bytes ++ tail = more := by
  cases rest with
  | nil => exact absurd ahead (stuck m more)
  | cons first rest' =>
      rw [List.flatMap_cons, List.append_assoc] at ahead
      obtain ⟨rfl, same⟩ := Message.prefix_free ahead
      exact ⟨rest', rfl, same⟩

theorem unknown_rest {rest : List Message} {tail bytes more : List Byte} (four : 4 ≤ bytes.length)
    (version : versionOf bytes ≠ 2 ∧ versionOf bytes ≠ 1)
    (ahead : rest.flatMap Message.bytes ++ tail = bytes ++ more) : rest = [] := by
  cases rest with
  | nil => rfl
  | cons m rest =>
      rw [List.flatMap_cons, List.append_assoc] at ahead
      have same : versionOf m.bytes = versionOf bytes := by
        rw [← versionOf_append _ m.long, ahead, versionOf_append _ four]
      rcases m.sizes with ⟨is2, -⟩ | ⟨is1, -⟩
      · exact absurd (same ▸ is2) version.1
      · exact absurd (same ▸ is1) version.2

theorem kept_receive {c next : Connection} {n : Nat} (kept : Kept crypto config calls failed c)
    (step : c.step crypto config calls (.receive n) = some next) :
    Kept crypto config calls failed next := by
  obtain ⟨sound, behind, follows⟩ := kept
  simp only [Connection.step] at step
  split_ifs at step with moves
  cases step
  obtain ⟨some_, fits, there⟩ := moves
  have length : ((c.up.drop c.upRead).take n).length = n := by
    rw [List.length_take, List.length_drop]
    omega
  have received : Received crypto config calls c.work
      (c.work.partialBytes ++ (c.up.drop c.upRead).take n)
      (c.work.receive crypto config calls ((c.up.drop c.upRead).take n)) := by
    apply receive_cases sound
    · intro empty
      rw [empty] at length
      exact absurd length.symm (Nat.ne_of_gt some_)
    · rw [length]
      exact fits
  generalize c.work.receive crypto config calls ((c.up.drop c.upRead).take n) = work at received
  refine ⟨?_, there, ?_⟩
  · cases received with
    | more sound' waiting same reply handled => exact sound'
    | closed m whole refused phase =>
        rw [WorkState.Sound]
        simp only [phase]
    | answered m whole reply phase handled =>
        rw [WorkState.Sound]
        simp only [phase]
        decide
    | unknown four version phase =>
        rw [WorkState.Sound]
        simp only [phase]
  · intro ms tail stuck within
    have known := follows ms tail stuck within
    have stream := drop_within within there
    cases known with
    | writing nwrote rest replies phase total count ahead wrote =>
        simp only [WorkState.wanted, phase] at fits
        omega
    | returned phase wrote complete =>
        simp only [WorkState.wanted, phase] at fits
        omega
    | reading rest replies waiting total count ahead wrote =>
        rw [stream, ← List.append_assoc] at ahead
        cases received with
        | more sound' waiting' same reply handled =>
            refine .reading rest replies waiting' ?_ count ?_ wrote
            · rw [reply, handled]
              exact total
            · rw [same]
              exact ahead
        | closed m whole refused phase =>
            rw [whole] at ahead
            obtain ⟨rest', rfl, -⟩ := next_message stuck ahead
            have last : answerAll crypto config calls OtpReply.init 0 ms = replies := by
              rw [total, answerAll, refused, List.append_nil]
            refine .returned phase ?_ fun _ => ?_
            · rw [last, wrote]
            · rw [last, wrote]
        | answered m whole reply phase handled =>
            rw [whole] at ahead
            obtain ⟨rest', rfl, ahead'⟩ := next_message stuck ahead
            refine .writing 0 rest' (replies ++ [work.reply]) phase ?_ ?_ ahead' ?_
            · rw [total, answerAll, reply, handled, List.append_assoc]
              rfl
            · rw [← count, List.length_append, List.length_singleton, List.length_cons]
              omega
            · rw [List.flatMap_append, wrote, List.flatMap_singleton]
              rfl
        | unknown four version phase =>
            have last : answerAll crypto config calls OtpReply.init 0 ms = replies := by
              rw [total, unknown_rest four version ahead, answerAll, List.append_nil]
            refine .returned phase ?_ fun _ => ?_
            · rw [last, wrote]
            · rw [last, wrote]

theorem kept_send {c next : Connection} {bytes : List Byte}
    (kept : Kept crypto config calls failed c)
    (step : c.step crypto config calls (.send bytes) = some next) :
    Kept crypto config calls failed next := by
  obtain ⟨sound, behind, follows⟩ := kept
  cases step
  refine ⟨sound, ?_, ?_⟩
  · show c.upRead ≤ (c.up ++ bytes).length
    rw [List.length_append]
    omega
  · intro ms tail stuck within
    have known := follows ms tail stuck ((List.prefix_append c.up bytes).trans within)
    cases known with
    | reading rest replies waiting total count ahead wrote =>
        exact .reading rest replies waiting total count ahead wrote
    | writing nwrote rest replies phase total count ahead wrote =>
        exact .writing nwrote rest replies phase total count ahead wrote
    | returned phase wrote complete => exact .returned phase wrote complete

theorem kept_fail {c next : Connection} (kept : Kept crypto config calls true c)
    (step : c.step crypto config calls .fail = some next) : Kept crypto config calls true next := by
  obtain ⟨sound, behind, follows⟩ := kept
  cases step
  refine ⟨trivial, behind, ?_⟩
  intro ms tail stuck within
  refine .returned rfl (follows ms tail stuck within).written ?_
  intro never
  cases never

theorem kept_write {c next : Connection} {n : Nat} (kept : Kept crypto config calls failed c)
    (step : c.step crypto config calls (.write n) = some next) :
    Kept crypto config calls failed next := by
  obtain ⟨sound, behind, follows⟩ := kept
  simp only [Connection.step] at step
  split at step
  · rename_i nwrote phase
    by_cases moves : 0 < n ∧ nwrote + n ≤ replySize
    · rw [if_pos moves] at step
      have length := replyBytes_length c.work.reply
      by_cases more : nwrote + n < replySize
      · rw [if_pos more] at step
        cases step
        refine ⟨more, behind, ?_⟩
        intro ms tail stuck within
        have known := follows ms tail stuck within
        cases known with
        | reading rest replies waiting total count ahead wrote =>
            simp [WorkState.wanted, phase] at waiting
        | returned phase' wrote complete =>
            rw [phase] at phase'
            cases phase'
        | writing nwrote' rest replies phase' total count ahead wrote =>
            rw [phase] at phase'
            cases phase'
            refine .writing (nwrote + n) rest replies rfl total count ahead ?_
            rw [wrote, List.append_assoc, ← List.drop_drop, List.take_append_drop]
      · rw [if_neg more] at step
        cases step
        refine ⟨show 0 < 4 by decide, behind, ?_⟩
        intro ms tail stuck within
        have known := follows ms tail stuck within
        cases known with
        | reading rest replies waiting total count ahead wrote =>
            simp [WorkState.wanted, phase] at waiting
        | returned phase' wrote complete =>
            rw [phase] at phase'
            cases phase'
        | writing nwrote' rest replies phase' total count ahead wrote =>
            rw [phase] at phase'
            cases phase'
            refine .reading rest replies (show 0 < 4 by decide) total count ahead ?_
            rw [wrote, List.take_of_length_le]
            rw [List.length_drop, length]
            omega
    · rw [if_neg moves] at step
      cases step
  · cases step

theorem kept_step {c next : Connection} {e : ConnectionEvent}
    (kept : Kept crypto config calls failed c) (allowed : e = .fail → failed = true)
    (step : c.step crypto config calls e = some next) : Kept crypto config calls failed next := by
  cases e with
  | send bytes => exact kept_send kept step
  | receive n => exact kept_receive kept step
  | write n => exact kept_write kept step
  | fail =>
      cases allowed rfl
      exact kept_fail kept step

theorem kept_run {c last : Connection} {events : List ConnectionEvent}
    (kept : Kept crypto config calls failed c) (allowed : .fail ∈ events → failed = true)
    (reached : Schedule.run (fun c => c.step crypto config calls) c events = some last) :
    Kept crypto config calls failed last := by
  have along : Schedule.Along (fun c : Connection => c.step crypto config calls)
      (fun _ e => e = .fail → failed = true) c events := by
    apply Schedule.along_of_mem
    rintro e member rfl
    exact allowed member
  refine Schedule.run_invariant (Kept crypto config calls failed) ?_ kept along reached
  intro s e next kept allowed step
  exact kept_step kept allowed step

/-- A request that is not there to its end is not the next one. -/
theorem waiting_rest {w : WorkState} {rest : List Message} {tail : List Byte} (sound : w.Sound)
    (waiting : 0 < w.wanted) (ahead : rest.flatMap Message.bytes ++ tail = w.partialBytes) :
    rest = [] := by
  cases rest with
  | nil => rfl
  | cons m rest =>
      rw [List.flatMap_cons, List.append_assoc] at ahead
      have version := versionOf_append (rest.flatMap Message.bytes ++ tail) m.long
      have long : m.bytes.length ≤ w.partialBytes.length := by
        rw [← ahead, List.length_append]
        exact Nat.le_add_right _ _
      rw [ahead] at version
      obtain ⟨small, large⟩ : requestSize = 168 ∧ requestV1Size = 216 := ⟨rfl, rfl⟩
      cases phase : w.phase with
      | version nread =>
          simp only [WorkState.Sound, phase] at sound
          simp only [WorkState.partialBytes, phase] at long
          rw [peek_length (by omega)] at long
          have := m.long
          omega
      | request nread =>
          simp only [WorkState.Sound, phase] at sound
          simp only [WorkState.partialBytes, phase] at long version
          have is2 : versionOf (peek w.request 0 nread) = 2 := by
            rw [← sound.2.2, intAt, versionOf, peek, peek, List.take_take, min_eq_left sound.1]
          rw [peek_length (by omega)] at long
          rcases m.sizes with ⟨-, length⟩ | ⟨is1, -⟩
          · omega
          · rw [← version, is2] at is1
            cases is1
      | requestV1 nread =>
          simp only [WorkState.Sound, phase] at sound
          simp only [WorkState.partialBytes, phase] at long version
          have four : (peek w.request 0 4).length = 4 := peek_length (by decide)
          have is1 : versionOf (peek w.request 0 4 ++ peek w.requestV1 4 (nread - 4)) = 1 := by
            rw [versionOf_append _ (Nat.le_of_eq four.symm), ← sound.2.2, intAt, versionOf,
              List.take_of_length_le (Nat.le_of_eq four)]
          rw [List.length_append, four, peek_length (by omega)] at long
          rcases m.sizes with ⟨is2, -⟩ | ⟨-, length⟩
          · rw [← version, is1] at is2
            cases is2
          · omega
      | reply nwrote => simp [WorkState.wanted, phase] at waiting
      | returned => simp [WorkState.wanted, phase] at waiting

/-- Nothing is missing when the thread waits for more, or has closed the connection. -/
theorem Follows.complete {ms : List Message} {tail : List Byte} {c : Connection}
    (follows : Follows crypto config calls false ms tail c) (sound : c.work.Sound)
    (stream : c.up = ms.flatMap Message.bytes ++ tail)
    (done : c.work.phase = .returned ∨ 0 < c.work.wanted ∧ c.upRead = c.up.length) :
    c.down = (answerAll crypto config calls OtpReply.init 0 ms).flatMap OtpReply.bytes := by
  cases follows with
  | returned phase wrote complete => exact complete rfl
  | writing nwrote rest replies phase total count ahead wrote =>
      rcases done with returned | ⟨waiting, -⟩
      · rw [phase] at returned
        cases returned
      · simp [WorkState.wanted, phase] at waiting
  | reading rest replies waiting total count ahead wrote =>
      rcases done with returned | ⟨-, all⟩
      · simp [WorkState.wanted, returned] at waiting
      · rw [← stream, all, List.drop_length, List.append_nil] at ahead
        rw [total, waiting_rest sound waiting ahead, answerAll, List.append_nil]
        exact wrote

end Follow

end Otpd

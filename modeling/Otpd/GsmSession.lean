import Otpd.Framing
import Otpd.Nonce

/-!
# Sessions with gsmd over a datagram network

Work threads run `state_get_global` and `state_put_global`, failover threads probe,
and all of them number their requests by the `nonce32` of `atomic.h`.  The network
keeps every datagram that was ever sent and may hand any of them to any waiting
session, at any time and any number of times.
-/

set_option autoImplicit false

namespace Otpd

open CMem

/-! ## Requests -/

/-- A probe encrypts what its buffer holds: the previous ciphertext from the second on. -/
inductive GsmKind where
  | get
  | put (record : Option StateRecord)
  | probe (cmsg : List Byte)
  deriving DecidableEq

def GsmKind.isProbe : GsmKind → Bool
  | .probe _ => true
  | _ => false

structure GsmReq where
  thread : Nat
  gsmd : Nat
  username : Username
  kind : GsmKind
  seq : UInt32
  deriving DecidableEq

def GsmReq.datagram (keys : Nat → GsmdKey) (streamid : UInt32 × UInt32) (r : GsmReq) :
    Option (List Byte) :=
  match r.kind with
  | .get => gsmdRequest (keys r.gsmd) streamid (71 :: 32 :: r.username.bytes) r.seq
  | .put none => gsmdRequest (keys r.gsmd) streamid (80 :: 32 :: r.username.bytes) r.seq
  | .put (some record) =>
      gsmdRequest (keys r.gsmd) streamid
        (80 :: 32 :: (r.username.bytes ++ 32 :: stateUnparse r.username record)) r.seq
  | .probe cmsg => (keys r.gsmd).enclose (gsmdNonce streamid 4 71 r.seq) cmsg

theorem GsmReq.datagram_seqno {keys : Nat → GsmdKey} {streamid : UInt32 × UInt32} {r : GsmReq}
    {bytes : List Byte} (sent : r.datagram keys streamid = some bytes) : wordAt bytes 3 = r.seq := by
  rw [datagram] at sent
  split at sent
  all_goals exact ((keys r.gsmd).enclose_seqno sent).trans (gsmdNonce_seqno ..)

theorem GsmReq.datagram_total (r : GsmReq) (keys : Nat → GsmdKey) (streamid : UInt32 × UInt32) :
    ∃ bytes, r.datagram keys streamid = some bytes := by
  rw [datagram]
  split
  all_goals exact (keys r.gsmd).enclose_total _ _

/-- A session's own request is not an answer. -/
theorem GsmReq.datagram_refused {keys : Nat → GsmdKey} {streamid : UInt32 × UInt32} {r : GsmReq}
    {bytes : List Byte} (sent : r.datagram keys streamid = some bytes)
    (session : r.kind.isProbe = false) (username : Username) (seq : UInt32) (stale : List Byte)
    (len : Nat) (pmsg : List Byte) :
    gsmdReceive (keys r.gsmd) username seq bytes stale ≠ .accepted len pmsg := by
  cases kind : r.kind with
  | get =>
      rw [datagram, kind] at sent
      exact GsmdKey.enclose_refused sent (c := 71) rfl (by decide) username seq stale len pmsg
  | put record =>
      rw [datagram, kind] at sent
      cases record with
      | none => exact GsmdKey.enclose_refused sent (c := 80) rfl (by decide) username seq stale len pmsg
      | some record =>
          exact GsmdKey.enclose_refused sent (c := 80) rfl (by decide) username seq stale len pmsg
  | probe cmsg =>
      rw [kind] at session
      cases session

/-! ## The process and the network -/

inductive GsmOrigin where
  | request (r : GsmReq)
  | answer (r : GsmReq)
  deriving DecidableEq

structure GsmDatagram where
  origin : GsmOrigin
  bytes : List Byte

/-- `asking`: inside `gsmd`, waiting for the answer to `r`.  `gotten`: between the GET
and the PUT. -/
inductive GsmPhase where
  | idle
  | asking (r : GsmReq)
  | gotten (gsmd : Nat) (username : Username)

structure GsmWorld where
  nonce : NonceWorld
  phase : Nat → GsmPhase
  requests : List GsmReq
  network : List GsmDatagram

def gsmInit : GsmWorld := ⟨nonceInit, fun _ => .idle, [], []⟩

inductive GsmEvent where
  | get (thread gsmd : Nat) (username : Username)
  | put (thread : Nat) (record : Option StateRecord)
  | probe (thread gsmd : Nat) (cmsg : List Byte)
  | resend (thread : Nat)
  | deliver (thread index : Nat) (stale : List Byte)
  | giveUp (thread : Nat)
  | close (thread : Nat)
  | answer (index : Nat) (bytes : List Byte)

def GsmWorld.post (w : GsmWorld) (origin : GsmOrigin) (bytes : List Byte) : GsmWorld :=
  { w with network := w.network ++ [⟨origin, bytes⟩] }

def GsmWorld.enter (w : GsmWorld) (thread : Nat) (phase : GsmPhase) : GsmWorld :=
  { w with phase := Function.update w.phase thread phase }

/-- Number taken and request sent for the first time. -/
def GsmWorld.send (keys : Nat → GsmdKey) (streamid : UInt32 × UInt32) (w : GsmWorld)
    (nonce : NonceWorld) (r : GsmReq) : Option GsmWorld :=
  (r.datagram keys streamid).map fun bytes =>
    { w.post (.request r) bytes with nonce, requests := w.requests ++ [r] }

/-- The socket is closed and the number forgotten. -/
def GsmWorld.leave (w : GsmWorld) (thread : Nat) : GsmWorld :=
  { w.enter thread .idle with nonce := (nonceStep w.nonce (.close thread)).getD w.nonce }

def GsmReq.after (r : GsmReq) : GsmPhase :=
  match r.kind with
  | .get => .gotten r.gsmd r.username
  | _ => .idle

def gsmStep (keys : Nat → GsmdKey) (streamid : UInt32 × UInt32) (w : GsmWorld) :
    GsmEvent → Option GsmWorld
  | .get t gsmd username =>
      match w.phase t with
      | .idle => do
          let nonce ← nonce32 w.nonce t .session
          let r : GsmReq := ⟨t, gsmd, username, .get, nonce.seq⟩
          let sent ← w.send keys streamid nonce r
          some (sent.enter t (.asking r))
      | _ => none
  | .put t record =>
      match w.phase t, w.nonce.phase t with
      | .gotten gsmd username, .gotten seq => do
          let nonce ← nonceStep w.nonce (.put t)
          let r : GsmReq := ⟨t, gsmd, username, .put record, seq + 1⟩
          let sent ← w.send keys streamid nonce r
          some (sent.enter t (.asking r))
      | _, _ => none
  | .probe t gsmd cmsg =>
      match w.phase t with
      | .idle => do
          let nonce ← nonce32 w.nonce t .probe
          w.send keys streamid nonce ⟨t, gsmd, probeUsername, .probe cmsg, nonce.seq⟩
      | _ => none
  | .resend t =>
      match w.phase t with
      | .asking r => (r.datagram keys streamid).map (w.post (.request r))
      | _ => none
  | .deliver t i stale =>
      match w.phase t, w.network[i]? with
      | .asking r, some d =>
          match gsmdReceive (keys r.gsmd) r.username r.seq d.bytes stale with
          | .accepted _ _ => some (w.enter t r.after)
          | .again _ => some w
          | .error _ => some (w.leave t)
      | _, _ => none
  | .giveUp t =>
      match w.phase t with
      | .asking _ => some (w.leave t)
      | _ => none
  | .close t =>
      match w.phase t with
      | .gotten _ _ => some (w.leave t)
      | _ => none
  | .answer i bytes =>
      match w.network[i]? with
      | some ⟨.request r, _⟩ => some (w.post (.answer r) bytes)
      | _ => none

/-- What gsmd puts into its answer to `r`. -/
def AnswerTo (key : GsmdKey) (r : GsmReq) (bytes : List Byte) : Prop :=
  ∃ nonce plain, key.enclose nonce plain = some bytes ∧ wordAt nonce.bytes 3 = r.seq ∧
    (plain.drop 2).take r.username.bytes.length = r.username.bytes

/-- gsmd answers a request with its sequence number and username. -/
def GsmdAnswers (keys : Nat → GsmdKey) (w : GsmWorld) : GsmEvent → Prop
  | .answer i bytes =>
      ∀ r sent, w.network[i]? = some ⟨.request r, sent⟩ → AnswerTo (keys r.gsmd) r bytes
  | _ => True

section Run

variable {keys : Nat → GsmdKey} {streamid : UInt32 × UInt32} {w w' : GsmWorld} {e : GsmEvent}

theorem gsmStep_cases (taken : gsmStep keys streamid w e = some w') :
    (∃ t use nonce r sent, nonce32 w.nonce t use = some nonce ∧ r.seq = nonce.seq ∧
      w.send keys streamid nonce r = some sent ∧
      (w' = sent ∨ (r.kind.isProbe = false ∧ w' = sent.enter t (.asking r)))) ∨
    (∃ t seq nonce r sent, w.nonce.phase t = .gotten seq ∧
      nonceStep w.nonce (.put t) = some nonce ∧ r.seq = seq + 1 ∧
      w.send keys streamid nonce r = some sent ∧ r.kind.isProbe = false ∧
      w' = sent.enter t (.asking r)) ∨
    (∃ t r bytes, w.phase t = .asking r ∧ r.datagram keys streamid = some bytes ∧
      w' = w.post (.request r) bytes) ∨
    (∃ i r sent bytes, e = .answer i bytes ∧ w.network[i]? = some ⟨.request r, sent⟩ ∧
      w' = w.post (.answer r) bytes) ∨
    (∃ t r, w.phase t = .asking r ∧ w' = w.enter t r.after) ∨ w' = w ∨ ∃ t, w' = w.leave t := by
  cases e with
  | get t gsmd username =>
      simp only [gsmStep] at taken
      split at taken
      · obtain ⟨nonce, numbered, taken⟩ := Option.bind_eq_some_iff.mp taken
        obtain ⟨sent, posted, taken⟩ := Option.bind_eq_some_iff.mp taken
        exact .inl ⟨t, _, nonce, _, sent, numbered, rfl, posted,
          .inr ⟨rfl, (Option.some.inj taken).symm⟩⟩
      · cases taken
  | put t record =>
      simp only [gsmStep] at taken
      split at taken
      · obtain ⟨nonce, numbered, taken⟩ := Option.bind_eq_some_iff.mp taken
        obtain ⟨sent, posted, taken⟩ := Option.bind_eq_some_iff.mp taken
        exact .inr (.inl ⟨t, _, nonce, _, sent, ‹_›, numbered, rfl, posted, rfl,
          (Option.some.inj taken).symm⟩)
      · cases taken
  | probe t gsmd cmsg =>
      simp only [gsmStep] at taken
      split at taken
      · obtain ⟨nonce, numbered, posted⟩ := Option.bind_eq_some_iff.mp taken
        exact .inl ⟨t, _, nonce, _, w', numbered, rfl, posted, .inl rfl⟩
      · cases taken
  | resend t =>
      simp only [gsmStep] at taken
      split at taken
      · obtain ⟨bytes, again, posted⟩ := Option.map_eq_some_iff.mp taken
        exact .inr (.inr (.inl ⟨t, _, bytes, ‹_›, again, posted.symm⟩))
      · cases taken
  | deliver t i stale =>
      simp only [gsmStep] at taken
      split at taken
      · split at taken
        · exact .inr (.inr (.inr (.inr (.inl ⟨t, _, ‹_›, (Option.some.inj taken).symm⟩))))
        · exact .inr (.inr (.inr (.inr (.inr (.inl (Option.some.inj taken).symm)))))
        · exact .inr (.inr (.inr (.inr (.inr (.inr ⟨t, (Option.some.inj taken).symm⟩)))))
      · cases taken
  | giveUp t =>
      simp only [gsmStep] at taken
      split at taken
      · exact .inr (.inr (.inr (.inr (.inr (.inr ⟨t, (Option.some.inj taken).symm⟩)))))
      · cases taken
  | close t =>
      simp only [gsmStep] at taken
      split at taken
      · exact .inr (.inr (.inr (.inr (.inr (.inr ⟨t, (Option.some.inj taken).symm⟩)))))
      · cases taken
  | answer i bytes =>
      simp only [gsmStep] at taken
      split at taken
      · exact .inr (.inr (.inr (.inl ⟨i, _, _, bytes, rfl, ‹_›, (Option.some.inj taken).symm⟩)))
      · cases taken

/-! ## Datagrams and their requests -/

/-- A datagram comes from a request that was made, and carries its number. -/
def Genuine (keys : Nat → GsmdKey) (streamid : UInt32 × UInt32) (requests : List GsmReq)
    (d : GsmDatagram) : Prop :=
  match d.origin with
  | .request r => r ∈ requests ∧ r.datagram keys streamid = some d.bytes
  | .answer r => r ∈ requests ∧ wordAt d.bytes 3 = r.seq

structure GsmInv (keys : Nat → GsmdKey) (streamid : UInt32 × UInt32) (w : GsmWorld) : Prop where
  numbered : ∃ reads, Numbered w.nonce reads
  quiet : ∀ t use, w.nonce.phase t ≠ .incremented use
  used : w.requests.map (·.seq) = w.nonce.used
  asking : ∀ t r, w.phase t = .asking r → r ∈ w.requests ∧ r.kind.isProbe = false
  genuine : ∀ d ∈ w.network, Genuine keys streamid w.requests d

theorem gsmInit_inv : GsmInv keys streamid gsmInit where
  numbered := ⟨0, nonceInit_numbered⟩
  quiet := fun _ _ wrong => by cases wrong
  used := rfl
  asking := fun _ _ wrong => by cases wrong
  genuine := by simp [gsmInit]

theorem Genuine.mono {requests : List GsmReq} {d : GsmDatagram} (r : GsmReq)
    (genuine : Genuine keys streamid requests d) : Genuine keys streamid (requests ++ [r]) d := by
  cases origin : d.origin with
  | request r' =>
      simp only [Genuine, origin] at genuine ⊢
      exact ⟨List.mem_append_left _ genuine.1, genuine.2⟩
  | answer r' =>
      simp only [Genuine, origin] at genuine ⊢
      exact ⟨List.mem_append_left _ genuine.1, genuine.2⟩

theorem GsmInv.post {origin : GsmOrigin} {bytes : List Byte} (inv : GsmInv keys streamid w)
    (new : Genuine keys streamid w.requests ⟨origin, bytes⟩) :
    GsmInv keys streamid (w.post origin bytes) where
  numbered := inv.numbered
  quiet := inv.quiet
  used := inv.used
  asking := inv.asking
  genuine := by
    intro d sent
    rcases List.mem_append.mp sent with before | last
    · exact inv.genuine d before
    · rw [List.mem_singleton.mp last]
      exact new

theorem GsmInv.enter {t : Nat} {phase : GsmPhase} (inv : GsmInv keys streamid w)
    (entered : ∀ r, phase = .asking r → r ∈ w.requests ∧ r.kind.isProbe = false) :
    GsmInv keys streamid (w.enter t phase) where
  numbered := inv.numbered
  quiet := inv.quiet
  used := inv.used
  genuine := inv.genuine
  asking := by
    intro t' r inside
    by_cases same : t' = t
    · subst same
      exact entered r ((Function.update_self ..).symm.trans inside)
    · exact inv.asking t' r ((Function.update_of_ne same ..).symm.trans inside)

theorem GsmInv.leave (inv : GsmInv keys streamid w) (t : Nat) :
    GsmInv keys streamid (w.leave t) := by
  have idle : GsmInv keys streamid (w.enter t .idle) := inv.enter fun _ wrong => by cases wrong
  cases closed : nonceStep w.nonce (.close t) with
  | none =>
      rw [GsmWorld.leave, closed]
      exact idle
  | some nonce =>
      obtain ⟨reads, numbered⟩ := inv.numbered
      rcases nonceStep_cases closed with ⟨_, _, event, -, -⟩ | ⟨_, _, event, -, -⟩ |
        ⟨_, _, event, -, -⟩ | ⟨t', seq, event, held, rfl⟩
      · cases event
      · cases event
      · cases event
      · cases event
        rw [GsmWorld.leave, closed]
        refine ⟨⟨reads, numbered.leave held⟩, ?_, inv.used, idle.asking, inv.genuine⟩
        intro t' use inside
        rcases NonceWorld.set_phase inside with ⟨-, wrong⟩ | ⟨-, inside⟩
        · cases wrong
        · exact inv.quiet t' use inside

theorem GsmInv.send {nonce : NonceWorld} {r : GsmReq} {reads : Nat}
    (inv : GsmInv keys streamid w) (numbered : Numbered nonce reads)
    (quiet : ∀ t use, nonce.phase t ≠ .incremented use) (used : nonce.used = w.nonce.used ++ [r.seq])
    (sent : w.send keys streamid nonce r = some w') :
    GsmInv keys streamid w' ∧ r ∈ w'.requests := by
  obtain ⟨bytes, datagram, rfl⟩ := Option.map_eq_some_iff.mp sent
  refine ⟨⟨⟨reads, numbered⟩, quiet, ?_, ?_, ?_⟩, by simp⟩
  · simp only [List.map_append, List.map_cons, List.map_nil, inv.used, used]
  · intro t r' inside
    obtain ⟨made, session⟩ := inv.asking t r' inside
    exact ⟨List.mem_append_left _ made, session⟩
  · intro d posted
    rcases List.mem_append.mp posted with before | last
    · exact (inv.genuine d before).mono r
    · rw [List.mem_singleton.mp last]
      exact ⟨by simp, datagram⟩

theorem GsmWorld.send_nonce {nonce : NonceWorld} {r : GsmReq}
    (sent : w.send keys streamid nonce r = some w') : w'.nonce = nonce := by
  obtain ⟨bytes, -, rfl⟩ := Option.map_eq_some_iff.mp sent
  rfl

theorem gsmStep_calls (taken : gsmStep keys streamid w e = some w') :
    w.nonce.calls ≤ w'.nonce.calls := by
  rcases gsmStep_cases taken with ⟨t, use, nonce, r, sent, numbered, -, posted, after⟩ |
    ⟨t, seq, nonce, r, sent, -, numbered, -, posted, -, rfl⟩ | ⟨t, r, bytes, -, -, rfl⟩ |
    ⟨i, r, sent, bytes, -, -, rfl⟩ | ⟨t, r, -, rfl⟩ | rfl | ⟨t, rfl⟩
  · have same : w'.nonce = nonce := by
      rw [← GsmWorld.send_nonce posted]
      rcases after with rfl | ⟨-, rfl⟩
      · rfl
      · rfl
    rw [same]
    exact nonce32_calls numbered
  · rw [GsmWorld.enter, GsmWorld.send_nonce posted]
    exact nonceStep_calls numbered
  · exact Nat.le_refl _
  · exact Nat.le_refl _
  · exact Nat.le_refl _
  · exact Nat.le_refl _
  · cases closed : nonceStep w.nonce (.close t) with
    | none =>
        rw [GsmWorld.leave, closed]
        exact Nat.le_refl _
    | some nonce =>
        rw [GsmWorld.leave, closed]
        exact nonceStep_calls closed

theorem GsmInv.step (inv : GsmInv keys streamid w) (few : w'.nonce.calls < 2 ^ 31)
    (answers : GsmdAnswers keys w e) (taken : gsmStep keys streamid w e = some w') :
    GsmInv keys streamid w' := by
  obtain ⟨reads, numbered⟩ := inv.numbered
  have earlier := Nat.lt_of_le_of_lt (gsmStep_calls taken) few
  rcases gsmStep_cases taken with ⟨t, use, nonce, r, sent, called, seq, posted, after⟩ |
    ⟨t, n, nonce, r, sent, held, put, seq, posted, session, rfl⟩ | ⟨t, r, bytes, asked, again, rfl⟩ |
    ⟨i, r, sent, bytes, rfl, found, rfl⟩ | ⟨t, r, asked, rfl⟩ | rfl | ⟨t, rfl⟩
  · have same : w'.nonce = nonce := by
      rw [← GsmWorld.send_nonce posted]
      rcases after with rfl | ⟨-, rfl⟩
      · rfl
      · rfl
    obtain ⟨numbered', quiet, used⟩ := numbered.nonce32 inv.quiet (same ▸ few) called
    obtain ⟨inv', made⟩ := inv.send numbered' quiet (by rw [used, seq]) posted
    rcases after with rfl | ⟨session, rfl⟩
    · exact inv'
    · refine inv'.enter ?_
      rintro _ ⟨⟩
      exact ⟨made, session⟩
  · rcases nonceStep_cases put with ⟨_, _, event, -, -⟩ | ⟨_, _, event, -, -⟩ |
      ⟨t', n', event, held', rfl⟩ | ⟨_, _, event, -, -⟩
    · cases event
    · cases event
    · cases event
      cases held.symm.trans held'
      have quiet : ∀ t' use, (w.nonce.set t .idle).phase t' ≠ .incremented use := by
        intro t' use inside
        rcases NonceWorld.set_phase inside with ⟨-, wrong⟩ | ⟨-, inside⟩
        · cases wrong
        · exact inv.quiet t' use inside
      obtain ⟨inv', made⟩ := inv.send (numbered.put earlier held) quiet (by rw [seq]) posted
      refine inv'.enter ?_
      rintro _ ⟨⟩
      exact ⟨made, session⟩
    · cases event
  · exact inv.post ⟨(inv.asking t r asked).1, again⟩
  · obtain ⟨nonce, plain, enclosed, seqno, -⟩ := answers r sent found
    have request : Genuine keys streamid w.requests ⟨.request r, sent⟩ :=
      inv.genuine _ (List.mem_of_getElem? found)
    exact inv.post ⟨request.1, ((keys r.gsmd).enclose_seqno enclosed).trans seqno⟩
  · refine inv.enter ?_
    intro r' after
    rw [GsmReq.after] at after
    split at after
    · cases after
    · cases after
  · exact inv
  · exact inv.leave t

/-- Distinct numbers leave one request that an accepted datagram can belong to. -/
theorem GsmInv.accepted {t len : Nat} {r : GsmReq} {d : GsmDatagram} {stale pmsg : List Byte}
    (inv : GsmInv keys streamid w) (waiting : w.phase t = .asking r) (delivered : d ∈ w.network)
    (accepted : gsmdReceive (keys r.gsmd) r.username r.seq d.bytes stale = .accepted len pmsg) :
    d.origin = .answer r := by
  obtain ⟨reads, numbered⟩ := inv.numbered
  obtain ⟨asked, session⟩ := inv.asking t r waiting
  obtain ⟨out, checked⟩ := gsmdReceive_accepted accepted
  have only : ∀ r' ∈ w.requests, wordAt d.bytes 3 = r'.seq → r' = r := by
    intro r' made seqno
    have distinct : (w.requests.map (·.seq)).Nodup := inv.used ▸ numbered.once
    exact List.inj_on_of_nodup_map distinct made asked (seqno.symm.trans checked.seqno)
  have genuine := inv.genuine d delivered
  cases origin : d.origin with
  | request r' =>
      simp only [Genuine, origin] at genuine
      cases only r' genuine.1 (GsmReq.datagram_seqno genuine.2)
      exact (GsmReq.datagram_refused genuine.2 session _ _ _ _ _ accepted).elim
  | answer r' =>
      simp only [Genuine, origin] at genuine
      rw [only r' genuine.1 genuine.2]

end Run

theorem gsmd_accepts_own_answer (keys : Nat → GsmdKey) (streamid : UInt32 × UInt32)
    (es : List GsmEvent) (w : GsmWorld)
    (answers : Schedule.Along (gsmStep keys streamid) (GsmdAnswers keys) gsmInit es)
    (reached : Schedule.run (gsmStep keys streamid) gsmInit es = some w)
    (few : w.nonce.calls < 2 ^ 31) (t : Nat) (r : GsmReq) (waiting : w.phase t = .asking r)
    (d : GsmDatagram) (delivered : d ∈ w.network) (stale : List Byte) (len : Nat)
    (pmsg : List Byte)
    (accepted : gsmdReceive (keys r.gsmd) r.username r.seq d.bytes stale = .accepted len pmsg) :
    d.origin = .answer r := by
  have inv : w.nonce.calls < 2 ^ 31 → GsmInv keys streamid w := by
    refine Schedule.run_invariant (fun w => w.nonce.calls < 2 ^ 31 → GsmInv keys streamid w) ?_
      (fun _ => gsmInit_inv) answers reached
    intro before e after inv answered taken bound
    exact (inv (Nat.lt_of_le_of_lt (gsmStep_calls taken) bound)).step bound answered taken
  exact (inv few).accepted waiting delivered accepted

/-! ## A GET and its PUT -/

def carol : Username := ⟨ascii "carol", by decide, by decide⟩

def carolGet : GsmReq := ⟨0, 0, carol, .get, 0⟩

def carolPut : GsmReq := ⟨0, 0, carol, .put none, 1⟩

def carolWorld (held : NoncePhase) (used : List UInt32) (phase : GsmPhase)
    (requests : List GsmReq) (network : List GsmDatagram) : GsmWorld :=
  ⟨⟨0, Function.update (fun _ => .idle) 0 held, 1, used⟩, Function.update (fun _ => .idle) 0 phase,
    requests, network⟩

/-- gsmd's answer without a text to the request numbered `seq`. -/
def bareAnswer (key : GsmdKey) (seq : UInt32) : Option (List Byte) :=
  key.enclose (gsmdNonce (3, 5) (gsmdAnswer carol []).length 65 seq)
    (gsmdAnswer carol [] ++ List.replicate
      (paddedLen (gsmdAnswer carol []).length - (gsmdAnswer carol []).length) 0)

def getThenPut (first second : List Byte) : List GsmEvent :=
  [.get 0 0 carol, .answer 0 first, .deliver 0 1 [], .put 0 none, .answer 2 second]

theorem bareAnswer_total (key : GsmdKey) (seq : UInt32) : ∃ bytes, bareAnswer key seq = some bytes :=
  key.enclose_total _ _

theorem bareAnswer_answers {key : GsmdKey} {r : GsmReq} {bytes : List Byte}
    (named : r.username = carol) (answer : bareAnswer key r.seq = some bytes) :
    AnswerTo key r bytes := by
  refine ⟨_, _, answer, gsmdNonce_seqno .., ?_⟩
  rw [named]
  decide

section GetThenPut

variable {key : GsmdKey} {got first put second : List Byte}

theorem carolGet_step {streamid : UInt32 × UInt32}
    (asked : carolGet.datagram (fun _ => key) streamid = some got) :
    gsmStep (fun _ => key) streamid gsmInit (.get 0 0 carol) =
      some (carolWorld (.gotten 0) [0] (.asking carolGet) [carolGet] [⟨.request carolGet, got⟩]) := by
  have wrap : (-2 : UInt32) + 2 = 0 := by decide
  rw [carolGet] at asked
  simp [gsmStep, gsmInit, nonce32, nonceStep, nonceInit, NonceWorld.set, NonceUse.after, wrap,
    GsmWorld.send, asked, GsmWorld.post, GsmWorld.enter, carolWorld, carolGet]

theorem getThenPut_runs (asked : carolGet.datagram (fun _ => key) (1, 2) = some got)
    (answered : bareAnswer key carolGet.seq = some first)
    (stored : carolPut.datagram (fun _ => key) (1, 2) = some put)
    (acked : bareAnswer key carolPut.seq = some second) :
    Schedule.Along (gsmStep (fun _ => key) (1, 2)) (GsmdAnswers fun _ => key) gsmInit
        (getThenPut first second) ∧
      Schedule.run (gsmStep (fun _ => key) (1, 2)) gsmInit (getThenPut first second) =
        some (carolWorld .idle [0, 1] (.asking carolPut) [carolGet, carolPut]
          [⟨.request carolGet, got⟩, ⟨.answer carolGet, first⟩, ⟨.request carolPut, put⟩,
            ⟨.answer carolPut, second⟩]) := by
  have accepted := gsmdReceive_answer (by decide) answered []
  have one := carolGet_step asked
  have two : gsmStep (fun _ => key) (1, 2)
      (carolWorld (.gotten 0) [0] (.asking carolGet) [carolGet] [⟨.request carolGet, got⟩])
      (.answer 0 first) =
      some (carolWorld (.gotten 0) [0] (.asking carolGet) [carolGet]
        [⟨.request carolGet, got⟩, ⟨.answer carolGet, first⟩]) := rfl
  have three : gsmStep (fun _ => key) (1, 2)
      (carolWorld (.gotten 0) [0] (.asking carolGet) [carolGet]
        [⟨.request carolGet, got⟩, ⟨.answer carolGet, first⟩]) (.deliver 0 1 []) =
      some (carolWorld (.gotten 0) [0] (.gotten 0 carol) [carolGet]
        [⟨.request carolGet, got⟩, ⟨.answer carolGet, first⟩]) := by
    rw [carolGet] at accepted
    simp [gsmStep, carolWorld, carolGet, accepted, GsmWorld.enter, GsmReq.after]
  have four : gsmStep (fun _ => key) (1, 2)
      (carolWorld (.gotten 0) [0] (.gotten 0 carol) [carolGet]
        [⟨.request carolGet, got⟩, ⟨.answer carolGet, first⟩]) (.put 0 none) =
      some (carolWorld .idle [0, 1] (.asking carolPut) [carolGet, carolPut]
        [⟨.request carolGet, got⟩, ⟨.answer carolGet, first⟩, ⟨.request carolPut, put⟩]) := by
    rw [carolPut] at stored
    simp [gsmStep, carolWorld, nonceStep, NonceWorld.set, GsmWorld.send, stored, GsmWorld.post,
      GsmWorld.enter, carolPut]
  have five : gsmStep (fun _ => key) (1, 2)
      (carolWorld .idle [0, 1] (.asking carolPut) [carolGet, carolPut]
        [⟨.request carolGet, got⟩, ⟨.answer carolGet, first⟩, ⟨.request carolPut, put⟩])
      (.answer 2 second) =
      some (carolWorld .idle [0, 1] (.asking carolPut) [carolGet, carolPut]
        [⟨.request carolGet, got⟩, ⟨.answer carolGet, first⟩, ⟨.request carolPut, put⟩,
          ⟨.answer carolPut, second⟩]) := rfl
  constructor
  · refine ⟨trivial, fun _ taken => ?_⟩
    cases one.symm.trans taken
    refine ⟨?_, fun _ taken => ?_⟩
    · rintro _ _ ⟨⟩
      exact bareAnswer_answers rfl answered
    cases two.symm.trans taken
    refine ⟨trivial, fun _ taken => ?_⟩
    cases three.symm.trans taken
    refine ⟨trivial, fun _ taken => ?_⟩
    cases four.symm.trans taken
    refine ⟨?_, fun _ _ => trivial⟩
    rintro _ _ ⟨⟩
    exact bareAnswer_answers rfl acked
  · simp only [getThenPut, Schedule.run, one, two, three, four, five, Option.bind_some]

end GetThenPut

theorem gsmd_accepts_own_answer_to_put :
    ∃ (key : GsmdKey) (first second : List Byte) (w : GsmWorld) (d : GsmDatagram),
      Schedule.Along (gsmStep (fun _ => key) (1, 2)) (GsmdAnswers fun _ => key) gsmInit
        (getThenPut first second) ∧
      Schedule.run (gsmStep (fun _ => key) (1, 2)) gsmInit (getThenPut first second) = some w ∧
      w.nonce.calls < 2 ^ 31 ∧ w.phase 0 = .asking carolPut ∧ d ∈ w.network ∧
      (∃ len pmsg, gsmdReceive key carol carolPut.seq d.bytes [] = .accepted len pmsg) ∧
      d.origin = .answer carolPut := by
  obtain ⟨scontext, -, keyed⟩ := helixSetkey_keyed (u := List.replicate 16 7) (by decide)
  let key : GsmdKey := ⟨scontext, keyed⟩
  obtain ⟨got, asked⟩ := carolGet.datagram_total (fun _ => key) (1, 2)
  obtain ⟨first, answered⟩ := bareAnswer_total key carolGet.seq
  obtain ⟨put, stored⟩ := carolPut.datagram_total (fun _ => key) (1, 2)
  obtain ⟨second, acked⟩ := bareAnswer_total key carolPut.seq
  obtain ⟨answers, reached⟩ := getThenPut_runs asked answered stored acked
  have accepted := gsmdReceive_answer (by decide) acked []
  have few : 1 < 2 ^ 31 := by decide
  have delivered : (⟨.answer carolPut, second⟩ : GsmDatagram) ∈
      [⟨.request carolGet, got⟩, ⟨.answer carolGet, first⟩, ⟨.request carolPut, put⟩,
        ⟨.answer carolPut, second⟩] := by simp
  refine ⟨key, first, second, _, _, answers, reached, few, rfl, delivered, ⟨_, _, accepted⟩, ?_⟩
  exact gsmd_accepts_own_answer (fun _ => key) (1, 2) _ _ answers reached few 0 carolPut rfl _
    delivered [] _ _ accepted

end Otpd

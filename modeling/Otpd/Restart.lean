import Otpd.GsmSession

/-!
# Processes one after another

otpd is started again with a new `streamid` and its numbers begin at 0 again, while
the network still holds what was sent to the processes before it.
-/

set_option autoImplicit false

namespace Otpd

open CMem

/-! ## Datagrams a session takes for its answer -/

/-- An authentic `A` for this username and number. -/
def AuthenticAnswer (key : GsmdKey) (username : Username) (seq : UInt32) (pp stale : List Byte) :
    Prop :=
  ∃ nonce plain, key.enclose nonce plain = some pp ∧ wordAt pp 3 = seq ∧
    3 + username.bytes.length ≤ plain.length ∧ 3 + username.bytes.length ≤ lenField pp ∧
    lenField pp ≤ gsmMaxMsgLen ∧ plain.length ≤ lenField pp + 3 ∧
    let message := plain ++ (pp.drop (pp.length - helixMacLen) ++ stale)
    message.getD 0 0 = 65 ∧ message.getD 1 0 = 32 ∧
      (message.drop 2).take username.bytes.length = username.bytes ∧
      (message.getD (username.bytes.length + 2) 0 = 32 ∨
        message.getD (username.bytes.length + 2) 0 = 0) ∧
      message.getD (lenField pp - 1) 0 = 0

theorem gsmdReceive_accepted_iff (key : GsmdKey) (username : Username) (seq : UInt32)
    (pp stale : List Byte) :
    (∃ len pmsg, gsmdReceive key username seq pp stale = .accepted len pmsg) ↔
      AuthenticAnswer key username seq pp stale := by
  by_cases short : pp.length < helixNonceLen + 3 + username.bytes.length + helixMacLen
  · have refused : gsmdReceive key username seq pp stale = .error .ciphertextLength := if_pos short
    refine iff_of_false ?_ ?_
    · rintro ⟨len, pmsg, accepted⟩
      rw [refused] at accepted
      cases accepted
    · rintro ⟨nonce, plain, enclosed, -, long, -⟩
      have size := key.enclose_length enclosed
      omega
  have room : helixNonceLen + helixMacLen ≤ pp.length := by omega
  rw [gsmdReceive_long key seq stale short, GsmdValidation.accepted_iff]
  simp only [frameChecks_valid_iff room, messageChecks_valid_iff]
  constructor
  · rintro ⟨_, _, ⟨nonce, plain, enclosed, seqno, least, most, padding, ⟨rfl, rfl⟩, checked⟩, command⟩
    have size := key.enclose_length enclosed
    exact ⟨nonce, plain, enclosed, seqno, by omega, least, most, padding, command, checked⟩
  · rintro ⟨nonce, plain, enclosed, seqno, -, least, most, padding, command, checked⟩
    exact ⟨_, _, ⟨nonce, plain, enclosed, seqno, least, most, padding, ⟨rfl, rfl⟩, checked⟩, command⟩

/-! ## Lifetimes -/

/-- The stream identifier in a nonce. -/
def streamOf (bytes : List Byte) : UInt32 × UInt32 := (wordAt bytes 0, wordAt bytes 1)

/-- `world` is the running process with its datagrams; `old` has those of the processes
before it and `past` their stream identifiers. -/
structure Lifetimes where
  streamid : UInt32 × UInt32
  world : GsmWorld
  past : List (UInt32 × UInt32)
  old : List GsmDatagram

inductive LifetimeEvent where
  | gsm (e : GsmEvent)
  | replay (thread index : Nat) (stale : List Byte)
  | answerOld (index : Nat) (bytes : List Byte)
  | restart (streamid : UInt32 × UInt32)

def lifetimesInit (streamid : UInt32 × UInt32) : Lifetimes := ⟨streamid, gsmInit, [], []⟩

/-- `gsmd` in a session that waits for the answer to `r`. -/
def GsmWorld.receive (key : GsmdKey) (w : GsmWorld) (thread : Nat) (d : GsmDatagram)
    (stale : List Byte) : Option GsmWorld :=
  match w.phase thread with
  | .asking r =>
      match gsmdReceive key r.username r.seq d.bytes stale with
      | .accepted _ _ => some (w.enter thread r.after)
      | .again _ => some w
      | .error _ => some (w.leave thread)
  | _ => none

def lifetimesStep (key : GsmdKey) (w : Lifetimes) : LifetimeEvent → Option Lifetimes
  | .gsm e => (gsmStep (fun _ => key) w.streamid w.world e).map fun world => { w with world }
  | .replay t i stale => do
      let d ← w.old[i]?
      let world ← w.world.receive key t d stale
      some { w with world }
  | .answerOld i bytes =>
      match w.old[i]? with
      | some ⟨.request r, _⟩ => some { w with old := w.old ++ [⟨.answer r, bytes⟩] }
      | _ => none
  | .restart streamid =>
      some ⟨streamid, gsmInit, w.past ++ [w.streamid], w.old ++ w.world.network⟩

/-- A delivery is the same whichever process the datagram was meant for. -/
theorem gsmStep_deliver (key : GsmdKey) (streamid : UInt32 × UInt32) (w : GsmWorld) (t i : Nat)
    (stale : List Byte) :
    gsmStep (fun _ => key) streamid w (.deliver t i stale) =
      w.network[i]?.bind fun d => w.receive key t d stale := by
  cases found : w.network[i]? with
  | none =>
      simp only [gsmStep, found, Option.bind_none]
      split
      · rename_i wrong
        cases wrong
      · rfl
  | some d =>
      cases phase : w.phase t with
      | idle => simp only [gsmStep, found, phase, Option.bind_some, GsmWorld.receive]
      | asking r =>
          cases received : gsmdReceive key r.username r.seq d.bytes stale with
          | accepted _ _ | again _ | error _ =>
              simp only [gsmStep, found, phase, Option.bind_some, GsmWorld.receive, received]
      | gotten gsmd username =>
          simp only [gsmStep, found, phase, Option.bind_some, GsmWorld.receive]

/-- Stream identifier and number of a request are copied into the answer. -/
def CopiesNonce (sent bytes : List Byte) : Prop :=
  streamOf bytes = streamOf sent ∧ wordAt bytes 3 = wordAt sent 3

/-- gsmd copies nonces, and a new process has an identifier of its own. -/
def LifetimeRules (w : Lifetimes) : LifetimeEvent → Prop
  | .gsm (.answer i bytes) =>
      ∀ r sent, w.world.network[i]? = some ⟨.request r, sent⟩ → CopiesNonce sent bytes
  | .answerOld i bytes => ∀ r sent, w.old[i]? = some ⟨.request r, sent⟩ → CopiesNonce sent bytes
  | .restart streamid => streamid ∉ w.past ++ [w.streamid]
  | _ => True

/-- Thread `t` accepts `d` only with the identifier of the running process. -/
def AcceptsCurrent (key : GsmdKey) (w : Lifetimes) (t : Nat) (d : GsmDatagram)
    (stale : List Byte) : Prop :=
  ∀ r len pmsg, w.world.phase t = .asking r →
    gsmdReceive key r.username r.seq d.bytes stale = .accepted len pmsg →
    streamOf d.bytes = w.streamid

def AcceptedAreCurrent (key : GsmdKey) (w : Lifetimes) : LifetimeEvent → Prop
  | .gsm (.deliver t i stale) => ∀ d, w.world.network[i]? = some d → AcceptsCurrent key w t d stale
  | .replay t i stale => ∀ d, w.old[i]? = some d → AcceptsCurrent key w t d stale
  | _ => True

/-- No session gets a replayed `A` for its user and number. -/
def NoOldAnswer (key : GsmdKey) (w : Lifetimes) : LifetimeEvent → Prop
  | .replay t i stale => ∀ d r, w.old[i]? = some d → w.world.phase t = .asking r →
      ¬ AuthenticAnswer key r.username r.seq d.bytes stale
  | _ => True

structure LifetimesInv (w : Lifetimes) : Prop where
  current : ∀ d ∈ w.world.network, streamOf d.bytes = w.streamid
  old : ∀ d ∈ w.old, streamOf d.bytes ∈ w.past
  fresh : w.streamid ∉ w.past

section Inv

variable {key : GsmdKey} {w w' : Lifetimes} {e : LifetimeEvent}

theorem GsmReq.datagram_stream {keys : Nat → GsmdKey} {streamid : UInt32 × UInt32} {r : GsmReq}
    {bytes : List Byte} (sent : r.datagram keys streamid = some bytes) :
    streamOf bytes = streamid := by
  have word : ∀ len command seq, wordAt (gsmdNonce streamid len command seq).bytes 0 = streamid.1 ∧
      wordAt (gsmdNonce streamid len command seq).bytes 1 = streamid.2 := by
    intro len command seq
    rw [wordAt, wordAt, gsmdNonce_bytes]
    exact ⟨leWord_leBytes streamid.1, leWord_leBytes streamid.2⟩
  rw [datagram] at sent
  split at sent
  all_goals
    rw [streamOf, (keys r.gsmd).enclose_word sent (by decide),
      (keys r.gsmd).enclose_word sent (by decide), (word _ _ _).1, (word _ _ _).2]

theorem gsmStep_network {keys : Nat → GsmdKey} {streamid : UInt32 × UInt32} {v v' : GsmWorld}
    {e : GsmEvent} (taken : gsmStep keys streamid v e = some v') :
    ∀ d ∈ v'.network, d ∈ v.network ∨ (∃ r, GsmReq.datagram keys streamid r = some d.bytes) ∨
      ∃ i r sent, e = .answer i d.bytes ∧ v.network[i]? = some ⟨.request r, sent⟩ := by
  have posted : ∀ {nonce r sent}, v.send keys streamid nonce r = some sent → ∀ d ∈ sent.network,
      d ∈ v.network ∨ (∃ r, GsmReq.datagram keys streamid r = some d.bytes) ∨
      ∃ i r sent, e = .answer i d.bytes ∧ v.network[i]? = some ⟨.request r, sent⟩ := by
    intro nonce r sent send d inside
    obtain ⟨bytes, datagram, rfl⟩ := Option.map_eq_some_iff.mp send
    rcases List.mem_append.mp inside with before | last
    · exact .inl before
    · rw [List.mem_singleton.mp last]
      exact .inr (.inl ⟨r, datagram⟩)
  intro d inside
  rcases gsmStep_cases taken with ⟨t, use, nonce, r, sent, -, -, send, after⟩ |
    ⟨t, seq, nonce, r, sent, -, -, -, send, -, rfl⟩ | ⟨t, r, bytes, -, datagram, rfl⟩ |
    ⟨i, r, sent, bytes, rfl, found, rfl⟩ | ⟨t, r, -, rfl⟩ | rfl | ⟨t, rfl⟩
  · apply posted send
    rcases after with rfl | ⟨-, rfl⟩
    · exact inside
    · exact inside
  · exact posted send d inside
  · rcases List.mem_append.mp inside with before | last
    · exact .inl before
    · rw [List.mem_singleton.mp last]
      exact .inr (.inl ⟨r, datagram⟩)
  · rcases List.mem_append.mp inside with before | last
    · exact .inl before
    · rw [List.mem_singleton.mp last]
      exact .inr (.inr ⟨i, r, sent, rfl, found⟩)
  · exact .inl inside
  · exact .inl inside
  · exact .inl inside

theorem GsmWorld.receive_network {v v' : GsmWorld} {t : Nat} {d : GsmDatagram} {stale : List Byte}
    (taken : v.receive key t d stale = some v') : v'.network = v.network := by
  rw [receive] at taken
  split at taken
  · split at taken
    · cases taken
      rfl
    · cases taken
      rfl
    · cases taken
      rfl
  · cases taken

theorem LifetimesInv.step (inv : LifetimesInv w) (rules : LifetimeRules w e)
    (taken : lifetimesStep key w e = some w') : LifetimesInv w' := by
  cases e with
  | gsm e =>
      obtain ⟨world, step, rfl⟩ := Option.map_eq_some_iff.mp taken
      refine ⟨?_, inv.old, inv.fresh⟩
      intro d inside
      rcases gsmStep_network step d inside with before | ⟨r, datagram⟩ | ⟨i, r, sent, rfl, found⟩
      · exact inv.current d before
      · exact GsmReq.datagram_stream datagram
      · exact (rules r sent found).1.trans
          (inv.current ⟨.request r, sent⟩ (List.mem_of_getElem? found))
  | replay t i stale =>
      obtain ⟨d, -, taken⟩ := Option.bind_eq_some_iff.mp taken
      obtain ⟨world, received, taken⟩ := Option.bind_eq_some_iff.mp taken
      cases taken
      refine ⟨?_, inv.old, inv.fresh⟩
      rw [GsmWorld.receive_network received]
      exact inv.current
  | answerOld i bytes =>
      simp only [lifetimesStep] at taken
      split at taken
      · rename_i r sent found
        cases taken
        refine ⟨inv.current, ?_, inv.fresh⟩
        intro d inside
        rcases List.mem_append.mp inside with before | last
        · exact inv.old d before
        · have copied : streamOf bytes = streamOf sent := (rules r sent found).1
          have known := inv.old ⟨.request r, sent⟩ (List.mem_of_getElem? found)
          rw [List.mem_singleton.mp last]
          show streamOf bytes ∈ w.past
          rw [copied]
          exact known
      · cases taken
  | restart streamid =>
      cases taken
      refine ⟨by simp [gsmInit], ?_, rules⟩
      intro d inside
      rcases List.mem_append.mp inside with before | now
      · exact List.mem_append_left _ (inv.old d before)
      · rw [inv.current d now]
        exact List.mem_append_right _ (List.mem_singleton.mpr rfl)

/-- What was meant for an earlier process never carries the running one's identifier, so
it must not be accepted at all. -/
theorem LifetimesInv.agree (inv : LifetimesInv w) :
    AcceptedAreCurrent key w e ↔ NoOldAnswer key w e := by
  cases e with
  | gsm e =>
      refine iff_of_true ?_ trivial
      cases e with
      | deliver t i stale =>
          intro d found r len pmsg _ _
          exact inv.current d (List.mem_of_getElem? found)
      | get thread gsmd username => trivial
      | put thread record => trivial
      | probe thread gsmd cmsg => trivial
      | resend thread => trivial
      | giveUp thread => trivial
      | close thread => trivial
      | answer index bytes => trivial
  | replay t i stale =>
      constructor
      · intro current d r found waiting authentic
        obtain ⟨len, pmsg, accepted⟩ := (gsmdReceive_accepted_iff _ _ _ _ _).mpr authentic
        have stream := current d found r len pmsg waiting accepted
        exact inv.fresh (stream ▸ inv.old d (List.mem_of_getElem? found))
      · intro none d found r len pmsg waiting accepted
        exact (none d r found waiting
          ((gsmdReceive_accepted_iff _ _ _ _ _).mp ⟨len, pmsg, accepted⟩)).elim
  | answerOld i bytes => exact Iff.rfl
  | restart streamid => exact Iff.rfl

end Inv

theorem accepted_are_current_iff (key : GsmdKey) (streamid : UInt32 × UInt32)
    (es : List LifetimeEvent)
    (rules : Schedule.Along (lifetimesStep key) LifetimeRules (lifetimesInit streamid) es) :
    Schedule.Along (lifetimesStep key) (AcceptedAreCurrent key) (lifetimesInit streamid) es ↔
      Schedule.Along (lifetimesStep key) (NoOldAnswer key) (lifetimesInit streamid) es := by
  have start : LifetimesInv (lifetimesInit streamid) :=
    ⟨by simp [lifetimesInit, gsmInit], by simp [lifetimesInit], by simp [lifetimesInit]⟩
  refine Schedule.along_iff LifetimesInv (AcceptedAreCurrent key) ?_ ?_ start rules
  · intro w e inv _
    exact inv.agree
  · intro w e next inv rule _ taken
    exact inv.step rule taken

/-! ## An answer from before the restart -/

def oldState : List Byte := ascii "5:carol::1::0:0:0:"

/-- gsmd's answer to the GET of the process `(1, 2)`. -/
def oldAnswer (key : GsmdKey) : Option (List Byte) :=
  key.enclose (gsmdNonce (1, 2) (gsmdAnswer carol oldState).length 65 carolGet.seq)
    (gsmdAnswer carol oldState ++ List.replicate
      (paddedLen (gsmdAnswer carol oldState).length - (gsmdAnswer carol oldState).length) 0)

def getAgain (answer : List Byte) : List LifetimeEvent :=
  [.gsm (.get 0 0 carol), .gsm (.answer 0 answer), .restart (3, 4), .gsm (.get 0 0 carol)]

section GetAgain

variable {key : GsmdKey} {got answer again : List Byte}

theorem oldAnswer_copies (asked : carolGet.datagram (fun _ => key) (1, 2) = some got)
    (answered : oldAnswer key = some answer) : CopiesNonce got answer := by
  have first : streamOf answer = (1, 2) := by
    rw [streamOf, key.enclose_word answered (by decide), key.enclose_word answered (by decide),
      wordAt, wordAt, gsmdNonce_bytes]
    exact Prod.ext (leWord_leBytes 1) (leWord_leBytes 2)
  have number : wordAt answer 3 = carolGet.seq :=
    (key.enclose_seqno answered).trans (gsmdNonce_seqno ..)
  exact ⟨first.trans (GsmReq.datagram_stream asked).symm,
    number.trans (GsmReq.datagram_seqno asked).symm⟩

/-- The second process waits for the same number as the first did. -/
def getAgainEnd (got answer again : List Byte) : Lifetimes :=
  ⟨(3, 4), carolWorld (.gotten 0) [0] (.asking carolGet) [carolGet] [⟨.request carolGet, again⟩],
    [(1, 2)], [⟨.request carolGet, got⟩, ⟨.answer carolGet, answer⟩]⟩

theorem getAgain_runs (asked : carolGet.datagram (fun _ => key) (1, 2) = some got)
    (answered : oldAnswer key = some answer)
    (askedAgain : carolGet.datagram (fun _ => key) (3, 4) = some again) :
    Schedule.Along (lifetimesStep key) LifetimeRules (lifetimesInit (1, 2)) (getAgain answer) ∧
      Schedule.run (lifetimesStep key) (lifetimesInit (1, 2)) (getAgain answer) =
        some (getAgainEnd got answer again) := by
  let first : GsmWorld :=
    carolWorld (.gotten 0) [0] (.asking carolGet) [carolGet] [⟨.request carolGet, got⟩]
  have one : lifetimesStep key (lifetimesInit (1, 2)) (.gsm (.get 0 0 carol)) =
      some ⟨(1, 2), first, [], []⟩ := by
    simp only [lifetimesStep, lifetimesInit, carolGet_step asked, Option.map_some, first]
  have two : lifetimesStep key ⟨(1, 2), first, [], []⟩ (.gsm (.answer 0 answer)) =
      some ⟨(1, 2), first.post (.answer carolGet) answer, [], []⟩ := rfl
  have three : lifetimesStep key ⟨(1, 2), first.post (.answer carolGet) answer, [], []⟩
      (.restart (3, 4)) =
      some ⟨(3, 4), gsmInit, [(1, 2)], [⟨.request carolGet, got⟩, ⟨.answer carolGet, answer⟩]⟩ := rfl
  have four : lifetimesStep key
      ⟨(3, 4), gsmInit, [(1, 2)], [⟨.request carolGet, got⟩, ⟨.answer carolGet, answer⟩]⟩
      (.gsm (.get 0 0 carol)) = some (getAgainEnd got answer again) := by
    simp only [lifetimesStep, carolGet_step askedAgain, Option.map_some, getAgainEnd]
  constructor
  · refine ⟨trivial, fun _ taken => ?_⟩
    cases one.symm.trans taken
    refine ⟨?_, fun _ taken => ?_⟩
    · rintro _ _ ⟨⟩
      exact oldAnswer_copies asked answered
    cases two.symm.trans taken
    have other : ((3, 4) : UInt32 × UInt32) ∉ [] ++ [(1, 2)] := by decide
    exact ⟨other, fun _ _ => ⟨trivial, fun _ _ => trivial⟩⟩
  · simp only [getAgain, Schedule.run, one, two, three, four, Option.bind_some]

end GetAgain

theorem accepted_are_current_after_restart :
    ∃ (key : GsmdKey) (answer : List Byte),
      Schedule.Along (lifetimesStep key) LifetimeRules (lifetimesInit (1, 2)) (getAgain answer) ∧
      Schedule.Along (lifetimesStep key) (AcceptedAreCurrent key) (lifetimesInit (1, 2))
        (getAgain answer) := by
  obtain ⟨scontext, -, keyed⟩ := helixSetkey_keyed (u := List.replicate 16 7) (by decide)
  let key : GsmdKey := ⟨scontext, keyed⟩
  obtain ⟨got, asked⟩ := carolGet.datagram_total (fun _ => key) (1, 2)
  obtain ⟨answer, answered⟩ : ∃ answer, oldAnswer key = some answer := key.enclose_total _ _
  obtain ⟨again, askedAgain⟩ := carolGet.datagram_total (fun _ => key) (3, 4)
  obtain ⟨rules, -⟩ := getAgain_runs asked answered askedAgain
  refine ⟨key, answer, rules, (accepted_are_current_iff key (1, 2) _ rules).mpr ?_⟩
  exact ⟨trivial, fun _ _ => ⟨trivial, fun _ _ => ⟨trivial, fun _ _ => ⟨trivial, fun _ _ => trivial⟩⟩⟩⟩

/-- The new process is handed the old state as its own. -/
theorem old_answer_accepted :
    ∃ (key : GsmdKey) (got answer again : List Byte),
      Schedule.Along (lifetimesStep key) LifetimeRules (lifetimesInit (1, 2)) (getAgain answer) ∧
      Schedule.run (lifetimesStep key) (lifetimesInit (1, 2)) (getAgain answer) =
        some (getAgainEnd got answer again) ∧
      gsmdReceive key carol carolGet.seq answer [] =
        .accepted (gsmdAnswer carol oldState).length (gsmdAnswer carol oldState) ∧
      ¬ AcceptedAreCurrent key (getAgainEnd got answer again) (.replay 0 1 []) := by
  obtain ⟨scontext, -, keyed⟩ := helixSetkey_keyed (u := List.replicate 16 7) (by decide)
  let key : GsmdKey := ⟨scontext, keyed⟩
  obtain ⟨got, asked⟩ := carolGet.datagram_total (fun _ => key) (1, 2)
  obtain ⟨answer, answered⟩ : ∃ answer, oldAnswer key = some answer := key.enclose_total _ _
  obtain ⟨again, askedAgain⟩ := carolGet.datagram_total (fun _ => key) (3, 4)
  obtain ⟨rules, reached⟩ := getAgain_runs asked answered askedAgain
  have accepted := gsmdReceive_answer (by decide) answered []
  refine ⟨key, got, answer, again, rules, reached, accepted, ?_⟩
  intro current
  have stream : streamOf answer = (3, 4) :=
    current ⟨.answer carolGet, answer⟩ rfl carolGet _ _ rfl accepted
  have copied := (oldAnswer_copies asked answered).1.trans (GsmReq.datagram_stream asked)
  rw [stream] at copied
  exact absurd copied (by decide)

end Otpd

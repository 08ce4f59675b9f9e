import Mathlib.Data.List.GetD
import Otpd.Failover

/-!
# What a probe says

The request of `failover_thread` is written once and encrypted in place at every
wake-up, so from the second on what goes out is an encryption of the last ciphertext.
Under one word of text that adds one word of keystream a round.
-/

set_option autoImplicit false

namespace Otpd

open CMem

theorem helixEncrypt_word {scontext : HelixScontext} (dcontext : HelixDcontext) (word : UInt32)
    (keyed : scontext.magic = helixMagic) :
    ∃ out, helixEncrypt scontext dcontext (leBytes word) = some out ∧
      out.text = leBytes (word ^^^ dcontext.z.get 0) := by
  have coded : Coded scontext dcontext (leBytes word ++ [])
      (leBytes (word ^^^ dcontext.z.get 0) ++ []) (helixBlock scontext dcontext word).2 :=
    .word word (.done _)
  obtain ⟨mac, after, encrypted, -⟩ := coded.whole keyed (show ([] : List Byte).length < 4 by decide)
  rw [List.append_nil, List.append_nil] at encrypted
  refine ⟨_, encrypted, ?_⟩
  simp [xorBytes]

/-- The keystream word under a probe's nonce. -/
def probeKeystream (g : FailoverGsmd) (seq : UInt32) : UInt32 :=
  (helixNonce g.key.scontext (gsmdNonce g.streamid 4 71 seq)).z.get 0

def keystreamSum (g : FailoverGsmd) (seqs : List UInt32) : UInt32 :=
  seqs.foldl (fun sum seq => sum ^^^ probeKeystream g seq) 0

/-- The datagram decrypts to `G !`, and the MAC is right. -/
def ProbeWellFormed (key : GsmdKey) (d : List Byte) : Prop :=
  ∃ out, helixDecrypt key.scontext
      (helixNonce key.scontext (Buffer.ofList 16 (d.take helixNonceLen)))
      ((d.drop helixNonceLen).take (d.length - helixNonceLen - helixMacLen)) = some out ∧
    out.text = probeText ∧ out.mac.bytes = d.drop (d.length - helixMacLen)

/-- What was sent after the `n`-th wake-up. -/
structure SentProbe (g : FailoverGsmd) (drawn : List UInt32) (n : Nat) (d : List Byte) : Prop where
  woken : 1 ≤ n
  counted : n ≤ drawn.length
  enclosed : g.key.enclose (gsmdNonce g.streamid 4 71 (drawn.getD (n - 1) 0))
    (leBytes (leWord probeText ^^^ keystreamSum g (drawn.take (n - 1)))) = some d

structure ProbeInv (g : FailoverGsmd) (w : Failover) : Prop where
  message : w.cmsg = leBytes (leWord probeText ^^^ keystreamSum g w.drawn)
  current : w.drawn ≠ [] → SentProbe g w.drawn w.drawn.length w.datagram
  probing : w.place = .probing → w.drawn ≠ []
  sent : ∀ n d, (n, d) ∈ w.sent → SentProbe g w.drawn n d

section Probes

variable {g : FailoverGsmd} {w w' : Failover} {drawn : List UInt32} {n : Nat} {d : List Byte}

theorem keystreamSum_append (g : FailoverGsmd) (seqs : List UInt32) (seq : UInt32) :
    keystreamSum g (seqs ++ [seq]) = keystreamSum g seqs ^^^ probeKeystream g seq := by
  rw [keystreamSum, List.foldl_append]
  rfl

theorem SentProbe.append (probe : SentProbe g drawn n d) (seq : UInt32) :
    SentProbe g (drawn ++ [seq]) n d where
  woken := probe.woken
  counted := by
    rw [List.length_append]
    exact Nat.le_trans probe.counted (Nat.le_add_right _ _)
  enclosed := by
    have before : n - 1 < drawn.length := by
      have woken := probe.woken
      have counted := probe.counted
      omega
    rw [List.getD_append _ _ _ _ before, List.take_append_of_le_length (Nat.le_of_lt before)]
    exact probe.enclosed

theorem SentProbe.wellFormed_iff (probe : SentProbe g drawn n d) :
    ProbeWellFormed g.key d ↔ keystreamSum g (drawn.take (n - 1)) = 0 := by
  obtain ⟨-, out, decrypted, text, mac⟩ := g.key.enclose_decrypts probe.enclosed
  have first : leBytes (leWord probeText) = probeText := by decide
  constructor
  · rintro ⟨opened, again, request, -⟩
    rw [decrypted] at again
    cases again
    have same := congrArg leWord (text.symm.trans request)
    rw [leWord_leBytes] at same
    exact (UInt32.xor_right_inj (leWord probeText)).mp (same.trans UInt32.xor_zero.symm)
  · intro zero
    rw [zero, UInt32.xor_zero, first] at text
    exact ⟨out, decrypted, text, mac⟩

theorem failoverInit_probeInv (clock : Int) : ProbeInv g (failoverInit clock) where
  message := by
    have first : leBytes (leWord probeText) = probeText := by decide
    exact first.symm.trans (congrArg leBytes UInt32.xor_zero.symm)
  current := fun some => (some rfl).elim
  probing := fun wrong => by cases wrong
  sent := fun n d wrong => by cases wrong

theorem ProbeInv.wake {sem : Nat} {seq : UInt32} {now : Int} (inv : ProbeInv g w)
    (woken : Failover.wake g { w with sem } seq now = some w') : ProbeInv g w' := by
  obtain ⟨out, encrypted, text⟩ := helixEncrypt_word
    (helixNonce g.key.scontext (gsmdNonce g.streamid 4 71 seq))
    (leWord probeText ^^^ keystreamSum g w.drawn) g.key.keyed
  have last : (w.drawn ++ [seq]).length - 1 = w.drawn.length := by simp
  rw [Failover.wake] at woken
  simp only [inv.message, encrypted, Option.map_some] at woken
  cases woken
  refine ⟨?_, ?_, fun _ => by simp, ?_⟩
  · rw [keystreamSum_append, ← UInt32.xor_assoc]
    exact text
  · intro _
    refine ⟨by simp, Nat.le_refl _, ?_⟩
    rw [last, List.take_left, List.getD_append_right _ _ _ _ (Nat.le_refl _), Nat.sub_self]
    rw [GsmdKey.enclose]
    simp only [List.getD_cons_zero, encrypted, Option.map_some]
    rfl
  · intro n d sent
    exact (inv.sent n d sent).append seq

theorem ProbeInv.step {e : FailoverEvent} (inv : ProbeInv g w)
    (taken : failoverStep g w e = some w') : ProbeInv g w' := by
  have logged : ∀ {sent}, w.place = .probing → (sent = w.sent ∨ sent = w.send.sent) →
      ∀ n d, (n, d) ∈ sent → SentProbe g w.drawn n d := by
    rintro _ probing (rfl | rfl) n d sent
    · exact inv.sent n d sent
    · rcases List.mem_append.mp sent with before | now
      · exact inv.sent n d before
      · cases List.mem_singleton.mp now
        exact inv.current (inv.probing probing)
  rcases failoverStep_cases taken with ⟨sem, rfl⟩ | ⟨-, sem, seq, now, woken⟩ |
    ⟨probing, clock, timeout, sent, log, rfl⟩ | ⟨probing, -, clock, sent, log, rfl⟩ |
    ⟨probing, clock, timeout, rfl⟩ | ⟨probing, clock, rfl⟩ | ⟨-, sem, place, away, rfl⟩
  · exact ⟨inv.message, inv.current, inv.probing, inv.sent⟩
  · exact inv.wake woken
  · exact ⟨inv.message, inv.current, inv.probing, logged probing log⟩
  · exact ⟨inv.message, inv.current, fun _ => inv.probing probing, logged probing log⟩
  · exact ⟨inv.message, inv.current, inv.probing, inv.sent⟩
  · exact ⟨inv.message, inv.current, fun _ => inv.probing probing, inv.sent⟩
  · exact ⟨inv.message, inv.current, fun wrong => (away wrong).elim, inv.sent⟩

theorem failoverRun_probeInv {clock : Int} {es : List FailoverEvent}
    (reached : Schedule.run (failoverStep g) (failoverInit clock) es = some w) : ProbeInv g w := by
  have always : Schedule.Along (failoverStep g) (fun _ _ => True) (failoverInit clock) es :=
    Schedule.along_of_forall fun _ _ => trivial
  refine Schedule.run_invariant (ProbeInv g) ?_ (failoverInit_probeInv clock) always reached
  intro before e after inv _ taken
  exact inv.step taken

end Probes

theorem probe_well_formed_iff (g : FailoverGsmd) (clock : Int) (es : List FailoverEvent)
    (w : Failover) (reached : Schedule.run (failoverStep g) (failoverInit clock) es = some w)
    (n : Nat) (d : List Byte) (sent : (n, d) ∈ w.sent) :
    ProbeWellFormed g.key d ↔ keystreamSum g (w.drawn.take (n - 1)) = 0 := by
  exact ((failoverRun_probeInv reached).sent n d sent).wellFormed_iff

/-! ## Two rounds -/

/-- Two wake-ups, each with one probe that nobody answers. -/
def twoRounds : List FailoverEvent :=
  [.signal, .woken 0 0, .attempt 1 1 .pollTimesOut, .attempt 2 2 (.sendFails .econnrefused),
    .trywait false, .signal, .woken 2 3, .attempt 4 4 .pollTimesOut]

section TwoRounds

variable {g : FailoverGsmd} {w : Failover} {now later : Int}

theorem failoverStep_unanswered (probing : w.place = .probing) (primary : w.active = false)
    (intime : w.clock ≤ now ∧ now < w.timeout ∧ now ≤ later) :
    failoverStep g w (.attempt now later .pollTimesOut) = some { w.send with clock := now } := by
  simp only [failoverStep, probing, if_pos intime, Failover.attempt, Failover.resetFailback,
    Failover.send, Failover.datagram, primary]
  rfl

theorem failoverStep_refused (probing : w.place = .probing)
    (intime : w.clock ≤ now ∧ now < w.timeout ∧ now ≤ later) :
    failoverStep g w (.attempt now later (.sendFails .econnrefused)) =
      some { w with place := .reset, clock := now } := by
  simp only [failoverStep, probing, if_pos intime, Failover.attempt]
  rfl

theorem twoRounds_runs (key : GsmdKey) :
    ∃ w d1 d2,
      Schedule.run (failoverStep (probedGsmd key)) (failoverInit 0) twoRounds = some w ∧
      w.drawn = [0, 2] ∧ w.sent = [(1, d1), (2, d2)] := by
  obtain ⟨w1, step1⟩ := (failoverInit 0).wake_total (probedGsmd key) 0 0
  obtain ⟨place1, active1, sem1, clock1, timeout1, drawn1, sent1⟩ := Failover.wake_eq step1
  obtain ⟨w2, step2⟩ := Failover.wake_total (probedGsmd key)
    { w1.send with place := .waiting, clock := 2, sem := 0 } 2 3
  obtain ⟨place2, active2, sem2, clock2, timeout2, drawn2, sent2⟩ := Failover.wake_eq step2
  have signalled : failoverStep (probedGsmd key) (failoverInit 0) .signal =
      some { failoverInit 0 with sem := 1 } := rfl
  have wakes : failoverStep (probedGsmd key) { failoverInit 0 with sem := 1 } (.woken 0 0) =
      some w1 := by
    rw [failoverStep_woken rfl rfl (Int.le_refl 0)]
    exact step1
  have unanswered : failoverStep (probedGsmd key) w1 (.attempt 1 1 .pollTimesOut) =
      some { w1.send with clock := 1 } :=
    failoverStep_unanswered place1 active1 (by simp [clock1, timeout1, probedGsmd])
  have refused : failoverStep (probedGsmd key) { w1.send with clock := 1 }
      (.attempt 2 2 (.sendFails .econnrefused)) =
      some { w1.send with clock := 2, place := .reset } :=
    failoverStep_refused place1 (by simp [Failover.send, timeout1, probedGsmd])
  have slept : failoverStep (probedGsmd key) { w1.send with clock := 2, place := .reset }
      (.trywait false) = some { w1.send with clock := 2, place := .waiting } := by
    have none : w1.send.sem = 0 := sem1
    simp only [failoverStep, none]
  have again : failoverStep (probedGsmd key) { w1.send with clock := 2, place := .waiting }
      .signal = some { w1.send with clock := 2, place := .waiting, sem := w1.sem + 1 } := rfl
  have wakesAgain : failoverStep (probedGsmd key)
      { w1.send with clock := 2, place := .waiting, sem := w1.sem + 1 } (.woken 2 3) =
      some w2 := by
    rw [failoverStep_woken rfl rfl (show (2 : Int) ≤ 3 by decide), ← step2, sem1]
    rfl
  have unansweredAgain : failoverStep (probedGsmd key) w2 (.attempt 4 4 .pollTimesOut) =
      some { w2.send with clock := 4 } :=
    failoverStep_unanswered place2 (active2.trans active1) (by simp [clock2, timeout2, probedGsmd])
  refine ⟨{ w2.send with clock := 4 }, w1.datagram, w2.datagram, ?_, ?_, ?_⟩
  · simp only [twoRounds, Schedule.run, signalled, wakes, unanswered, refused, slept, again,
      wakesAgain, unansweredAgain, Option.bind_some]
  · show w2.drawn = [0, 2]
    rw [drawn2, Failover.send, drawn1]
    rfl
  · show w2.sent ++ [(w2.drawn.length, w2.datagram)] = _
    rw [sent2, drawn2]
    show w1.sent ++ [(w1.drawn.length, w1.datagram)] ++ [((w1.drawn ++ [2]).length, _)] = _
    rw [sent1, drawn1]
    rfl

end TwoRounds

def sevensKey : GsmdKey :=
  ⟨(helixSetkey (List.replicate 16 7)).getD ⟨0, 0, Words.zero 8, Words.zero 8⟩, rfl⟩

theorem first_probe_well_formed :
    ∃ w d, Schedule.run (failoverStep (probedGsmd sevensKey)) (failoverInit 0) twoRounds = some w ∧
      (1, d) ∈ w.sent ∧ ProbeWellFormed sevensKey d := by
  obtain ⟨w, d1, d2, reached, -, sent⟩ := twoRounds_runs sevensKey
  have logged : (1, d1) ∈ w.sent := by simp [sent]
  exact ⟨w, d1, reached, logged,
    (probe_well_formed_iff (probedGsmd sevensKey) 0 twoRounds w reached 1 d1 logged).mpr rfl⟩

/-- The second probe of the same run encrypts the first one's ciphertext. -/
theorem second_probe_malformed :
    ∃ w d, Schedule.run (failoverStep (probedGsmd sevensKey)) (failoverInit 0) twoRounds = some w ∧
      (2, d) ∈ w.sent ∧ ¬ ProbeWellFormed sevensKey d := by
  obtain ⟨w, d1, d2, reached, drawn, sent⟩ := twoRounds_runs sevensKey
  have logged : (2, d2) ∈ w.sent := by simp [sent]
  have keystream : (keystreamSum (probedGsmd sevensKey) [0] == 0) = false := by decide +kernel
  refine ⟨w, d2, reached, logged, ?_⟩
  intro wellFormed
  have zero := ((failoverRun_probeInv reached).sent 2 d2 logged).wellFormed_iff.mp wellFormed
  rw [drawn] at zero
  exact ne_of_beq_false keystream zero

end Otpd

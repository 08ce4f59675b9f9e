import Mathlib.Data.List.GetD
import Otpd.Framing

/-!
# The length field of a received datagram

`gsmd` bounds the length field of the nonce from below against the username and the
padding, and from above by the size of its buffer only.  Behind the plaintext the
receive buffer holds the MAC and what an earlier datagram left there.
-/

set_option autoImplicit false

namespace Otpd

open CMem

/-- What `helix_decrypt` makes of the datagram between nonce and MAC. -/
def plaintextOf (key : GsmdKey) (pp : List Byte) : List Byte :=
  ((helixDecrypt key.scontext (helixNonce key.scontext (Buffer.ofList 16 (pp.take helixNonceLen)))
    ((pp.drop helixNonceLen).take (pp.length - helixNonceLen - helixMacLen))).map
      HelixOut.text).getD []

/-- All checks before the one of the NUL termination have passed. -/
def GsmdValidation.NulChecked : GsmdValidation → Prop
  | .valid _ _ => True
  | .invalid error => error = .nulTerm
  | .seqno => False

structure LengthsInside (key : GsmdKey) (username : Username) (seq : UInt32)
    (pp stale : List Byte) : Prop where
  bounds : ∀ len pmsg, gsmdReceive key username seq pp stale = .accepted len pmsg →
    3 + username.bytes.length ≤ len ∧ helixNonceLen + len + helixMacLen ≤ pp.length ∧
      pp.length ≤ helixNonceLen + (len + 3) + helixMacLen
  nulTerm : ∀ validation, gsmdValidate key username seq pp stale = some validation →
    validation.NulChecked → lenField pp - 1 < (plaintextOf key pp).length
  stateText : ∀ len pmsg, gsmdReceive key username seq pp stale = .accepted len pmsg →
    pmsg.drop (3 + username.bytes.length) =
      ((plaintextOf key pp).take len).drop (3 + username.bytes.length)

/-- An authentic datagram of the awaited number that begins like a message for the user
and whose length field is larger than its plaintext. -/
def OverlongMessage (key : GsmdKey) (username : Username) (seq : UInt32) (pp : List Byte) : Prop :=
  ∃ nonce plain, key.enclose nonce plain = some pp ∧ wordAt pp 3 = seq ∧
    3 + username.bytes.length ≤ plain.length ∧ plain.length < lenField pp ∧
    lenField pp ≤ gsmMaxMsgLen ∧ plain.getD 1 0 = 32 ∧
    (plain.drop 2).take username.bytes.length = username.bytes ∧
    (plain.getD (username.bytes.length + 2) 0 = 32 ∨ plain.getD (username.bytes.length + 2) 0 = 0)

section Lengths

variable {key : GsmdKey} {username : Username} {seq : UInt32} {pp stale plain : List Byte}
  {nonce : Buffer 16}

theorem GsmdKey.enclose_plaintext (enclosed : key.enclose nonce plain = some pp) :
    plaintextOf key pp = plain ∧ pp.length = helixNonceLen + (plain.length + helixMacLen) := by
  obtain ⟨-, out, decrypted, text, -⟩ := key.enclose_decrypts enclosed
  refine ⟨?_, key.enclose_length enclosed⟩
  rw [plaintextOf, decrypted, Option.map_some, Option.getD_some, text]

theorem messageChecks_nulChecked (username : Username) (len : Nat) (pmsg : List Byte) :
    (messageChecks username len pmsg).NulChecked ↔ pmsg.getD 1 0 = 32 ∧
      (pmsg.drop 2).take username.bytes.length = username.bytes ∧
      (pmsg.getD (username.bytes.length + 2) 0 = 32 ∨ pmsg.getD (username.bytes.length + 2) 0 = 0) := by
  simp only [messageChecks]
  split_ifs with delimiter user nul
  · simp only [GsmdValidation.NulChecked, reduceCtorEq, false_iff]
    rintro ⟨space, -⟩
    exact delimiter space
  · simp only [GsmdValidation.NulChecked, reduceCtorEq, false_iff]
    rintro ⟨-, named, behind⟩
    rcases user with other | ⟨noSpace, noNul⟩
    · exact other named
    · exact behind.elim noSpace noNul
  · rw [not_or, not_and_or, not_not, not_not, not_not] at user
    exact iff_of_true rfl ⟨not_not.mp delimiter, user.1, user.2⟩
  · rw [not_or, not_and_or, not_not, not_not, not_not] at user
    exact iff_of_true trivial ⟨not_not.mp delimiter, user.1, user.2⟩

/-- What the checks before the NUL termination look at lies in the plaintext. -/
theorem messageHead_append (username : Username) {plain : List Byte} (rest : List Byte)
    (room : 3 + username.bytes.length ≤ plain.length) :
    (plain ++ rest).getD 1 0 = plain.getD 1 0 ∧
      ((plain ++ rest).drop 2).take username.bytes.length =
        (plain.drop 2).take username.bytes.length ∧
      (plain ++ rest).getD (username.bytes.length + 2) 0 =
        plain.getD (username.bytes.length + 2) 0 := by
  refine ⟨List.getD_append _ _ _ _ (by omega), ?_, List.getD_append _ _ _ _ (by omega)⟩
  rw [List.drop_append_of_le_length (by omega), List.take_append_of_le_length]
  rw [List.length_drop]
  omega

/-- The datagrams of which the byte at the length field's end is looked at. -/
theorem gsmdValidate_nulChecked_iff (fits : pp.length ≤ gsmUltraMsgLen) :
    (∃ validation, gsmdValidate key username seq pp stale = some validation ∧
        validation.NulChecked) ↔
      ∃ nonce plain, key.enclose nonce plain = some pp ∧ wordAt pp 3 = seq ∧
        3 + username.bytes.length ≤ plain.length ∧ 3 + username.bytes.length ≤ lenField pp ∧
        lenField pp ≤ gsmMaxMsgLen ∧ plain.length ≤ lenField pp + 3 ∧ plain.getD 1 0 = 32 ∧
        (plain.drop 2).take username.bytes.length = username.bytes ∧
        (plain.getD (username.bytes.length + 2) 0 = 32 ∨
          plain.getD (username.bytes.length + 2) 0 = 0) := by
  by_cases short : pp.length < helixNonceLen + 3 + username.bytes.length + helixMacLen
  · have refused : gsmdValidate key username seq pp stale = some (.invalid .ciphertextLength) :=
      if_pos short
    constructor
    · rintro ⟨validation, validated, checked⟩
      rw [refused] at validated
      cases validated
      cases checked
    · rintro ⟨nonce, plain, enclosed, -, room, -⟩
      have size := key.enclose_length enclosed
      omega
  · have checked : gsmdValidate key username seq pp stale =
        some (frameChecks key username seq pp stale (pp.length - helixNonceLen - helixMacLen)) :=
      (if_neg short).trans (unframe_eq (by omega) fits)
    simp only [checked, Option.some.injEq, exists_eq_left']
    rw [frameChecks_iff GsmdValidation.NulChecked (by simp [GsmdValidation.NulChecked])
      (by simp [GsmdValidation.NulChecked]) (by simp [GsmdValidation.NulChecked]) (by omega)]
    constructor
    · rintro ⟨nonce, plain, enclosed, seqno, least, most, padding, message⟩
      have size := key.enclose_length enclosed
      have room : 3 + username.bytes.length ≤ plain.length := by omega
      obtain ⟨first, named, behind⟩ := messageHead_append username
        (pp.drop (pp.length - helixMacLen) ++ stale) room
      rw [messageChecks_nulChecked, first, named, behind] at message
      exact ⟨nonce, plain, enclosed, seqno, room, least, most, padding, message⟩
    · rintro ⟨nonce, plain, enclosed, seqno, room, least, most, padding, message⟩
      obtain ⟨first, named, behind⟩ := messageHead_append username
        (pp.drop (pp.length - helixMacLen) ++ stale) room
      refine ⟨nonce, plain, enclosed, seqno, least, most, padding, ?_⟩
      rw [messageChecks_nulChecked, first, named, behind]
      exact message

/-- An accepted datagram is authentic, its length field is what is returned, and the
message is cut out of plaintext, MAC and the rest of the buffer. -/
theorem gsmdReceive_accepted_lengths {len : Nat} {pmsg : List Byte}
    (accepted : gsmdReceive key username seq pp stale = .accepted len pmsg) :
    len = lenField pp ∧ ∃ nonce plain, key.enclose nonce plain = some pp ∧
      3 + username.bytes.length ≤ len ∧ plain.length ≤ len + 3 ∧
      pmsg = (plain ++ (pp.drop (pp.length - helixMacLen) ++ stale)).take len := by
  by_cases short : pp.length < helixNonceLen + 3 + username.bytes.length + helixMacLen
  · rw [gsmdReceive, if_pos short] at accepted
    cases accepted
  · rw [gsmdReceive_long key seq stale short] at accepted
    obtain ⟨message, valid, -, cut⟩ := GsmdValidation.accepted_eq accepted
    rw [frameChecks_valid_iff (by omega)] at valid
    obtain ⟨nonce, plain, enclosed, -, least, -, padding, checked⟩ := valid
    obtain ⟨⟨rfl, rfl⟩, -⟩ := (messageChecks_valid_iff ..).mp checked
    exact ⟨rfl, nonce, plain, enclosed, least, padding, cut⟩

end Lengths

/-- The length is inside the plaintext unless the datagram is an authentic message to the
user with a larger length field. -/
theorem gsmd_lengths_inside_iff (key : GsmdKey) (username : Username) (seq : UInt32)
    (pp stale : List Byte) (fits : pp.length ≤ gsmUltraMsgLen) :
    LengthsInside key username seq pp stale ↔ ¬ OverlongMessage key username seq pp := by
  constructor
  · rintro inside ⟨nonce, plain, enclosed, seqno, room, longer, most, message⟩
    have checks : (∃ validation, gsmdValidate key username seq pp stale = some validation ∧
        validation.NulChecked) ↔ _ := gsmdValidate_nulChecked_iff fits
    obtain ⟨validation, validated, checked⟩ := checks.mpr
      ⟨nonce, plain, enclosed, seqno, room, by omega, most, by omega, message⟩
    have within := inside.nulTerm validation validated checked
    rw [(key.enclose_plaintext enclosed).1] at within
    omega
  · intro proper
    have reached : ∀ validation, gsmdValidate key username seq pp stale = some validation →
        validation.NulChecked → ∃ nonce plain, key.enclose nonce plain = some pp ∧
          0 < lenField pp ∧ lenField pp ≤ plain.length := by
      intro validation validated checked
      obtain ⟨nonce, plain, enclosed, seqno, room, least, most, -, message⟩ :=
        (gsmdValidate_nulChecked_iff fits).mp ⟨validation, validated, checked⟩
      refine ⟨nonce, plain, enclosed, by omega, Nat.le_of_not_lt ?_⟩
      intro longer
      exact proper ⟨nonce, plain, enclosed, seqno, room, longer, most, message⟩
    have accepts : ∀ len pmsg, gsmdReceive key username seq pp stale = .accepted len pmsg →
        len ≤ (plaintextOf key pp).length := by
      intro len pmsg accepted
      obtain ⟨rfl, -⟩ := gsmdReceive_accepted_lengths accepted
      obtain ⟨validation, validated, received⟩ := gsmdReceive_eq key username seq stale fits
      rw [received] at accepted
      obtain ⟨message, rfl, -⟩ := GsmdValidation.accepted_eq accepted
      obtain ⟨nonce, plain, enclosed, -, within⟩ := reached _ validated trivial
      rw [(key.enclose_plaintext enclosed).1]
      exact within
    refine ⟨?_, ?_, ?_⟩
    · intro len pmsg accepted
      have within := accepts len pmsg accepted
      obtain ⟨-, nonce, plain, enclosed, least, padding, -⟩ := gsmdReceive_accepted_lengths accepted
      obtain ⟨text, size⟩ := key.enclose_plaintext enclosed
      rw [text] at within
      exact ⟨least, by omega, by omega⟩
    · intro validation validated checked
      obtain ⟨nonce, plain, enclosed, positive, within⟩ := reached validation validated checked
      rw [(key.enclose_plaintext enclosed).1]
      omega
    · intro len pmsg accepted
      have within := accepts len pmsg accepted
      obtain ⟨-, nonce, plain, enclosed, -, -, cut⟩ := gsmdReceive_accepted_lengths accepted
      rw [(key.enclose_plaintext enclosed).1] at within ⊢
      rw [cut, List.take_append_of_le_length within]

def daveState : List Byte := ascii "5:dave:::1f:0:0:0"

/-- A state of dave's, 25 bytes with command, username and NUL, padded to 28. -/
theorem gsmd_lengths_inside_answer :
    ∃ (key : GsmdKey) (pp : List Byte), pp.length ≤ gsmUltraMsgLen ∧
      gsmdReceive key dave 7 pp [1] = .accepted 25 (gsmdAnswer dave daveState) ∧
      LengthsInside key dave 7 pp [1] := by
  obtain ⟨scontext, -, keyed⟩ := helixSetkey_keyed (u := List.replicate 16 7) (by decide)
  have length : (gsmdAnswer dave daveState).length = 25 := by decide
  have padded : paddedLen 25 - 25 = 3 := by decide
  obtain ⟨pp, enclosed⟩ := GsmdKey.enclose_total ⟨scontext, keyed⟩
    (gsmdNonce (1, 2) (gsmdAnswer dave daveState).length 65 7)
    (gsmdAnswer dave daveState ++ List.replicate (paddedLen (gsmdAnswer dave daveState).length -
      (gsmdAnswer dave daveState).length) 0)
  have accepted := gsmdReceive_answer (by rw [length]; decide) enclosed [1]
  have size := (GsmdKey.enclose_plaintext enclosed).2
  rw [List.length_append, List.length_replicate, length, padded] at size
  have field : lenField pp = 25 := (GsmdKey.enclose_lenField (by rw [length]; decide) enclosed).trans
    length
  rw [length] at accepted
  have fits : pp.length ≤ gsmUltraMsgLen := by
    rw [size]
    decide
  refine ⟨⟨scontext, keyed⟩, pp, fits, accepted,
    (gsmd_lengths_inside_iff ⟨scontext, keyed⟩ dave 7 pp [1] fits).mpr ?_⟩
  rintro ⟨nonce, plain, framed, -, -, longer, -⟩
  have whole := (GsmdKey.enclose_plaintext framed).2
  omega

/-- Eight bytes of text for dave, with a length field of 25: text, MAC and one byte more. -/
theorem gsmd_accepts_overlong :
    ∃ (key : GsmdKey) (pp pmsg : List Byte),
      key.enclose (gsmdNonce (1, 2) 25 65 7) (ascii "A dave" ++ [0, 0]) = some pp ∧
      pp.length = 40 ∧ gsmdReceive key dave 7 pp [0] = .accepted 25 pmsg ∧
      ¬ LengthsInside key dave 7 pp [0] := by
  obtain ⟨scontext, -, keyed⟩ := helixSetkey_keyed (u := List.replicate 16 7) (by decide)
  obtain ⟨pp, enclosed⟩ := GsmdKey.enclose_total ⟨scontext, keyed⟩ (gsmdNonce (1, 2) 25 65 7)
    (ascii "A dave" ++ [0, 0])
  have size : pp.length = 40 := GsmdKey.enclose_length enclosed
  have field : lenField pp = 25 := GsmdKey.enclose_lenField (by decide) enclosed
  have seqno : wordAt pp 3 = 7 := (GsmdKey.enclose_seqno enclosed).trans (gsmdNonce_seqno ..)
  have behind : (pp.drop (pp.length - helixMacLen)).length = 16 := by
    rw [List.length_drop, size]
    rfl
  obtain ⟨first, named, user⟩ := messageHead_append dave
    (pp.drop (pp.length - helixMacLen) ++ [0])
    (show 3 + dave.bytes.length ≤ (ascii "A dave" ++ [0, 0]).length by decide)
  have nul : ((ascii "A dave" ++ [0, 0]) ++
      (pp.drop (pp.length - helixMacLen) ++ [0])).getD (lenField pp - 1) 0 = 0 := by
    have text : (ascii "A dave" ++ [0, 0]).length = 8 := by decide
    rw [field, List.getD_append_right _ _ _ _ (by rw [text]; decide), text,
      List.getD_append_right _ _ _ _ (by rw [behind]), behind]
    rfl
  have valid : frameChecks ⟨scontext, keyed⟩ dave 7 pp [0]
      (pp.length - helixNonceLen - helixMacLen) = .valid (lenField pp)
        ((ascii "A dave" ++ [0, 0]) ++ (pp.drop (pp.length - helixMacLen) ++ [0])) := by
    rw [frameChecks_valid_iff (by rw [size]; decide), field]
    rw [field] at nul
    refine ⟨_, _, enclosed, seqno, by decide, by decide, by decide, ?_⟩
    exact (messageChecks_valid_iff ..).mpr ⟨⟨rfl, rfl⟩, first, named, .inr user, nul⟩
  have long : ¬ pp.length < helixNonceLen + 3 + dave.bytes.length + helixMacLen := by
    rw [size]
    decide
  have accepted := (gsmdReceive_long ⟨scontext, keyed⟩ 7 [0] long).trans
    (congrArg (GsmdValidation.received dave) valid)
  rw [field] at accepted
  refine ⟨⟨scontext, keyed⟩, pp, _, enclosed, size, accepted, ?_⟩
  intro inside
  have within := (inside.bounds _ _ accepted).2.1
  rw [size] at within
  exact absurd within (by decide)

end Otpd

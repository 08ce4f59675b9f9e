import Otpd.Gsmd

/-!
# Framing of datagrams

`gsmd` in `state.c` and `failover_thread` validate what they receive by the same
checks up to the NUL termination; only `gsmd` looks at the size of the datagram
before it decrypts.
-/

set_option autoImplicit false

namespace Otpd

open CMem

def gsmUltraMsgLen : Nat := helixNonceLen + gsmMaxMsgLen + helixMacLen

/-- A signed length passed where a `size_t` is expected. -/
def sizeT (n : Int) : Nat := (n % 2 ^ 64).toNat

/-- The length that goes to `helix_decrypt`. -/
def decryptLen (rlen : Nat) : Nat := sizeT ((rlen : Int) - helixNonceLen - helixMacLen)

inductive GsmdValidation where
  | valid (len : Nat) (pmsg : List Byte)
  | seqno
  | invalid (error : GsmdError)

def messageChecks (username : Username) (len : Nat) (pmsg : List Byte) : GsmdValidation :=
  let ulen := username.bytes.length
  if pmsg.getD 1 0 ≠ 32 then .invalid .commandDelimiter
  else if (pmsg.drop 2).take ulen ≠ username.bytes ∨
      (pmsg.getD (ulen + 2) 0 ≠ 32 ∧ pmsg.getD (ulen + 2) 0 ≠ 0) then .invalid .username
  else if pmsg.getD (len - 1) 0 ≠ 0 then .invalid .nulTerm
  else .valid len pmsg

/-- From `helix_nonce` on, with `nbytes` bytes to decrypt. -/
def frameChecks (key : GsmdKey) (username : Username) (seq : UInt32) (pp stale : List Byte)
    (nbytes : Nat) : GsmdValidation :=
  let rlen := pp.length
  let ulen := username.bytes.length
  let nonce : Buffer 16 := Buffer.ofList 16 (pp.take helixNonceLen)
  match helixDecrypt key.scontext (helixNonce key.scontext nonce)
      ((pp.drop helixNonceLen).take nbytes) with
  | none => .invalid .integrity
  | some out =>
    if out.mac.bytes ≠ pp.drop (rlen - helixMacLen) then .invalid .integrity
    else
      let len := (pp.getD 8 0).toNat + ((pp.getD 9 0).toNat <<< 8)
      if len < 3 + ulen ∨ len > gsmMaxMsgLen ∨
          (rlen : Int) - (helixNonceLen + helixMacLen) - len > 3 then .invalid .plaintextLength
      else if wordAt pp 3 ≠ seq then .seqno
      else messageChecks username len (out.text ++ (out.mac.bytes ++ stale))

/-- `none`: `helix_decrypt` runs over the end of the buffer. -/
def unframe (key : GsmdKey) (username : Username) (seq : UInt32) (pp stale : List Byte) :
    Option GsmdValidation :=
  if gsmUltraMsgLen - helixNonceLen < decryptLen pp.length then none
  else some (frameChecks key username seq pp stale (decryptLen pp.length))

def gsmdValidate (key : GsmdKey) (username : Username) (seq : UInt32) (pp stale : List Byte) :
    Option GsmdValidation :=
  if pp.length < helixNonceLen + 3 + username.bytes.length + helixMacLen then
    some (.invalid .ciphertextLength)
  else unframe key username seq pp stale

/-- The user `!` of a failover probe. -/
def probeUsername : Username := ⟨[33], by decide, by decide⟩

/-- `failover_thread` decrypts whatever it has received. -/
def failoverValidate (key : GsmdKey) (seq : UInt32) (pp stale : List Byte) :
    Option GsmdValidation :=
  unframe key probeUsername seq pp stale

/-- What `gsmd` makes of a valid message. -/
def gsmdRespond (username : Username) (len : Nat) (pmsg : List Byte) : GsmdReceived :=
  let ulen := username.bytes.length
  if pmsg.getD 0 0 = 65 then .accepted len (pmsg.take len)
  else if pmsg.getD 0 0 = 78 then
    .again (some (if pmsg.getD (ulen + 2) 0 ≠ 0 then cstr (pmsg.drop (ulen + 3))
      else ascii "[no reason given]"))
  else .error .command

def GsmdValidation.received (username : Username) : GsmdValidation → GsmdReceived
  | .valid len pmsg => gsmdRespond username len pmsg
  | .seqno => .again none
  | .invalid error => .error error

/-- The length in the nonce. -/
def lenField (pp : List Byte) : Nat := (pp.getD 8 0).toNat + ((pp.getD 9 0).toNat <<< 8)

/-! ## The receive path in two halves -/

section Halves

variable {key : GsmdKey} {username : Username} {seq : UInt32} {pp stale : List Byte}

theorem decryptLen_eq {rlen : Nat} (room : helixNonceLen + helixMacLen ≤ rlen)
    (fits : rlen ≤ gsmUltraMsgLen) : decryptLen rlen = rlen - helixNonceLen - helixMacLen := by
  simp only [gsmUltraMsgLen, gsmMaxMsgLen, helixNonceLen, helixMacLen] at room fits
  simp only [decryptLen, sizeT, helixNonceLen, helixMacLen]
  omega

theorem gsmdMessage_eq (username : Username) (len : Nat) (pmsg : List Byte) :
    gsmdMessage username len pmsg = (messageChecks username len pmsg).received username := by
  simp only [gsmdMessage, messageChecks]
  split_ifs
  all_goals simp_all [GsmdValidation.received, gsmdRespond]

theorem unframe_eq (room : helixNonceLen + helixMacLen ≤ pp.length)
    (fits : pp.length ≤ gsmUltraMsgLen) :
    unframe key username seq pp stale =
      some (frameChecks key username seq pp stale (pp.length - helixNonceLen - helixMacLen)) := by
  have length := decryptLen_eq room fits
  have inside : ¬ gsmUltraMsgLen - helixNonceLen < decryptLen pp.length := by
    rw [length]
    omega
  rw [unframe, if_neg inside, length]

theorem gsmdReceive_long (key : GsmdKey) (seq : UInt32) (stale : List Byte)
    (long : ¬ pp.length < helixNonceLen + 3 + username.bytes.length + helixMacLen) :
    gsmdReceive key username seq pp stale = (frameChecks key username seq pp stale
      (pp.length - helixNonceLen - helixMacLen)).received username := by
  rw [gsmdReceive, frameChecks]
  simp only [if_neg long]
  cases helixDecrypt key.scontext
      (helixNonce key.scontext (Buffer.ofList 16 (pp.take helixNonceLen)))
      ((pp.drop helixNonceLen).take (pp.length - helixNonceLen - helixMacLen)) with
  | none => rfl
  | some out =>
      simp only
      split_ifs
      · rfl
      · rfl
      · rfl
      · exact gsmdMessage_eq ..

theorem gsmdReceive_eq (key : GsmdKey) (username : Username) (seq : UInt32) (stale : List Byte)
    (fits : pp.length ≤ gsmUltraMsgLen) :
    ∃ validation, gsmdValidate key username seq pp stale = some validation ∧
      gsmdReceive key username seq pp stale = validation.received username := by
  by_cases short : pp.length < helixNonceLen + 3 + username.bytes.length + helixMacLen
  · exact ⟨_, if_pos short, if_pos short⟩
  · have room : helixNonceLen + helixMacLen ≤ pp.length := by omega
    exact ⟨_, (if_neg short).trans (unframe_eq room fits), gsmdReceive_long key seq stale short⟩

theorem GsmdValidation.accepted_eq {validation : GsmdValidation} {len : Nat} {pmsg : List Byte}
    (accepted : validation.received username = .accepted len pmsg) :
    ∃ message, validation = .valid len message ∧ message.getD 0 0 = 65 ∧
      pmsg = message.take len := by
  cases validation with
  | valid l message =>
      simp only [GsmdValidation.received, gsmdRespond] at accepted
      split_ifs at accepted with command
      cases accepted
      exact ⟨message, rfl, command, rfl⟩
  | seqno => cases accepted
  | invalid error => cases accepted

/-- `gsmd` takes a valid message for an answer if it begins with `A`. -/
theorem GsmdValidation.accepted_iff (username : Username) (validation : GsmdValidation) :
    (∃ len pmsg, validation.received username = .accepted len pmsg) ↔
      ∃ len pmsg, validation = .valid len pmsg ∧ pmsg.getD 0 0 = 65 := by
  constructor
  · rintro ⟨len, pmsg, accepted⟩
    obtain ⟨message, valid, command, -⟩ := accepted_eq accepted
    exact ⟨len, message, valid, command⟩
  · rintro ⟨len, pmsg, rfl, command⟩
    exact ⟨len, pmsg.take len, if_pos command⟩

theorem messageChecks_valid_iff (username : Username) (len : Nat) (message : List Byte) {l : Nat}
    {m : List Byte} :
    messageChecks username len message = .valid l m ↔ (l = len ∧ m = message) ∧
      message.getD 1 0 = 32 ∧ (message.drop 2).take username.bytes.length = username.bytes ∧
      (message.getD (username.bytes.length + 2) 0 = 32 ∨
        message.getD (username.bytes.length + 2) 0 = 0) ∧
      message.getD (len - 1) 0 = 0 := by
  constructor
  · intro valid
    simp only [messageChecks] at valid
    split_ifs at valid with delimiter user nul
    cases valid
    rw [not_or, not_and_or, not_not, not_not, not_not] at user
    exact ⟨⟨rfl, rfl⟩, not_not.mp delimiter, user.1, user.2, not_not.mp nul⟩
  · rintro ⟨⟨rfl, rfl⟩, delimiter, named, behind, nul⟩
    have user : ¬ ((m.drop 2).take username.bytes.length ≠ username.bytes ∨
        (m.getD (username.bytes.length + 2) 0 ≠ 32 ∧
          m.getD (username.bytes.length + 2) 0 ≠ 0)) := by
      rw [not_or, not_and_or, not_not, not_not, not_not]
      exact ⟨named, behind⟩
    simp only [messageChecks, if_neg (not_not.mpr delimiter), if_neg user, if_neg (not_not.mpr nul)]

end Halves

/-! ## A framed message on the other side -/

section Framed

variable {key : GsmdKey} {streamid : UInt32 × UInt32} {seq : UInt32} {command : Byte} {len : Nat}
  {plain pp : List Byte}

theorem GsmdKey.enclose_lenField (bound : len < 65536)
    (enclosed : key.enclose (gsmdNonce streamid len command seq) plain = some pp) :
    (pp.getD 8 0).toNat + ((pp.getD 9 0).toNat <<< 8) = len := by
  have front := (key.enclose_decrypts enclosed).1
  have at8 : pp.getD 8 0 = (pp.take helixNonceLen).getD 8 0 := by
    simp [helixNonceLen, List.getD]
  have at9 : pp.getD 9 0 = (pp.take helixNonceLen).getD 9 0 := by
    simp [helixNonceLen, List.getD]
  rw [at8, at9, front, gsmdNonce_bytes]
  exact gsmdNonce_length bound

theorem paddedLen_bounds (len : Nat) : len ≤ paddedLen len ∧ paddedLen len ≤ len + 3 := by
  rw [paddedLen]
  omega

/-- Size, MAC, length bounds and sequence number are as the receiver wants them. -/
theorem unframe_framed (username : Username) (long : 3 + username.bytes.length ≤ len)
    (bound : len ≤ gsmMaxMsgLen) (padded : plain.length = paddedLen len)
    (enclosed : key.enclose (gsmdNonce streamid len command seq) plain = some pp) :
    helixNonceLen + 3 + username.bytes.length + helixMacLen ≤ pp.length ∧
      pp.length ≤ gsmUltraMsgLen ∧
      ∃ mac : List Byte, ∀ stale, unframe key username seq pp stale =
        some (messageChecks username len (plain ++ (mac ++ stale))) := by
  have size := key.enclose_length enclosed
  obtain ⟨atLeast, atMost⟩ := paddedLen_bounds len
  have most : paddedLen len ≤ gsmMaxMsgLen := by
    simp only [gsmMaxMsgLen] at bound ⊢
    rw [paddedLen]
    omega
  rw [padded] at size
  have room : helixNonceLen + 3 + username.bytes.length + helixMacLen ≤ pp.length := by omega
  have fits : pp.length ≤ gsmUltraMsgLen := by
    rw [gsmUltraMsgLen]
    omega
  obtain ⟨-, out, decrypted, text, mac⟩ := key.enclose_decrypts enclosed
  have seqno := (key.enclose_seqno enclosed).trans (gsmdNonce_seqno streamid len command seq)
  have field := key.enclose_lenField (by rw [gsmMaxMsgLen] at bound; omega) enclosed
  have lengths : ¬ (len < 3 + username.bytes.length ∨ len > gsmMaxMsgLen ∨
      (pp.length : Int) - (helixNonceLen + helixMacLen) - len > 3) := by
    omega
  refine ⟨room, fits, out.mac.bytes, ?_⟩
  intro stale
  rw [unframe_eq (by omega) fits]
  simp only [frameChecks, decrypted, ne_eq, mac, not_true_eq_false, if_false, field,
    if_neg lengths, seqno, text]

/-- `X username` and `X username text`. -/
def gsmdText (command : Byte) (username : Username) : Option (List Byte) → List Byte
  | none => command :: 32 :: username.bytes
  | some text => command :: 32 :: (username.bytes ++ 32 :: text)

theorem messageChecks_text (command : Byte) (username : Username) (text : Option (List Byte))
    (rest : List Byte) :
    messageChecks username ((gsmdText command username text).length + 1)
        (gsmdText command username text ++ 0 :: rest) =
      .valid ((gsmdText command username text).length + 1)
        (gsmdText command username text ++ 0 :: rest) := by
  cases text with
  | none => simp [messageChecks, gsmdText, List.getD]
  | some text => simp [messageChecks, gsmdText, List.getD]

theorem gsmdText_length (command : Byte) (username : Username) (text : Option (List Byte)) :
    2 + username.bytes.length ≤ (gsmdText command username text).length := by
  cases text with
  | none =>
      simp only [gsmdText, List.length_cons]
      omega
  | some text =>
      simp only [gsmdText, List.length_cons, List.length_append]
      omega

/-- A message in gsmd's format is accepted by the session that waits for its number. -/
theorem gsmdReceive_answer {username : Username} {text : List Byte}
    (fits : (gsmdAnswer username text).length ≤ gsmMaxMsgLen)
    (enclosed : key.enclose (gsmdNonce streamid (gsmdAnswer username text).length 65 seq)
      (gsmdAnswer username text ++ List.replicate
        (paddedLen (gsmdAnswer username text).length - (gsmdAnswer username text).length) 0) =
      some pp) (stale : List Byte) :
    gsmdReceive key username seq pp stale =
      .accepted (gsmdAnswer username text).length (gsmdAnswer username text) := by
  have answer : gsmdAnswer username text = gsmdText 65 username (some text) ++ [0] := by
    simp [gsmdAnswer, gsmdText]
  have size : (gsmdAnswer username text).length =
      (gsmdText 65 username (some text)).length + 1 := by
    rw [answer, List.length_append, List.length_singleton]
  have least := gsmdText_length 65 username (some text)
  obtain ⟨atLeast, -⟩ := paddedLen_bounds (gsmdAnswer username text).length
  have padded : (gsmdAnswer username text ++ List.replicate
      (paddedLen (gsmdAnswer username text).length - (gsmdAnswer username text).length) 0).length =
      paddedLen (gsmdAnswer username text).length := by
    rw [List.length_append, List.length_replicate]
    omega
  obtain ⟨room, short, mac, checked⟩ := unframe_framed username (by omega) fits padded enclosed
  obtain ⟨validation, valid, received⟩ := gsmdReceive_eq key username seq stale short
  rw [gsmdValidate, if_neg (by omega), checked stale, size, answer, List.append_assoc,
    List.append_assoc, List.singleton_append, messageChecks_text] at valid
  cases valid
  rw [received, GsmdValidation.received, gsmdRespond, if_pos (by simp [gsmdText]), size, answer]
  simp [List.take_append]

end Framed

theorem gsmd_framing_round_trip (key : GsmdKey) (streamid : UInt32 × UInt32) (seq : UInt32)
    (command : Byte) (username : Username) (text : Option (List Byte)) (message : CString 935)
    (form : message.bytes = gsmdText command username text) :
    ∃ pp, gsmdRequest key streamid message.bytes seq = some pp ∧ pp.length ≤ gsmUltraMsgLen ∧
      ∀ stale, ∃ pmsg,
        gsmdValidate key username seq pp stale = some (.valid (message.bytes.length + 1) pmsg) ∧
        pmsg.take (message.bytes.length + 1) = message.bytes ++ [0] ∧
        cstr pmsg = message.bytes := by
  have least := gsmdText_length command username text
  rw [← form] at least
  have bound : message.bytes.length + 1 ≤ gsmMaxMsgLen := Nat.succ_le_succ message.bound
  obtain ⟨atLeast, -⟩ := paddedLen_bounds (message.bytes.length + 1)
  obtain ⟨zeros, padding⟩ : ∃ zeros,
      paddedLen (message.bytes.length + 1) - message.bytes.length = zeros + 1 :=
    ⟨_, (Nat.succ_pred_eq_of_pos (by omega)).symm⟩
  have plain : message.bytes ++ List.replicate
      (paddedLen (message.bytes.length + 1) - message.bytes.length) 0 =
      message.bytes ++ 0 :: List.replicate zeros 0 := by
    rw [padding, List.replicate_succ]
  have padded : (message.bytes ++ 0 :: List.replicate zeros 0).length =
      paddedLen (message.bytes.length + 1) := by
    simp only [List.length_append, List.length_cons, List.length_replicate]
    omega
  obtain ⟨pp, enclosed⟩ := key.enclose_total
    (gsmdNonce streamid (message.bytes.length + 1) (message.bytes.headD 0) seq)
    (message.bytes ++ 0 :: List.replicate zeros 0)
  obtain ⟨room, fits, mac, checked⟩ :=
    unframe_framed username (by omega) bound padded enclosed
  refine ⟨pp, by rw [gsmdRequest, plain, enclosed], fits, ?_⟩
  intro stale
  refine ⟨message.bytes ++ 0 :: (List.replicate zeros 0 ++ (mac ++ stale)), ?_, ?_, ?_⟩
  · rw [gsmdValidate, if_neg (by omega), checked stale, List.append_assoc, List.cons_append, form,
      messageChecks_text]
  · simp [List.take_append]
  · have letters : ∀ b ∈ message.bytes, decide (b ≠ 0) = true := by
      intro b inside
      have other : b ≠ 0 := fun nul => message.noNul (nul ▸ inside)
      exact decide_eq_true other
    rw [cstr, List.takeWhile_append_of_pos letters]
    simp

def dave : Username := ⟨ascii "dave", by decide, by decide⟩

/-- A release: seven bytes with the NUL, padded to eight. -/
theorem gsmd_framing_round_trip_release :
    ∃ key : GsmdKey, ∃ pp, gsmdRequest key (1, 2) (ascii "P dave") 7 = some pp ∧
      pp.length ≤ gsmUltraMsgLen ∧
      ∀ stale, ∃ pmsg, gsmdValidate key dave 7 pp stale = some (.valid 7 pmsg) ∧
        pmsg.take 7 = ascii "P dave" ++ [0] ∧ cstr pmsg = ascii "P dave" := by
  obtain ⟨scontext, -, keyed⟩ := helixSetkey_keyed (u := List.replicate 16 7) (by decide)
  exact ⟨⟨scontext, keyed⟩, gsmd_framing_round_trip ⟨scontext, keyed⟩ (1, 2) 7 80 dave none
    ⟨ascii "P dave", by decide, by decide⟩ (by decide)⟩

/-! ## The two receive paths -/

def Accepts (validation : Option GsmdValidation) : Prop :=
  ∃ len pmsg, validation = some (.valid len pmsg)

/-- What `gsmd` passes to `helix_decrypt`, if it gets there. -/
def gsmdDecrypts (username : Username) (rlen : Nat) : Option Nat :=
  if rlen < helixNonceLen + 3 + username.bytes.length + helixMacLen then none
  else some (decryptLen rlen)

def failoverDecrypts (rlen : Nat) : Option Nat := some (decryptLen rlen)

structure PathsAgree (key : GsmdKey) (seq : UInt32) (pp stale : List Byte) : Prop where
  verdict : Accepts (failoverValidate key seq pp stale) ↔
    Accepts (gsmdValidate key probeUsername seq pp stale)
  gsmdLength : ∀ n, gsmdDecrypts probeUsername pp.length = some n → n ≤ gsmMaxMsgLen
  failoverLength : ∀ n, failoverDecrypts pp.length = some n → n ≤ gsmMaxMsgLen

/-- An authentic datagram with at most three bytes of text that together with its MAC
and the rest of the buffer passes for a message to `!`. -/
def ReadsAsAnswer (key : GsmdKey) (seq : UInt32) (pp stale : List Byte) : Prop :=
  ∃ nonce plain, key.enclose nonce plain = some pp ∧ plain.length ≤ 3 ∧ wordAt pp 3 = seq ∧
    4 ≤ lenField pp ∧ lenField pp ≤ gsmMaxMsgLen ∧
    let message := plain ++ (pp.drop (pp.length - helixMacLen) ++ stale)
    message.getD 1 0 = 32 ∧ message.getD 2 0 = 33 ∧
      (message.getD 3 0 = 32 ∨ message.getD 3 0 = 0) ∧ message.getD (lenField pp - 1) 0 = 0

section Paths

variable {key : GsmdKey} {seq : UInt32} {pp stale : List Byte}

/-- Decryption always gives something, and the MAC is right when it was enclosed so. -/
theorem GsmdKey.authentic_iff (key : GsmdKey) (room : helixNonceLen + helixMacLen ≤ pp.length) :
    ∃ out, helixDecrypt key.scontext
        (helixNonce key.scontext (Buffer.ofList 16 (pp.take helixNonceLen)))
        ((pp.drop helixNonceLen).take (pp.length - helixNonceLen - helixMacLen)) = some out ∧
      (out.mac.bytes = pp.drop (pp.length - helixMacLen) ↔
        ∃ nonce, key.enclose nonce out.text = some pp) := by
  let nonce : Buffer 16 := ⟨pp.take helixNonceLen, by
    rw [List.length_take]
    exact Nat.min_eq_left (Nat.le_trans (Nat.le_add_right _ _) room)⟩
  have same : Buffer.ofList 16 (pp.take helixNonceLen) = nonce := Buffer.ofList_bytes nonce
  obtain ⟨out, decrypted, encrypted⟩ := helixEncrypt_decrypt (helixNonce key.scontext nonce)
    key.keyed ((pp.drop helixNonceLen).take (pp.length - helixNonceLen - helixMacLen))
  rw [same]
  refine ⟨out, decrypted, ?_, ?_⟩
  · intro authentic
    refine ⟨nonce, ?_⟩
    have offset : pp.length - helixMacLen =
        helixNonceLen + (pp.length - helixNonceLen - helixMacLen) := by omega
    rw [GsmdKey.enclose, encrypted, Option.map_some, authentic, offset, ← List.drop_drop,
      List.take_append_drop]
    exact congrArg some (List.take_append_drop helixNonceLen pp)
  · rintro ⟨nonce', enclosed⟩
    obtain ⟨front, opened, again, -, mac⟩ := key.enclose_decrypts enclosed
    rw [same, decrypted] at again
    cases again
    exact mac

/-- A verdict that no check before those on the message gives is reached by an authentic
datagram with its sequence number and lengths in order, whose text with MAC and the rest
of the buffer behind it gets that verdict as a message. -/
theorem frameChecks_iff {username : Username} (Verdict : GsmdValidation → Prop)
    (integrity : ¬ Verdict (.invalid .integrity)) (length : ¬ Verdict (.invalid .plaintextLength))
    (number : ¬ Verdict .seqno) (room : helixNonceLen + helixMacLen ≤ pp.length) :
    Verdict (frameChecks key username seq pp stale (pp.length - helixNonceLen - helixMacLen)) ↔
      ∃ nonce plain, key.enclose nonce plain = some pp ∧ wordAt pp 3 = seq ∧
        3 + username.bytes.length ≤ lenField pp ∧ lenField pp ≤ gsmMaxMsgLen ∧
        plain.length ≤ lenField pp + 3 ∧ Verdict (messageChecks username (lenField pp)
          (plain ++ (pp.drop (pp.length - helixMacLen) ++ stale))) := by
  obtain ⟨out, decrypted, authentic⟩ := key.authentic_iff room
  have checks : frameChecks key username seq pp stale
      (pp.length - helixNonceLen - helixMacLen) =
      if out.mac.bytes ≠ pp.drop (pp.length - helixMacLen) then .invalid .integrity
      else if lenField pp < 3 + username.bytes.length ∨ lenField pp > gsmMaxMsgLen ∨
          (pp.length : Int) - (helixNonceLen + helixMacLen) - lenField pp > 3 then
        .invalid .plaintextLength
      else if wordAt pp 3 ≠ seq then .seqno
      else messageChecks username (lenField pp) (out.text ++ (out.mac.bytes ++ stale)) := by
    simp only [frameChecks, decrypted]
    rfl
  constructor
  · intro accepted
    rw [checks] at accepted
    split_ifs at accepted with forged lengths seqno
    · exact (integrity accepted).elim
    · exact (length accepted).elim
    · exact (number accepted).elim
    · rw [not_not] at forged seqno
      obtain ⟨nonce, enclosed⟩ := authentic.mp forged
      have size := key.enclose_length enclosed
      rw [← forged]
      exact ⟨nonce, out.text, enclosed, seqno, by omega, by omega, by omega, accepted⟩
  · rintro ⟨nonce, plain, enclosed, seqno, least, most, padding, message⟩
    have size := key.enclose_length enclosed
    obtain ⟨-, opened, again, text, mac⟩ := key.enclose_decrypts enclosed
    rw [decrypted] at again
    cases again
    subst text
    have lengths : ¬ (lenField pp < 3 + username.bytes.length ∨ lenField pp > gsmMaxMsgLen ∨
        (pp.length : Int) - (helixNonceLen + helixMacLen) - lenField pp > 3) := by omega
    rw [← mac] at message
    rw [checks, if_neg (not_not.mpr mac), if_neg lengths, if_neg (not_not.mpr seqno)]
    exact message

theorem frameChecks_valid_iff {username : Username} {l : Nat} {m : List Byte}
    (room : helixNonceLen + helixMacLen ≤ pp.length) :
    frameChecks key username seq pp stale (pp.length - helixNonceLen - helixMacLen) = .valid l m ↔
      ∃ nonce plain, key.enclose nonce plain = some pp ∧ wordAt pp 3 = seq ∧
        3 + username.bytes.length ≤ lenField pp ∧ lenField pp ≤ gsmMaxMsgLen ∧
        plain.length ≤ lenField pp + 3 ∧ messageChecks username (lenField pp)
          (plain ++ (pp.drop (pp.length - helixMacLen) ++ stale)) = .valid l m :=
  frameChecks_iff (· = .valid l m) (by simp) (by simp) (by simp) room

theorem probe_named (message : List Byte) :
    (message.drop 2).take probeUsername.bytes.length = probeUsername.bytes ↔
      message.getD 2 0 = 33 := by
  rcases message with _ | ⟨b0, _ | ⟨b1, _ | ⟨b2, rest⟩⟩⟩
  · simp [probeUsername]
  · simp [probeUsername]
  · simp [probeUsername]
  · simp [probeUsername]

theorem failover_accepts_short (room : helixNonceLen + helixMacLen ≤ pp.length)
    (short : pp.length < helixNonceLen + 4 + helixMacLen) :
    Accepts (failoverValidate key seq pp stale) ↔ ReadsAsAnswer key seq pp stale := by
  have fits : pp.length ≤ gsmUltraMsgLen := by
    rw [gsmUltraMsgLen, gsmMaxMsgLen]
    omega
  have verdict : failoverValidate key seq pp stale = some (frameChecks key probeUsername seq pp
      stale (pp.length - helixNonceLen - helixMacLen)) := unframe_eq room fits
  simp only [Accepts, verdict, Option.some.injEq, frameChecks_valid_iff room,
    messageChecks_valid_iff, probe_named]
  constructor
  · rintro ⟨-, -, nonce, plain, enclosed, seqno, least, most, -, -, delimiter, named, behind, nul⟩
    have size := key.enclose_length enclosed
    exact ⟨nonce, plain, enclosed, by omega, seqno, least, most, delimiter, named, behind, nul⟩
  · rintro ⟨nonce, plain, enclosed, -, seqno, least, most, delimiter, named, behind, nul⟩
    have size := key.enclose_length enclosed
    exact ⟨_, _, nonce, plain, enclosed, seqno, least, most, by omega, ⟨rfl, rfl⟩, delimiter, named,
      behind, nul⟩

theorem paths_agree_long (long : helixNonceLen + 4 + helixMacLen ≤ pp.length)
    (fits : pp.length ≤ gsmUltraMsgLen) : PathsAgree key seq pp stale := by
  have short : ¬ pp.length < helixNonceLen + 3 + probeUsername.bytes.length + helixMacLen :=
    Nat.not_lt.mpr long
  have length := decryptLen_eq (Nat.le_trans (by omega) long) fits
  have capacity : gsmUltraMsgLen = helixNonceLen + gsmMaxMsgLen + helixMacLen := rfl
  have inside : decryptLen pp.length ≤ gsmMaxMsgLen := by omega
  have same : gsmdValidate key probeUsername seq pp stale = failoverValidate key seq pp stale :=
    if_neg short
  have decrypts : gsmdDecrypts probeUsername pp.length = some (decryptLen pp.length) :=
    if_neg short
  refine ⟨by rw [same], ?_, ?_⟩
  · intro n decrypt
    rw [decrypts] at decrypt
    cases decrypt
    exact inside
  · rintro n ⟨⟩
    exact inside

theorem paths_agree_short (room : helixNonceLen + helixMacLen ≤ pp.length)
    (short : pp.length < helixNonceLen + 4 + helixMacLen) :
    PathsAgree key seq pp stale ↔ ¬ ReadsAsAnswer key seq pp stale := by
  have capacity : gsmUltraMsgLen = helixNonceLen + gsmMaxMsgLen + helixMacLen := rfl
  have size : gsmMaxMsgLen = 936 := rfl
  have length := decryptLen_eq room (by omega)
  have refused : gsmdValidate key probeUsername seq pp stale =
      some (.invalid .ciphertextLength) := if_pos short
  have decrypts : gsmdDecrypts probeUsername pp.length = none := if_pos short
  have rejects : ¬ Accepts (gsmdValidate key probeUsername seq pp stale) := by
    rintro ⟨len, pmsg, accepted⟩
    rw [refused] at accepted
    cases accepted
  constructor
  · intro agree reads
    exact rejects (agree.verdict.mp ((failover_accepts_short room short).mpr reads))
  · intro other
    refine ⟨?_, ?_, ?_⟩
    · rw [failover_accepts_short room short]
      exact ⟨fun reads => (other reads).elim, fun accepted => (rejects accepted).elim⟩
    · intro n decrypt
      rw [decrypts] at decrypt
      cases decrypt
    · rintro n ⟨⟩
      omega

/-- Below nonce and MAC the difference wraps to almost `2 ^ 64`. -/
theorem paths_differ (under : pp.length < helixNonceLen + helixMacLen) :
    ¬ PathsAgree key seq pp stale := by
  intro agree
  have most := agree.failoverLength _ rfl
  simp only [decryptLen, sizeT, gsmMaxMsgLen, helixNonceLen, helixMacLen] at most under
  omega

end Paths

theorem receive_paths_agree_iff (key : GsmdKey) (seq : UInt32) (pp stale : List Byte)
    (fits : pp.length ≤ gsmUltraMsgLen) :
    PathsAgree key seq pp stale ↔
      helixNonceLen + 4 + helixMacLen ≤ pp.length ∨
      (helixNonceLen + helixMacLen ≤ pp.length ∧ ¬ ReadsAsAnswer key seq pp stale) := by
  by_cases room : helixNonceLen + helixMacLen ≤ pp.length
  · by_cases short : pp.length < helixNonceLen + 4 + helixMacLen
    · rw [paths_agree_short room short]
      constructor
      · intro other
        exact .inr ⟨room, other⟩
      · rintro (long | ⟨-, other⟩)
        · omega
        · exact other
    · have long := Nat.le_of_not_lt short
      exact iff_of_true (paths_agree_long long fits) (.inl long)
  · exact iff_of_false (paths_differ (Nat.lt_of_not_le room)) (by omega)

/-- The shortest answer to a probe, `A !` with its NUL, is accepted on both paths. -/
theorem receive_paths_agree_answer :
    ∃ (key : GsmdKey) (pp : List Byte),
      key.enclose (gsmdNonce (1, 2) 4 65 7) (ascii "A !" ++ [0]) = some pp ∧
      pp.length ≤ gsmUltraMsgLen ∧ Accepts (gsmdValidate key probeUsername 7 pp [1]) ∧
      PathsAgree key 7 pp [1] := by
  obtain ⟨scontext, -, keyed⟩ := helixSetkey_keyed (u := List.replicate 16 7) (by decide)
  obtain ⟨pp, enclosed⟩ := GsmdKey.enclose_total ⟨scontext, keyed⟩ (gsmdNonce (1, 2) 4 65 7)
    (ascii "A !" ++ [0])
  obtain ⟨room, fits, mac, checked⟩ :=
    unframe_framed probeUsername (by decide) (by decide) (by decide) enclosed
  have text : gsmdText 65 probeUsername none ++ 0 :: (mac ++ [1]) =
      (ascii "A !" ++ [0]) ++ (mac ++ [1]) := rfl
  have valid := messageChecks_text 65 probeUsername none (mac ++ [1])
  rw [text] at valid
  have accepted : gsmdValidate ⟨scontext, keyed⟩ probeUsername 7 pp [1] = some (.valid 4
      ((ascii "A !" ++ [0]) ++ (mac ++ [1]))) := by
    rw [gsmdValidate, if_neg (Nat.not_lt.mpr room), checked [1]]
    exact congrArg some valid
  exact ⟨⟨scontext, keyed⟩, pp, enclosed, fits, ⟨_, _, accepted⟩,
    (receive_paths_agree_iff ⟨scontext, keyed⟩ 7 pp [1] fits).mpr (.inl room)⟩

/-- Of an empty datagram `gsmd` decrypts nothing and `failover_thread` almost `2 ^ 64` bytes. -/
theorem receive_paths_differ_empty :
    ∃ key : GsmdKey, ([] : List Byte).length ≤ gsmUltraMsgLen ∧
      gsmdDecrypts probeUsername 0 = none ∧ failoverDecrypts 0 = some (2 ^ 64 - 32) ∧
      ¬ PathsAgree key 0 [] [] := by
  obtain ⟨scontext, -, keyed⟩ := helixSetkey_keyed (u := List.replicate 16 7) (by decide)
  exact ⟨⟨scontext, keyed⟩, by decide, by decide, by decide, paths_differ (by decide)⟩

end Otpd

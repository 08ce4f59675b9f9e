import Otpd.Helix
import Otpd.StateFile

/-!
# Datagrams between otpd and gsmd

The two halves of `gsmd` in `state.c`: framing of a request, and the checks on a
received datagram in the order in which they are made.
-/

set_option autoImplicit false

namespace Otpd

open CMem

def gsmMaxMsgLen : Nat := 936
def helixNonceLen : Nat := 16
def helixMacLen : Nat := 16

/-- The context `helix_setkey` made of a configured gsmd key. -/
structure GsmdKey where
  scontext : HelixScontext
  keyed : scontext.magic = helixMagic

/-! ## Requests -/

/-- `cp` up to the message; `len` counts the NUL. -/
def gsmdNonce (streamid : UInt32 × UInt32) (len : Nat) (command : Byte) (seq : UInt32) : Buffer 16 :=
  Buffer.ofList 16 (leBytes streamid.1 ++ (leBytes streamid.2 ++
    ([UInt8.ofNat (len &&& 0xff), UInt8.ofNat ((len &&& 0xff00) >>> 8), command, 0] ++ leBytes seq)))

/-- `helix_nonce` and `helix_encrypt` in place, with the MAC behind the text. -/
def GsmdKey.enclose (key : GsmdKey) (nonce : Buffer 16) (plain : List Byte) : Option (List Byte) :=
  (helixEncrypt key.scontext (helixNonce key.scontext nonce) plain).map fun out =>
    nonce.bytes ++ (out.text ++ out.mac.bytes)

/-- `ROUND4(len + 3)`. -/
def paddedLen (len : Nat) : Nat := (len + 3) / 4 * 4

def gsmdRequest (key : GsmdKey) (streamid : UInt32 × UInt32) (cmsg : List Byte) (seq : UInt32) :
    Option (List Byte) :=
  let len := cmsg.length + 1
  key.enclose (gsmdNonce streamid len (cmsg.headD 0) seq)
    (cmsg ++ List.replicate (paddedLen len - cmsg.length) 0)

/-! ## Responses -/

inductive GsmdError where
  | ciphertextLength
  | integrity
  | plaintextLength
  | commandDelimiter
  | username
  | nulTerm
  | command
  deriving DecidableEq

/-- `again`: the loop goes on, after a bad seqno or an `N` with its reason. -/
inductive GsmdReceived where
  | accepted (len : Nat) (pmsg : List Byte)
  | again (reason : Option (List Byte))
  | error (error : GsmdError)

/-- The checks on the decrypted message; `pmsg` is the buffer from the message on. -/
def gsmdMessage (username : Username) (len : Nat) (pmsg : List Byte) : GsmdReceived :=
  let ulen := username.bytes.length
  if pmsg.getD 1 0 ≠ 32 then .error .commandDelimiter
  else if (pmsg.drop 2).take ulen ≠ username.bytes ∨
      (pmsg.getD (ulen + 2) 0 ≠ 32 ∧ pmsg.getD (ulen + 2) 0 ≠ 0) then .error .username
  else if pmsg.getD (len - 1) 0 ≠ 0 then .error .nulTerm
  else if pmsg.getD 0 0 = 65 then .accepted len (pmsg.take len)
  else if pmsg.getD 0 0 = 78 then
    .again (some (if pmsg.getD (ulen + 2) 0 ≠ 0 then cstr (pmsg.drop (ulen + 3))
      else ascii "[no reason given]"))
  else .error .command

/-- One datagram `pp` of `rlen` bytes, received while waiting for `seq`.  `stale` is
what the buffer holds behind it. -/
def gsmdReceive (key : GsmdKey) (username : Username) (seq : UInt32) (pp stale : List Byte) :
    GsmdReceived :=
  let rlen := pp.length
  let ulen := username.bytes.length
  if rlen < helixNonceLen + 3 + ulen + helixMacLen then .error .ciphertextLength
  else
    let nonce : Buffer 16 := Buffer.ofList 16 (pp.take helixNonceLen)
    let body := (pp.drop helixNonceLen).take (rlen - helixNonceLen - helixMacLen)
    match helixDecrypt key.scontext (helixNonce key.scontext nonce) body with
    | none => .error .integrity
    | some out =>
      if out.mac.bytes ≠ pp.drop (rlen - helixMacLen) then .error .integrity
      else
        let len := (pp.getD 8 0).toNat + ((pp.getD 9 0).toNat <<< 8)
        if len < 3 + ulen ∨ len > gsmMaxMsgLen ∨
            (rlen : Int) - (helixNonceLen + helixMacLen) - len > 3 then .error .plaintextLength
        else if wordAt pp 3 ≠ seq then .again none
        else gsmdMessage username len (out.text ++ (out.mac.bytes ++ stale))

/-! ## What acceptance says -/

section Accepted

variable {key : GsmdKey} {username : Username} {seq : UInt32} {pp stale pmsg : List Byte} {len : Nat}

theorem gsmdMessage_accepted (accepted : gsmdMessage username len pp = .accepted len pmsg) :
    pp.getD 0 0 = 65 ∧ (pp.drop 2).take username.bytes.length = username.bytes ∧
      pmsg = pp.take len := by
  simp only [gsmdMessage] at accepted
  split_ifs at accepted with delimiter named nul command
  injection accepted with _ message
  refine ⟨command, ?_, message.symm⟩
  by_contra other
  exact named (.inl other)

/-- What an accepted datagram has been checked for. -/
structure AcceptedBy (key : GsmdKey) (username : Username) (seq : UInt32) (pp stale : List Byte)
    (len : Nat) (pmsg : List Byte) (out : HelixOut) : Prop where
  decrypted : helixDecrypt key.scontext
      (helixNonce key.scontext (Buffer.ofList 16 (pp.take helixNonceLen)))
      ((pp.drop helixNonceLen).take (pp.length - helixNonceLen - helixMacLen)) = some out
  mac : out.mac.bytes = pp.drop (pp.length - helixMacLen)
  seqno : wordAt pp 3 = seq
  message : gsmdMessage username len (out.text ++ (out.mac.bytes ++ stale)) = .accepted len pmsg

theorem gsmdReceive_accepted (accepted : gsmdReceive key username seq pp stale = .accepted len pmsg) :
    ∃ out, AcceptedBy key username seq pp stale len pmsg out := by
  cases decrypted : helixDecrypt key.scontext
      (helixNonce key.scontext (Buffer.ofList 16 (pp.take helixNonceLen)))
      ((pp.drop helixNonceLen).take (pp.length - helixNonceLen - helixMacLen)) with
  | none =>
      simp only [gsmdReceive, decrypted] at accepted
      split_ifs at accepted
  | some out =>
      simp only [gsmdReceive, decrypted] at accepted
      split_ifs at accepted with short forged lengths seqno
      refine ⟨out, decrypted, not_not.mp forged, not_not.mp seqno, ?_⟩
      have same : len = (pp.getD 8 0).toNat + ((pp.getD 9 0).toNat <<< 8) := by
        simp only [gsmdMessage] at accepted
        split_ifs at accepted
        injection accepted with same _
        exact same.symm
      rw [← same] at accepted
      exact accepted

end Accepted

/-! ## A datagram as it was enclosed -/

section Enclosed

variable {key : GsmdKey} {nonce : Buffer 16} {plain pp : List Byte}

theorem GsmdKey.enclose_total (key : GsmdKey) (nonce : Buffer 16) (plain : List Byte) :
    ∃ pp, key.enclose nonce plain = some pp := by
  obtain ⟨out, encrypted, -⟩ :=
    helixDecrypt_encrypt (helixNonce key.scontext nonce) key.keyed plain
  exact ⟨_, by rw [enclose, encrypted]; rfl⟩

/-- Decryption at the receiver's offsets gives back the plaintext. -/
theorem GsmdKey.enclose_decrypts (enclosed : key.enclose nonce plain = some pp) :
    pp.take helixNonceLen = nonce.bytes ∧
      ∃ out, helixDecrypt key.scontext
          (helixNonce key.scontext (Buffer.ofList 16 (pp.take helixNonceLen)))
          ((pp.drop helixNonceLen).take (pp.length - helixNonceLen - helixMacLen)) = some out ∧
        out.text = plain ∧ out.mac.bytes = pp.drop (pp.length - helixMacLen) := by
  obtain ⟨out, encrypted, decrypted⟩ :=
    helixDecrypt_encrypt (helixNonce key.scontext nonce) key.keyed plain
  rw [enclose, encrypted, Option.map_some] at enclosed
  cases enclosed
  have front : (nonce.bytes ++ (out.text ++ out.mac.bytes)).take helixNonceLen = nonce.bytes :=
    List.take_left' nonce.size
  have rest : (nonce.bytes ++ (out.text ++ out.mac.bytes)).drop helixNonceLen =
      out.text ++ out.mac.bytes := List.drop_left' nonce.size
  have size : (nonce.bytes ++ (out.text ++ out.mac.bytes)).length =
      helixNonceLen + (out.text.length + helixMacLen) := by
    rw [List.length_append, List.length_append, nonce.size, out.mac.size]
    rfl
  refine ⟨front, ⟨plain, out.mac, out.dcontext⟩, ?_, rfl, ?_⟩
  · rw [front, rest, size, Buffer.ofList_bytes, List.take_left' (by omega)]
    exact decrypted
  · have cut : helixNonceLen + (out.text.length + helixMacLen) - helixMacLen =
        helixNonceLen + out.text.length := by omega
    rw [size, cut, ← List.drop_drop, rest, List.drop_left' rfl]

/-- A message with another command letter is not accepted, whoever waits for it. -/
theorem GsmdKey.enclose_refused (enclosed : key.enclose nonce plain = some pp) {c : Byte}
    (command : plain.head? = some c) (other : c ≠ 65) (username : Username) (seq : UInt32)
    (stale : List Byte) (len : Nat) (pmsg : List Byte) :
    gsmdReceive key username seq pp stale ≠ .accepted len pmsg := by
  intro accepted
  obtain ⟨out, by_⟩ := gsmdReceive_accepted accepted
  obtain ⟨-, opened, decrypted, text, -⟩ := key.enclose_decrypts enclosed
  have same : some opened = some out := decrypted.symm.trans by_.decrypted
  cases same
  obtain ⟨rest, rfl⟩ : ∃ rest, plain = c :: rest := by
    cases plain with
    | nil => cases command
    | cons b rest =>
        cases command
        exact ⟨rest, rfl⟩
  have letter := (gsmdMessage_accepted by_.message).1
  rw [text] at letter
  exact other (by simpa using letter)

theorem gsmdNonce_bytes (streamid : UInt32 × UInt32) (len : Nat) (command : Byte) (seq : UInt32) :
    (gsmdNonce streamid len command seq).bytes = leBytes streamid.1 ++ (leBytes streamid.2 ++
      ([UInt8.ofNat (len &&& 0xff), UInt8.ofNat ((len &&& 0xff00) >>> 8), command, 0] ++
        leBytes seq)) := by
  rw [gsmdNonce, Buffer.ofList, Buffer.copy_bytes]
  · simp [Buffer.zero, leBytes]
  · simp [leBytes]

theorem gsmdNonce_seqno (streamid : UInt32 × UInt32) (len : Nat) (command : Byte) (seq : UInt32) :
    wordAt (gsmdNonce streamid len command seq).bytes 3 = seq := by
  rw [wordAt, gsmdNonce_bytes]
  exact leWord_leBytes seq

/-- The words of the nonce lead the datagram. -/
theorem GsmdKey.enclose_word (enclosed : key.enclose nonce plain = some pp) {i : Nat} (inside : i < 4) :
    wordAt pp i = wordAt nonce.bytes i := by
  have front := (key.enclose_decrypts enclosed).1
  have word : (pp.drop (4 * i)).take 4 = ((pp.take helixNonceLen).drop (4 * i)).take 4 := by
    rw [List.drop_take, List.take_take, Nat.min_eq_left]
    rw [helixNonceLen]
    omega
  rw [wordAt, wordAt, word, front]

theorem GsmdKey.enclose_seqno (enclosed : key.enclose nonce plain = some pp) :
    wordAt pp 3 = wordAt nonce.bytes 3 :=
  key.enclose_word enclosed (by decide)

end Enclosed

/-! ## Lengths -/

theorem GsmdKey.enclose_length {key : GsmdKey} {nonce : Buffer 16} {plain pp : List Byte}
    (enclosed : key.enclose nonce plain = some pp) :
    pp.length = helixNonceLen + (plain.length + helixMacLen) := by
  obtain ⟨out, encrypted, rfl⟩ := Option.map_eq_some_iff.mp enclosed
  rw [List.length_append, List.length_append, nonce.size, out.mac.size,
    helixEncrypt_length encrypted]
  rfl

theorem gsmdNonce_length {len : Nat} (bound : len < 65536) :
    (UInt8.ofNat (len &&& 0xff)).toNat + ((UInt8.ofNat ((len &&& 0xff00) >>> 8)).toNat <<< 8) = len := by
  have low : len &&& 0xff = len % 256 := Nat.and_two_pow_sub_one_eq_mod len 8
  have high : (len &&& 0xff00) >>> 8 = len / 256 % 256 := by
    rw [Nat.shiftRight_and_distrib, Nat.shiftRight_eq_div_pow]
    exact Nat.and_two_pow_sub_one_eq_mod (len / 256) 8
  rw [low, high, UInt8.toNat_ofNat', UInt8.toNat_ofNat', Nat.shiftLeft_eq]
  omega

end Otpd

import Otpd.Types
import Otpd.Lib.Words

/-!
# Helix

`helix.c`: the block function, the key and nonce setup, and encryption and
decryption with the MAC.  Plaintext feeds back into the cipher state, so the two
loops are compared through `Coded`, which relates the full words of a plaintext to
those of its ciphertext and to the states before and after.
-/

set_option autoImplicit false

namespace Otpd

open CMem

def helixMagic : UInt32 := 0x912d94f1

/-- `helix_scontext_t`. -/
structure HelixScontext where
  magic : UInt32
  l : UInt32
  k : Words 8
  x0 : Words 8

/-- `helix_dcontext_t`; `iplus8hp` points at the high half of `iplus8`. -/
structure HelixDcontext where
  n : Words 8
  z : Words 5
  x1 : Words 8
  iplus8 : UInt64

def HelixDcontext.iplus8hp (dcontext : HelixDcontext) : UInt32 := (dcontext.iplus8 >>> 32).toUInt32

/-! ## `helix_block` -/

def rol (word n : UInt32) : UInt32 := (word <<< n) ||| (word >>> (32 - n))

/-- The keystream word and the context after it. -/
def helixBlock (scontext : HelixScontext) (dcontext : HelixDcontext) (p : UInt32) :
    UInt32 × HelixDcontext :=
  let position := (dcontext.iplus8 &&& 0x07).toNat
  let x0 := scontext.x0.get position
  let x1 := dcontext.x1.get position + dcontext.iplus8.toUInt32
  let z0 := dcontext.z.get 0
  let z1 := dcontext.z.get 1
  let z2 := dcontext.z.get 2
  let z3 := dcontext.z.get 3
  let z4 := dcontext.z.get 4
  let s := z0
  let x1 := if dcontext.iplus8 &&& 0x03 = 3 then x1 + dcontext.iplus8hp else x1
  let z0 := z0 + z3; let z3 := rol z3 15
  let z1 := z1 + z4; let z4 := rol z4 25
  let z2 := z2 ^^^ z0; let z0 := rol z0 9
  let z3 := z3 ^^^ z1; let z1 := rol z1 10
  let z4 := z4 + z2; let z2 := rol z2 17
  let z0 := z0 ^^^ (z3 + x0); let z3 := rol z3 30
  let z1 := z1 ^^^ z4; let z4 := rol z4 13
  let z2 := z2 + z0; let z0 := rol z0 20
  let z3 := z3 + z1; let z1 := rol z1 11
  let z4 := z4 ^^^ z2; let z2 := rol z2 5
  let z0 := z0 + (z3 ^^^ p); let z3 := rol z3 15
  let z1 := z1 + z4; let z4 := rol z4 25
  let z2 := z2 ^^^ z0; let z0 := rol z0 9
  let z3 := z3 ^^^ z1; let z1 := rol z1 10
  let z4 := z4 + z2; let z2 := rol z2 17
  let z0 := z0 ^^^ (z3 + x1); let z3 := rol z3 30
  let z1 := z1 ^^^ z4; let z4 := rol z4 13
  let z2 := z2 + z0; let z0 := rol z0 20
  let z3 := z3 + z1; let z1 := rol z1 11
  let z4 := z4 ^^^ z2; let z2 := rol z2 5
  (s, { dcontext with iplus8 := dcontext.iplus8 + 1, z := ⟨[z0, z1, z2, z3, z4], rfl⟩ })

/-- Several blocks over one plaintext word, with their keystream words. -/
def helixBlocks (scontext : HelixScontext) (p : UInt32) :
    Nat → HelixDcontext → List UInt32 × HelixDcontext
  | 0, dcontext => ([], dcontext)
  | count + 1, dcontext =>
      let (s, dcontext) := helixBlock scontext dcontext p
      let (rest, dcontext) := helixBlocks scontext p count dcontext
      (s :: rest, dcontext)

@[simp]
theorem helixBlock_keystream (scontext : HelixScontext) (dcontext : HelixDcontext) (p : UInt32) :
    (helixBlock scontext dcontext p).1 = dcontext.z.get 0 := rfl

/-! ## `helix_setkey` and `helix_nonce` -/

/-- The rounds `i - 1` down to 0 of the key mix over `k[40]`. -/
def mixKey (l : UInt32) : Nat → HelixDcontext → Words 40 → Words 40
  | 0, _, k => k
  | i + 1, dcontext, k =>
      let unkeyed : HelixScontext := ⟨0, 0, Words.zero 8, Words.zero 8⟩
      let start : Words 5 :=
        ⟨[k.get (4 * i + 4), k.get (4 * i + 5), k.get (4 * i + 6), k.get (4 * i + 7), l + 64], rfl⟩
      let (_, dcontext) := helixBlock unkeyed { dcontext with z := start } 0
      let k := k.set (4 * i + 0) (dcontext.z.get 0 ^^^ k.get (4 * i + 8))
      let k := k.set (4 * i + 1) (dcontext.z.get 1 ^^^ k.get (4 * i + 9))
      let k := k.set (4 * i + 2) (dcontext.z.get 2 ^^^ k.get (4 * i + 10))
      let k := k.set (4 * i + 3) (dcontext.z.get 3 ^^^ k.get (4 * i + 11))
      mixKey l i dcontext k

/-- What a round of the mix puts into `z`. -/
def mixStart (l : UInt32) (i : Nat) (k : Words 40) : Words 5 :=
  ⟨[k.get (4 * i + 4), k.get (4 * i + 5), k.get (4 * i + 6), k.get (4 * i + 7), l + 64], rfl⟩

/-- The little-endian word at word index `i` of a byte string. -/
def wordAt (bytes : List Byte) (i : Nat) : UInt32 := leWord ((bytes.drop (4 * i)).take 4)

def helixSetkey (u : List Byte) : Option HelixScontext :=
  if u.length > 32 then none
  else
    let up := (Buffer.ofList 32 u).bytes
    let k : Words 40 := Words.ofFn fun i => if i.val < 32 then 0 else wordAt up (i - 32)
    let dcontext : HelixDcontext :=
      ⟨Words.zero 8, Words.zero 5, Words.ofFn fun i => 0 - UInt32.ofNat i, 0⟩
    let k := mixKey (UInt32.ofNat u.length) 8 dcontext k
    let working : Words 8 := Words.ofFn fun i => k.get i
    some ⟨helixMagic, UInt32.ofNat u.length, working, working⟩

/-- Every member of the dynamic context is set anew. -/
def helixNonce (scontext : HelixScontext) (nonce : Buffer 16) : HelixDcontext :=
  let n : Words 8 := Words.ofFn fun i =>
    if i.val < 4 then wordAt nonce.bytes i
    else UInt32.ofNat (i - 4) - wordAt nonce.bytes (i - 4)
  let x1 : Words 8 := Words.ofFn fun i =>
    scontext.k.get ((i + 4) % 8) + n.get i + (if i.val % 4 = 1 then 4 * scontext.l else 0) -
      0x80000000
  let z : Words 5 :=
    ⟨[scontext.k.get 3 ^^^ n.get 0, scontext.k.get 4 ^^^ n.get 1, scontext.k.get 5 ^^^ n.get 2,
      scontext.k.get 6 ^^^ n.get 3, scontext.k.get 7], rfl⟩
  (helixBlocks scontext 0 8 ⟨n, z, x1, 0x80000000⟩).2

/-! ## `helix_encrypt` and `helix_decrypt` -/

/-- What either direction leaves in its output buffers and in the context. -/
structure HelixOut where
  text : List Byte
  mac : Buffer 16
  dcontext : HelixDcontext

/-- The MAC phase; `leftover` is `l - i` after the last full word. -/
def helixMac (scontext : HelixScontext) (dcontext : HelixDcontext) (leftover : Nat) :
    Buffer 16 × HelixDcontext :=
  let mixed : Words 5 := dcontext.z.set 0 (dcontext.z.get 0 ^^^ helixMagic)
  let (_, dcontext) := helixBlocks scontext (UInt32.ofNat leftover) 8 { dcontext with z := mixed }
  let (words, dcontext) := helixBlocks scontext (UInt32.ofNat leftover) 4 dcontext
  (Buffer.ofList 16 (words.flatMap leBytes), dcontext)

/-- The full words of the plaintext: ciphertext, leftover bytes and context. -/
def encryptWords (scontext : HelixScontext) :
    HelixDcontext → List Byte → List Byte × List Byte × HelixDcontext
  | dcontext, b0 :: b1 :: b2 :: b3 :: rest =>
      let word := leWord [b0, b1, b2, b3]
      let (s, dcontext) := helixBlock scontext dcontext word
      let (c, left, dcontext) := encryptWords scontext dcontext rest
      (leBytes (leWord [b0, b1, b2, b3] ^^^ s) ++ c, left, dcontext)
  | dcontext, left => ([], left, dcontext)

def encryptLeft (scontext : HelixScontext) (dcontext : HelixDcontext) (left : List Byte) :
    List Byte × HelixDcontext :=
  if left = [] then ([], dcontext)
  else
    let word := leWord left
    let (s, dcontext) := helixBlock scontext dcontext word
    ((leBytes (word ^^^ s)).take left.length, dcontext)

def helixEncrypt (scontext : HelixScontext) (dcontext : HelixDcontext) (p : List Byte) :
    Option HelixOut :=
  if scontext.magic ≠ helixMagic then none
  else
    let (c, left, dcontext) := encryptWords scontext dcontext p
    let (last, dcontext) := encryptLeft scontext dcontext left
    let (mac, dcontext) := helixMac scontext dcontext left.length
    some ⟨c ++ last, mac, dcontext⟩

def decryptWords (scontext : HelixScontext) :
    HelixDcontext → List Byte → List Byte × List Byte × HelixDcontext
  | dcontext, b0 :: b1 :: b2 :: b3 :: rest =>
      let word := leWord [b0, b1, b2, b3] ^^^ dcontext.z.get 0
      let (s, dcontext) := helixBlock scontext dcontext word
      let (p, left, dcontext) := decryptWords scontext dcontext rest
      (leBytes (leWord [b0, b1, b2, b3] ^^^ s) ++ p, left, dcontext)
  | dcontext, left => ([], left, dcontext)

def decryptLeft (scontext : HelixScontext) (dcontext : HelixDcontext) (left : List Byte) :
    List Byte × HelixDcontext :=
  if left = [] then ([], dcontext)
  else
    let last := xorBytes left ((leBytes (dcontext.z.get 0)).take left.length)
    let (_, dcontext) := helixBlock scontext dcontext (leWord last)
    (last, dcontext)

def helixDecrypt (scontext : HelixScontext) (dcontext : HelixDcontext) (c : List Byte) :
    Option HelixOut :=
  if scontext.magic ≠ helixMagic then none
  else
    let (p, left, dcontext) := decryptWords scontext dcontext c
    let (last, dcontext) := decryptLeft scontext dcontext left
    let (mac, dcontext) := helixMac scontext dcontext left.length
    some ⟨p ++ last, mac, dcontext⟩

/-! ## The two directions -/

/-- The full words of plaintext `p` and ciphertext `c`, and the context before and
after either direction has gone through them. -/
inductive Coded (scontext : HelixScontext) :
    HelixDcontext → List Byte → List Byte → HelixDcontext → Prop where
  | done (dcontext : HelixDcontext) : Coded scontext dcontext [] [] dcontext
  | word {dcontext after : HelixDcontext} {p c : List Byte} (word : UInt32)
      (rest : Coded scontext (helixBlock scontext dcontext word).2 p c after) :
      Coded scontext dcontext (leBytes word ++ p) (leBytes (word ^^^ dcontext.z.get 0) ++ c) after

section Coded

variable {scontext : HelixScontext} {dcontext after : HelixDcontext} {p c : List Byte}

theorem leBytes_leWord_four (b0 b1 b2 b3 : Byte) :
    leBytes (leWord [b0, b1, b2, b3]) = [b0, b1, b2, b3] := leBytes_packed b0 b1 b2 b3

theorem encryptWords_short {left : List Byte} (short : left.length < 4) :
    encryptWords scontext dcontext left = ([], left, dcontext) := by
  unfold encryptWords
  split
  · simp only [List.length_cons] at short
    omega
  · rfl

theorem decryptWords_short {left : List Byte} (short : left.length < 4) :
    decryptWords scontext dcontext left = ([], left, dcontext) := by
  unfold decryptWords
  split
  · simp only [List.length_cons] at short
    omega
  · rfl

theorem Coded.encryptWords (coded : Coded scontext dcontext p c after) {left : List Byte}
    (short : left.length < 4) :
    encryptWords scontext dcontext (p ++ left) = (c, left, after) := by
  induction coded with
  | done dcontext => exact encryptWords_short short
  | word word rest ih =>
      have bytes := leWord_leBytes word
      simp only [leBytes] at bytes
      simp only [leBytes, List.cons_append, List.nil_append, Otpd.encryptWords, bytes, ih,
        helixBlock_keystream]

theorem Coded.decryptWords (coded : Coded scontext dcontext p c after) {left : List Byte}
    (short : left.length < 4) :
    decryptWords scontext dcontext (c ++ left) = (p, left, after) := by
  induction coded with
  | done dcontext => exact decryptWords_short short
  | @word dcontext after p c word rest ih =>
      have bytes := leWord_leBytes (word ^^^ dcontext.z.get 0)
      have cancel : word ^^^ dcontext.z.get 0 ^^^ dcontext.z.get 0 = word := by
        rw [UInt32.xor_assoc, UInt32.xor_self, UInt32.xor_zero]
      simp only [leBytes] at bytes
      simp only [leBytes, List.cons_append, List.nil_append, Otpd.decryptWords, bytes, cancel, ih,
        helixBlock_keystream]

theorem four_bytes {n : Nat} {bytes : List Byte} (full : bytes.length = 4 * (n + 1)) :
    ∃ word rest, bytes = leBytes word ++ rest ∧ rest.length = 4 * n := by
  match bytes, full with
  | b0 :: b1 :: b2 :: b3 :: rest, full =>
      refine ⟨leWord [b0, b1, b2, b3], rest, ?_, ?_⟩
      · rw [leBytes_leWord_four]
        rfl
      · simp only [List.length_cons] at full
        omega

theorem Coded.of_plaintext (n : Nat) : ∀ (dcontext : HelixDcontext) (p : List Byte),
    p.length = 4 * n → ∃ c after, Coded scontext dcontext p c after := by
  induction n with
  | zero =>
      intro dcontext p empty
      rw [List.eq_nil_of_length_eq_zero empty]
      exact ⟨[], dcontext, .done dcontext⟩
  | succ n ih =>
      intro dcontext p full
      obtain ⟨word, rest, rfl, shorter⟩ := four_bytes full
      obtain ⟨c, after, coded⟩ := ih (helixBlock scontext dcontext word).2 rest shorter
      exact ⟨_, after, coded.word word⟩

theorem Coded.of_ciphertext (n : Nat) : ∀ (dcontext : HelixDcontext) (c : List Byte),
    c.length = 4 * n → ∃ p after, Coded scontext dcontext p c after := by
  induction n with
  | zero =>
      intro dcontext c empty
      rw [List.eq_nil_of_length_eq_zero empty]
      exact ⟨[], dcontext, .done dcontext⟩
  | succ n ih =>
      intro dcontext c full
      obtain ⟨word, rest, rfl, shorter⟩ := four_bytes full
      obtain ⟨p, after, coded⟩ := ih
        (helixBlock scontext dcontext (word ^^^ dcontext.z.get 0)).2 rest shorter
      have whole := coded.word (word ^^^ dcontext.z.get 0)
      rw [UInt32.xor_assoc, UInt32.xor_self, UInt32.xor_zero] at whole
      exact ⟨_, after, whole⟩

end Coded

/-- The context after a leftover plaintext of fewer than four bytes. -/
def absorbLeft (scontext : HelixScontext) (dcontext : HelixDcontext) (left : List Byte) :
    HelixDcontext :=
  if left = [] then dcontext else (helixBlock scontext dcontext (leWord left)).2

section Left

variable (scontext : HelixScontext) (dcontext : HelixDcontext) {left : List Byte}

theorem encryptLeft_eq (short : left.length < 4) :
    encryptLeft scontext dcontext left =
      (xorBytes left (leBytes (dcontext.z.get 0)), absorbLeft scontext dcontext left) := by
  by_cases empty : left = []
  · subst empty
    rfl
  · have masked : (leBytes (leWord left ^^^ dcontext.z.get 0)).take left.length =
        xorBytes left (leBytes (dcontext.z.get 0)) := by
      rw [leBytes_xor, take_xorBytes, leBytes_leWord left (by omega), xorBytes_take]
    rw [encryptLeft, if_neg empty, absorbLeft, if_neg empty]
    exact congrArg (·, _) masked

theorem decryptLeft_eq :
    decryptLeft scontext dcontext left =
      (xorBytes left (leBytes (dcontext.z.get 0)),
        absorbLeft scontext dcontext (xorBytes left (leBytes (dcontext.z.get 0)))) := by
  cases left with
  | nil => rfl
  | cons b rest =>
      rw [decryptLeft, if_neg (List.cons_ne_nil _ _), xorBytes_take, absorbLeft, if_neg]
      simp [xorBytes, leBytes]

/-- One direction on the leftover bytes undoes the other, with the same context. -/
theorem left_inverse (short : left.length < 4) :
    xorBytes (xorBytes left (leBytes (dcontext.z.get 0))) (leBytes (dcontext.z.get 0)) = left :=
  xorBytes_cancel left _ (by rw [leBytes_length]; omega)

end Left

/-! ## Round trip -/

section RoundTrip

variable {scontext : HelixScontext} {dcontext : HelixDcontext}

theorem split_words (bytes : List Byte) :
    ∃ n full left, bytes = full ++ left ∧ full.length = 4 * n ∧ left.length < 4 := by
  refine ⟨bytes.length / 4, bytes.take (4 * (bytes.length / 4)),
    bytes.drop (4 * (bytes.length / 4)), (List.take_append_drop _ _).symm, ?_, ?_⟩
  · rw [List.length_take]
    omega
  · rw [List.length_drop]
    omega

/-- Both directions on full words `p`, `c` followed by the plaintext bytes `left`. -/
theorem Coded.whole {after : HelixDcontext} {p c left : List Byte}
    (keyed : scontext.magic = helixMagic) (coded : Coded scontext dcontext p c after)
    (short : left.length < 4) :
    ∃ mac dcontext',
      helixEncrypt scontext dcontext (p ++ left) =
        some ⟨c ++ xorBytes left (leBytes (after.z.get 0)), mac, dcontext'⟩ ∧
      helixDecrypt scontext dcontext (c ++ xorBytes left (leBytes (after.z.get 0))) =
        some ⟨p ++ left, mac, dcontext'⟩ := by
  have covered : (xorBytes left (leBytes (after.z.get 0))).length = left.length := by
    rw [xorBytes_length, leBytes_length]
    omega
  refine ⟨(helixMac scontext (absorbLeft scontext after left) left.length).1,
    (helixMac scontext (absorbLeft scontext after left) left.length).2, ?_, ?_⟩
  · rw [helixEncrypt, if_neg (not_not_intro keyed), coded.encryptWords short]
    simp only [encryptLeft_eq scontext after short]
  · rw [helixDecrypt, if_neg (not_not_intro keyed), coded.decryptWords (covered.trans_lt short)]
    simp only [decryptLeft_eq, left_inverse after short, covered]

theorem helixDecrypt_encrypt (dcontext : HelixDcontext) (keyed : scontext.magic = helixMagic)
    (p : List Byte) :
    ∃ out, helixEncrypt scontext dcontext p = some out ∧
      helixDecrypt scontext dcontext out.text = some ⟨p, out.mac, out.dcontext⟩ := by
  obtain ⟨n, full, left, rfl, words, short⟩ := split_words p
  obtain ⟨c, after, coded⟩ := Coded.of_plaintext n dcontext full words
  obtain ⟨mac, dcontext', encrypted, decrypted⟩ := coded.whole keyed short
  exact ⟨_, encrypted, decrypted⟩

theorem helixEncrypt_decrypt (dcontext : HelixDcontext) (keyed : scontext.magic = helixMagic)
    (c : List Byte) :
    ∃ out, helixDecrypt scontext dcontext c = some out ∧
      helixEncrypt scontext dcontext out.text = some ⟨c, out.mac, out.dcontext⟩ := by
  obtain ⟨n, full, left, rfl, words, short⟩ := split_words c
  obtain ⟨p, after, coded⟩ := Coded.of_ciphertext n dcontext full words
  have plain : (xorBytes left (leBytes (after.z.get 0))).length < 4 := by
    rw [xorBytes_length]
    omega
  obtain ⟨mac, dcontext', encrypted, decrypted⟩ := coded.whole keyed plain
  rw [left_inverse after short] at encrypted decrypted
  exact ⟨_, decrypted, encrypted⟩

end RoundTrip

theorem encryptWords_length (scontext : HelixScontext) (dcontext : HelixDcontext) (p : List Byte) :
    (encryptWords scontext dcontext p).1.length + (encryptWords scontext dcontext p).2.1.length =
        p.length ∧
      (encryptWords scontext dcontext p).2.1.length < 4 := by
  fun_induction encryptWords scontext dcontext p with
  | case1 dcontext b0 b1 b2 b3 rest word s dcontext' block c left dcontext'' words ih =>
      rw [words] at ih
      simp only [List.length_append, List.length_cons, leBytes, List.length_nil] at ih ⊢
      omega
  | case2 dcontext left short =>
      refine ⟨by simp, ?_⟩
      rcases left with _ | ⟨b0, _ | ⟨b1, _ | ⟨b2, _ | ⟨b3, rest⟩⟩⟩⟩
      · simp
      · simp
      · simp
      · simp
      · exact (short b0 b1 b2 b3 rest rfl).elim

theorem encryptLeft_length (scontext : HelixScontext) (dcontext : HelixDcontext) {left : List Byte}
    (short : left.length < 4) : (encryptLeft scontext dcontext left).1.length = left.length := by
  rw [encryptLeft]
  split
  · rename_i empty
    simp [empty]
  · simp only [List.length_take, leBytes, List.length_cons, List.length_nil]
    omega

theorem helixEncrypt_length {scontext : HelixScontext} {dcontext : HelixDcontext} {p : List Byte}
    {out : HelixOut} (encrypted : helixEncrypt scontext dcontext p = some out) :
    out.text.length = p.length := by
  obtain ⟨whole, short⟩ := encryptWords_length scontext dcontext p
  simp only [helixEncrypt] at encrypted
  split_ifs at encrypted
  have text := congrArg HelixOut.text (Option.some.inj encrypted)
  simp only at text
  rw [← text, List.length_append, encryptLeft_length scontext _ short, whole]

theorem helixSetkey_keyed {u : List Byte} (short : u.length ≤ 32) :
    ∃ scontext, helixSetkey u = some scontext ∧ scontext.magic = helixMagic := by
  rw [helixSetkey, if_neg (by omega)]
  exact ⟨_, rfl, rfl⟩

theorem helix_inverse (u : List Byte) (short : u.length ≤ 32) (nonce : Buffer 16)
    (text : List Byte) :
    ∃ scontext, helixSetkey u = some scontext ∧
      (∃ sent back, helixEncrypt scontext (helixNonce scontext nonce) text = some sent ∧
        helixDecrypt scontext (helixNonce scontext nonce) sent.text = some back ∧
        back.text = text ∧ back.mac = sent.mac) ∧
      (∃ opened again, helixDecrypt scontext (helixNonce scontext nonce) text = some opened ∧
        helixEncrypt scontext (helixNonce scontext nonce) opened.text = some again ∧
        again.text = text ∧ again.mac = opened.mac) := by
  obtain ⟨scontext, set, keyed⟩ := helixSetkey_keyed short
  refine ⟨scontext, set, ?_, ?_⟩
  · obtain ⟨sent, encrypted, decrypted⟩ :=
      helixDecrypt_encrypt (helixNonce scontext nonce) keyed text
    exact ⟨sent, _, encrypted, decrypted, rfl, rfl⟩
  · obtain ⟨opened, decrypted, encrypted⟩ :=
      helixEncrypt_decrypt (helixNonce scontext nonce) keyed text
    exact ⟨opened, _, decrypted, encrypted, rfl, rfl⟩

/-- A 16-byte key, as gsmd sections configure it, and a text that ends in a partial word. -/
theorem helix_inverse_partial_word :
    (List.replicate 16 (7 : Byte)).length ≤ 32 ∧
      ∃ scontext, helixSetkey (List.replicate 16 7) = some scontext ∧
        ∃ sent back,
          helixEncrypt scontext (helixNonce scontext (Buffer.zero 16)) (ascii "G alice") =
            some sent ∧
          helixDecrypt scontext (helixNonce scontext (Buffer.zero 16)) sent.text = some back ∧
          back.text = ascii "G alice" ∧ back.mac = sent.mac := by
  obtain ⟨scontext, set, forth, -⟩ :=
    helix_inverse (List.replicate 16 7) (by decide) (Buffer.zero 16) (ascii "G alice")
  exact ⟨by decide, scontext, set, forth⟩

end Otpd

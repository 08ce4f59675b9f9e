import Otpd.Helix

/-!
# The key schedule of Helix

`helix_block` adds the words `x0` and `x1` into its rounds.  The second comes from a
table biased by -2^31 and a counter biased by +2^31, whose high half stands in for bits
31..62 of `i + 8`; here it is compared with the sum the comment in `helix_block`
describes, at every position of every stream.
-/

set_option autoImplicit false

namespace Otpd

open CMem

/-! ## The words of one block -/

def blockX0 (scontext : HelixScontext) (dcontext : HelixDcontext) : UInt32 :=
  scontext.x0.get (dcontext.iplus8 &&& 0x07).toNat

def blockX1 (dcontext : HelixDcontext) : UInt32 :=
  let x1 := dcontext.x1.get (dcontext.iplus8 &&& 0x07).toNat + dcontext.iplus8.toUInt32
  if dcontext.iplus8 &&& 0x03 = 3 then x1 + dcontext.iplus8hp else x1

/-- The twenty rounds of `helix_block`. -/
def helixRounds (z : Words 5) (x0 x1 p : UInt32) : Words 5 :=
  let z0 := z.get 0
  let z1 := z.get 1
  let z2 := z.get 2
  let z3 := z.get 3
  let z4 := z.get 4
  let z0 := z0 + z3; let z3 := rol z3 15
  let z1 := z1 + z4; let z4 := rol z4 25
  let z2 := z2 ^^^ z0; let z0 := rol z0 9
  let z3 := z3 ^^^ z1; let z1 := rol z1 10
  let z4 := z4 + z2; let z2 := rol z2 17
  let z0 := z0 ^^^ (z3 + x0); let z3 := rol z3 30
  let z1 := z1 ^^^ z4; let z4 := rol z4 13
  let z2 := z2 + z0; let z0 := rol z0 20
  let z3 := z3 + z1; let z1 := rol z1 11
  let z4 := z4 ^^^ z2; let z2 := rol z2 5
  let z0 := z0 + (z3 ^^^ p); let z3 := rol z3 15
  let z1 := z1 + z4; let z4 := rol z4 25
  let z2 := z2 ^^^ z0; let z0 := rol z0 9
  let z3 := z3 ^^^ z1; let z1 := rol z1 10
  let z4 := z4 + z2; let z2 := rol z2 17
  let z0 := z0 ^^^ (z3 + x1); let z3 := rol z3 30
  let z1 := z1 ^^^ z4; let z4 := rol z4 13
  let z2 := z2 + z0; let z0 := rol z0 20
  let z3 := z3 + z1; let z1 := rol z1 11
  let z4 := z4 ^^^ z2; let z2 := rol z2 5
  ⟨[z0, z1, z2, z3, z4], rfl⟩

/-- The schedule reaches the rounds through these two words only. -/
theorem helixBlock_rounds (scontext : HelixScontext) (dcontext : HelixDcontext) (p : UInt32) :
    helixBlock scontext dcontext p =
      (dcontext.z.get 0,
        { dcontext with
          z := helixRounds dcontext.z (blockX0 scontext dcontext) (blockX1 dcontext) p
          iplus8 := dcontext.iplus8 + 1 }) := rfl

/-! ## Streams -/

def nonceWords (nonce : Buffer 16) : Words 8 :=
  Words.ofFn fun i =>
    if i.val < 4 then wordAt nonce.bytes i
    else UInt32.ofNat (i - 4) - wordAt nonce.bytes (i - 4)

/-- The table `x1` that `helix_nonce` computes. -/
def nonceX1 (scontext : HelixScontext) (nonce : Buffer 16) : Words 8 :=
  Words.ofFn fun i =>
    scontext.k.get ((i + 4) % 8) + (nonceWords nonce).get i +
      (if i.val % 4 = 1 then 4 * scontext.l else 0) - 0x80000000

/-- The context of `helix_nonce` at `i = -8`, before its first block. -/
def nonceStart (scontext : HelixScontext) (nonce : Buffer 16) : HelixDcontext :=
  let n := nonceWords nonce
  let z : Words 5 :=
    ⟨[scontext.k.get 3 ^^^ n.get 0, scontext.k.get 4 ^^^ n.get 1, scontext.k.get 5 ^^^ n.get 2,
      scontext.k.get 6 ^^^ n.get 3, scontext.k.get 7], rfl⟩
  ⟨n, z, nonceX1 scontext nonce, 0x80000000⟩

/-- The contexts between the blocks of a stream; `count` blocks have been computed, so the
next one has `i = count - 8`.  Any word may be absorbed, and `z[0]` is masked once before
the MAC. -/
inductive StreamAt (scontext : HelixScontext) (nonce : Buffer 16) : Nat → HelixDcontext → Prop where
  | start : StreamAt scontext nonce 0 (nonceStart scontext nonce)
  | block {count : Nat} {dcontext : HelixDcontext} (p : UInt32)
      (before : StreamAt scontext nonce count dcontext) :
      StreamAt scontext nonce (count + 1) (helixBlock scontext dcontext p).2
  | mac {count : Nat} {dcontext : HelixDcontext} (before : StreamAt scontext nonce count dcontext) :
      StreamAt scontext nonce count
        { dcontext with z := dcontext.z.set 0 (dcontext.z.get 0 ^^^ helixMagic) }

section Stream

variable {scontext : HelixScontext} {nonce : Buffer 16} {count : Nat} {dcontext : HelixDcontext}

theorem StreamAt.blocks (p : UInt32) (n : Nat) (before : StreamAt scontext nonce count dcontext) :
    StreamAt scontext nonce (count + n) (helixBlocks scontext p n dcontext).2 := by
  induction n generalizing count dcontext with
  | zero => exact before
  | succ n ih =>
      rw [show count + (n + 1) = count + 1 + n by omega]
      exact ih (before.block p)

theorem helixNonce_at (scontext : HelixScontext) (nonce : Buffer 16) :
    StreamAt scontext nonce 8 (helixNonce scontext nonce) := by
  rw [show 8 = 0 + 8 from rfl]
  exact StreamAt.start.blocks 0 8

theorem StreamAt.words {p c : List Byte} {after : HelixDcontext}
    (coded : Coded scontext dcontext p c after) (before : StreamAt scontext nonce count dcontext) :
    StreamAt scontext nonce (count + p.length / 4) after := by
  induction coded generalizing count with
  | done dcontext => exact before
  | @word dcontext after p c word rest ih =>
      have next := ih (before.block word)
      rw [List.length_append, leBytes_length, show count + (4 + p.length) / 4 =
        count + 1 + p.length / 4 by omega]
      exact next

theorem StreamAt.absorbLeft {left : List Byte} (before : StreamAt scontext nonce count dcontext)
    (short : left.length < 4) :
    StreamAt scontext nonce (count + (left.length + 3) / 4)
      (absorbLeft scontext dcontext left) := by
  rw [Otpd.absorbLeft]
  by_cases empty : left = []
  · rw [if_pos empty, empty]
    exact before
  · have some_left := List.length_pos_of_ne_nil empty
    rw [if_neg empty, show (left.length + 3) / 4 = 1 by omega]
    exact before.block _

theorem StreamAt.helixMac (before : StreamAt scontext nonce count dcontext) (leftover : Nat) :
    StreamAt scontext nonce (count + 8 + 4) (helixMac scontext dcontext leftover).2 := by
  have masked := before.mac.blocks (UInt32.ofNat leftover) 8
  have emitted := masked.blocks (UInt32.ofNat leftover) 4
  simp only [Otpd.helixMac]
  exact emitted

/-- An encryption computes its blocks along one stream, the MAC's among them. -/
theorem helixEncrypt_at (before : StreamAt scontext nonce count dcontext) {p : List Byte}
    {out : HelixOut} (encrypted : helixEncrypt scontext dcontext p = some out) :
    StreamAt scontext nonce (count + (p.length + 3) / 4 + 8 + 4) out.dcontext := by
  obtain ⟨n, full, left, rfl, words, short⟩ := split_words p
  obtain ⟨c, after, coded⟩ : ∃ c after, Coded scontext dcontext full c after :=
    Coded.of_plaintext n dcontext full words
  simp only [helixEncrypt, coded.encryptWords short, encryptLeft_eq scontext after short]
    at encrypted
  split_ifs at encrypted
  have final := congrArg HelixOut.dcontext (Option.some.inj encrypted)
  have absorbed := (before.words coded).absorbLeft short
  rw [← final, List.length_append, show count + (full.length + left.length + 3) / 4 =
    count + full.length / 4 + (left.length + 3) / 4 by omega]
  exact absorbed.helixMac left.length

/-- A decryption goes through the positions of the encryption it undoes. -/
theorem helixDecrypt_at (before : StreamAt scontext nonce count dcontext)
    (keyed : scontext.magic = helixMagic) {c : List Byte} {out : HelixOut}
    (decrypted : helixDecrypt scontext dcontext c = some out) :
    StreamAt scontext nonce (count + (c.length + 3) / 4 + 8 + 4) out.dcontext := by
  obtain ⟨opened, again, encrypted⟩ := helixEncrypt_decrypt dcontext keyed c
  rw [decrypted] at again
  cases again
  have same_length := helixEncrypt_length encrypted
  have stream := helixEncrypt_at before encrypted
  rw [← same_length] at stream
  exact stream

/-- The table and the nonce words are never written again, and the counter counts. -/
theorem StreamAt.counted (stream : StreamAt scontext nonce count dcontext) :
    dcontext.x1 = nonceX1 scontext nonce ∧ dcontext.iplus8 = UInt64.ofNat (2 ^ 31 + count) := by
  induction stream with
  | start => exact ⟨rfl, rfl⟩
  | @block count dcontext p before ih =>
      obtain ⟨table, counter⟩ := ih
      refine ⟨table, ?_⟩
      rw [helixBlock_rounds]
      simp only [counter, ← Nat.add_assoc, UInt64.ofNat_add]
      rfl
  | mac before ih => exact ih

theorem StreamAt.reached (scontext : HelixScontext) (nonce : Buffer 16) (count : Nat) :
    ∃ dcontext, StreamAt scontext nonce count dcontext := by
  induction count with
  | zero => exact ⟨_, .start⟩
  | succ count ih =>
      obtain ⟨dcontext, stream⟩ := ih
      exact ⟨_, stream.block 0⟩

end Stream

/-! ## The word `x1` -/

/-- The `x'i` of the comment in `helix_block`. -/
def xPrime (l : UInt32) (i : Int) : UInt32 :=
  if i % 4 = 3 then UInt32.ofNat ((i + 8) / 2 ^ 31).toNat
  else if i % 4 = 1 then 4 * l
  else 0

/-- `x1` as the comment in `helix_block` describes it. -/
def describedX1 (scontext : HelixScontext) (n : Words 8) (i : Int) : UInt32 :=
  scontext.k.get ((i + 4) % 8).toNat + n.get (i % 8).toNat + xPrime scontext.l i +
    UInt32.ofNat (i + 8).toNat

section BlockX1

variable {scontext : HelixScontext} {nonce : Buffer 16} {count : Nat} {dcontext : HelixDcontext}

theorem iplus8_toNat (bounded : count < 2 ^ 62) :
    (UInt64.ofNat (2 ^ 31 + count)).toNat = 2 ^ 31 + count :=
  UInt64.toNat_ofNat_of_lt' (by rw [UInt64.size]; omega)

theorem iplus8_mod8 (bounded : count < 2 ^ 62) :
    (UInt64.ofNat (2 ^ 31 + count) &&& 0x07).toNat = count % 8 := by
  rw [UInt64.toNat_and, iplus8_toNat bounded]
  have masked := Nat.and_two_pow_sub_one_eq_mod (2 ^ 31 + count) 3
  simp at masked ⊢
  omega

theorem iplus8_mod4 (bounded : count < 2 ^ 62) :
    UInt64.ofNat (2 ^ 31 + count) &&& 0x03 = 3 ↔ count % 4 = 3 := by
  rw [← UInt64.toNat_inj, UInt64.toNat_and, iplus8_toNat bounded]
  have masked := Nat.and_two_pow_sub_one_eq_mod (2 ^ 31 + count) 2
  simp at masked ⊢
  omega

/-- The bias of the counter's low half is the bias of the table. -/
theorem iplus8_low (count : Nat) :
    (UInt64.ofNat (2 ^ 31 + count)).toUInt32 = UInt32.ofNat count + 0x80000000 := by
  rw [UInt64.toUInt32_ofNat', UInt32.ofNat_add, UInt32.add_comm]
  rfl

theorem iplus8_high (bounded : count < 2 ^ 62) :
    (UInt64.ofNat (2 ^ 31 + count) >>> 32).toUInt32 =
      UInt32.ofNat ((2 ^ 31 + count) / 2 ^ 32) := by
  rw [← UInt32.toNat_inj, UInt64.toNat_toUInt32, UInt64.toNat_shiftRight, iplus8_toNat bounded,
    UInt32.toNat_ofNat', Nat.shiftRight_eq_div_pow]
  rfl

/-- What the code has in the place of `x'i`. -/
def carriedX (l : UInt32) (count : Nat) : UInt32 :=
  if count % 4 = 3 then UInt32.ofNat ((2 ^ 31 + count) / 2 ^ 32)
  else if count % 4 = 1 then 4 * l
  else 0

theorem words_get_ofFn {n : Nat} (f : Fin n → UInt32) (i : Fin n) : (Words.ofFn f).get i = f i := by
  simp [Words.get, Words.ofFn, List.getD_eq_getElem?_getD]

theorem nonceX1_get (scontext : HelixScontext) (nonce : Buffer 16) (count : Nat) :
    (nonceX1 scontext nonce).get (count % 8) =
      scontext.k.get ((count + 4) % 8) + (nonceWords nonce).get (count % 8) +
        (if count % 4 = 1 then 4 * scontext.l else 0) - 0x80000000 := by
  have inside : count % 8 < 8 := Nat.mod_lt _ (by decide)
  have entry := words_get_ofFn (fun i : Fin 8 =>
    scontext.k.get ((i + 4) % 8) + (nonceWords nonce).get i +
      (if i.val % 4 = 1 then 4 * scontext.l else 0) - 0x80000000) ⟨count % 8, inside⟩
  rw [nonceX1, entry]
  simp only [show (count % 8 + 4) % 8 = (count + 4) % 8 by omega,
    show count % 8 % 4 = count % 4 by omega]

theorem StreamAt.blockX1 (stream : StreamAt scontext nonce count dcontext)
    (bounded : count < 2 ^ 62) :
    blockX1 dcontext =
      scontext.k.get ((count + 4) % 8) + (nonceWords nonce).get (count % 8) +
        carriedX scontext.l count + UInt32.ofNat count := by
  obtain ⟨table, counter⟩ := stream.counted
  rw [Otpd.blockX1, HelixDcontext.iplus8hp, table, counter, iplus8_mod8 bounded, iplus8_low,
    iplus8_high bounded, nonceX1_get, carriedX]
  generalize scontext.k.get ((count + 4) % 8) + (nonceWords nonce).get (count % 8) = keyed
  generalize UInt32.ofNat count = low
  by_cases third : count % 4 = 3
  · rw [if_pos ((iplus8_mod4 bounded).mpr third), if_neg (by omega), if_pos third]
    generalize UInt32.ofNat ((2 ^ 31 + count) / 2 ^ 32) = high
    grind
  · rw [if_neg (fun masked => third ((iplus8_mod4 bounded).mp masked)), if_neg third]
    generalize (if count % 4 = 1 then 4 * scontext.l else 0) = lengths
    grind

theorem describedX1_at (scontext : HelixScontext) (n : Words 8) (count : Nat) :
    describedX1 scontext n ((count : Int) - 8) =
      scontext.k.get ((count + 4) % 8) + n.get (count % 8) +
        xPrime scontext.l ((count : Int) - 8) + UInt32.ofNat count := by
  rw [describedX1, show (((count : Int) - 8 + 4) % 8).toNat = (count + 4) % 8 by omega,
    show (((count : Int) - 8) % 8).toNat = count % 8 by omega,
    show ((count : Int) - 8 + 8).toNat = count by omega]

theorem xPrime_at (l : UInt32) (count : Nat) :
    xPrime l ((count : Int) - 8) =
      if count % 4 = 3 then UInt32.ofNat (count / 2 ^ 31)
      else if count % 4 = 1 then 4 * l
      else 0 := by
  rw [xPrime, show ((count : Int) - 8 + 8) / 2 ^ 31 = ((count / 2 ^ 31 : Nat) : Int) by omega,
    Int.toNat_natCast, show ((count : Int) - 8) % 4 = ((count % 4 : Nat) : Int) by omega]
  norm_cast

/-- The high half of the biased counter is one binary place short of bits 31..62, so it is
right only while both are 0 or 1. -/
theorem carriedX_eq (l : UInt32) (bounded : count < 2 ^ 62) :
    carriedX l count = xPrime l ((count : Int) - 8) ↔ (count % 4 = 3 → count < 2 ^ 32) := by
  rw [carriedX, xPrime_at]
  by_cases third : count % 4 = 3
  · rw [if_pos third, if_pos third, ← UInt32.toNat_inj, UInt32.toNat_ofNat', UInt32.toNat_ofNat']
    constructor
    · intro same _
      omega
    · intro low
      have small := low third
      omega
  · rw [if_neg third, if_neg third]
    exact ⟨fun _ at_third => absurd at_third third, fun _ => rfl⟩

theorem StreamAt.described (stream : StreamAt scontext nonce count dcontext)
    (bounded : count < 2 ^ 62) :
    Otpd.blockX1 dcontext = describedX1 scontext (nonceWords nonce) ((count : Int) - 8) ↔
      (count % 4 = 3 → count < 2 ^ 32) := by
  rw [stream.blockX1 bounded, describedX1_at, UInt32.add_left_inj, UInt32.add_right_inj]
  exact carriedX_eq scontext.l bounded

end BlockX1

/-! ## The mixing blocks of `helix_setkey` -/

/-- `mixKey` with the words `x0` and `x1` of every block it computes. -/
def mixKeyWords (l : UInt32) :
    Nat → HelixDcontext → Words 40 → Words 40 × List (UInt32 × UInt32)
  | 0, _, k => (k, [])
  | i + 1, dcontext, k =>
      let unkeyed : HelixScontext := ⟨0, 0, Words.zero 8, Words.zero 8⟩
      let mixing := { dcontext with z := mixStart l i k }
      let dcontext := (helixBlock unkeyed mixing 0).2
      let k := k.set (4 * i + 0) (dcontext.z.get 0 ^^^ k.get (4 * i + 8))
      let k := k.set (4 * i + 1) (dcontext.z.get 1 ^^^ k.get (4 * i + 9))
      let k := k.set (4 * i + 2) (dcontext.z.get 2 ^^^ k.get (4 * i + 10))
      let k := k.set (4 * i + 3) (dcontext.z.get 3 ^^^ k.get (4 * i + 11))
      let rest := mixKeyWords l i dcontext k
      (rest.1, (blockX0 unkeyed mixing, blockX1 mixing) :: rest.2)

/-- `helixSetkey` with the words of its mixing blocks. -/
def helixSetkeyWords (u : List Byte) : Option (HelixScontext × List (UInt32 × UInt32)) :=
  if u.length > 32 then none
  else
    let up := (Buffer.ofList 32 u).bytes
    let k : Words 40 := Words.ofFn fun i => if i.val < 32 then 0 else wordAt up (i - 32)
    let dcontext : HelixDcontext :=
      ⟨Words.zero 8, Words.zero 5, Words.ofFn fun i => 0 - UInt32.ofNat i, 0⟩
    let mixed := mixKeyWords (UInt32.ofNat u.length) 8 dcontext k
    let working : Words 8 := Words.ofFn fun i => mixed.1.get i
    some (⟨helixMagic, UInt32.ofNat u.length, working, working⟩, mixed.2)

section Setkey

theorem mixKeyWords_key (l : UInt32) (i : Nat) (dcontext : HelixDcontext) (k : Words 40) :
    (mixKeyWords l i dcontext k).1 = mixKey l i dcontext k := by
  induction i generalizing dcontext k with
  | zero => rfl
  | succ i ih => exact ih _ _

/-- The table that `helix_setkey` sets up takes the counter away again. -/
theorem mixing_words : ∀ j : Fin 8,
    blockX0 ⟨0, 0, Words.zero 8, Words.zero 8⟩
        ⟨Words.zero 8, Words.zero 5, Words.ofFn fun i => 0 - UInt32.ofNat i, UInt64.ofNat j⟩ = 0 ∧
      blockX1 ⟨Words.zero 8, Words.zero 5, Words.ofFn fun i => 0 - UInt32.ofNat i, UInt64.ofNat j⟩ =
        0 := by
  decide

theorem mixKeyWords_added (l : UInt32) (i j : Nat) (dcontext : HelixDcontext) (k : Words 40)
    (table : dcontext.x1 = Words.ofFn fun i => 0 - UInt32.ofNat i)
    (counter : dcontext.iplus8 = UInt64.ofNat j) (rounds : i + j ≤ 8) :
    (mixKeyWords l i dcontext k).2 = List.replicate i (0, 0) := by
  induction i generalizing j dcontext k with
  | zero => rfl
  | succ i ih =>
      obtain ⟨zero_x0, zero_x1⟩ := mixing_words ⟨j, by omega⟩
      obtain ⟨n, z, x1, iplus8⟩ := dcontext
      simp only at table counter
      subst table counter
      have counted : UInt64.ofNat j + 1 = UInt64.ofNat (j + 1) := by
        rw [UInt64.ofNat_add]
        rfl
      simp only [mixKeyWords, helixBlock_rounds, List.replicate_succ, List.cons.injEq,
        Prod.mk.injEq]
      refine ⟨⟨zero_x0, zero_x1⟩, ?_⟩
      apply ih (j + 1)
      · rfl
      · exact counted
      · omega

/-- The whole mix, from the context that `helix_setkey` starts with. -/
theorem mixKeyWords_eq (l : UInt32) (k : Words 40) :
    mixKeyWords l 8 ⟨Words.zero 8, Words.zero 5, Words.ofFn fun i => 0 - UInt32.ofNat i, 0⟩ k =
      (mixKey l 8 ⟨Words.zero 8, Words.zero 5, Words.ofFn fun i => 0 - UInt32.ofNat i, 0⟩ k,
        List.replicate 8 (0, 0)) := by
  apply Prod.ext
  · exact mixKeyWords_key l 8 _ k
  · exact mixKeyWords_added l 8 0 _ k rfl rfl (Nat.le_refl 8)

theorem helixSetkeyWords_eq (u : List Byte) :
    helixSetkeyWords u =
      (helixSetkey u).map fun scontext => (scontext, List.replicate 8 (0, 0)) := by
  rw [helixSetkeyWords, helixSetkey]
  by_cases long : u.length > 32
  · rw [if_pos long, if_pos long]
    rfl
  · rw [if_neg long, if_neg long]
    simp only [mixKeyWords_eq, Option.map_some]

end Setkey

/-- The comment in `helix_block` is right as long as `i + 8` has 32 bits.  From there on the high
half of the biased counter holds bits 32..62 rounded up, not bits 31..62. -/
theorem helix_schedule (scontext : HelixScontext) (nonce : Buffer 16) (count : Nat)
    (dcontext : HelixDcontext) (stream : StreamAt scontext nonce count dcontext)
    (bounded : count < 2 ^ 62) :
    (blockX1 dcontext = describedX1 scontext (nonceWords nonce) ((count : Int) - 8) ↔
        (((count : Int) - 8) % 4 = 3 → (count : Int) - 8 + 8 < 2 ^ 32)) ∧
      ∀ u : List Byte, helixSetkeyWords u =
        (helixSetkey u).map fun keyed => (keyed, List.replicate 8 (0, 0)) := by
  refine ⟨(stream.described bounded).trans ?_, helixSetkeyWords_eq⟩
  omega

/-- Sixteen GiB into the stream, the first block whose carry is lost. -/
theorem helix_schedule_late :
    ¬ ∀ (scontext : HelixScontext) (nonce : Buffer 16) (count : Nat) (dcontext : HelixDcontext),
      StreamAt scontext nonce count dcontext → count < 2 ^ 62 →
        blockX1 dcontext = describedX1 scontext (nonceWords nonce) ((count : Int) - 8) := by
  intro described
  obtain ⟨dcontext, stream⟩ := StreamAt.reached ⟨helixMagic, 16, Words.zero 8, Words.zero 8⟩
    (Buffer.zero 16) (2 ^ 32 + 3)
  have equal := described _ _ _ dcontext stream (by omega)
  have low := (stream.described (by omega)).mp equal (by omega)
  omega

/-- The fourth word of a text, `i = 3`, under a key of sixteen bytes: the high half of the biased
counter is added, and is right. -/
theorem helix_schedule_fourth :
    ∃ scontext, helixSetkey (List.replicate 16 7) = some scontext ∧
      blockX1 (helixBlocks scontext 5 3 (helixNonce scontext (Buffer.ofList 16 [1, 2, 3]))).2 =
        describedX1 scontext (nonceWords (Buffer.ofList 16 [1, 2, 3])) 3 := by
  obtain ⟨scontext, set, -⟩ := helixSetkey_keyed (u := List.replicate 16 7) (by decide)
  have stream : StreamAt scontext (Buffer.ofList 16 [1, 2, 3]) 11
      (helixBlocks scontext 5 3 (helixNonce scontext (Buffer.ofList 16 [1, 2, 3]))).2 :=
    (helixNonce_at scontext (Buffer.ofList 16 [1, 2, 3])).blocks 5 3
  exact ⟨scontext, set, (helix_schedule scontext _ 11 _ stream (by decide)).1.mpr (by decide)⟩

end Otpd

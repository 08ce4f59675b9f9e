import Otpd.ResyncTool

/-!
# The counter of an event card over its whole range

`hotp_challenge` puts the stored counter together from two `int` expressions.  A low word
with the top bit set is widened to 64 bits with its sign, and the upper half of the
counter is lost; `SignSafe` are the counters that survive.
-/

set_option autoImplicit false

namespace Otpd

open CMem

/-- The low word has no sign bit, or the upper half is all ones as it is. -/
def SignSafe (n : Nat) : Prop := n % 2 ^ 32 < 2 ^ 31 ∨ n / 2 ^ 32 = 2 ^ 32 - 1

theorem readCounter_lt {n : Nat} (range : n < 2 ^ 64) : readCounter n < 2 ^ 64 := by
  unfold readCounter
  split
  · exact range
  · omega

theorem readCounter_eq_iff {n : Nat} : readCounter n = n ↔ SignSafe n := by
  unfold readCounter SignSafe
  split
  · rename_i low
    exact iff_of_true rfl (Or.inl low)
  · rename_i signed
    constructor
    · intro same
      right
      omega
    · rintro (low | ones)
      · exact absurd low signed
      · omega

theorem counter_lt (challenge : Buffer 16) : beNat (challenge.bytes.take 8) < 2 ^ 64 := by
  have size : (challenge.bytes.take 8).length = 8 := by
    rw [List.length_take, challenge.size]
    decide
  calc beNat (challenge.bytes.take 8) < 256 ^ (challenge.bytes.take 8).length := beNat_lt _
    _ = 2 ^ 64 := by rw [size]; norm_num

theorem nextCounter_toNat (challenge : Buffer 16) : (nextCounter challenge).toNat =
    (readCounter (beNat (challenge.bytes.take 8)) + 1) % 2 ^ 64 := by
  rw [nextCounter, UInt64.toNat_add, intToU64_or, take_eight, UInt64.toNat_one]

theorem nextCounter_exact_iff (challenge : Buffer 16) :
    nextCounter challenge = UInt64.ofNat (beNat (challenge.bytes.take 8) + 1) ↔
      SignSafe (beNat (challenge.bytes.take 8)) := by
  have range := counter_lt challenge
  have read := readCounter_lt range
  rw [← readCounter_eq_iff, ← UInt64.toNat_inj, nextCounter_toNat, UInt64.toNat_ofNat']
  omega

/-! ## One call and the window loop -/

/-- The challenge is the network-order encoding of `n`, modulo 2^64, and is eight bytes long. -/
def Encodes (challenge : Buffer 16) (clen : Fin 17) (n : Nat) : Prop :=
  clen = eventClen ∧ beNat (challenge.bytes.take 8) = n % 2 ^ 64 ∧
    challenge.bytes.take 8 = (Resynctool.c2c (UInt64.ofNat n)).bytes

theorem encodes_iff (user : User) (data : CardData) (challenge : Buffer 16) (now : Time)
    (t e n : Nat) :
    Encodes (hotpChallenge user data challenge now t e).2.2
        (hotpChallenge user data challenge now t e).2.1.clen n ↔
      nextCounter challenge = UInt64.ofNat n := by
  have size : ∀ counter, (c2c counter).length = 8 := fun _ => rfl
  rw [Encodes, hotpChallenge_eq, Buffer.copy_take_of_eq _ (by decide) (size _), (c2c_counter _).2,
    ← UInt64.toNat_inj, UInt64.toNat_ofNat', Resynctool.c2c_eq]
  constructor
  · rintro ⟨-, value, -⟩
    exact value
  · intro value
    refine ⟨rfl, value, ?_⟩
    congr 1
    rw [← UInt64.toNat_inj, value, UInt64.toNat_ofNat']

theorem hotpChallenge_exact_iff (user : User) (data : CardData) (challenge : Buffer 16) (now : Time)
    (t e : Nat) :
    Encodes (hotpChallenge user data challenge now t e).2.2
        (hotpChallenge user data challenge now t e).2.1.clen
        (beNat (challenge.bytes.take 8) + 1) ↔
      SignSafe (beNat (challenge.bytes.take 8)) :=
  (encodes_iff ..).trans (nextCounter_exact_iff challenge)

section Loop

variable (crypto : Crypto) (undef : Undef) (user : User) (scratch1 : Nat) (env : Env)
  (data : CardData) (challenge : Buffer 16)

/-- What `positionAt` needs of an event card's user. -/
def hotpPrepared : Prepared := ⟨user, CardModule.hotp.ops crypto undef, scratch1⟩

/-- After the call at event position `e`, the `e + 1`-st, the challenge is `e + 1` counters on. -/
def CountsAt (e : Nat) : Prop :=
  Encodes (positionAt env (hotpPrepared crypto undef user scratch1) data challenge e).2.2
    (positionAt env (hotpPrepared crypto undef user scratch1) data challenge e).2.1.clen
    (beNat (challenge.bytes.take 8) + (e + 1))

variable {crypto undef user scratch1 env data challenge}

theorem countsAt_iff {e : Nat}
    (arrived : beNat ((positionBefore env (hotpPrepared crypto undef user scratch1) data challenge
      e).2.bytes.take 8) = (beNat (challenge.bytes.take 8) + e) % 2 ^ 64) :
    CountsAt crypto undef user scratch1 env data challenge e ↔
      SignSafe ((beNat (challenge.bytes.take 8) + e) % 2 ^ 64) := by
  have called : positionAt env (hotpPrepared crypto undef user scratch1) data challenge e =
      hotpChallenge user
        (positionBefore env (hotpPrepared crypto undef user scratch1) data challenge e).1
        (positionBefore env (hotpPrepared crypto undef user scratch1) data challenge e).2
        env.now 0 e := positionAt_eq ..
  rw [CountsAt, called, encodes_iff, ← arrived, ← nextCounter_exact_iff, arrived]
  have wrapped : UInt64.ofNat (beNat (challenge.bytes.take 8) + (e + 1)) =
      UInt64.ofNat ((beNat (challenge.bytes.take 8) + e) % 2 ^ 64 + 1) := by
    rw [← UInt64.toNat_inj, UInt64.toNat_ofNat', UInt64.toNat_ofNat']
    omega
  rw [wrapped]

/-- The first `count` calls of the window loop all count, if and only if every counter
they read is safe. -/
theorem loop_counts_iff : ∀ count,
    (∀ e < count, CountsAt crypto undef user scratch1 env data challenge e) ↔
      ∀ e < count, SignSafe ((beNat (challenge.bytes.take 8) + e) % 2 ^ 64) := by
  intro count
  induction count with
  | zero => simp
  | succ count ih =>
      have step : (∀ e < count, CountsAt crypto undef user scratch1 env data challenge e) →
          (CountsAt crypto undef user scratch1 env data challenge count ↔
            SignSafe ((beNat (challenge.bytes.take 8) + count) % 2 ^ 64)) := by
        intro earlier
        apply countsAt_iff
        cases count with
        | zero => exact (Nat.mod_eq_of_lt (counter_lt challenge)).symm
        | succ before => exact (earlier before (Nat.lt_succ_self before)).2.1
      rw [Nat.forall_lt_succ_right, Nat.forall_lt_succ_right, ← ih]
      exact and_congr_right step

end Loop

/-- Both for one call and for the calls of the window loop. -/
theorem hotp_challenge_increments_iff (user : User) (data : CardData) (challenge : Buffer 16) :
    (∀ (now : Time) (t e : Nat),
      Encodes (hotpChallenge user data challenge now t e).2.2
          (hotpChallenge user data challenge now t e).2.1.clen
          (beNat (challenge.bytes.take 8) + 1) ↔
        SignSafe (beNat (challenge.bytes.take 8))) ∧
    ∀ (crypto : Crypto) (undef : Undef) (scratch1 : Nat) (env : Env) (count : Nat),
      (∀ e < count, CountsAt crypto undef user scratch1 env data challenge e) ↔
        ∀ e < count, SignSafe ((beNat (challenge.bytes.take 8) + e) % 2 ^ 64) := by
  refine ⟨?_, ?_⟩
  · intro now t e
    exact hotpChallenge_exact_iff user data challenge now t e
  · intro crypto undef scratch1 env count
    exact loop_counts_iff count

def signedChallenge : Buffer 16 := (Buffer.zero 16).copy (Resynctool.c2c 0x80000000).bytes

/-- From 2^31 the next counter is 2^64 - 2^31 + 1. -/
theorem hotp_challenge_skips :
    beNat (signedChallenge.bytes.take 8) = 2 ^ 31 ∧
      beNat ((hotpChallenge (hmacUser "hotp-d6") State.init.toCardData signedChallenge 1000 0
        0).2.2.bytes.take 8) = 2 ^ 64 - 2 ^ 31 + 1 ∧
      ¬ Encodes (hotpChallenge (hmacUser "hotp-d6") State.init.toCardData signedChallenge 1000 0
          0).2.2
        (hotpChallenge (hmacUser "hotp-d6") State.init.toCardData signedChallenge 1000 0 0).2.1.clen
        (2 ^ 31 + 1) := by
  refine ⟨by decide +kernel, by decide +kernel, ?_⟩
  rintro ⟨-, value, -⟩
  exact absurd value (by decide +kernel)

end Otpd

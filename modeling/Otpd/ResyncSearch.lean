import Otpd.Lib.PairSearch
import Otpd.ResyncTool

/-!
# Where `resynctool` finds the user

The search looks at the next counter with its own loop variable.  A counter that has the
first passcode, but not followed by the second, takes its successor with it; the tool
misses a user whose first pair begins there.
-/

set_option autoImplicit false

namespace Otpd

open CMem PairSearch

namespace Resynctool

section Search

variable (crypto : Crypto) (md : Buffer 20) (options : Options) (keyblock : List Byte)

/-- The OTP of a counter. -/
def otpAt (n : Nat) : List Byte := hotp crypto md (c2c (UInt64.ofNat n)) keyblock

def HasPass1 (n : Nat) : Prop := otpAt crypto md keyblock n = options.pass1

def HasPass2 (n : Nat) : Prop := otpAt crypto md keyblock n = options.pass2

instance : DecidablePred (HasPass1 crypto md options keyblock) :=
  fun n => inferInstanceAs (Decidable (otpAt crypto md keyblock n = options.pass1))

instance : DecidablePred (HasPass2 crypto md options keyblock) :=
  fun n => inferInstanceAs (Decidable (otpAt crypto md keyblock n = options.pass2))

/-- "The last used challenge" is the one of the second passcode. -/
def exitOf : Option Nat → Exit
  | some c => .printed (stateOutput options.username (c2c (UInt64.ofNat (c + 1))))
  | none => .notFound

/-- Success exactly if there is a pair of counters below `final` with the two passcodes, and
the line of the least pair. -/
def FindsFirst (initial final : UInt64) (fuel : Nat) : Prop :=
  ((∃ line, search crypto md options keyblock final fuel initial = some (.printed line)) ↔
    ∃ c, PairIn (HasPass1 crypto md options keyblock) (HasPass2 crypto md options keyblock)
      initial.toNat final.toNat c) ∧
  ∀ c, LeastPair (HasPass1 crypto md options keyblock) (HasPass2 crypto md options keyblock)
      initial.toNat final.toNat c →
    search crypto md options keyblock final fuel initial =
      some (.printed (stateOutput options.username (c2c (UInt64.ofNat (c + 1)))))

variable {crypto md options keyblock} {initial final : UInt64} {fuel : Nat}

theorem stateOutput_inj {username : List Byte} {a b : Buffer 8}
    (same : stateOutput username a = stateOutput username b) : a.bytes = b.bytes := by
  have digits : x2a a = x2a b :=
    List.append_cancel_right (List.append_cancel_left (List.append_cancel_left
      (List.append_cancel_left same)))
  rw [x2a_eq, x2a_eq] at digits
  have back := congrArg Otpd.a2x digits
  rw [a2x_x2a, a2x_x2a] at back
  exact Option.some.inj back

theorem exitOf_inj {c d : Nat} (cRange : c + 1 < 2 ^ 64) (dRange : d + 1 < 2 ^ 64)
    (same : exitOf options (some c) = exitOf options (some d)) : c = d := by
  have lines := stateOutput_inj (Exit.printed.inj same)
  rw [c2c_eq, c2c_eq] at lines
  have counters := congrArg beNat lines
  rw [(c2c_counter _).2, (c2c_counter _).2, UInt64.toNat_ofNat', UInt64.toNat_ofNat',
    Nat.mod_eq_of_lt cRange, Nat.mod_eq_of_lt dRange] at counters
  omega

/-- The loop of `main` is the look-ahead search. -/
theorem search_eq {counter : UInt64} (room : final.toNat + 1 < 2 ^ 64)
    (enough : final.toNat - counter.toNat < fuel) :
    search crypto md options keyblock final fuel counter =
      some (exitOf options (pairSearch (HasPass1 crypto md options keyblock)
        (HasPass2 crypto md options keyblock) final.toNat fuel counter.toNat)) := by
  induction fuel generalizing counter with
  | zero => omega
  | succ fuel ih =>
      have here : c2c (UInt64.ofNat counter.toNat) = c2c counter := by rw [UInt64.ofNat_toNat]
      have next : c2c (UInt64.ofNat (counter.toNat + 1)) = c2c (counter + 1) := by
        rw [UInt64.ofNat_add, UInt64.ofNat_toNat]
        rfl
      simp only [search, pairSearch, HasPass1, HasPass2, otpAt, here, next, UInt64.lt_iff_toNat_lt]
      split
      · rename_i below
        obtain ⟨one, two⟩ := counter_next room below
        split
        · split
          · simp only [exitOf, next]
          · rw [ih (by omega), two]
        · rw [ih (by omega), one]
      · rfl

theorem search_found_iff (room : final.toNat + 1 < 2 ^ 64)
    (enough : final.toNat - initial.toNat < fuel) {c : Nat}
    (least : LeastPair (HasPass1 crypto md options keyblock) (HasPass2 crypto md options keyblock)
      initial.toNat final.toNat c) :
    search crypto md options keyblock final fuel initial =
        some (.printed (stateOutput options.username (c2c (UInt64.ofNat (c + 1))))) ↔
      Even (runBefore (HasPass1 crypto md options keyblock) initial.toNat c) := by
  have below := least.1.2.1
  have fits : c - initial.toNat < fuel := by omega
  rw [search_eq room enough, ← pairSearch_least_iff least fits]
  constructor
  · intro printed
    have same := Option.some.inj printed
    cases found : pairSearch (HasPass1 crypto md options keyblock)
        (HasPass2 crypto md options keyblock) final.toNat fuel initial.toNat with
    | none =>
        rw [found] at same
        cases same
    | some d =>
        rw [found] at same
        have dBelow := (pairSearch_pair found).2.1
        rw [exitOf_inj (by omega) (by omega) same]
  · intro found
    rw [found]
    rfl

end Search

/-- The search does what it is for exactly when the first pair is preceded by an even number
of counters with the first passcode. -/
theorem search_first_pair_iff (crypto : Crypto) (md : Buffer 20) (options : Options)
    (keyblock : List Byte) (initial final : UInt64) (fuel : Nat)
    (room : final.toNat + 1 < 2 ^ 64) (enough : final.toNat - initial.toNat < fuel) :
    FindsFirst crypto md options keyblock initial final fuel ↔
      ∀ c, LeastPair (HasPass1 crypto md options keyblock)
          (HasPass2 crypto md options keyblock) initial.toNat final.toNat c →
        Even (runBefore (HasPass1 crypto md options keyblock) initial.toNat c) := by
  constructor
  · rintro ⟨-, printed⟩ c least
    exact (search_found_iff room enough least).mp (printed c least)
  · intro even
    have printed : ∀ c, LeastPair (HasPass1 crypto md options keyblock)
          (HasPass2 crypto md options keyblock) initial.toNat final.toNat c →
        search crypto md options keyblock final fuel initial =
          some (.printed (stateOutput options.username (c2c (UInt64.ofNat (c + 1))))) :=
      fun c least => (search_found_iff room enough least).mpr (even c least)
    refine ⟨⟨?_, ?_⟩, printed⟩
    · rintro ⟨line, success⟩
      rw [search_eq room enough] at success
      cases found : pairSearch (HasPass1 crypto md options keyblock)
          (HasPass2 crypto md options keyblock) final.toNat fuel initial.toNat with
      | none =>
          rw [found] at success
          cases success
      | some c => exact ⟨c, pairSearch_pair found⟩
    · rintro ⟨c, pair⟩
      obtain ⟨m, least⟩ := exists_leastPair pair
      exact ⟨_, printed m least⟩

/-! ### The RFC key -/

/-- HMAC-SHA-1 under `rfcKey` where two counters in a row have the same OTP. -/
def repeatedMacs : List (Nat × Nat) :=
  [(910737, 0xf1dabd90fb0125937c1c3e7e41fcfa4de4b51f22),
   (910738, 0xaf477c3a971252b000ed678b23e071413d46d90c),
   (910739, 0xd5c1ba9c1987f2c0b2086fb59209a980974788c9)]

def repeatedCrypto : Crypto :=
  { sampleCrypto with
    hmac := fun key counter =>
      if key = rfcKey then
        ((repeatedMacs.find? fun entry => entry.1 = beNat counter).map Prod.snd).map (bytesOf 20)
      else none }

def rfcSearch (pass1 pass2 : String) (initial final : UInt64) : Options where
  username := bob.bytes
  keystring := (hmacUser "hotp-d6").keystring
  pass1 := ascii pass1
  pass2 := ascii pass2
  initial := initial
  final := final

theorem search_first_pair_rfc :
    FindsFirst sampleCrypto (Buffer.zero 20) (rfcSearch "755224" "287082" 0 3) rfcKey 0 3 4 :=
  (search_first_pair_iff sampleCrypto (Buffer.zero 20) (rfcSearch "755224" "287082" 0 3) rfcKey 0 3
    4 (by decide) (by decide)).mpr (by
      intro c least
      have first : LeastPair (HasPass1 sampleCrypto (Buffer.zero 20)
          (rfcSearch "755224" "287082" 0 3) rfcKey) (HasPass2 sampleCrypto (Buffer.zero 20)
          (rfcSearch "755224" "287082" 0 3) rfcKey) 0 3 0 :=
        ⟨⟨le_refl 0, by decide, by decide +kernel, by decide +kernel⟩, fun d _ => Nat.zero_le d⟩
      obtain rfl : c = 0 := Nat.le_zero.mp (least.2 0 first.1)
      exact ⟨0, rfl⟩)

/-- Counters 910737 and 910738 have the same OTP, and the pair at 910738 is missed. -/
theorem search_misses_pair :
    PairIn (HasPass1 repeatedCrypto (Buffer.zero 20) (rfcSearch "911617" "538706" 910737 910739)
        rfcKey)
      (HasPass2 repeatedCrypto (Buffer.zero 20) (rfcSearch "911617" "538706" 910737 910739) rfcKey)
      910737 910739 910738 ∧
    search repeatedCrypto (Buffer.zero 20) (rfcSearch "911617" "538706" 910737 910739) rfcKey 910739
      3 910737 = some .notFound ∧
    ¬ FindsFirst repeatedCrypto (Buffer.zero 20) (rfcSearch "911617" "538706" 910737 910739) rfcKey
      910737 910739 3 := by
  have pair : PairIn (HasPass1 repeatedCrypto (Buffer.zero 20)
        (rfcSearch "911617" "538706" 910737 910739) rfcKey)
      (HasPass2 repeatedCrypto (Buffer.zero 20) (rfcSearch "911617" "538706" 910737 910739) rfcKey)
      910737 910739 910738 :=
    ⟨by decide, by decide, by decide +kernel, by decide +kernel⟩
  have missed : search repeatedCrypto (Buffer.zero 20) (rfcSearch "911617" "538706" 910737 910739)
      rfcKey 910739 3 910737 = some .notFound := by decide +kernel
  refine ⟨pair, missed, ?_⟩
  rintro ⟨⟨-, success⟩, -⟩
  obtain ⟨line, printed⟩ := success ⟨910738, pair⟩
  rw [missed] at printed
  cases printed

end Resynctool

end Otpd

import Otpd.Mac

/-!
# The card modules

The five modules under `cardops/`.  Methods that two modules share word for word
are one parametric definition, and each module names its own instance.
-/

set_option autoImplicit false

namespace Otpd

open CMem

/-! ## Case-insensitive comparison -/

def toLower (c : Byte) : Byte := if 65 ≤ c ∧ c ≤ 90 then c + 32 else c

/-- `strcasecmp(a, b) == 0`. -/
def strcasecmpEq (a b : List Byte) : Bool := a.map toLower == b.map toLower

/-- `strncasecmp(a, b, strlen(a)) == 0`. -/
def strncasecmpEq (a b : List Byte) : Bool := strcasecmpEq a (b.take a.length)

/-! ## Shared method bodies -/

def lookupCard (table : List (String × UInt32)) (name : List Byte) : Option UInt32 :=
  (table.find? fun entry => strcasecmpEq name (ascii entry.1)).map Prod.snd

/-- `keystring2key` of the HMAC modules: at least 128 bits; the length is kept
in `scratch1`. -/
def hmacKeystring2key (keystring : List Byte) : Option (List Byte × Nat) :=
  if keystring.length < 32 then none
  else (a2nx keystring (keystring.length / 2)).map fun key => (key, keystring.length / 2)

/-- `keystring2key` of the DES modules: exactly 64 bits. -/
def desKeystring2key (keystring : List Byte) : Option (List Byte × Nat) :=
  if keystring.length ≠ 16 then none
  else (a2nx keystring 8).map fun key => (key, 0)

def rdOfEwin (ewin : Nat) : StateField 31 :=
  ⟨printHex (UInt32.ofNat ewin),
    Nat.le_trans (printHex_length_le _) (by decide),
    (printHex_clean _).1, (printHex_clean _).2⟩

/-- `updatecsd` of the event modules: success clears `rd`, anything else saves
the position as rwindow candidate. -/
def eventUpdatecsd (data : CardData) (_when : Time) (_twin ewin : Nat) (authRc : Rc) :
    Option CardData :=
  if authRc = .ok then some { data with rd := StateField.empty 31 }
  else some { data with rd := rdOfEwin ewin }

/-- `isconsecutive` of the event modules.  `nextewin` is an `int`, so `++` wraps. -/
def eventIsconsecutive (_user : User) (data : CardData) (thisewin : Nat) : Bool :=
  if data.rd.bytes = [] then false
  else
    match scanHex data.rd.bytes with
    | none => false
    | some candidate => candidate + 1 = UInt32.ofNat thisewin

def macToResponse (featuremask cfDd cfPh : UInt32) (output : Buffer 8) : List Byte :=
  let conversion := if hasFeature featuremask cfDd then x2aCcDecConversion else x2aHexConversion
  let response := x2a (output.bytes.take 4) conversion
  if otpLenOf featuremask = 7 then response.take 3 ++ response.drop 4
  else if hasFeature featuremask cfPh then response.set 3 45
  else response

def noTwin (_user : User) (_data : CardData) (_when : Time) : Int := 0

/-- `nullstate` of the modules that refuse to start without a state file. -/
def noNullstate (_user : User) (_data : CardData) (_when : Time) : Option CardData := none

/-- `nullstate` of the modules that keep no state of their own. -/
def anyNullstate (_user : User) (data : CardData) (_when : Time) : Option CardData := some data

/-! ## `cardops/hotp.c` -/

def hotpCfLen5 : UInt32 := otpCfLen2 ||| otpCfLen0
def hotpCfLen6 : UInt32 := otpCfLen2 ||| otpCfLen1
def hotpCfLen7 : UInt32 := otpCfLen2 ||| otpCfLen1 ||| otpCfLen0
def hotpCfLen8 : UInt32 := otpCfLen3
def hotpCfLen9 : UInt32 := otpCfLen3 ||| otpCfLen0

def hotpCard : List (String × UInt32) :=
  [("hotp-d5", otpCfEs ||| hotpCfLen5), ("hotp-d6", otpCfEs ||| hotpCfLen6),
   ("hotp-d7", otpCfEs ||| hotpCfLen7), ("hotp-d8", otpCfEs ||| hotpCfLen8),
   ("hotp-d9", otpCfEs ||| hotpCfLen9)]

/-- `(b0 << 24) | (b1 << 16) | (b2 << 8) | b3` as an `int`, then widened to
`uint64_t`: a set top bit is extended into the upper half. -/
def intToU64 (b0 b1 b2 b3 : Byte) : UInt64 :=
  ((b0.toUInt32 <<< 24) ||| (b1.toUInt32 <<< 16) ||| (b2.toUInt32 <<< 8) |||
    b3.toUInt32).toInt32.toInt64.toUInt64

/-- Network order, also `c2c` of the time-based modules. -/
def c2c (counter : UInt64) : List Byte :=
  [(counter >>> 56).toUInt8, (counter >>> 48).toUInt8, (counter >>> 40).toUInt8,
   (counter >>> 32).toUInt8, (counter >>> 24).toUInt8, (counter >>> 16).toUInt8,
   (counter >>> 8).toUInt8, counter.toUInt8]

def hotpChallenge (_user : User) (data : CardData) (challenge : Buffer 16) (_when : Time)
    (_twin _ewin : Nat) : ChallengeRc × CardData × Buffer 16 :=
  let high := intToU64 (challenge.get 0) (challenge.get 1) (challenge.get 2) (challenge.get 3)
  let counter := (high <<< 32) |||
    intToU64 (challenge.get 4) (challenge.get 5) (challenge.get 6) (challenge.get 7)
  (.ok, { data with clen := eventClen }, challenge.copy (c2c (counter + 1)))

def hotpResponse (crypto : Crypto) (user : User) (data : CardData) (challenge : Buffer 16)
    (_len : Nat) (_clock : Time) : Option (List Byte) :=
  hotpMac crypto (challenge.bytes.take 8) (user.key.take data.scratch1) (otpLenOf user.featuremask)

abbrev hotpName2fm := lookupCard hotpCard
abbrev hotpKeystring2key := hmacKeystring2key
abbrev hotpNullstate := noNullstate
abbrev hotpUpdatecsd := eventUpdatecsd
abbrev hotpIsconsecutive := eventIsconsecutive
abbrev hotpMaxtwin := noTwin

def hotpCardops (crypto : Crypto) : CardOps where
  cardPrefix := ascii "hotp"
  name2fm := hotpName2fm
  keystring2key := hotpKeystring2key
  nullstate := hotpNullstate
  challenge := hotpChallenge
  response := hotpResponse crypto
  updatecsd := hotpUpdatecsd
  isconsecutive := hotpIsconsecutive
  maxtwin := hotpMaxtwin

/-! ## `cardops/totp.c` and `cardops/c200.c` -/

def totpCard : List (String × UInt32) :=
  [("totp-d6", otpCfEs ||| hotpCfLen6), ("totp-d7", otpCfEs ||| hotpCfLen7),
   ("totp-d8", otpCfEs ||| hotpCfLen8)]

def c200Card : List (String × UInt32) :=
  [("c200-d6", otpCfEs ||| hotpCfLen6), ("c200-d7", otpCfEs ||| hotpCfLen7),
   ("c200-d8", otpCfEs ||| hotpCfLen8)]

/-- `(int) t / step` stored in a `uint64_t`. -/
def intDiv (t : Time) (step : Int) : UInt64 :=
  (Int.tdiv t.toU32.toInt32.toInt step).toInt64.toUInt64

def totpIv (t : Time) : UInt64 := intDiv t 30

/-- `iv` of `c200_response`, rounded to the next minute first. -/
def c200Iv (t : Time) : UInt64 := intDiv (t + (60 - t % 60)) 60

def timeResponse (iv : Time → UInt64) (crypto : Crypto) (user : User) (data : CardData)
    (_challenge : Buffer 16) (_len : Nat) (clock : Time) : Option (List Byte) :=
  hotpMac crypto (c2c (iv clock)) (user.key.take data.scratch1) (otpLenOf user.featuremask)

def timeChallenge (_user : User) (data : CardData) (challenge : Buffer 16) (_when : Time)
    (_twin _ewin : Nat) : ChallengeRc × CardData × Buffer 16 := (.ok, data, challenge)

def timeUpdatecsd (data : CardData) (_when : Time) (_twin _ewin : Nat) (_authRc : Rc) :
    Option CardData := some data

/-- Every position is consecutive, whatever was recorded. -/
def timeIsconsecutive (_user : User) (_data : CardData) (_thisewin : Nat) : Bool := true

abbrev totpName2fm := lookupCard totpCard
abbrev totpKeystring2key := hmacKeystring2key
abbrev totpNullstate := anyNullstate
abbrev totpChallenge := timeChallenge
abbrev totpResponse := timeResponse totpIv
abbrev totpUpdatecsd := timeUpdatecsd
abbrev totpIsconsecutive := timeIsconsecutive
abbrev totpMaxtwin := noTwin

def totpCardops (crypto : Crypto) : CardOps where
  cardPrefix := ascii "totp"
  name2fm := totpName2fm
  keystring2key := totpKeystring2key
  nullstate := totpNullstate
  challenge := totpChallenge
  response := totpResponse crypto
  updatecsd := totpUpdatecsd
  isconsecutive := totpIsconsecutive
  maxtwin := totpMaxtwin

abbrev c200Name2fm := lookupCard c200Card
abbrev c200Keystring2key := hmacKeystring2key
abbrev c200Nullstate := anyNullstate
abbrev c200Challenge := timeChallenge
abbrev c200Response := timeResponse c200Iv
abbrev c200Updatecsd := timeUpdatecsd
abbrev c200Isconsecutive := timeIsconsecutive
abbrev c200Maxtwin := noTwin

def c200Cardops (crypto : Crypto) : CardOps where
  cardPrefix := ascii "c200"
  name2fm := c200Name2fm
  keystring2key := c200Keystring2key
  nullstate := c200Nullstate
  challenge := c200Challenge
  response := c200Response crypto
  updatecsd := c200Updatecsd
  isconsecutive := c200Isconsecutive
  maxtwin := c200Maxtwin

/-! ## `cardops/cryptocard.c` -/

def cryptocardCfHd : UInt32 := otpCfVsa0
def cryptocardCfDd : UInt32 := otpCfVsa1
def cryptocardCfPh : UInt32 := otpCfVsa2
def cryptocardCfLen7 : UInt32 := otpCfLen2 ||| otpCfLen1 ||| otpCfLen0
def cryptocardCfLen8 : UInt32 := otpCfLen3

def cryptocardH8 : UInt32 := cryptocardCfHd ||| cryptocardCfLen8
def cryptocardH7 : UInt32 := cryptocardCfHd ||| cryptocardCfLen7
def cryptocardHp : UInt32 := cryptocardCfHd ||| cryptocardCfLen8 ||| cryptocardCfPh
def cryptocardD8 : UInt32 := cryptocardCfDd ||| cryptocardCfLen8
def cryptocardD7 : UInt32 := cryptocardCfDd ||| cryptocardCfLen7
def cryptocardDp : UInt32 := cryptocardCfDd ||| cryptocardCfLen8 ||| cryptocardCfPh

def cryptocardCard : List (String × UInt32) :=
  [("cryptocard-h8-rc", cryptocardH8 ||| otpCfAm), ("cryptocard-d8-rc", cryptocardD8 ||| otpCfAm),
   ("cryptocard-h7-rc", cryptocardH7 ||| otpCfAm), ("cryptocard-d7-rc", cryptocardD7 ||| otpCfAm),
   ("cryptocard-hp-rc", cryptocardHp ||| otpCfAm), ("cryptocard-dp-rc", cryptocardDp ||| otpCfAm),
   ("cryptocard-h8-es", cryptocardH8 ||| otpCfEs), ("cryptocard-d8-es", cryptocardD8 ||| otpCfEs),
   ("cryptocard-h7-es", cryptocardH7 ||| otpCfEs), ("cryptocard-d7-es", cryptocardD7 ||| otpCfEs),
   ("cryptocard-hp-es", cryptocardHp ||| otpCfEs), ("cryptocard-dp-es", cryptocardDp ||| otpCfEs),
   ("cryptocard-h8-rs", cryptocardH8 ||| otpCfAm ||| otpCfEs),
   ("cryptocard-d8-rs", cryptocardD8 ||| otpCfAm ||| otpCfEs),
   ("cryptocard-h7-rs", cryptocardH7 ||| otpCfAm ||| otpCfEs),
   ("cryptocard-d7-rs", cryptocardD7 ||| otpCfAm ||| otpCfEs),
   ("cryptocard-hp-rs", cryptocardHp ||| otpCfAm ||| otpCfEs),
   ("cryptocard-dp-rs", cryptocardDp ||| otpCfAm ||| otpCfEs)]

def macDigit (b : Byte) : Byte :=
  let low := b &&& 0x0f
  (if low > 9 then low - 10 else low) ||| 0x30

def cryptocardChallenge (crypto : Crypto) (undef : Undef) (user : User) (data : CardData)
    (challenge : Buffer 16) (_when : Time) (_twin _ewin : Nat) :
    ChallengeRc × CardData × Buffer 16 :=
  match x99Mac crypto undef (challenge.bytes.take data.clen) (user.key.take 8) with
  | none => (.error, data, challenge)
  | some output => (.ok, { data with clen := eventClen }, challenge.copy (output.bytes.map macDigit))

def cryptocardResponse (crypto : Crypto) (undef : Undef) (user : User) (_data : CardData)
    (challenge : Buffer 16) (len : Nat) (_clock : Time) : Option (List Byte) :=
  (x99Mac crypto undef (challenge.bytes.take len) (user.key.take 8)).map
    (macToResponse user.featuremask cryptocardCfDd cryptocardCfPh)

abbrev cryptocardName2fm := lookupCard cryptocardCard
abbrev cryptocardKeystring2key := desKeystring2key
abbrev cryptocardNullstate := noNullstate
abbrev cryptocardUpdatecsd := eventUpdatecsd
abbrev cryptocardIsconsecutive := eventIsconsecutive
abbrev cryptocardMaxtwin := noTwin

def cryptocardCardops (crypto : Crypto) (undef : Undef) : CardOps where
  cardPrefix := ascii "cryptocard"
  name2fm := cryptocardName2fm
  keystring2key := cryptocardKeystring2key
  nullstate := cryptocardNullstate
  challenge := cryptocardChallenge crypto undef
  response := cryptocardResponse crypto undef
  updatecsd := cryptocardUpdatecsd
  isconsecutive := cryptocardIsconsecutive
  maxtwin := cryptocardMaxtwin

/-! ## `cardops/x99.c` -/

def x99CfHd : UInt32 := otpCfVsa0
def x99CfDd : UInt32 := otpCfVsa1
def x99CfPh : UInt32 := otpCfVsa2
def x99CfLen7 : UInt32 := otpCfLen2 ||| otpCfLen1 ||| otpCfLen0
def x99CfLen8 : UInt32 := otpCfLen3

def x99Card : List (String × UInt32) :=
  [("x99-h8", x99CfHd ||| x99CfLen8 ||| otpCfAm), ("x99-h7", x99CfHd ||| x99CfLen7 ||| otpCfAm),
   ("x99-d8", x99CfDd ||| x99CfLen8 ||| otpCfAm), ("x99-d7", x99CfDd ||| x99CfLen7 ||| otpCfAm)]

def x99Response (crypto : Crypto) (undef : Undef) (user : User) (_data : CardData)
    (challenge : Buffer 16) (len : Nat) (_clock : Time) : Option (List Byte) :=
  (x99Mac crypto undef (challenge.bytes.take len) (user.key.take 8)).map
    (macToResponse user.featuremask x99CfDd x99CfPh)

def x99Challenge (_user : User) (data : CardData) (challenge : Buffer 16) (_when : Time)
    (_twin _ewin : Nat) : ChallengeRc × CardData × Buffer 16 := (.error, data, challenge)

def x99Updatecsd (_data : CardData) (_when : Time) (_twin _ewin : Nat) (_authRc : Rc) :
    Option CardData := none

def x99Isconsecutive (_user : User) (_data : CardData) (_thisewin : Nat) : Bool := false

abbrev x99Name2fm := lookupCard x99Card
abbrev x99Keystring2key := desKeystring2key
abbrev x99Nullstate := anyNullstate
abbrev x99Maxtwin := noTwin

def x99Cardops (crypto : Crypto) (undef : Undef) : CardOps where
  cardPrefix := ascii "x99"
  name2fm := x99Name2fm
  keystring2key := x99Keystring2key
  nullstate := x99Nullstate
  challenge := x99Challenge
  response := x99Response crypto undef
  updatecsd := x99Updatecsd
  isconsecutive := x99Isconsecutive
  maxtwin := x99Maxtwin

/-! ## The module table -/

inductive CardModule where
  | c200
  | cryptocard
  | hotp
  | totp
  | x99
  deriving DecidableEq, Repr

def CardModule.ops (crypto : Crypto) (undef : Undef) : CardModule → CardOps
  | .c200 => c200Cardops crypto
  | .cryptocard => cryptocardCardops crypto undef
  | .hotp => hotpCardops crypto
  | .totp => totpCardops crypto
  | .x99 => x99Cardops crypto undef

def cardops (crypto : Crypto) (undef : Undef) : List CardOps :=
  [CardModule.c200, .cryptocard, .hotp, .totp, .x99].map (CardModule.ops crypto undef)

/-- "Find the correct cardops module". -/
def findCardops (mods : List CardOps) (card : List Byte) : Option CardOps :=
  mods.find? fun ops => strncasecmpEq ops.cardPrefix card

/-! ## Responses -/

theorem macToResponse_text (featuremask cfDd cfPh : UInt32) (output : Buffer 8) :
    macToResponse featuremask cfDd cfPh output ≠ [] ∧
      (0 : Byte) ∉ macToResponse featuremask cfDd cfPh output := by
  simp only [macToResponse]
  generalize conversion :
    (if hasFeature featuremask cfDd then x2aCcDecConversion else x2aHexConversion) = table
  have clean : ∀ i < 16, table.getD i 0 ≠ 0 := by
    rw [← conversion]
    split
    · decide
    · decide
  have noNul := x2a_noNul clean (output.bytes.take 4)
  have size : (x2a (output.bytes.take 4) table).length = 8 := by
    rw [x2a_length, List.length_take, output.size]
    rfl
  split
  · refine ⟨?_, ?_⟩
    · intro empty
      have := congrArg List.length empty
      simp only [List.length_append, List.length_take, List.length_drop, size, List.length_nil] at this
      omega
    · intro member
      rcases List.mem_append.mp member with front | back
      · exact noNul (List.mem_of_mem_take front)
      · exact noNul (List.mem_of_mem_drop back)
  · split
    · refine ⟨?_, ?_⟩
      · intro empty
        have := congrArg List.length empty
        rw [List.length_set, size] at this
        cases this
      · intro member
        rcases List.mem_or_eq_of_mem_set member with old | new
        · exact noNul old
        · cases new
    · refine ⟨?_, noNul⟩
      intro empty
      rw [empty] at size
      cases size

theorem CardModule.response_text {crypto : Crypto} {undef : Undef} {m : CardModule} {user : User}
    {data : CardData} {challenge : Buffer 16} {len : Nat} {clock : Time} {response : List Byte}
    (answered : (m.ops crypto undef).response user data challenge len clock = some response) :
    response ≠ [] ∧ (0 : Byte) ∉ response := by
  cases m with
  | c200 => exact hotpMac_text answered
  | hotp => exact hotpMac_text answered
  | totp => exact hotpMac_text answered
  | cryptocard =>
      obtain ⟨output, -, rfl⟩ := Option.map_eq_some_iff.mp answered
      exact macToResponse_text ..
  | x99 =>
      obtain ⟨output, -, rfl⟩ := Option.map_eq_some_iff.mp answered
      exact macToResponse_text ..
end Otpd

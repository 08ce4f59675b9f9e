import Otpd.HotpDigits
import Otpd.TimeCounter

/-!
# The length of a response

The feature mask says how many characters a card shows, and `verify` turns a PAP passcode
down by it before any response is computed.  The responses have that length, except that
the card table of HOTP lists one of five digits, which `hotp_mac` does not produce.
-/

set_option autoImplicit false

namespace Otpd

open CMem

/-! ## Responses -/

/-- The HMAC that the response rests on is computed, or the DES key is accepted. -/
def CardModule.MacWorks (m : CardModule) (crypto : Crypto) (user : User) (data : CardData)
    (challenge : Buffer 16) (clock : Time) : Prop :=
  match m with
  | .hotp => ∃ hmac, crypto.hmac (user.key.take data.scratch1) (challenge.bytes.take 8) = some hmac ∧
      hmac.length = 20
  | .totp => ∃ hmac, crypto.hmac (user.key.take data.scratch1) (c2c (totpIv clock)) = some hmac ∧
      hmac.length = 20
  | .c200 => ∃ hmac, crypto.hmac (user.key.take data.scratch1) (c2c (c200Iv clock)) = some hmac ∧
      hmac.length = 20
  | .cryptocard | .x99 => crypto.desKeyOk (user.key.take 8) = true

/-- A string of as many characters as the feature mask says. -/
def Responds (crypto : Crypto) (undef : Undef) (m : CardModule) (user : User) (data : CardData)
    (challenge : Buffer 16) (len : Nat) (clock : Time) : Prop :=
  ∃ response, (m.ops crypto undef).response user data challenge len clock = some response ∧
    response.length = otpLenOf user.featuremask ∧ (0 : Byte) ∉ response

theorem macToResponse_length {featuremask cfDd cfPh : UInt32} (output : Buffer 8)
    (digits : otpLenOf featuremask = 7 ∨ otpLenOf featuremask = 8) :
    (macToResponse featuremask cfDd cfPh output).length = otpLenOf featuremask := by
  simp only [macToResponse]
  generalize (if hasFeature featuremask cfDd then x2aCcDecConversion else x2aHexConversion) = table
  have size : (x2a (output.bytes.take 4) table).length = 8 := by
    rw [x2a_length, List.length_take, output.size]
    rfl
  rcases digits with seven | eight
  · rw [if_pos seven, List.length_append, List.length_take, List.length_drop, size, seven]
    rfl
  · rw [if_neg (by omega), eight]
    split
    · rw [List.length_set, size]
    · exact size

theorem CardModule.masks_des {m : CardModule} (kind : m = .cryptocard ∨ m = .x99) :
    ∀ fm ∈ m.masks, otpLenOf fm = 7 ∨ otpLenOf fm = 8 := by
  have all : (m.masks.all fun fm => otpLenOf fm == 7 || otpLenOf fm == 8) = true := by
    rcases kind with rfl | rfl
    · decide +kernel
    · decide +kernel
  intro fm member
  simpa using List.all_eq_true.mp all fm member

theorem CardModule.masks_hotp : ∀ fm ∈ CardModule.hotp.masks, otpLenOf fm ≤ 9 := by
  have all : (CardModule.hotp.masks.all fun fm => otpLenOf fm ≤ 9) = true := by decide +kernel
  intro fm member
  simpa using List.all_eq_true.mp all fm member

theorem hotpMac_responds_iff {crypto : Crypto} {counter key : List Byte} {d : Nat}
    (works : ∃ hmac, crypto.hmac key counter = some hmac ∧ hmac.length = 20) (most : d ≤ 9) :
    (∃ response, hotpMac crypto counter key d = some response ∧ response.length = d ∧
      (0 : Byte) ∉ response) ↔ 6 ≤ d := by
  obtain ⟨hmac, computed, twenty⟩ := works
  constructor
  · rintro ⟨response, answered, -⟩
    by_contra few
    have outside : d < 6 ∨ d > 9 := by omega
    simp [hotpMac, outside] at answered
  · intro least
    have answered := hotpMac_eq least most computed twenty
    exact ⟨_, answered, hotpMac_length answered, (hotpMac_text answered).2⟩

section Response

variable {crypto : Crypto} {undef : Undef} {m : CardModule} {user : User} {data : CardData}
  {challenge : Buffer 16} {len : Nat} {clock : Time}

theorem responds_iff (mask : user.featuremask ∈ m.masks)
    (works : m.MacWorks crypto user data challenge clock) :
    Responds crypto undef m user data challenge len clock ↔ m ≠ .hotp ∨ 6 ≤ otpLenOf user.featuremask := by
  have des : ∀ featuremask cfDd cfPh, (otpLenOf featuremask = 7 ∨ otpLenOf featuremask = 8) →
      crypto.desKeyOk (user.key.take 8) = true → ∃ response,
        (x99Mac crypto undef (challenge.bytes.take len) (user.key.take 8)).map
          (macToResponse featuremask cfDd cfPh) = some response ∧
        response.length = otpLenOf featuremask ∧ (0 : Byte) ∉ response := by
    intro featuremask cfDd cfPh digits accepted
    obtain ⟨output, mac⟩ := x99Mac_some accepted undef (challenge.bytes.take len)
    exact ⟨_, by rw [mac]; rfl, macToResponse_length output digits, (macToResponse_text ..).2⟩
  cases m with
  | hotp =>
      exact (hotpMac_responds_iff works (CardModule.masks_hotp _ mask)).trans (by simp)
  | totp =>
      obtain ⟨least, most⟩ := time_masks_digits (Or.inl rfl) _ mask
      exact (hotpMac_responds_iff works most).trans (iff_of_true least (Or.inl (by decide)))
  | c200 =>
      obtain ⟨least, most⟩ := time_masks_digits (Or.inr rfl) _ mask
      exact (hotpMac_responds_iff works most).trans (iff_of_true least (Or.inl (by decide)))
  | cryptocard =>
      have digits := CardModule.masks_des (Or.inl rfl) _ mask
      exact iff_of_true (des _ _ _ digits works) (Or.inl (by decide))
  | x99 =>
      have digits := CardModule.masks_des (Or.inr rfl) _ mask
      exact iff_of_true (des _ _ _ digits works) (Or.inl (by decide))

theorem Responds.length_eq (mask : user.featuremask ∈ m.masks) {response : List Byte}
    (answered : (m.ops crypto undef).response user data challenge len clock = some response) :
    response.length = otpLenOf user.featuremask := by
  cases m with
  | hotp => exact hotpMac_length answered
  | totp => exact hotpMac_length answered
  | c200 => exact hotpMac_length answered
  | cryptocard =>
      obtain ⟨output, -, rfl⟩ := Option.map_eq_some_iff.mp answered
      exact macToResponse_length output (CardModule.masks_des (Or.inl rfl) _ mask)
  | x99 =>
      obtain ⟨output, -, rfl⟩ := Option.map_eq_some_iff.mp answered
      exact macToResponse_length output (CardModule.masks_des (Or.inr rfl) _ mask)

end Response

/-- The entry with too few digits is the first one. -/
theorem hotp_digits_iff {name : List Byte} {featuremask : UInt32}
    (found : lookupCard hotpCard name = some featuremask) :
    6 ≤ otpLenOf featuremask ↔ strcasecmpEq name (ascii "hotp-d5") = false := by
  have first : otpLenOf (otpCfEs ||| hotpCfLen5) = 5 := by decide +kernel
  have others : (hotpCard.tail.all fun entry => 6 ≤ otpLenOf entry.2) = true := by decide +kernel
  obtain ⟨entry, hit, rfl⟩ := Option.map_eq_some_iff.mp found
  rw [hotpCard, List.find?_cons] at hit
  cases same : strcasecmpEq name (ascii "hotp-d5") with
  | true =>
      rw [same] at hit
      cases hit
      rw [first]
      decide
  | false =>
      rw [same] at hit
      have member : entry ∈ hotpCard.tail := List.mem_of_find?_eq_some hit
      simpa using List.all_eq_true.mp others entry member

/-! ## The length check -/

/-- The user `verify` goes on with when there is nothing wrong with the length. -/
def openedUser (config : Config) (undef : Undef) (user : User) (featuremask : UInt32)
    (key : List Byte) : User :=
  let decoded := decodedUser undef user featuremask key
  match user.encryptmode with
  | .keyid =>
      let k := passwdKey config undef user.keyid
      { decoded with key := decrypt decoded.key k, pin := decrypt decoded.pin k }
  | _ => decoded

section Check

variable {crypto : Crypto} {config : Config} {request : Request} {undef : Undef} {user : User}
  {featuremask : UInt32} {key pin : List Byte} {m : CardModule}

theorem openedUser_pin (decoded : a2x user.pinstring = some pin) :
    (openedUser config undef user featuremask key).pin.length = pin.length := by
  unfold openedUser
  split
  · simp only [decodedUser, decoded, Option.getD_some, decrypt_eq, cyclicXor_length]
  · simp only [decodedUser, decoded, Option.getD_some]

theorem openedUser_mask :
    (openedUser config undef user featuremask key).featuremask = featuremask := by
  unfold openedUser
  split
  · rfl
  · rfl

/-- Outside the PIN encrypt modes the length is the only thing that is checked here. -/
theorem decryptUser_length {d : Nat} {pinLen : Int}
    (mode : user.encryptmode = .clear ∨ user.encryptmode = .keyid) :
    decryptUser crypto config request undef (decodedUser undef user featuremask key) d pinLen =
      if wrongLength request d pinLen then .error ⟨.authDone, .authErr⟩
      else .ok (openedUser config undef user featuremask key) := by
  have same : (decodedUser undef user featuremask key).encryptmode = user.encryptmode := rfl
  rcases mode with clear | keyid
  · simp only [decryptUser, openedUser, same, clear]
  · simp only [decryptUser, openedUser, same, keyid]
    rfl

/-- A passcode of the wrong length is not the one that would be expected. -/
theorem wrongLength_compare (decoded : a2x user.pinstring = some pin)
    (noNul : (0 : Byte) ∉ (openedUser config undef user featuremask key).pin)
    {response : List Byte} (length : response.length = otpLenOf featuremask)
    (wrong : wrongLength request (otpLenOf featuremask) (pinLenOf user.pinstring) = true) :
    compare crypto request (expectedPasscode config
      (openedUser config undef user featuremask key) response) = false := by
  cases given : request.pwe with
  | pap passcode =>
      have pinLen : pinLenOf user.pinstring = pin.length := by simp [pinLenOf, decoded]
      have whole : cstr (openedUser config undef user featuremask key).pin =
          (openedUser config undef user featuremask key).pin := by
        rw [cstr, List.takeWhile_eq_self_iff]
        intro c member
        simpa using ne_of_mem_of_not_mem member noNul
      simp only [wrongLength, given, pinLen, ne_eq, decide_not, Bool.not_eq_true',
        decide_eq_false_iff_not] at wrong
      simp only [compare, given, beq_eq_false_iff_ne, ne_eq]
      intro same
      have lengths := congrArg List.length same
      rw [expectedPasscode, whole] at lengths
      have stored : (openedUser config undef user featuremask key).pin.length = pin.length :=
        openedUser_pin decoded
      split at lengths
      · rw [List.length_append] at lengths
        omega
      · rw [List.length_append] at lengths
        omega
  | chap data => simp [wrongLength, given] at wrong
  | mschap data => simp [wrongLength, given] at wrong
  | mschap2 data => simp [wrongLength, given] at wrong

end Check

/-- `verify` ends at the length check, with a PIN that is all of a string. -/
structure LengthExit (crypto : Crypto) (config : Config) (request : Request) (undef : Undef)
    (m : CardModule) (user : User) (featuremask : UInt32) (key : List Byte) : Prop where
  mask : lookupCard m.table user.card = some featuremask
  keyed : ∃ scratch1, m.keyOf user.keystring = some (key, scratch1)
  mode : user.encryptmode = .clear ∨ user.encryptmode = .keyid
  pinned : ∃ pin, a2x user.pinstring = some pin
  noNul : (0 : Byte) ∉ (openedUser config undef user featuremask key).pin
  exit : decodeUser crypto config request undef (m.ops crypto undef) user =
    .error ⟨.authDone, .authErr⟩

theorem LengthExit.wrong {crypto : Crypto} {config : Config} {request : Request} {undef : Undef}
    {m : CardModule} {user : User} {featuremask : UInt32} {key : List Byte}
    (exit : LengthExit crypto config request undef m user featuremask key) :
    wrongLength request (otpLenOf featuremask) (pinLenOf user.pinstring) = true := by
  obtain ⟨scratch1, keyed⟩ := exit.keyed
  have ended := exit.exit
  have opened : decryptUser crypto config request undef (decodedUser undef user featuremask key)
      (otpLenOf featuremask) (pinLenOf user.pinstring) =
        if wrongLength request (otpLenOf featuremask) (pinLenOf user.pinstring) then
          .error ⟨.authDone, .authErr⟩
        else .ok (openedUser config undef user featuremask key) := decryptUser_length exit.mode
  simp only [decodeUser, m.name2fm_eq, m.keystring2key_eq, exit.mask, keyed] at ended
  change (decryptUser crypto config request undef (decodedUser undef user featuremask key)
    (otpLenOf featuremask) (pinLenOf user.pinstring) >>= _) = _ at ended
  rw [opened] at ended
  by_contra right
  rw [if_neg right] at ended
  cases ended

/-- With a MAC every card but hotp-d5 responds with as many characters as its mask says, and
no length exit keeps back a passcode that the comparison would have accepted. -/
theorem response_length_iff (crypto : Crypto) (undef : Undef) (m : CardModule) :
    (∀ (user : User) (data : CardData) (challenge : Buffer 16) (len : Nat) (clock : Time),
      (m.ops crypto undef).name2fm user.card = some user.featuremask → 0 < len →
      m.MacWorks crypto user data challenge clock →
      (Responds crypto undef m user data challenge len clock ↔
        ¬ (m = .hotp ∧ strcasecmpEq user.card (ascii "hotp-d5") = true))) ∧
    ∀ (config : Config) (request : Request) (user : User) (featuremask : UInt32) (key : List Byte),
      LengthExit crypto config request undef m user featuremask key →
      ∀ (data : CardData) (challenge : Buffer 16) (len : Nat) (clock : Time) (response : List Byte),
        (m.ops crypto undef).response (openedUser config undef user featuremask key) data challenge
          len clock = some response →
        compare crypto request (expectedPasscode config
          (openedUser config undef user featuremask key) response) = false := by
  constructor
  · intro user data challenge len clock found _ works
    rw [responds_iff (m.name2fm_mem crypto undef found) works]
    rw [m.name2fm_eq] at found
    by_cases hotp : m = .hotp
    · subst hotp
      simpa using hotp_digits_iff found
    · simp [hotp]
  · intro config request user featuremask key exit data challenge len clock response answered
    obtain ⟨pin, decoded⟩ := exit.pinned
    have mask : (openedUser config undef user featuremask key).featuremask ∈ m.masks := by
      rw [openedUser_mask]
      exact lookupCard_mem exit.mask
    have length := Responds.length_eq mask answered
    rw [openedUser_mask] at length
    exact wrongLength_compare decoded exit.noNul length exit.wrong

/-! ### Cards with the RFC key -/

def rfcDecoded (card : String) (featuremask : UInt32) : User :=
  { hmacUser card with featuremask := featuremask, key := rfcKey }

def rfcData : CardData := { State.init.toCardData with scratch1 := 20 }

def shortRequest : Request :=
  ⟨bob, textOf 16 "", .pap (textOf 47 "75522"), false, true, 0, true⟩

def blankUndef : Undef := ⟨Buffer.zero 16, [], [], Buffer.zero 8, 0⟩

theorem rfc_macWorks (user : User) (key : user.key = rfcKey) :
    CardModule.hotp.MacWorks sampleCrypto user rfcData (Buffer.zero 16) 1000 := by
  rw [CardModule.MacWorks, key]
  exact ⟨bytesOf 20 0xcc93cf18508d94934c64b65d8ba7667fb7cde4b0, by decide +kernel, by decide +kernel⟩

theorem response_length_d6 :
    Responds sampleCrypto blankUndef .hotp (rfcDecoded "hotp-d6" (otpCfEs ||| hotpCfLen6)) rfcData
        (Buffer.zero 16) 8 1000 ∧
      compare sampleCrypto shortRequest (expectedPasscode defaultConfig
        (openedUser defaultConfig blankUndef (hmacUser "hotp-d6") (otpCfEs ||| hotpCfLen6) rfcKey)
        (ascii "755224")) = false := by
  constructor
  · refine ((response_length_iff sampleCrypto blankUndef .hotp).1
      (rfcDecoded "hotp-d6" (otpCfEs ||| hotpCfLen6)) rfcData (Buffer.zero 16) 8 1000
      (by decide +kernel) (by decide) (rfc_macWorks _ rfl)).mpr ?_
    rintro ⟨-, five⟩
    exact absurd five (by decide +kernel)
  · exact (response_length_iff sampleCrypto blankUndef .hotp).2 defaultConfig shortRequest
      (hmacUser "hotp-d6") (otpCfEs ||| hotpCfLen6) rfcKey
      ⟨by decide +kernel, ⟨20, by decide +kernel⟩, Or.inl rfl, ⟨[], by decide +kernel⟩,
        by decide +kernel, rfl⟩
      rfcData (Buffer.zero 16) 8 1000 (ascii "755224") (by decide +kernel)

/-- The five digit card is accepted by name and never answers. -/
theorem hotp_d5_no_response :
    (CardModule.hotp.ops sampleCrypto blankUndef).name2fm (ascii "hotp-d5") =
        some (otpCfEs ||| hotpCfLen5) ∧
      CardModule.hotp.MacWorks sampleCrypto (rfcDecoded "hotp-d5" (otpCfEs ||| hotpCfLen5)) rfcData
        (Buffer.zero 16) 1000 ∧
      (CardModule.hotp.ops sampleCrypto blankUndef).response
        (rfcDecoded "hotp-d5" (otpCfEs ||| hotpCfLen5)) rfcData (Buffer.zero 16) 8 1000 = none ∧
      ¬ Responds sampleCrypto blankUndef .hotp (rfcDecoded "hotp-d5" (otpCfEs ||| hotpCfLen5))
        rfcData (Buffer.zero 16) 8 1000 := by
  have failed : (CardModule.hotp.ops sampleCrypto blankUndef).response
      (rfcDecoded "hotp-d5" (otpCfEs ||| hotpCfLen5)) rfcData (Buffer.zero 16) 8 1000 = none := by
    decide +kernel
  refine ⟨by decide +kernel, rfc_macWorks _ rfl, failed, ?_⟩
  rintro ⟨response, answered, -⟩
  rw [failed] at answered
  cases answered

end Otpd

import Otpd.PasswdEntry

/-!
# What `verify` may rely on in a record from otppasswd

`file_get` checks the lengths of key and PIN, only logs a card name that is too long,
and never looks at the characters of a PIN.  `verify` decodes the PIN with `a2x` and uses
the result as an index without looking at it.
-/

set_option autoImplicit false

namespace Otpd

open CMem

/-! ## The fields of a line -/

/-- Card, key and PIN as they stand in the line. -/
def passwdFields (s : List Byte) : Option (List Byte × List Byte × List Byte) :=
  match splitAt 58 s with
  | none => none
  | some (_, p) =>
    match splitAt 58 p with
    | none => none
    | some (card, rest) => some (card, (splitAt 58 rest).getD (rest, []))

/-- The lengths for which `file_get` returns -2. -/
def RefusedLengths (key pin : List Byte) : Prop :=
  key.length > otpMaxKeyLen * 2 ∨ stripNewline key = [] ∨ (stripNewline key).length % 2 = 1 ∨
    (stripNewline pin).length > otpMaxPinLen * 2 ∨ (stripNewline pin).length % 2 = 1

def isHexDigit (b : Byte) : Prop := (nibble b).isSome

def fileUser (file : FileConfig) (card key pin : List Byte) : User where
  card := card
  keystring := stripNewline key
  pinstring := stripNewline pin
  keyid := file.keyid
  encryptmode := file.encryptmode
  password := none
  passwordHash := Buffer.zero 20
  rwindowSize := 0

theorem fileParse_found_iff (file : FileConfig) (s : List Byte) (user : User) :
    fileParse file s = .found user ↔
      ∃ card key pin, passwdFields s = some (card, key, pin) ∧ ¬ RefusedLengths key pin ∧
        user = fileUser file card key pin := by
  rw [fileParse, passwdFields]
  cases splitAt 58 s with
  | none => simp
  | some first =>
      obtain ⟨name, p⟩ := first
      simp only
      cases splitAt 58 p with
      | none => simp
      | some second =>
          obtain ⟨card, rest⟩ := second
          simp only [Option.some.injEq, Prod.mk.injEq]
          obtain ⟨key, pin⟩ := (splitAt 58 rest).getD (rest, [])
          constructor
          · intro found
            split_ifs at found with long odd oddPin
            refine ⟨card, key, pin, ⟨rfl, rfl⟩, ?_, (UserGet.found.inj found).symm⟩
            rintro (wrong | wrong | wrong | wrong | wrong)
            · exact long wrong
            · exact odd (.inl wrong)
            · exact odd (.inr wrong)
            · exact oddPin (.inl wrong)
            · exact oddPin (.inr wrong)
          · rintro ⟨card', key', pin', ⟨rfl, same⟩, accepted, rfl⟩
            cases same
            simp only [RefusedLengths, not_or] at accepted
            obtain ⟨short, some, even, shortPin, evenPin⟩ := accepted
            rw [if_neg short, if_neg (not_or.mpr ⟨some, even⟩),
              if_neg (not_or.mpr ⟨shortPin, evenPin⟩)]
            rfl

/-! ## What `verify` does with them -/

structure RecordWellFormed (user : User) : Prop where
  card : user.card.length ≤ otpMaxCardnameLen
  key : user.keystring ≠ [] ∧ user.keystring.length % 2 = 0 ∧
    user.keystring.length ≤ otpMaxKeyLen * 2
  pin : user.pinstring.length % 2 = 0 ∧ user.pinstring.length ≤ otpMaxPinLen * 2
  pinDigits : ∀ b ∈ user.pinstring, isHexDigit b

/-- An index into an array, or the length of a part of it, and how many values fit. -/
structure ArrayUse where
  index : Int
  below : Nat

def ArrayUse.InBounds (use : ArrayUse) : Prop := 0 ≤ use.index ∧ use.index < use.below

/-- `user->pin[n]`. -/
def pinIndex (n : Int) : ArrayUse := ⟨n, otpMaxPinLen + 1⟩

/-- The first `n` bytes of `user->pin` and of `user->key`. -/
def pinPart (n : Int) : ArrayUse := ⟨n, otpMaxPinLen + 2⟩
def keyPart (n : Int) : ArrayUse := ⟨n, otpMaxKeyLen + 1⟩

/-- Under the PIN encrypt modes the PIN is cut out of the passcode, into `user->pin`. -/
def pinModeUses (request : Request) (pinLen : Int) (otpLen keyLen : Nat) : List ArrayUse :=
  match request.pwe with
  | .pap passcode =>
    let extracted := (passcode.bytes.length : Int) - otpLen
    if pinLen ≠ 0 ∨ extracted < 0 ∨ extracted > otpMaxPinLen then []
    else [pinIndex extracted, pinPart extracted, keyPart keyLen]
  | _ => []

/-- The uses in `verify` from the PIN conversion to the last `decrypt`, with the key of
`keyLen` bytes already converted. -/
def decodeUses (request : Request) (user : User) (otpLen keyLen : Nat) : List ArrayUse :=
  let pinLen := pinLenOf user.pinstring
  pinIndex pinLen ::
    match user.encryptmode with
    | .pin => pinModeUses request pinLen otpLen keyLen
    | .pinmd5 => pinModeUses request pinLen otpLen keyLen
    | .keyid => [keyPart keyLen, pinPart pinLen]
    | .clear => []

/-- A record that is well formed and stays so in `verify`, whatever card module takes it. -/
def RecordSafe (user : User) : Prop :=
  RecordWellFormed user ∧
    ∀ (crypto : Crypto) (undef : Undef) (kind : CardModule) (request : Request) (otpLen : Nat)
      (key : List Byte) (scratch1 : Nat),
      (kind.ops crypto undef).keystring2key user.keystring = some (key, scratch1) →
      ∀ use ∈ decodeUses request user otpLen key.length, use.InBounds

section Safe

theorem a2nx_total {s : List Byte} {l : Nat} (digits : ∀ b ∈ s, isHexDigit b)
    (long : 2 * l ≤ s.length) : ∃ out, a2nx s l = some out := by
  induction l generalizing s with
  | zero => exact ⟨[], by rw [a2nx]⟩
  | succ l ih =>
      rcases s with _ | ⟨c0, _ | ⟨c1, rest⟩⟩
      · simp at long
      · simp only [List.length_singleton] at long
        omega
      · obtain ⟨n0, high⟩ := Option.isSome_iff_exists.mp (digits c0 (by simp))
        obtain ⟨n1, low⟩ := Option.isSome_iff_exists.mp (digits c1 (by simp))
        have later : ∀ b ∈ rest, isHexDigit b := fun b inside =>
          digits b (List.mem_cons_of_mem _ (List.mem_cons_of_mem _ inside))
        have shorter : 2 * l ≤ rest.length := by
          simp only [List.length_cons] at long
          omega
        obtain ⟨tail, decoded⟩ := ih later shorter
        exact ⟨_, by rw [a2nx, high, low, decoded]⟩

variable {user : User}

theorem RecordWellFormed.pinLen (record : RecordWellFormed user) :
    0 ≤ pinLenOf user.pinstring ∧ pinLenOf user.pinstring ≤ otpMaxPinLen := by
  obtain ⟨out, decoded⟩ := a2nx_total (l := user.pinstring.length / 2) record.pinDigits (by omega)
  have size := a2nx_length decoded
  have bound := record.pin.2
  have pin : pinLenOf user.pinstring = out.length := by
    rw [pinLenOf, a2x, decoded]
  rw [pin]
  omega

theorem CardModule.keyLen (kind : CardModule) {crypto : Crypto} {undef : Undef}
    {keystring key : List Byte} {scratch1 : Nat} (short : keystring.length ≤ otpMaxKeyLen * 2)
    (converted : (kind.ops crypto undef).keystring2key keystring = some (key, scratch1)) :
    key.length ≤ otpMaxKeyLen := by
  have hmac : hmacKeystring2key keystring = some (key, scratch1) → key.length ≤ otpMaxKeyLen := by
    intro converted
    rw [hmacKeystring2key] at converted
    split at converted
    · cases converted
    · obtain ⟨out, decoded, same⟩ := Option.map_eq_some_iff.mp converted
      cases same
      rw [a2nx_length decoded]
      omega
  have des : desKeystring2key keystring = some (key, scratch1) → key.length ≤ otpMaxKeyLen := by
    intro converted
    rw [desKeystring2key] at converted
    split at converted
    · cases converted
    · obtain ⟨out, decoded, same⟩ := Option.map_eq_some_iff.mp converted
      cases same
      rw [a2nx_length decoded]
      decide
  cases kind with
  | c200 => exact hmac converted
  | cryptocard => exact des converted
  | hotp => exact hmac converted
  | totp => exact hmac converted
  | x99 => exact des converted

theorem pin_inBounds {n : Int} (least : 0 ≤ n) (most : n ≤ otpMaxPinLen) :
    (pinIndex n).InBounds ∧ (pinPart n).InBounds := by
  simp only [ArrayUse.InBounds, pinIndex, pinPart]
  omega

theorem key_inBounds {n : Nat} (most : n ≤ otpMaxKeyLen) : (keyPart n).InBounds := by
  simp only [ArrayUse.InBounds, keyPart]
  omega

theorem pinModeUses_inBounds (request : Request) (pinLen : Int) (otpLen : Nat) {keyLen : Nat}
    (short : keyLen ≤ otpMaxKeyLen) :
    ∀ use ∈ pinModeUses request pinLen otpLen keyLen, use.InBounds := by
  intro use inside
  rw [pinModeUses] at inside
  split at inside
  · simp only at inside
    split at inside
    · cases inside
    · rename_i within
      simp only [not_or, not_lt] at within
      obtain ⟨index, part⟩ := pin_inBounds within.2.1 within.2.2
      simp only [List.mem_cons, List.not_mem_nil, or_false] at inside
      rcases inside with rfl | rfl | rfl
      · exact index
      · exact part
      · exact key_inBounds short
  · cases inside

theorem RecordWellFormed.uses (record : RecordWellFormed user) (request : Request)
    (otpLen : Nat) {keyLen : Nat} (short : keyLen ≤ otpMaxKeyLen) :
    ∀ use ∈ decodeUses request user otpLen keyLen, use.InBounds := by
  obtain ⟨least, most⟩ := record.pinLen
  obtain ⟨index, part⟩ := pin_inBounds least most
  intro use inside
  rw [decodeUses] at inside
  rcases List.mem_cons.mp inside with rfl | inside
  · exact index
  cases mode : user.encryptmode with
  | clear =>
      rw [mode] at inside
      cases inside
  | pin =>
      rw [mode] at inside
      exact pinModeUses_inBounds request _ otpLen short use inside
  | pinmd5 =>
      rw [mode] at inside
      exact pinModeUses_inBounds request _ otpLen short use inside
  | keyid =>
      rw [mode] at inside
      simp only [List.mem_cons, List.not_mem_nil, or_false] at inside
      rcases inside with rfl | rfl
      · exact key_inBounds short
      · exact part

theorem RecordWellFormed.safe (record : RecordWellFormed user) : RecordSafe user := by
  refine ⟨record, ?_⟩
  intro crypto undef kind request otpLen key scratch1 converted
  exact record.uses request otpLen (kind.keyLen record.key.2.2 converted)

end Safe

/-! ## Lines that make such records -/

/-- A line `file_get` accepts has a card name that fits and a PIN of hex digits. -/
def LineFits (contents : List Byte) (username : Username) : Prop :=
  ∀ place card key pin, searchLines username (linesOf contents) = some place →
    passwdFields (cstr (pieceAt (linesOf contents) place)) = some (card, key, pin) →
    ¬ RefusedLengths key pin →
    card.length ≤ otpMaxCardnameLen ∧ ∀ b ∈ stripNewline pin, isHexDigit b

theorem stripNewline_length (text : List Byte) : (stripNewline text).length ≤ text.length := by
  rw [stripNewline]
  split
  · rw [List.length_dropLast]
    omega
  · exact Nat.le_refl _

theorem fileUser_wellFormed_iff (file : FileConfig) {card key pin : List Byte}
    (accepted : ¬ RefusedLengths key pin) :
    RecordWellFormed (fileUser file card key pin) ↔
      card.length ≤ otpMaxCardnameLen ∧ ∀ b ∈ stripNewline pin, isHexDigit b := by
  constructor
  · intro record
    exact ⟨record.card, record.pinDigits⟩
  · rintro ⟨short, digits⟩
    simp only [RefusedLengths, not_or] at accepted
    obtain ⟨shortKey, some, even, shortPin, evenPin⟩ := accepted
    have stripped := stripNewline_length key
    refine ⟨short, ⟨some, ?_, ?_⟩, ⟨?_, ?_⟩, digits⟩
    · show (stripNewline key).length % 2 = 0
      omega
    · show (stripNewline key).length ≤ otpMaxKeyLen * 2
      omega
    · show (stripNewline pin).length % 2 = 0
      omega
    · show (stripNewline pin).length ≤ otpMaxPinLen * 2
      omega

theorem file_get_record_safe_iff (file : FileConfig) (contents : List Byte) (username : Username) :
    (∀ user, fileGet file ⟨true, contents, false⟩ username = .found user → RecordSafe user) ↔
      LineFits contents username := by
  constructor
  · intro safe place card key pin found fields accepted
    have got : fileGet file ⟨true, contents, false⟩ username =
        .found (fileUser file card key pin) := by
      rw [fileGet_search, found]
      exact (fileParse_found_iff ..).mpr ⟨card, key, pin, fields, accepted, rfl⟩
    exact (fileUser_wellFormed_iff file accepted).mp (safe _ got).1
  · intro fits user got
    rw [fileGet_search] at got
    cases found : searchLines username (linesOf contents) with
    | none =>
        rw [found] at got
        cases got
    | some place =>
        rw [found] at got
        obtain ⟨card, key, pin, fields, accepted, rfl⟩ := (fileParse_found_iff ..).mp got
        exact ((fileUser_wellFormed_iff file accepted).mpr
          (fits place card key pin found fields accepted)).safe

def gina : Username := ⟨ascii "gina", by decide, by decide⟩

def ginasLine : List Byte := ascii "gina:hotp-d6:000102030405060708090A0B0C0D0E0F10111213:zz\n"

/-- `a2x` fails on the PIN and `verify` writes to `user->pin[-1]`. -/
theorem file_get_record_unsafe :
    ∃ user, fileGet ⟨.clear, 0⟩ ⟨true, ginasLine, false⟩ gina = .found user ∧
      pinLenOf user.pinstring = -1 ∧ ¬ (pinIndex (pinLenOf user.pinstring)).InBounds ∧
      ¬ RecordSafe user := by
  let key := ascii "000102030405060708090A0B0C0D0E0F10111213"
  have found : searchLines gina (linesOf ginasLine) = some (0, 0) := by decide +kernel
  have fields : passwdFields (cstr (pieceAt (linesOf ginasLine) (0, 0))) =
      some (ascii "hotp-d6", key, ascii "zz\n") := by decide +kernel
  have accepted : ¬ RefusedLengths key (ascii "zz\n") := by
    simp only [RefusedLengths]
    decide +kernel
  have index : pinLenOf (stripNewline (ascii "zz\n")) = -1 := by decide +kernel
  refine ⟨fileUser ⟨.clear, 0⟩ (ascii "hotp-d6") key (ascii "zz\n"), ?_, index, ?_, ?_⟩
  · rw [fileGet_search, found]
    exact (fileParse_found_iff ..).mpr ⟨_, _, _, fields, accepted, rfl⟩
  · intro inside
    have least := inside.1
    rw [pinIndex, fileUser, index] at least
    exact absurd least (by decide)
  · intro safe
    have least := safe.1.pinLen.1
    rw [fileUser, index] at least
    exact absurd least (by decide)

end Otpd

import Otpd.Verify

/-!
# Configuration and user records

The window options of `config.y`, and the two `userops` back ends: `file_get` over the
contents of the otppasswd file, `ldap_get` over the attributes of the entry found.
-/

set_option autoImplicit false

namespace Otpd

open CMem

/-! ## `config.y` -/

/-- The values of the two options in the order of the file, as `atoi` returns them. -/
structure WindowSettings where
  ewindowSize : List Int32
  rwindowSize : List Int32

/-- `set_ewindow_size` and `set_rwindow_size`: the first value counts. -/
def setting (default : UInt32) (values : List Int32) : UInt32 :=
  match values with
  | [] => default
  | arg :: _ => arg.toUInt32

/-- `config_init`, with the other options as they are in `config`. -/
def configInit (config : Config) (settings : WindowSettings) : Config :=
  let ewindowSize := setting 5 settings.ewindowSize
  let rwindowSize := setting 25 settings.rwindowSize
  { config with
    ewindowSize := ewindowSize
    rwindowSize := if rwindowSize ≠ 0 ∧ rwindowSize < ewindowSize then 0 else rwindowSize }

def otpMaxKeyLen : Nat := 256
def otpMaxCardnameLen : Nat := 31
def gsmMaxNameLen : Nat := 32

/-! ## `userops/file.c` -/

/-- `config_t.file`. -/
structure FileConfig where
  encryptmode : EncryptMode
  keyid : Nat

/-- `accessible`: `stat`, the permission check and `fopen` succeed.  `readError`: `fgets`
fails behind `contents` instead of finding the end of the file. -/
structure PasswdFile where
  accessible : Bool
  contents : List Byte
  readError : Bool

/-- What successive `fgets(s, size, fp)` return; `room` bytes fit into the piece that
`piece` (last byte first) is the beginning of. -/
def fgetsFrom (size : Nat) : Nat → List Byte → List Byte → List (List Byte)
  | _, piece, [] => if piece = [] then [] else [piece.reverse]
  | room, piece, b :: rest =>
      if b = 10 ∨ room ≤ 1 then (b :: piece).reverse :: fgetsFrom size (size - 1) [] rest
      else fgetsFrom size (room - 1) (b :: piece) rest

def fgetsAll (size : Nat) (contents : List Byte) : List (List Byte) :=
  fgetsFrom size (size - 1) [] contents

def stripNewline (text : List Byte) : List Byte :=
  if text.getLast? = some 10 then text.dropLast else text

/-- The line once it is found; a card name that is too long is only logged. -/
def fileParse (file : FileConfig) (s : List Byte) : UserGet :=
  match splitAt 58 s with
  | none => .unavailable
  | some (_, p) =>
    match splitAt 58 p with
    | none => .unavailable
    | some (card, rest) =>
      let (key, pin) := (splitAt 58 rest).getD (rest, [])
      let keystring := stripNewline key
      let pinstring := stripNewline pin
      if key.length > otpMaxKeyLen * 2 then .unavailable
      else if keystring = [] ∨ keystring.length % 2 = 1 then .unavailable
      else if pinstring.length > otpMaxPinLen * 2 ∨ pinstring.length % 2 = 1 then .unavailable
      else .found
        { card := card, keystring := keystring, pinstring := pinstring, keyid := file.keyid,
          encryptmode := file.encryptmode, password := none, passwordHash := Buffer.zero 20,
          rwindowSize := 0 }

def fileGet (file : FileConfig) (passwd : PasswdFile) (username : Username) : UserGet :=
  let isUser (s : List Byte) : Bool :=
    s.take username.bytes.length = username.bytes ∧ s.getD username.bytes.length 0 = 58
  if passwd.accessible = false then .unavailable
  else
    match ((fgetsAll 160 passwd.contents).map cstr).find? isUser with
    | none => if passwd.readError then .unavailable else .unknown
    | some s => fileParse file s

/-! ## `userops/ldap.c` -/

/-- The requested attributes, each value as a string. -/
structure LdapEntry where
  otpVendor : Option (List Byte)
  otpModel : Option (List Byte)
  otpKey1 : Option (List Byte)
  otpIPIN : Option (List Byte)
  otpPIN : Option (List Byte)
  otpTimeIssued : Option (List Byte)
  otpStateLocationHint : Option (List Byte)
  otpKeyEncryption : Option (List Byte)
  otpTmpStaticPassword : Option (List Byte)
  otpTmpStaticPasswordExpiry : Option (List Byte)
  otpTmpRWindow : Option (List Byte)
  otpTmpRWindowExpiry : Option (List Byte)

/-- `failed`: no connection, a search error, more than one entry, or an attribute that is
empty, not single-valued or not requested. -/
inductive LdapSearch where
  | failed
  | notFound
  | entry (entry : LdapEntry)

/-- What `ldap_get` finds in memory without having put it there: the local hash buffer and
the bytes behind the NUL of the static password. -/
structure LdapMemory where
  h : Buffer 20
  behind : List Byte

/-- `(time_t) strtoul(text, NULL, 10)`. -/
def timeValue (text : List Byte) : Int := (strtoul text).toInt64.toInt

theorem timeValue_digits {text : List Byte} (digits : ∀ c ∈ text, isDigit c = true)
    (small : decValue text < 2 ^ 63) : timeValue text = decValue text := by
  rw [timeValue, strtoul_digits digits (by omega)]
  exact Int64.toInt_ofNat_of_lt small

def expired (expiry : List Byte) (now : Time) : Bool := timeValue expiry < (now : Int)

/-- `otpKeyEncryption`; `none` for `goto out_val`. -/
def ldapKeyEncryption (config : Config) (value : Option (List Byte)) :
    Option (EncryptMode × Nat) :=
  match value with
  | none => some (.clear, 0)
  | some val =>
    if val = ascii "clear" then some (.clear, 0)
    else if val = ascii "pin" then some (.pin, 0)
    else if val = ascii "pin-md5" then some (.pinmd5, 0)
    else if val.all isDigit then
      let keyid := (strtoul val).toNat
      if (config.key[keyid]?).join.isSome then some (.keyid, keyid) else none
    else none

/-- `strlen(p) != 2 * n || a2nx(p, h, n) != n`. -/
def passwordDigest (p : List Byte) (n : Nat) (h : Buffer 20) : Option (Buffer 20) :=
  if p.length ≠ 2 * n then none else (a2nx p n).map h.copy

/-- The string at `p + n`, past the end of a shorter value what lies there. -/
def LdapMemory.past (memory : LdapMemory) (p : List Byte) (n : Nat) : List Byte :=
  if n ≤ p.length then p.drop n else cstr (memory.behind.drop (n - (p.length + 1)))

/-- The `strncmp` results are used as they are: a branch is taken when the prefix
differs. -/
def ldapPasswordHash (memory : LdapMemory) (p : List Byte) : Option (Buffer 20) :=
  if p.take 5 ≠ ascii "\x7bMD5\x7d" then passwordDigest (memory.past p 5) 16 memory.h
  else if p.take 5 ≠ ascii "\x7bSHA\x7d" then passwordDigest (memory.past p 5) 20 memory.h
  else if p.take 6 ≠ ascii "\x7bSHA1\x7d" then passwordDigest (memory.past p 6) 20 memory.h
  else none

def ldapStaticPassword (memory : LdapMemory) (password expiry : Option (List Byte)) (now : Time) :
    Option (Option (List Byte) × Buffer 20) :=
  match password with
  | none => some (none, memory.h)
  | some p =>
    match expiry with
    | none => none
    | some expiry =>
      if expired expiry now then some (none, memory.h)
      else if p.head? = some 123 then (ldapPasswordHash memory p).map fun h => (some p, h)
      else some (some p, memory.h)

/-- `otpTmpRWindow`.  The check for a missing expiry looks at the window again, so `none`
is the NULL dereference. -/
def ldapRWindow (rwindow expiry : Option (List Byte)) (now : Time) : Option UInt32 :=
  match rwindow with
  | none => some 0
  | some value =>
    match expiry with
    | none => none
    | some expiry => if expired expiry now then some 0 else some (strtoul value).toUInt32

def badPinstring (value : Option (List Byte)) : Bool :=
  match value with
  | none => false
  | some pin => pin.length > otpMaxPinLen * 2 ∨ pin.length % 2 = 1

/-- The sanity checks on the attributes up to `otpStateLocationHint`. -/
def ldapSane (entry : LdapEntry) (vendor model key : List Byte) : Bool :=
  ¬ (vendor.length + 1 + model.length > otpMaxCardnameLen ∨
    key.length > otpMaxKeyLen * 2 ∨ key = [] ∨ key.length % 2 = 1 ∨
    badPinstring entry.otpIPIN ∨ badPinstring entry.otpPIN ∨
    (entry.otpStateLocationHint.getD []).length > gsmMaxNameLen)

/-- A card issued in the future counts as issued at 0. -/
def ldapTimeIssued (value : Option (List Byte)) (now : Time) : Int :=
  match value with
  | none => 0
  | some text => if timeValue text > now then 0 else timeValue text

/-- `none` when the process crashes. -/
def ldapGet (config : Config) (search : LdapSearch) (memory : LdapMemory) (now : Time) :
    Option UserGet :=
  match search with
  | .failed => some .unavailable
  | .notFound => some .unknown
  | .entry entry =>
    match entry.otpVendor, entry.otpModel, entry.otpKey1 with
    | some vendor, some model, some key =>
      if ldapSane entry vendor model key = false then some .unavailable
      else
        match ldapKeyEncryption config entry.otpKeyEncryption,
            ldapStaticPassword memory entry.otpTmpStaticPassword entry.otpTmpStaticPasswordExpiry
              now with
        | some (encryptmode, keyid), some (password, passwordHash) =>
            (ldapRWindow entry.otpTmpRWindow entry.otpTmpRWindowExpiry now).map fun rwindowSize =>
              .found
                { card := vendor ++ 45 :: model, keystring := key,
                  ipinstring := entry.otpIPIN.getD [], pinstring := entry.otpPIN.getD [],
                  timeissued := ldapTimeIssued entry.otpTimeIssued now, keyid := keyid,
                  encryptmode := encryptmode, password := password, passwordHash := passwordHash,
                  rwindowSize := rwindowSize }
        | _, _ => some .unavailable
    | _, _, _ => some .unavailable

/-- What the checks of `ldap_get` make of an entry that passes them. -/
structure LdapParts where
  vendor : List Byte
  model : List Byte
  key : List Byte
  encryptmode : EncryptMode
  keyid : Nat
  password : Option (List Byte)
  passwordHash : Buffer 20
  rwindowSize : UInt32

structure LdapParts.Of (parts : LdapParts) (config : Config) (entry : LdapEntry)
    (memory : LdapMemory) (now : Time) : Prop where
  vendor : entry.otpVendor = some parts.vendor
  model : entry.otpModel = some parts.model
  key : entry.otpKey1 = some parts.key
  sane : ldapSane entry parts.vendor parts.model parts.key = true
  encryption : ldapKeyEncryption config entry.otpKeyEncryption =
    some (parts.encryptmode, parts.keyid)
  password : ldapStaticPassword memory entry.otpTmpStaticPassword
    entry.otpTmpStaticPasswordExpiry now = some (parts.password, parts.passwordHash)
  rwindow : ldapRWindow entry.otpTmpRWindow entry.otpTmpRWindowExpiry now = some parts.rwindowSize

def LdapParts.user (parts : LdapParts) (entry : LdapEntry) (now : Time) : User where
  card := parts.vendor ++ 45 :: parts.model
  keystring := parts.key
  ipinstring := entry.otpIPIN.getD []
  pinstring := entry.otpPIN.getD []
  timeissued := ldapTimeIssued entry.otpTimeIssued now
  keyid := parts.keyid
  encryptmode := parts.encryptmode
  password := parts.password
  passwordHash := parts.passwordHash
  rwindowSize := parts.rwindowSize

theorem ldapGet_found_iff {config : Config} {entry : LdapEntry} {memory : LdapMemory} {now : Time}
    {user : User} :
    ldapGet config (.entry entry) memory now = some (.found user) ↔
      ∃ parts : LdapParts, parts.Of config entry memory now ∧ user = parts.user entry now := by
  constructor
  · intro found
    simp only [ldapGet] at found
    split at found
    · rename_i vendor model key hasVendor hasModel hasKey
      split at found
      · cases found
      · rename_i sane
        split at found
        · rename_i encryptmode keyid password passwordHash encryption static
          obtain ⟨rwindowSize, window, same⟩ := Option.map_eq_some_iff.mp found
          refine ⟨⟨vendor, model, key, encryptmode, keyid, password, passwordHash, rwindowSize⟩,
            ⟨hasVendor, hasModel, hasKey, Bool.of_not_eq_false sane, encryption, static, window⟩,
            (UserGet.found.inj same).symm⟩
        · cases found
    · cases found
  · rintro ⟨parts, valid, rfl⟩
    simp only [ldapGet, valid.vendor, valid.model, valid.key, valid.sane, valid.encryption,
      valid.password, valid.rwindow]
    rfl

end Otpd

import Otpd.ConfigGrammar
import Otpd.ConfigTimeouts
import Otpd.KeyTable
import Otpd.LdapFilter
import Otpd.Lib.Settings
import Otpd.StateDir

/-!
# The variables of the configuration

The static variables of `config.y` and the functions that the actions of the grammar call
on them.  A function is turned down where it calls `exit(1)`, and at fault where it writes
or reads outside an object.  For most options the function is a `Setter`: the option that it
tests and stores, with the value that it makes of its argument.
-/

set_option autoImplicit false

namespace Otpd.ConfigFile

open CMem
open Cells (Run)
open Settings (put)

/-! ## The system and the command line -/

/-- A user id and a group id. -/
structure Ids where
  uid : Nat
  gid : Nat
  deriving DecidableEq

/-- What the command line says and the system answers.  `access` is for `F_OK`, `accessDir`
for a directory to read, write and search; `ldapPort` and `gsmdPort` are what
`getservbyname` finds; `fileModule` and `ldapModule` tell which modules are loaded, `ldapInit1`
and `listens` whether these calls return; `fresh` is the memory that `realloc` finds. -/
structure ConfigEnv where
  optD : Option (List Byte)
  optP : Option (List Byte)
  optU : Option (List Byte)
  getpwuid : Int32 → Option Ids
  getpwnam : List Byte → Option Ids
  setIds : Ids → Bool
  access : List Byte → Bool
  accessDir : List Byte → Bool
  gethostbyname : List Byte → Option (List Byte)
  ldapPort : Option UInt16
  gsmdPort : Option UInt16
  fileModule : Bool
  ldapModule : Bool
  ldapInit1 : Bool
  listens : List Byte → Bool
  fresh : KeyTable → Nat → KeySlot

/-! ## The options -/

inductive Backend where
  | file
  | ldap
  deriving DecidableEq

inductive TlsMode where
  | off
  | on
  | bindonly
  deriving DecidableEq

/-- The variables that a `seen_` variable goes with. -/
inductive Setting where
  | user
  | logFacility
  | logLevel
  | pluginRp
  | backend
  | authTimeout
  | prependPin
  | hardfail
  | softfail
  | ewindowSize
  | rwindowSize
  | siteTransform
  | filePasswd
  | fileEncrypt
  | fileServer
  | ldapHost
  | ldapPort
  | ldapBinddn
  | ldapBindpw
  | ldapBasedn
  | ldapFilter
  | ldapScope
  | tlsMode
  | tlsVerifyCert
  | tlsCacertfile
  | tlsCacertdir
  | tlsCertfile
  | tlsKeyfile
  | stateMode
  | statedir
  | stateGport
  deriving DecidableEq

/-- `none` for a user option that `-u` overrides, and a log_level that `-d` does. -/
abbrev Setting.Value : Setting → Type
  | .user => Option Ids
  | .logLevel => Option Nat
  | .logFacility | .tlsVerifyCert => Nat
  | .backend => Backend
  | .authTimeout | .hardfail | .softfail | .ewindowSize | .rwindowSize | .ldapPort => Int32
  | .prependPin | .siteTransform => Bool
  | .pluginRp | .filePasswd | .fileServer | .ldapHost | .ldapBinddn | .ldapBindpw | .ldapBasedn
  | .ldapScope | .tlsCacertfile | .tlsCacertdir | .tlsCertfile | .tlsKeyfile => List Byte
  | .fileEncrypt => EncryptMode × Int32
  | .ldapFilter => LdapFilter
  | .tlsMode => TlsMode
  | .stateMode => StateMode
  | .statedir => Statedir
  | .stateGport => UInt16

/-- `url` is `config.ldap.url`; the settings of the server section are those of the section
that is being read. -/
structure ConfigVars where
  settings : ∀ k : Setting, Option k.Value
  gtimeout : Int
  server : ServerSeen
  gsmd : List ServerConfig
  passwdKeyid : Option Int32
  passwdKey : Option (List Byte)
  key : KeyTable
  url : Option (List Byte)
  seenFile : Bool
  seenLdap : Bool
  usingTls : Bool
  usingState : Bool

def ConfigVars.init : ConfigVars where
  settings := fun _ => none
  gtimeout := 0
  server := {}
  gsmd := []
  passwdKeyid := none
  passwdKey := none
  key := ⟨[], 0⟩
  url := none
  seenFile := false
  seenLdap := false
  usingTls := false
  usingState := false

abbrev Setter := Settings.Setter Setting.Value

/-- `strcpy` into `size` bytes. -/
def strcpy (size : Nat) (arg : List Byte) : Run (List Byte) :=
  if arg.length < size then .done arg else .fault

/-! ## Functions of one option -/

section Setters

variable (env : ConfigEnv)

def lookupUser (arg : List Byte) : Option Ids :=
  if arg.all isDigit then env.getpwuid (atoi arg) else env.getpwnam arg

def setUser (arg : List Byte) : Setter where
  option := .user
  value :=
    if env.optU.isSome then .done none
    else do
      let pw ← Run.ofOption (lookupUser env arg)
      Run.require (env.setIds pw = true)
      return some pw

def facNames : List (List Byte × Nat) :=
  [(ascii "user", 8), (ascii "mail", 16), (ascii "daemon", 24), (ascii "ftp", 88),
    (ascii "auth", 32), (ascii "authpriv", 80), (ascii "lpr", 48), (ascii "news", 56),
    (ascii "uucp", 64), (ascii "cron", 72), (ascii "audit", 32), (ascii "local0", 128),
    (ascii "local1", 136), (ascii "local2", 144), (ascii "local3", 152), (ascii "local4", 160),
    (ascii "local5", 168), (ascii "local6", 176), (ascii "local7", 184)]

def setLogFacility (arg : List Byte) : Setter := ⟨.logFacility, .ofOption (facNames.lookup arg)⟩

def priNames : List (List Byte × Nat) :=
  [(ascii "emerg", 0), (ascii "alert", 1), (ascii "crit", 2), (ascii "err", 3),
    (ascii "warning", 4), (ascii "notice", 5), (ascii "info", 6), (ascii "debug", 7),
    (ascii "debug0", 7), (ascii "debug1", 8), (ascii "debug2", 9), (ascii "debug3", 10),
    (ascii "debug4", 11), (ascii "debug5", 12), (ascii "debug6", 13), (ascii "debug7", 14),
    (ascii "debug8", 15)]

def setLogLevel (arg : List Byte) : Setter where
  option := .logLevel
  value := do
    let level ← Run.ofOption (priNames.lookup arg)
    if env.optD.isSome then return none else return some level

def setBackend (arg : List Byte) : Setter where
  option := .backend
  value :=
    if arg = ascii "file" then .done Backend.file
    else if arg = ascii "ldap" then .done Backend.ldap
    else .fail

def setAuthTimeout (arg : Int32) : Setter where
  option := .authTimeout
  value := if arg < 3000 then .fail else .done (timesMillion arg)

def setPrependPin (arg : Bool) : Setter := ⟨.prependPin, .done arg⟩
def setHardfail (arg : Int32) : Setter := ⟨.hardfail, .done arg⟩
def setSoftfail (arg : Int32) : Setter := ⟨.softfail, .done arg⟩
def setEwindowSize (arg : Int32) : Setter := ⟨.ewindowSize, .done arg⟩
def setRwindowSize (arg : Int32) : Setter := ⟨.rwindowSize, .done arg⟩
def setSiteTransform (arg : Bool) : Setter := ⟨.siteTransform, .done arg⟩

def setFilePasswd (arg : List Byte) : Setter where
  option := .filePasswd
  value := do
    Run.require (arg.head? = some 47)
    Run.require (env.access arg = true)
    strcpy (pathMax + 1) arg

def setFileEncrypt (mode : EncryptMode) (id : Int32) : Setter where
  option := .fileEncrypt
  value := if id > 127 then .fail else .done (mode, id)

def setFileServer (arg : List Byte) : Setter where
  option := .fileServer
  value := do
    Run.require (arg.length ≤ gsmMaxNameLen)
    strcpy (gsmMaxNameLen + 1) arg

def setLdapHost (arg : List Byte) : Setter where
  option := .ldapHost
  value := if (env.gethostbyname arg).isSome then .done arg else .fail

def setLdapPort (arg : Int32) : Setter where
  option := .ldapPort
  value := if arg = 0 ∨ arg > 65535 then .fail else .done arg

def setLdapBinddn (arg : List Byte) : Setter := ⟨.ldapBinddn, .done arg⟩
def setLdapBindpw (arg : List Byte) : Setter := ⟨.ldapBindpw, .done arg⟩
def setLdapBasedn (arg : List Byte) : Setter := ⟨.ldapBasedn, .done arg⟩

/-- The lexer makes no other words: it counts the characters of a token in an `int`. -/
def wordOf (arg : List Byte) : Option ConfigWord :=
  if word : arg.length ≤ 2147483647 ∧ (0 : Byte) ∉ arg then some ⟨arg, word.1, word.2⟩ else none

def setLdapFilter (arg : List Byte) : Setter where
  option := .ldapFilter
  value := do
    let arg ← Run.ofOption (wordOf arg)
    let option ← Otpd.setLdapFilter ⟨false, none⟩ arg
    Run.ofOption (option.bind LdapFilterOption.filter)

def setLdapScope (arg : List Byte) : Setter where
  option := .ldapScope
  value := if arg = ascii "one" ∨ arg = ascii "sub" then .done arg else .fail

def setTlsMode (arg : List Byte) : Setter where
  option := .tlsMode
  value :=
    if arg = ascii "off" then .done TlsMode.off
    else if arg = ascii "on" then .done TlsMode.on
    else if arg = ascii "bind-only" then .done TlsMode.bindonly
    else .fail

def setTlsVerifyCert (arg : List Byte) : Setter where
  option := .tlsVerifyCert
  value :=
    if arg = ascii "ignore" then .done (0 : Nat)
    else if arg = ascii "check" then .done (1 : Nat)
    else if arg = ascii "crl" then .done (2 : Nat)
    else .fail

/-- A file name that is only tried. -/
def existing (arg : List Byte) : Run (List Byte) :=
  if env.access arg then .done arg else .fail

def setTlsCacertfile (arg : List Byte) : Setter := ⟨.tlsCacertfile, existing env arg⟩
def setTlsCacertdir (arg : List Byte) : Setter := ⟨.tlsCacertdir, existing env arg⟩
def setTlsCertfile (arg : List Byte) : Setter := ⟨.tlsCertfile, existing env arg⟩
def setTlsKeyfile (arg : List Byte) : Setter := ⟨.tlsKeyfile, existing env arg⟩

def setStateMode (arg : List Byte) : Setter := ⟨.stateMode, .ofOption (stateModeOf arg)⟩

def setStatedir (arg : List Byte) : Setter where
  option := .statedir
  value := do
    let dir ← Run.ofOption (Otpd.setStatedir arg)
    let _ ← strcpy (pathMax + 1) arg
    return dir

def setStateGport (arg : Int32) : Setter := ⟨.stateGport, .ofOption (setPort arg)⟩

end Setters

/-! ## Functions of a section -/

section Actions

variable (env : ConfigEnv) (vars : ConfigVars)

def ConfigVars.set (setter : Setter) : Run ConfigVars :=
  setter.apply vars.settings >>= fun settings => .done { vars with settings := settings }

/-- `rp_maxlen`: `sun_path` has 108 bytes. -/
def rpMaxlen : Nat := min 107 pathMax

def pluginRpName (arg : List Byte) : Run (List Byte) := do
  Run.require (arg.head? = some 47)
  Run.require (arg.length ≤ rpMaxlen)
  return arg

/-- With `-p` the argument is checked and then ignored. -/
def setPluginRp (arg : List Byte) : Run ConfigVars :=
  if (vars.settings .pluginRp).isSome then .done vars
  else do
    let arg ← pluginRpName arg
    if env.optP.isSome then return vars
    else return { vars with settings := put vars.settings .pluginRp arg }

def setPasswdKeyid (arg : Int32) : ConfigVars :=
  { vars with passwdKeyid := vars.passwdKeyid.or (some arg) }

def setPasswdKey (arg : List Byte) : Run ConfigVars := do
  let seen ← Run.ofOption (Otpd.setPasswdKey ⟨none, vars.passwdKey⟩ arg)
  return { vars with passwdKey := seen.key }

def setStateTimeout (arg : Int32) : ConfigVars :=
  { vars with gtimeout := (Otpd.setStateTimeout { gtimeout := vars.gtimeout } arg).gtimeout }

def setServer (item : ServerItem) : Run ConfigVars := do
  let server ← Run.ofOption (Otpd.setServer vars.gsmd vars.server item)
  return { vars with server := server }

def finishServer : Run ConfigVars := do
  let server ← Run.ofOption (Otpd.finishServer vars.server)
  return { vars with gsmd := vars.gsmd ++ [server], server := {} }

def finishFile : Run ConfigVars := do
  Run.require (env.fileModule = true)
  Run.require (vars.seenFile = false)
  return { vars with seenFile := true }

/-- `%d` of `printf`. -/
def printInt (n : Int) : List Byte :=
  if n < 0 then 45 :: printDec 1 n.natAbs else printDec 1 n.natAbs

def defaultLdapPort : Int32 :=
  match env.ldapPort with
  | some port => Int32.ofNat port.toNat
  | none => 389

/-- `config.ldap.url`, for a host and a port. -/
def ldapUrl (host : List Byte) (port : Int32) : Run (List Byte) :=
  strcpy (7 + host.length + 1 + 5 + 1) (ascii "ldap://" ++ host ++ 58 :: printInt port.toInt)

def finishLdap : Run ConfigVars := do
  Run.require (env.ldapModule = true)
  Run.require (vars.seenLdap = false)
  let vars ← vars.set ⟨.ldapHost, .done (ascii "localhost")⟩
  let vars ← vars.set ⟨.ldapPort, .done (defaultLdapPort env)⟩
  let url ← ldapUrl ((vars.settings .ldapHost).getD ([] : List Byte))
    ((vars.settings .ldapPort).getD (0 : Int32))
  Run.require ((vars.settings .ldapBinddn).isSome = true → (vars.settings .ldapBindpw).isSome = true)
  Run.require ((vars.settings .ldapBasedn).isSome = true)
  Run.require ((vars.settings .ldapFilter).isSome = true)
  let vars ← vars.set ⟨.ldapScope, .done (ascii "sub")⟩
  return { vars with seenLdap := true, url := some url }

def finishTls : Run ConfigVars := do
  Run.require (vars.usingTls = false)
  return { vars with usingTls := true }

/-- For a negative id `xmalloc` is asked for more than there is, or for nothing; with a table
the slot in front of it is read. -/
def finishKey : Run ConfigVars :=
  match vars.passwdKeyid, vars.passwdKey with
  | some id, some key =>
    if id > 127 then .fail
    else if id < 0 then
      if vars.key.key = [] ∧ id ≠ -1 then .fail else .fault
    else
      match Otpd.finishKey (env.fresh vars.key) vars.key ⟨some id.toNatClampNeg, some key⟩ with
      | none => .fail
      | some (table, writes) =>
        if writes.all fun write => write.first + write.count ≤ write.size then
          .done { vars with passwdKeyid := none, passwdKey := none, key := table }
        else .fault
  | _, _ => .fail

def finishState : Run ConfigVars := do
  Run.require (vars.usingState = false)
  return { vars with usingState := true }

/-- The calls in the rules of the grammar. -/
def configStep : Action → Run ConfigVars
  | .setUser arg => vars.set (setUser env arg)
  | .setLogFacility arg => vars.set (setLogFacility arg)
  | .setLogLevel arg => vars.set (setLogLevel env arg)
  | .setPluginRp arg => setPluginRp env vars arg
  | .setBackend arg => vars.set (setBackend arg)
  | .setAuthTimeout arg => vars.set (setAuthTimeout arg)
  | .setPrependPin arg => vars.set (setPrependPin arg)
  | .setHardfail arg => vars.set (setHardfail arg)
  | .setSoftfail arg => vars.set (setSoftfail arg)
  | .setEwindowSize arg => vars.set (setEwindowSize arg)
  | .setRwindowSize arg => vars.set (setRwindowSize arg)
  | .setSiteTransform arg => vars.set (setSiteTransform arg)
  | .setFilePasswd arg => vars.set (setFilePasswd env arg)
  | .setFileEncrypt mode id => vars.set (setFileEncrypt mode id)
  | .setFileServer arg => vars.set (setFileServer arg)
  | .setLdapHost arg => vars.set (setLdapHost env arg)
  | .setLdapPort arg => vars.set (setLdapPort arg)
  | .setLdapBinddn arg => vars.set (setLdapBinddn arg)
  | .setLdapBindpw arg => vars.set (setLdapBindpw arg)
  | .setLdapBasedn arg => vars.set (setLdapBasedn arg)
  | .setLdapFilter arg => vars.set (setLdapFilter arg)
  | .setLdapScope arg => vars.set (setLdapScope arg)
  | .setTlsMode arg => vars.set (setTlsMode arg)
  | .setTlsVerifyCert arg => vars.set (setTlsVerifyCert arg)
  | .setTlsCacertfile arg => vars.set (setTlsCacertfile env arg)
  | .setTlsCacertdir arg => vars.set (setTlsCacertdir env arg)
  | .setTlsCertfile arg => vars.set (setTlsCertfile env arg)
  | .setTlsKeyfile arg => vars.set (setTlsKeyfile env arg)
  | .setPasswdKeyid arg => .done (setPasswdKeyid vars arg)
  | .setPasswdKey arg => setPasswdKey vars arg
  | .setStateMode arg => vars.set (setStateMode arg)
  | .setStatedir arg => vars.set (setStatedir arg)
  | .setStateTimeout arg => .done (setStateTimeout vars arg)
  | .setStateGport arg => vars.set (setStateGport arg)
  | .setServerName arg => setServer vars (.name arg)
  | .setServerPrimary arg => setServer vars (.primary arg)
  | .setServerBackup arg => setServer vars (.backup arg)
  | .setServerTimeout arg => setServer vars (.timeout arg)
  | .setServerGport arg => setServer vars (.gport arg)
  | .setServerKey arg => setServer vars (.key arg)
  | .finishFile => finishFile env vars
  | .finishLdap => finishLdap env vars
  | .finishTls => finishTls vars
  | .finishKey => finishKey env vars
  | .finishState => finishState vars
  | .finishServer => finishServer vars

end Actions

end Otpd.ConfigFile

import Otpd.ConfigLexer
import Otpd.Lib.Sections
import Otpd.Types

/-!
# The grammar of the configuration file

The productions of `config.y` and the actions they call.  Bison reports fifteen
shift/reduce conflicts, and `%expect 15` silences them: an empty list of items may stand
in front of the first item of a file, tls or state section.  `yyparse_iff`: whatever way
they are resolved, the actions are the same ones in the same order.
-/

set_option autoImplicit false

namespace Otpd

open CMem
open Sections (Grammar Derives)

inductive Sect where
  | config
  | file
  | ldap
  | tls
  | key
  | state
  | server
  deriving DecidableEq

/-- The calls of the rules. -/
inductive Action where
  | setUser (arg : List Byte)
  | setLogFacility (arg : List Byte)
  | setLogLevel (arg : List Byte)
  | setPluginRp (arg : List Byte)
  | setBackend (arg : List Byte)
  | setAuthTimeout (arg : Int32)
  | setPrependPin (arg : Bool)
  | setHardfail (arg : Int32)
  | setSoftfail (arg : Int32)
  | setEwindowSize (arg : Int32)
  | setRwindowSize (arg : Int32)
  | setSiteTransform (arg : Bool)
  | setFilePasswd (arg : List Byte)
  | setFileEncrypt (mode : EncryptMode) (id : Int32)
  | setFileServer (arg : List Byte)
  | setLdapHost (arg : List Byte)
  | setLdapPort (arg : Int32)
  | setLdapBinddn (arg : List Byte)
  | setLdapBindpw (arg : List Byte)
  | setLdapBasedn (arg : List Byte)
  | setLdapFilter (arg : List Byte)
  | setLdapScope (arg : List Byte)
  | setTlsMode (arg : List Byte)
  | setTlsVerifyCert (arg : List Byte)
  | setTlsCacertfile (arg : List Byte)
  | setTlsCacertdir (arg : List Byte)
  | setTlsCertfile (arg : List Byte)
  | setTlsKeyfile (arg : List Byte)
  | setPasswdKeyid (arg : Int32)
  | setPasswdKey (arg : List Byte)
  | setStateMode (arg : List Byte)
  | setStatedir (arg : List Byte)
  | setStateTimeout (arg : Int32)
  | setStateGport (arg : Int32)
  | setServerName (arg : List Byte)
  | setServerPrimary (arg : List Byte)
  | setServerBackup (arg : List Byte)
  | setServerTimeout (arg : Int32)
  | setServerGport (arg : Int32)
  | setServerKey (arg : List Byte)
  | finishFile
  | finishLdap
  | finishTls
  | finishKey
  | finishState
  | finishServer
  deriving DecidableEq

/-- `KEYWORD '=' WORD`. -/
def wordOption (s : Sect) (k : Keyword) : Option (List Byte → Action) :=
  match s, k with
  | .config, .user => some .setUser
  | .config, .logFacility => some .setLogFacility
  | .config, .logLevel => some .setLogLevel
  | .config, .pluginRp => some .setPluginRp
  | .config, .backend => some .setBackend
  | .file, .passwd => some .setFilePasswd
  | .file, .stateServer => some .setFileServer
  | .ldap, .host => some .setLdapHost
  | .ldap, .binddn => some .setLdapBinddn
  | .ldap, .bindpw => some .setLdapBindpw
  | .ldap, .basedn => some .setLdapBasedn
  | .ldap, .filter => some .setLdapFilter
  | .ldap, .scope => some .setLdapScope
  | .tls, .mode => some .setTlsMode
  | .tls, .verifyCert => some .setTlsVerifyCert
  | .tls, .cacertfile => some .setTlsCacertfile
  | .tls, .cacertdir => some .setTlsCacertdir
  | .tls, .certfile => some .setTlsCertfile
  | .tls, .keyfile => some .setTlsKeyfile
  | .key, .key => some .setPasswdKey
  | .state, .mode => some .setStateMode
  | .state, .statedir => some .setStatedir
  | .server, .name => some .setServerName
  | .server, .primary => some .setServerPrimary
  | .server, .backup => some .setServerBackup
  | .server, .key => some .setServerKey
  | _, _ => none

/-- `KEYWORD '=' INTEGER`. -/
def integerOption (s : Sect) (k : Keyword) : Option (Int32 → Action) :=
  match s, k with
  | .config, .timeout => some .setAuthTimeout
  | .config, .hardfail => some .setHardfail
  | .config, .softfail => some .setSoftfail
  | .config, .ewindowSize => some .setEwindowSize
  | .config, .rwindowSize => some .setRwindowSize
  | .file, .encrypt => some (.setFileEncrypt .keyid)
  | .ldap, .port => some .setLdapPort
  | .key, .keyid => some .setPasswdKeyid
  | .state, .timeout => some .setStateTimeout
  | .state, .gport => some .setStateGport
  | .state, .port => some .setStateGport
  | .server, .timeout => some .setServerTimeout
  | .server, .gport => some .setServerGport
  | _, _ => none

/-- `KEYWORD '=' yesno`, and the names of the encryption modes. -/
def keywordOption (s : Sect) (k value : Keyword) : Option Action :=
  match s, k, value with
  | .config, .prependPin, .yes => some (.setPrependPin true)
  | .config, .prependPin, .no => some (.setPrependPin false)
  | .config, .siteTransform, .yes => some (.setSiteTransform true)
  | .config, .siteTransform, .no => some (.setSiteTransform false)
  | .file, .encrypt, .clear => some (.setFileEncrypt .clear 0)
  | .file, .encrypt, .pin => some (.setFileEncrypt .pin 0)
  | .file, .encrypt, .pinmd5 => some (.setFileEncrypt .pinmd5 0)
  | _, _, _ => none

def configOption (s : Sect) (name value : Token) : Option Action :=
  match name, value with
  | .keyword k, .word sval => (wordOption s k).map fun set => set sval
  | .keyword k, .integer ival => (integerOption s k).map fun set => set ival
  | .keyword k, .keyword value => keywordOption s k value
  | _, _ => none

def configSection (s : Sect) (name : Token) : Option Sect :=
  match s, name with
  | .config, .keyword .userFile => some .file
  | .config, .keyword .userLdap => some .ldap
  | .config, .keyword .passwdkey => some .key
  | .config, .keyword .state => some .state
  | .ldap, .keyword .ldapTls => some .tls
  | .state, .keyword .server => some .server
  | _, _ => none

def configFinish : Sect → List Action
  | .config => []
  | .file => [.finishFile]
  | .ldap => [.finishLdap]
  | .tls => [.finishTls]
  | .key => [.finishKey]
  | .state => [.finishState]
  | .server => [.finishServer]

/-- The sections with an alternative for no items. -/
def Sect.mayBeEmpty : Sect → Bool
  | .file | .tls | .state => true
  | _ => false

def configGrammar : Grammar Sect Token Action where
  equals := .equals
  opening := .lbrace
  closing := .rbrace
  option := configOption
  inner := configSection
  finish := configFinish
  mayBeEmpty := Sect.mayBeEmpty
  equals_ne := by decide
  closing_option := fun _ _ => rfl
  closing_inner := fun s => by cases s <;> rfl

/-- `otpd_section`. -/
inductive OtpdSection : List Token → List Action → Prop where
  | empty : OtpdSection [] []
  | braces : OtpdSection [.keyword .otpd, .lbrace, .rbrace] []
  | config {tokens : List Token} {actions : List Action}
      (config : Derives configGrammar (.body .config) tokens actions) :
      OtpdSection (.keyword .otpd :: .lbrace :: (tokens ++ [.rbrace])) actions

/-- The actions that are called; `none` for a syntax error. -/
def yyparse : List Token → Option (List Action)
  | [] => some []
  | [.keyword .otpd, .lbrace, .rbrace] => some []
  | .keyword .otpd :: .lbrace :: rest => Sections.parse configGrammar [(.config, false)] rest
  | _ => none

theorem yyparse_iff (tokens : List Token) (actions : List Action) :
    yyparse tokens = some actions ↔ OtpdSection tokens actions := by
  constructor
  · intro parsed
    unfold yyparse at parsed
    split at parsed
    · cases parsed
      exact .empty
    · cases parsed
      exact .braces
    · obtain ⟨body, did, rfl, rfl, derived⟩ := (Sections.parse_iff configGrammar _ _ _).mp parsed
      rw [show configGrammar.finish .config = [] from rfl, List.append_nil]
      exact .config derived
    · cases parsed
  · intro derived
    cases derived with
    | empty => rfl
    | braces => rfl
    | @config body _ config =>
        have parsed := (Sections.parse_iff configGrammar .config (body ++ [.rbrace]) actions).mpr
          ⟨body, actions, rfl, (List.append_nil _).symm, config⟩
        unfold yyparse
        split
        · rename_i whole
          cases whole
        · rename_i whole
          have nothing : body = [] := by simpa using whole
          subst nothing
          cases parsed
        · rename_i rest _ whole
          have same : body ++ [.rbrace] = rest := by simpa using whole
          rw [← same]
          exact parsed
        · rename_i other
          exact absurd rfl (other _)

/-- The actions that are called up to a syntax error, and whether there is none.  Each rule
with an action ends in a token behind which bison does not look ahead, so the action is
called before the next token is asked for. -/
def yyreduce : List Token → List Action × Bool
  | [] => ([], true)
  | [.keyword .otpd, .lbrace, .rbrace] => ([], true)
  | .keyword .otpd :: .lbrace :: rest => Sections.reductions configGrammar [(.config, false)] rest
  | _ => ([], false)

theorem yyreduce_iff (tokens : List Token) (actions : List Action) :
    yyreduce tokens = (actions, true) ↔ yyparse tokens = some actions := by
  unfold yyreduce yyparse
  split
  · simp
  · simp
  · exact Sections.reductions_iff _ _ _
  · exact iff_of_false (fun same => by cases same) fun same => by cases same

/-- The actions for a file; `none` when otpd exits in the lexer or the parser. -/
def configActions (text : List Byte) : Option (List Action) := (lex text).bind yyparse

/-- The actions that are called for any text, and whether they are all of an accepted file. -/
def configCalls (text : List Byte) : List Action × Bool :=
  ((yyreduce (lexed text).1).1, (yyreduce (lexed text).1).2 && (lexed text).2)

theorem configCalls_iff (text : List Byte) (actions : List Action) :
    configCalls text = (actions, true) ↔ configActions text = some actions := by
  have lexed_iff : ∀ tokens, lexed text = (tokens, true) ↔ lex text = some tokens :=
    Scanner.scanned_iff _ _ _
  rw [configActions, Option.bind_eq_some_iff]
  simp only [← lexed_iff, ← yyreduce_iff]
  constructor
  · intro called
    obtain ⟨same, both⟩ := Prod.ext_iff.mp called
    obtain ⟨parsed, scanned⟩ := Bool.and_eq_true_iff.mp both
    exact ⟨_, Prod.ext rfl scanned, Prod.ext same parsed⟩
  · rintro ⟨tokens, scanned, parsed⟩
    rw [configCalls, scanned, parsed]
    rfl

theorem configActions_derived {tokens : List Token} {text : List Byte} {actions : List Action}
    (written : Written tokens text) (derived : OtpdSection tokens actions) :
    configActions text = some actions := by
  rw [configActions, lex_written written, Option.bind_some, yyparse_iff]
  exact derived

/-- The actions are those of the grammar, whatever way the file is laid out. -/
theorem config_layout {tokens : List Token} {text : List Byte} (written : Written tokens text)
    (actions : List Action) :
    configActions text = some actions ↔ OtpdSection tokens actions := by
  rw [configActions, lex_written written, Option.bind_some, yyparse_iff]

/-- A quoted user, a comment in the middle and no blanks around the braces. -/
theorem config_layout_quoted :
    configActions (ascii "otpd\x7buser =\t'o t'# who\ntimeout=5000 \x7d") =
      some [.setUser (ascii "o t"), .setAuthTimeout 5000] := by
  have written : Written
      ([.keyword .otpd, .lbrace, .keyword .user, .equals, .word (ascii "o t"), .keyword .timeout,
        .equals, .integer 5000, .rbrace])
      (Keyword.otpd.text ++ 123 :: (Keyword.user.text ++ (ascii " " ++ 61 :: (ascii "\t" ++
        ((39 :: (ascii "o t" ++ [39])) ++ 35 :: (ascii " who" ++ 10 :: (Keyword.timeout.text ++
          61 :: 53 :: (ascii "000" ++ 32 :: [125])))))))) := by
    refine .keyword rfl (by decide +kernel) (.mark rfl ?_)
    refine @Written.option .user (ascii " ") (ascii "\t") (ascii "o t") _ _ _ rfl (by decide +kernel)
      (.single (by decide +kernel)) ?_
    refine .comment (by decide +kernel) (.keyword rfl (by decide +kernel) (.mark rfl ?_))
    exact @Written.integer 53 (ascii "000") (ascii " \x7d") _ (by decide +kernel) (by decide +kernel)
      (.blank (by decide +kernel) (.mark rfl .nil))
  have options : Derives configGrammar (.body .config)
      ([.keyword .user, .equals, .word (ascii "o t")] ++ [.keyword .timeout, .equals, .integer 5000])
      ([.setUser (ascii "o t")] ++ [.setAuthTimeout 5000]) :=
    .more (.single (.option rfl)) (.option rfl)
  exact (config_layout written _).mpr (.config options)

end Otpd

import Otpd.Lib.Numerals
import Otpd.Lib.Scanner

/-!
# The lexer of the configuration file

`config.l`: its start conditions and rules, with the longest match and the first rule on
ties.  A text that no rule matches is echoed.

`Written` says which texts are meant for a list of tokens: blanks, newlines and comments
may stand anywhere in front of a token, and a word may be bare or quoted.  `lex_written`
reads all of them back.
-/

set_option autoImplicit false

namespace Otpd

open CMem
open Scanner (Rule literal many)

/-! ## Tokens -/

inductive Keyword where
  | otpd | yes | no | user | logFacility | logLevel | pluginRp | backend | timeout | prependPin
  | hardfail | softfail | ewindowSize | rwindowSize | siteTransform | userFile | passwd | encrypt
  | stateServer | clear | pin | pinmd5 | userLdap | host | port | binddn | bindpw | basedn
  | filter | scope | ldapTls | mode | verifyCert | cacertfile | cacertdir | certfile | keyfile
  | passwdkey | keyid | key | state | statedir | gport | server | name | primary | backup
  deriving DecidableEq

def Keyword.text : Keyword → List Byte
  | .otpd => ascii "otpd"
  | .yes => ascii "yes"
  | .no => ascii "no"
  | .user => ascii "user"
  | .logFacility => ascii "log_facility"
  | .logLevel => ascii "log_level"
  | .pluginRp => ascii "plugin_rp"
  | .backend => ascii "backend"
  | .timeout => ascii "timeout"
  | .prependPin => ascii "prepend_pin"
  | .hardfail => ascii "hardfail"
  | .softfail => ascii "softfail"
  | .ewindowSize => ascii "ewindow_size"
  | .rwindowSize => ascii "rwindow_size"
  | .siteTransform => ascii "site_transform"
  | .userFile => ascii "file"
  | .passwd => ascii "passwd"
  | .encrypt => ascii "encrypt"
  | .stateServer => ascii "state_server"
  | .clear => ascii "clear"
  | .pin => ascii "pin"
  | .pinmd5 => ascii "pin-md5"
  | .userLdap => ascii "ldap"
  | .host => ascii "host"
  | .port => ascii "port"
  | .binddn => ascii "binddn"
  | .bindpw => ascii "bindpw"
  | .basedn => ascii "basedn"
  | .filter => ascii "filter"
  | .scope => ascii "scope"
  | .ldapTls => ascii "tls"
  | .mode => ascii "mode"
  | .verifyCert => ascii "verify_cert"
  | .cacertfile => ascii "cacertfile"
  | .cacertdir => ascii "cacertdir"
  | .certfile => ascii "certfile"
  | .keyfile => ascii "keyfile"
  | .passwdkey => ascii "passwdkey"
  | .keyid => ascii "id"
  | .key => ascii "key"
  | .state => ascii "state"
  | .statedir => ascii "statedir"
  | .gport => ascii "gsmd_port"
  | .server => ascii "server"
  | .name => ascii "name"
  | .primary => ascii "primary"
  | .backup => ascii "backup"

/-- The keywords after which the lexer expects `= WORD`, `BEGIN UWORD`. -/
def Keyword.beginsWord : Keyword → Bool
  | .user | .logFacility | .logLevel | .pluginRp | .backend | .passwd | .stateServer | .host
  | .binddn | .bindpw | .basedn | .filter | .scope | .mode | .verifyCert | .cacertfile
  | .cacertdir | .certfile | .keyfile | .key | .statedir | .name | .primary | .backup => true
  | _ => false

inductive Token where
  | keyword (k : Keyword)
  | lbrace
  | rbrace
  | equals
  | word (sval : List Byte)
  | integer (ival : Int32)
  deriving DecidableEq

/-- `strtol` saturates at `LONG_MAX`, and the `int` is what is left of that. -/
def atoi (digits : List Byte) : Int32 := Int32.ofNat (min (decValue digits) (2 ^ 63 - 1))

/-! ## Rules -/

/-- The start conditions. -/
inductive Cond where
  | initial
  | uword
  | uword2
  | squote
  | dquote
  deriving DecidableEq

inductive LexAction where
  | token (t : Token)
  | keyword (k : Keyword)
  | integer
  | ignore
  | syntaxError
  | equals
  | openQuote (cond : Cond)
  | bareWord
  | closeQuote
  | unterminated
  | yymore

def isBlank (c : Byte) : Bool := c == 32 || c == 9

def notNewline (c : Byte) : Bool := c ≠ 10

def one (p : Byte → Bool) (text : List Byte) : Nat := if text.head?.any p then 1 else 0

def keywordRule (k : Keyword) : Rule Byte LexAction := ⟨literal k.text, .keyword k⟩

/-- `{`, `}` and `=`. -/
def punctuation : List (Rule Byte LexAction) :=
  [⟨literal [123], .token .lbrace⟩, ⟨literal [125], .token .rbrace⟩, ⟨literal [61], .token .equals⟩]

def keywords : List Keyword :=
  [.yes, .no, .user, .logFacility, .logLevel, .pluginRp, .backend, .timeout, .prependPin,
    .hardfail, .softfail, .ewindowSize, .rwindowSize, .siteTransform, .userFile, .passwd, .encrypt,
    .stateServer, .clear, .pin, .pinmd5, .userLdap, .host, .port, .binddn, .bindpw, .basedn,
    .filter, .scope, .ldapTls, .mode, .verifyCert, .cacertfile, .cacertdir, .certfile, .keyfile,
    .passwdkey, .keyid, .key, .state, .statedir, .gport, .server, .name, .primary, .backup]

/-- `#.*`. -/
def comment (text : List Byte) : Nat :=
  match text with
  | 35 :: rest => 1 + many notNewline rest
  | _ => 0

def otherRules : List (Rule Byte LexAction) :=
  [⟨many isDigit, .integer⟩, ⟨many isBlank, .ignore⟩, ⟨comment, .ignore⟩, ⟨literal [10], .ignore⟩]

def tokenRules : List (Rule Byte LexAction) :=
  keywordRule .otpd :: punctuation ++ keywords.map keywordRule ++ otherRules

/-- `[ \t]*=[ \t]*`. -/
def spacedEquals (text : List Byte) : Nat :=
  match text.drop (many isBlank text) with
  | 61 :: rest => many isBlank text + 1 + many isBlank rest
  | _ => 0

/-- A character other than a quote, and all up to a blank or the end of the line. -/
def bareWord (text : List Byte) : Nat :=
  match text with
  | c :: rest =>
    if c = 39 ∨ c = 34 then 0 else 1 + many (fun c => !isBlank c && notNewline c) rest
  | [] => 0

def quoteRules (quote : Byte) : List (Rule Byte LexAction) :=
  [⟨literal [quote], .closeQuote⟩, ⟨literal [10], .unterminated⟩, ⟨one notNewline, .yymore⟩]

def rules : Cond → List (Rule Byte LexAction)
  | .initial => tokenRules ++ [⟨one notNewline, .syntaxError⟩]
  | .uword => [⟨spacedEquals, .equals⟩]
  | .uword2 =>
      [⟨literal [39], .openQuote .squote⟩, ⟨literal [34], .openQuote .dquote⟩, ⟨bareWord, .bareWord⟩]
  | .squote => quoteRules 39
  | .dquote => quoteRules 34

/-- The start condition and the text that `yymore` keeps. -/
structure LexState where
  cond : Cond
  more : List Byte

def LexState.initial : LexState := ⟨.initial, []⟩

/-- One rule and its action; `none` when `yyerror` ends otpd. -/
def lexAction (s : LexState) (yytext : List Byte) : LexAction → Option (LexState × List Token)
  | .token t => some (.initial, [t])
  | .keyword k => some (⟨if k.beginsWord then .uword else .initial, []⟩, [.keyword k])
  | .integer => some (.initial, [.integer (atoi yytext)])
  | .ignore => some (.initial, [])
  | .syntaxError => none
  | .equals => some (⟨.uword2, []⟩, [.equals])
  | .openQuote cond => some (⟨cond, []⟩, [])
  | .bareWord => some (.initial, [.word (cstr yytext)])
  | .closeQuote => some (.initial, [.word (cstr yytext.dropLast)])
  | .unterminated => none
  | .yymore => some (⟨s.cond, yytext⟩, [])

def lexStep (s : LexState) (c : Byte) (rest : List Byte) : Option (Nat × LexState × List Token) :=
  match Scanner.best (rules s.cond) (c :: rest) with
  | none => some (0, ⟨s.cond, []⟩, [])
  | some (n, action) =>
      (lexAction s (s.more ++ (c :: rest).take n) action).map fun done => (n - 1, done)

/-- What `yylex` returns up to the end of the file; `none` when it makes otpd exit. -/
def lex (text : List Byte) : Option (List Token) := Scanner.scan lexStep .initial 0 text

/-- What `yylex` returns before it makes otpd exit, and whether it does not. -/
def lexed (text : List Byte) : List Token × Bool := Scanner.scanned lexStep .initial 0 text

/-! ## What the rules match -/

/-- The characters that a keyword can go on with. -/
def isName (c : Byte) : Bool := (97 ≤ c && c ≤ 122) || isDigit c || c == 95 || c == 45

def isLower (c : Byte) : Bool := 97 ≤ c && c ≤ 122

theorem Keyword.text_name (k : Keyword) : ∀ c ∈ k.text, isName c = true := by
  cases k <;> decide +kernel

theorem Keyword.text_cons (k : Keyword) : ∃ c rest, k.text = c :: rest ∧ isLower c = true := by
  cases k <;> exact ⟨_, _, rfl, by decide⟩

/-- The keyword that is written so. -/
def keywordOf (text : List Byte) : Option Keyword := (.otpd :: keywords).find? (·.text == text)

theorem keywordOf_text (k : Keyword) : keywordOf k.text = some k := by cases k <;> decide

theorem Keyword.text_inj {k k' : Keyword} (same : k.text = k'.text) : k = k' := by
  have found := keywordOf_text k
  rw [same, keywordOf_text] at found
  cases found
  rfl

theorem mem_keywords (k : Keyword) : k = .otpd ∨ k ∈ keywords := by cases k <;> decide

theorem keywordRule_mem (k : Keyword) : keywordRule k ∈ tokenRules := by
  rcases mem_keywords k with rfl | member
  · exact List.mem_append_left _ (List.mem_append_left _ List.mem_cons_self)
  · exact List.mem_append_left _ (List.mem_append_right _ (List.mem_map_of_mem member))

theorem mem_tokenRules {rule : Rule Byte LexAction} (member : rule ∈ tokenRules) :
    (∃ k, rule = keywordRule k) ∨ rule ∈ punctuation ∨ rule ∈ otherRules := by
  rw [tokenRules, List.mem_append, List.mem_append, List.mem_cons, List.mem_map] at member
  rcases member with ((first | punct) | ⟨k, -, rfl⟩) | other
  · exact .inl ⟨_, first⟩
  · exact .inr (.inl punct)
  · exact .inl ⟨k, rfl⟩
  · exact .inr (.inr other)

theorem literal_one (b c : Byte) (rest : List Byte) :
    literal [b] (c :: rest) = if b = c then 1 else 0 := by
  rw [literal]
  by_cases same : b = c
  · subst same
    simp
  · simp [same, List.prefix_iff_eq_append]

theorem literal_self (b : Byte) (rest : List Byte) : literal [b] (b :: rest) = 1 := by
  rw [literal_one, if_pos rfl]

theorem comment_cons (c : Byte) (rest : List Byte) :
    comment (c :: rest) = if c = 35 then 1 + many notNewline rest else 0 := by
  by_cases hash : c = 35
  · subst hash
    rfl
  · rw [if_neg hash]
    unfold comment
    split
    · rename_i text
      cases text
      exact absurd rfl hash
    · rfl

theorem one_le (p : Byte → Bool) (text : List Byte) : one p text ≤ 1 := by
  rw [one]
  split_ifs
  · exact Nat.le_refl 1
  · exact Nat.zero_le 1

/-- The rule for all that is left never wins against one of the others. -/
theorem best_initial {rule : Rule Byte LexAction} {text : List Byte} (member : rule ∈ tokenRules)
    (some_ : 0 < rule.munch text)
    (longest : ∀ rule' ∈ tokenRules, rule'.munch text ≤ rule.munch text)
    (unique : ∀ rule' ∈ tokenRules, rule'.munch text = rule.munch text →
      rule'.action = rule.action) :
    Scanner.best (rules .initial) text = some (rule.munch text, rule.action) := by
  have found := Scanner.best_unique member some_ longest unique
  have notMore : ¬ rule.munch text < one notNewline text := by
    have := one_le notNewline text
    omega
  rw [rules, Scanner.best_concat, found]
  simp only [if_neg notMore]

theorem keyword_zero {c : Byte} (notLower : isLower c = false) (k : Keyword) (rest : List Byte) :
    (keywordRule k).munch (c :: rest) = 0 := by
  obtain ⟨first, others, text, lower⟩ := k.text_cons
  apply Scanner.literal_zero
  intro starts
  rw [text, List.cons_prefix_cons] at starts
  rw [starts.1, notLower] at lower
  cases lower

/-- Away from the lower-case letters one rule is left for each character. -/
theorem best_plain (rule : Rule Byte LexAction) {c : Byte} {rest : List Byte} {n : Nat}
    (notLower : isLower c = false) (member : rule ∈ punctuation ++ otherRules)
    (munch : rule.munch (c :: rest) = n) (some_ : 0 < n)
    (only : ∀ rule' ∈ punctuation ++ otherRules, rule' = rule ∨ rule'.munch (c :: rest) = 0) :
    Scanner.best (rules .initial) (c :: rest) = some (n, rule.action) := by
  subst munch
  have among : rule ∈ tokenRules := by
    rcases List.mem_append.mp member with punct | other
    · exact List.mem_append_left _ (List.mem_append_left _ (List.mem_cons_of_mem _ punct))
    · exact List.mem_append_right _ other
  have rivals : ∀ rule' ∈ tokenRules, rule' = rule ∨ rule'.munch (c :: rest) = 0 := by
    intro rule' member
    rcases mem_tokenRules member with ⟨k, rfl⟩ | other
    · exact .inr (keyword_zero notLower k rest)
    · exact only _ (List.mem_append.mpr other)
  apply best_initial among some_
  · intro rule' member
    rcases rivals rule' member with rfl | zero
    · exact Nat.le_refl _
    · omega
  · intro rule' member same
    rcases rivals rule' member with rfl | zero
    · rfl
    · omega

/-- A keyword that went on after `k` would need a character of a name there. -/
theorem keyword_longest {k k' : Keyword} {rest : List Byte}
    (ends : ∀ c ∈ rest.head?, isName c = false) (starts : k'.text <+: k.text ++ rest) :
    k'.text.length ≤ k.text.length := by
  by_contra longer
  obtain ⟨more, text⟩ := List.prefix_of_prefix_length_le (List.prefix_append k.text rest) starts
    (by omega)
  rw [← text, List.prefix_append_right_inj] at starts
  cases more with
  | nil =>
      rw [List.append_nil] at text
      rw [text] at longer
      exact longer (Nat.le_refl _)
  | cons c more =>
      cases rest with
      | nil => cases List.prefix_nil.mp starts
      | cons d rest =>
          have same := (List.cons_prefix_cons.mp starts).1
          have name := k'.text_name c (by simp [← text])
          rw [same, ends d rfl] at name
          cases name

theorem others_zero {c : Byte} (lower : isLower c = true) (rest : List Byte) :
    ∀ rule ∈ punctuation ++ otherRules, rule.munch (c :: rest) = 0 := by
  have not : ∀ b, isLower b = false → c ≠ b := by
    intro b notLower same
    rw [same, notLower] at lower
    cases lower
  have digit : isDigit c = false := by
    revert lower
    simp only [isLower, isDigit]
    intro lower
    grind
  have blank : isBlank c = false := by simp [isBlank, not 32 (by decide), not 9 (by decide)]
  intro rule member
  simp only [punctuation, otherRules, List.cons_append, List.nil_append, List.mem_cons,
    List.not_mem_nil, or_false] at member
  rcases member with rfl | rfl | rfl | rfl | rfl | rfl | rfl
  · simp [literal_one, (not 123 (by decide)).symm]
  · simp [literal_one, (not 125 (by decide)).symm]
  · simp [literal_one, (not 61 (by decide)).symm]
  · simp [many, digit]
  · simp [many, blank]
  · simp [comment_cons, not 35 (by decide)]
  · simp [literal_one, (not 10 (by decide)).symm]

theorem best_keyword (k : Keyword) {rest : List Byte} (ends : ∀ c ∈ rest.head?, isName c = false) :
    Scanner.best (rules .initial) (k.text ++ rest) = some (k.text.length, .keyword k) := by
  have whole : (keywordRule k).munch (k.text ++ rest) = k.text.length :=
    Scanner.literal_append _ _
  have nonempty : 0 < k.text.length := by
    obtain ⟨c, others, text, -⟩ := k.text_cons
    rw [text]
    exact Nat.succ_pos _
  have rivals : ∀ rule ∈ tokenRules, rule.munch (k.text ++ rest) = 0 ∨
      ∃ k', rule = keywordRule k' ∧ k'.text <+: k.text ++ rest := by
    intro rule member
    rcases mem_tokenRules member with ⟨k', rfl⟩ | other
    · by_cases starts : k'.text <+: k.text ++ rest
      · exact .inr ⟨k', rfl, starts⟩
      · exact .inl (Scanner.literal_zero starts)
    · obtain ⟨c, others, text, lower⟩ := k.text_cons
      rw [text]
      exact .inl (others_zero lower _ _ (List.mem_append.mpr other))
  have best : Scanner.best (rules .initial) (k.text ++ rest) =
      some ((keywordRule k).munch (k.text ++ rest), (keywordRule k).action) :=
    best_initial (keywordRule_mem k) (by omega)
    (by
      intro rule member
      rw [whole]
      rcases rivals rule member with zero | ⟨k', rfl, starts⟩
      · omega
      · exact Nat.le_trans (Scanner.literal_le _ _) (keyword_longest ends starts))
    (by
      intro rule member same
      rw [whole] at same
      rcases rivals rule member with zero | ⟨k', rfl, starts⟩
      · omega
      · have length : k'.text.length = k.text.length := by
          rw [← same]
          exact (if_pos starts).symm
        have texts := List.prefix_of_prefix_length_le starts (List.prefix_append k.text rest)
          (Nat.le_of_eq length)
        rw [Keyword.text_inj (texts.eq_of_length length)])
  rw [best, whole]
  rfl

/-- The tokens of one character. -/
def Token.mark : Token → Option Byte
  | .lbrace => some 123
  | .rbrace => some 125
  | .equals => some 61
  | _ => none

theorem best_mark {t : Token} {b : Byte} (mark : t.mark = some b) (rest : List Byte) :
    Scanner.best (rules .initial) (b :: rest) = some (1, .token t) := by
  cases t with
  | lbrace =>
      cases mark
      exact best_plain ⟨literal [123], .token .lbrace⟩ (by decide) (by simp [punctuation])
        (literal_self 123 rest) (by decide)
        (by simp [punctuation, otherRules, literal_one, many, comment_cons, isDigit, isBlank])
  | rbrace =>
      cases mark
      exact best_plain ⟨literal [125], .token .rbrace⟩ (by decide) (by simp [punctuation])
        (literal_self 125 rest) (by decide)
        (by simp [punctuation, otherRules, literal_one, many, comment_cons, isDigit, isBlank])
  | equals =>
      cases mark
      exact best_plain ⟨literal [61], .token .equals⟩ (by decide) (by simp [punctuation])
        (literal_self 61 rest) (by decide)
        (by simp [punctuation, otherRules, literal_one, many, comment_cons, isDigit, isBlank])
  | keyword k => cases mark
  | word sval => cases mark
  | integer ival => cases mark

theorem best_blank {c : Byte} (blank : isBlank c = true) (rest : List Byte) :
    Scanner.best (rules .initial) (c :: rest) = some (many isBlank rest + 1, .ignore) := by
  have which : c = 32 ∨ c = 9 := by simpa [isBlank] using blank
  apply best_plain ⟨many isBlank, .ignore⟩
  · rcases which with rfl | rfl <;> decide
  · simp [otherRules]
  · simp [many, blank]
  · exact Nat.succ_pos _
  · rcases which with rfl | rfl <;>
      simp [punctuation, otherRules, literal_one, comment_cons, many, isDigit]

theorem best_newline (rest : List Byte) :
    Scanner.best (rules .initial) (10 :: rest) = some (1, .ignore) :=
  best_plain ⟨literal [10], .ignore⟩ (by decide) (by simp [otherRules]) (literal_self 10 rest)
    (by decide)
    (by simp [punctuation, otherRules, literal_one, comment_cons, many, isDigit, isBlank])

theorem best_comment (rest : List Byte) :
    Scanner.best (rules .initial) (35 :: rest) = some (1 + many notNewline rest, .ignore) :=
  best_plain ⟨comment, .ignore⟩ (by decide) (by simp [otherRules]) rfl (by omega)
    (by simp [punctuation, otherRules, literal_one, many, isDigit, isBlank])

theorem best_integer {c : Byte} (digit : isDigit c = true) (rest : List Byte) :
    Scanner.best (rules .initial) (c :: rest) = some (many isDigit rest + 1, .integer) := by
  have not : ∀ b, isDigit b = false → b ≠ c := by
    intro b notDigit same
    rw [← same, notDigit] at digit
    cases digit
  have notLower : isLower c = false := by
    revert digit
    simp only [isLower, isDigit]
    intro digit
    grind
  have notBlank : isBlank c = false := by
    simp [isBlank, (not 32 (by decide)).symm, (not 9 (by decide)).symm]
  have notHash := (not 35 (by decide)).symm
  apply best_plain ⟨many isDigit, .integer⟩ notLower
  · simp [otherRules]
  · simp [many, digit]
  · exact Nat.succ_pos _
  · simp [punctuation, otherRules, literal_one, comment_cons, many, notBlank, notHash,
      not 123 (by decide), not 125 (by decide), not 61 (by decide), not 10 (by decide)]

/-! ## Written tokens -/

/-- The texts for a word, and what may follow. -/
inductive WordText : List Byte → List Byte → List Byte → Prop where
  | bare {c : Byte} {word rest : List Byte} (noQuote : c ≠ 39 ∧ c ≠ 34)
      (noBlank : isBlank c = false)
      (inner : ∀ c ∈ word, (!isBlank c && notNewline c) = true)
      (ends : ∀ c ∈ rest.head?, (!isBlank c && notNewline c) = false) :
      WordText (c :: word) (c :: word) rest
  | single {word rest : List Byte} (inner : ∀ c ∈ word, c ≠ 39 ∧ c ≠ 10) :
      WordText word (39 :: (word ++ [39])) rest
  | double {word rest : List Byte} (inner : ∀ c ∈ word, c ≠ 34 ∧ c ≠ 10) :
      WordText word (34 :: (word ++ [34])) rest

/-- The texts that are meant for some tokens. -/
inductive Written : List Token → List Byte → Prop where
  | nil : Written [] []
  | lastComment {body : List Byte} (line : ∀ c ∈ body, notNewline c = true) :
      Written [] (35 :: body)
  | blank {c : Byte} {tokens : List Token} {rest : List Byte} (blank : isBlank c = true)
      (later : Written tokens rest) : Written tokens (c :: rest)
  | newline {tokens : List Token} {rest : List Byte} (later : Written tokens rest) :
      Written tokens (10 :: rest)
  | comment {body rest : List Byte} {tokens : List Token} (line : ∀ c ∈ body, notNewline c = true)
      (later : Written tokens rest) : Written tokens (35 :: (body ++ 10 :: rest))
  | mark {t : Token} {b : Byte} {tokens : List Token} {rest : List Byte} (mark : t.mark = some b)
      (later : Written tokens rest) : Written (t :: tokens) (b :: rest)
  | keyword {k : Keyword} {tokens : List Token} {rest : List Byte} (plain : k.beginsWord = false)
      (ends : ∀ c ∈ rest.head?, isName c = false) (later : Written tokens rest) :
      Written (.keyword k :: tokens) (k.text ++ rest)
  | integer {c : Byte} {digits rest : List Byte} {tokens : List Token}
      (inner : ∀ d ∈ c :: digits, isDigit d = true) (ends : ∀ d ∈ rest.head?, isDigit d = false)
      (later : Written tokens rest) :
      Written (.integer (atoi (c :: digits)) :: tokens) (c :: (digits ++ rest))
  | option {k : Keyword} {before after word text rest : List Byte} {tokens : List Token}
      (begins : k.beginsWord = true) (blanks : ∀ c ∈ before ++ after, isBlank c = true)
      (value : WordText word text rest) (later : Written tokens rest) :
      Written (.keyword k :: .equals :: .word (cstr word) :: tokens)
        (k.text ++ (before ++ 61 :: (after ++ (text ++ rest))))

section Parts

variable {k : Keyword} {tokens : List Token} {rest : List Byte}

/-- A section, opened without a blank before its brace. -/
theorem Written.opened (plain : k.beginsWord = false) (later : Written tokens rest) :
    Written (.keyword k :: .lbrace :: tokens) (k.text ++ 123 :: rest) := by
  apply Written.keyword plain
  · intro c head
    cases head
    rfl
  · exact .mark rfl later

/-- An option with a number and no blanks. -/
theorem Written.number (c : Byte) (digits : List Byte) (plain : k.beginsWord = false)
    (inner : (c :: digits).all isDigit = true) (ends : rest.head?.all (!isDigit ·) = true)
    (later : Written tokens rest) :
    Written (.keyword k :: .equals :: .integer (atoi (c :: digits)) :: tokens)
      (k.text ++ 61 :: c :: (digits ++ rest)) := by
  apply Written.keyword plain
  · intro b head
    cases head
    rfl
  · apply Written.mark rfl
    apply Written.integer (List.all_eq_true.mp inner)
    · intro d head
      rw [head] at ends
      simpa using ends
    · exact later

/-- An option with a word in single quotes and no blanks. -/
theorem Written.quoted (word : List Byte) (begins : k.beginsWord = true)
    (inner : word.all (fun c => c != 39 && c != 10) = true) (later : Written tokens rest) :
    Written (.keyword k :: .equals :: .word (cstr word) :: tokens)
      (k.text ++ 61 :: 39 :: (word ++ 39 :: rest)) := by
  have single : WordText word (39 :: (word ++ [39])) rest := by
    apply WordText.single
    intro c member
    simpa using List.all_eq_true.mp inner c member
  have blanks : ∀ c ∈ ([] : List Byte) ++ [], isBlank c = true := by simp
  simpa using Written.option begins blanks single later

end Parts

theorem scan_rule (s : LexState) {s' : LexState} (taken : List Byte) {rest : List Byte}
    {action : LexAction} {out : List Token} (some_ : taken ≠ [])
    (best : Scanner.best (rules s.cond) (taken ++ rest) = some (taken.length, action))
    (acts : lexAction s (s.more ++ taken) action = some (s', out)) :
    Scanner.scan lexStep s 0 (taken ++ rest) =
      (Scanner.scan lexStep s' 0 rest).map (out ++ ·) := by
  cases taken with
  | nil => exact absurd rfl some_
  | cons c taken =>
      have here : lexStep s c (taken ++ rest) = some (taken.length, s', out) := by
        have whole : (c :: (taken ++ rest)).take (taken.length + 1) = c :: taken :=
          by simp
        rw [List.cons_append] at best
        rw [lexStep, best]
        simp only [List.length_cons, whole, acts, Option.map_some, Nat.add_sub_cancel]
      exact Scanner.scan_cons here

theorem scan_ignore (taken : List Byte) {rest : List Byte} (some_ : taken ≠ [])
    (best : Scanner.best (rules .initial) (taken ++ rest) = some (taken.length, .ignore)) :
    Scanner.scan lexStep .initial 0 (taken ++ rest) = lex rest := by
  rw [scan_rule .initial taken some_ best rfl]
  exact Option.map_id'

theorem lex_blank {c : Byte} (blank : isBlank c = true) (rest : List Byte) :
    lex (c :: rest) = lex rest := by
  have run : ∀ {c : Byte} {rest : List Byte}, isBlank c = true →
      lex (c :: rest) = lex (rest.dropWhile isBlank) := by
    intro c rest blank
    have split : c :: rest = (c :: rest.takeWhile isBlank) ++ rest.dropWhile isBlank := by simp
    rw [lex, split, scan_ignore _ (by simp)]
    rw [← split, best_blank blank]
    rfl
  rw [run blank]
  cases rest with
  | nil => rfl
  | cons d rest =>
      by_cases another : isBlank d = true
      · rw [run another, List.dropWhile_cons_of_pos another]
      · rw [List.dropWhile_cons_of_neg another]

theorem lex_newline (rest : List Byte) : lex (10 :: rest) = lex rest :=
  scan_ignore [10] (by simp) (best_newline rest)

theorem lex_comment {body rest : List Byte} (line : ∀ c ∈ body, notNewline c = true)
    (ends : ∀ c ∈ rest.head?, notNewline c = false) : lex (35 :: (body ++ rest)) = lex rest := by
  have best : Scanner.best (rules .initial) (35 :: body ++ rest) =
      some ((35 :: body).length, .ignore) := by
    rw [List.cons_append, best_comment, Scanner.many_append line ends, List.length_cons,
      Nat.add_comm]
  exact scan_ignore (35 :: body) (by simp) best

theorem lex_mark {t : Token} {b : Byte} (mark : t.mark = some b) (rest : List Byte) :
    lex (b :: rest) = (lex rest).map (t :: ·) :=
  scan_rule .initial [b] (by simp) (best_mark mark rest) rfl

theorem lex_integer {c : Byte} {digits rest : List Byte}
    (inner : ∀ d ∈ c :: digits, isDigit d = true)
    (ends : ∀ d ∈ rest.head?, isDigit d = false) :
    lex (c :: (digits ++ rest)) = (lex rest).map (.integer (atoi (c :: digits)) :: ·) := by
  have best : Scanner.best (rules .initial) (c :: digits ++ rest) =
      some ((c :: digits).length, .integer) := by
    rw [List.cons_append, best_integer (inner c List.mem_cons_self),
      Scanner.many_append (fun d member => inner d (List.mem_cons_of_mem _ member)) ends,
      List.length_cons]
  exact scan_rule .initial (c :: digits) (by simp) best rfl

theorem scan_keyword (k : Keyword) {rest : List Byte} (ends : ∀ c ∈ rest.head?, isName c = false) :
    lex (k.text ++ rest) =
      (Scanner.scan lexStep ⟨if k.beginsWord then .uword else .initial, []⟩ 0 rest).map
        (.keyword k :: ·) := by
  have some_ : k.text ≠ [] := by
    obtain ⟨c, others, text, -⟩ := k.text_cons
    rw [text]
    exact List.cons_ne_nil _ _
  exact scan_rule .initial k.text some_ (best_keyword k ends) rfl

/-- The rest of an option after its name. -/
theorem scan_equals {before after rest : List Byte}
    (blanks : ∀ c ∈ before ++ after, isBlank c = true)
    (ends : ∀ c ∈ rest.head?, isBlank c = false) :
    Scanner.scan lexStep ⟨.uword, []⟩ 0 (before ++ 61 :: (after ++ rest)) =
      (Scanner.scan lexStep ⟨.uword2, []⟩ 0 rest).map (.equals :: ·) := by
  have first : many isBlank (before ++ 61 :: (after ++ rest)) = before.length := by
    apply Scanner.many_append fun c member => blanks c (List.mem_append_left _ member)
    intro c head
    cases head
    decide
  have second : many isBlank (after ++ rest) = after.length :=
    Scanner.many_append (fun c member => blanks c (List.mem_append_right _ member)) ends
  have munch : spacedEquals (before ++ 61 :: (after ++ rest)) = before.length + 1 + after.length := by
    rw [spacedEquals, first, List.drop_left]
    simp only [second]
  have split : before ++ 61 :: (after ++ rest) = (before ++ 61 :: after) ++ rest := by simp
  have best : Scanner.best (rules .uword) ((before ++ 61 :: after) ++ rest) =
      some ((before ++ 61 :: after).length, .equals) := by
    rw [← split, rules, Scanner.best, Scanner.best]
    simp only [munch, List.length_append, List.length_cons]
    rw [if_neg (by omega), Nat.add_assoc, Nat.add_comm 1]
  rw [split]
  exact scan_rule ⟨.uword, []⟩ (before ++ 61 :: after) (by simp) best rfl

theorem best_quote (quote : Byte) (c : Byte) (rest : List Byte) (line : c ≠ 10) :
    Scanner.best (quoteRules quote) (c :: rest) =
      some (1, if c = quote then .closeQuote else .yymore) := by
  have other : ¬ (10 : Byte) = c := Ne.symm line
  have any : one notNewline (c :: rest) = 1 := by simp [one, notNewline, line]
  rw [quoteRules, Scanner.best, Scanner.best, Scanner.best, Scanner.best]
  simp only [literal_one, any, if_neg other]
  by_cases same : c = quote
  · simp [same]
  · simp [same, Ne.symm same]

/-- The text up to the closing quote, kept by `yymore`. -/
theorem scan_quoted {cond : Cond} {quote : Byte} (which : rules cond = quoteRules quote)
    (notEnd : quote ≠ 10) {word : List Byte} (more rest : List Byte)
    (inner : ∀ c ∈ word, c ≠ quote ∧ c ≠ 10) :
    Scanner.scan lexStep ⟨cond, more⟩ 0 (word ++ quote :: rest) =
      (lex rest).map (.word (cstr (more ++ word)) :: ·) := by
  induction word generalizing more with
  | nil =>
      have best : Scanner.best (rules cond) ([quote] ++ rest) = some (1, .closeQuote) := by
        rw [which, List.singleton_append, best_quote quote quote rest notEnd, if_pos rfl]
      have done := scan_rule ⟨cond, more⟩ [quote] (by simp) best rfl
      rw [List.dropLast_concat] at done
      rw [List.append_nil]
      exact done
  | cons c word ih =>
      obtain ⟨notQuote, notNewline⟩ := inner c List.mem_cons_self
      have best : Scanner.best (rules cond) ([c] ++ (word ++ quote :: rest)) =
          some (1, .yymore) := by
        rw [which, List.singleton_append, best_quote quote c _ notNewline, if_neg notQuote]
      have step := scan_rule ⟨cond, more⟩ [c] (by simp) best rfl
      have later := ih (more ++ [c]) fun d member => inner d (List.mem_cons_of_mem _ member)
      rw [List.append_assoc, List.singleton_append] at later
      rw [← later]
      exact step.trans Option.map_id'

theorem scan_word {word text rest : List Byte} (value : WordText word text rest) :
    Scanner.scan lexStep ⟨.uword2, []⟩ 0 (text ++ rest) = (lex rest).map (.word (cstr word) :: ·) := by
  cases value with
  | @bare c word _ noQuote noBlank inner ends =>
      obtain ⟨notSingle, notDouble⟩ := noQuote
      have munch : bareWord (c :: word ++ rest) = (c :: word).length := by
        rw [List.cons_append, bareWord, if_neg (by tauto), Scanner.many_append inner ends,
          List.length_cons, Nat.add_comm]
      have best : Scanner.best (rules .uword2) (c :: word ++ rest) =
          some ((c :: word).length, .bareWord) := by
        rw [rules, Scanner.best, Scanner.best, Scanner.best, Scanner.best]
        simp only [munch]
        simp [literal_one, Ne.symm notSingle, Ne.symm notDouble]
      exact scan_rule ⟨.uword2, []⟩ (c :: word) (by simp) best rfl
  | single inner =>
      have best : Scanner.best (rules .uword2) ([39] ++ (word ++ 39 :: rest)) =
          some (1, .openQuote .squote) := by
        simp [rules, Scanner.best, literal_one, bareWord]
      have opened := scan_rule ⟨.uword2, []⟩ [39] (by simp) best rfl
      rw [scan_quoted rfl (by decide) [] rest inner] at opened
      simpa [Function.comp_def] using opened
  | double inner =>
      have best : Scanner.best (rules .uword2) ([34] ++ (word ++ 34 :: rest)) =
          some (1, .openQuote .dquote) := by
        simp [rules, Scanner.best, literal_one, bareWord]
      have opened := scan_rule ⟨.uword2, []⟩ [34] (by simp) best rfl
      rw [scan_quoted rfl (by decide) [] rest inner] at opened
      simpa [Function.comp_def] using opened

theorem WordText.head {word text rest : List Byte} (value : WordText word text rest) :
    ∀ c ∈ (text ++ rest).head?, isBlank c = false := by
  intro c head
  cases value with
  | bare noQuote noBlank inner ends =>
      cases head
      exact noBlank
  | single inner =>
      cases head
      rfl
  | double inner =>
      cases head
      rfl

theorem lex_option {k : Keyword} {before after word text rest : List Byte}
    (begins : k.beginsWord = true) (blanks : ∀ c ∈ before ++ after, isBlank c = true)
    (value : WordText word text rest) :
    lex (k.text ++ (before ++ 61 :: (after ++ (text ++ rest)))) =
      (lex rest).map fun tokens => .keyword k :: .equals :: .word (cstr word) :: tokens := by
  have ends : ∀ c ∈ (before ++ 61 :: (after ++ (text ++ rest))).head?, isName c = false := by
    intro c head
    cases before with
    | nil =>
        cases head
        decide
    | cons d before =>
        cases head
        have blank : isBlank c = true := blanks c (by simp)
        have which : c = 32 ∨ c = 9 := by simpa [isBlank] using blank
        rcases which with rfl | rfl <;> decide
  rw [scan_keyword k ends, begins, if_pos rfl, scan_equals blanks value.head, scan_word value,
    Option.map_map, Option.map_map]
  rfl

/-- Whatever way the tokens are laid out, the lexer reads them back. -/
theorem lex_written {tokens : List Token} {text : List Byte} (written : Written tokens text) :
    lex text = some tokens := by
  induction written with
  | nil => rfl
  | lastComment line =>
      have alone : lex (35 :: (_ ++ [])) = lex [] := lex_comment line (by simp)
      rw [List.append_nil] at alone
      exact alone
  | blank blank later ih => rw [lex_blank blank, ih]
  | newline later ih => rw [lex_newline, ih]
  | comment line later ih =>
      rw [lex_comment line, lex_newline, ih]
      intro c head
      cases head
      rfl
  | mark mark later ih =>
      rw [lex_mark mark, ih]
      rfl
  | keyword plain ends later ih =>
      rw [scan_keyword _ ends, plain, if_neg (by decide)]
      exact congrArg (Option.map _) ih
  | integer inner ends later ih =>
      rw [lex_integer inner ends, ih]
      rfl
  | option begins blanks value later ih =>
      rw [lex_option begins blanks value, ih]
      rfl

end Otpd

import Otpd.ConfigFile

/-!
# Items of the configuration file

The calls of the parser come one after the other; the sections of the file are found again
by the calls at their ends.  `config_refines`: `config_init` makes of the text what
`configFile` makes of these items.
-/

set_option autoImplicit false

namespace Otpd.ConfigFile

open CMem
open Cells (Run)
open Sections (Derives)
open Settings (execute)

/-! ## Sections of a file -/

/-- The section that an option is given in. -/
def sectionOf : Action → Option Sect
  | .setUser _ | .setLogFacility _ | .setLogLevel _ | .setPluginRp _ | .setBackend _
  | .setAuthTimeout _ | .setPrependPin _ | .setHardfail _ | .setSoftfail _ | .setEwindowSize _
  | .setRwindowSize _ | .setSiteTransform _ => some .config
  | .setFilePasswd _ | .setFileEncrypt _ _ | .setFileServer _ => some .file
  | .setLdapHost _ | .setLdapPort _ | .setLdapBinddn _ | .setLdapBindpw _ | .setLdapBasedn _
  | .setLdapFilter _ | .setLdapScope _ => some .ldap
  | .setTlsMode _ | .setTlsVerifyCert _ | .setTlsCacertfile _ | .setTlsCacertdir _
  | .setTlsCertfile _ | .setTlsKeyfile _ => some .tls
  | .setPasswdKeyid _ | .setPasswdKey _ => some .key
  | .setStateMode _ | .setStatedir _ | .setStateTimeout _ | .setStateGport _ => some .state
  | .setServerName _ | .setServerPrimary _ | .setServerBackup _ | .setServerTimeout _
  | .setServerGport _ | .setServerKey _ => some .server
  | .finishFile | .finishLdap | .finishTls | .finishKey | .finishState | .finishServer => none

theorem option_section {s : Sect} {name value : Token} {a : Action}
    (known : configOption s name value = some a) : sectionOf a = some s := by
  unfold configOption at known
  split at known
  · obtain ⟨set, option, rfl⟩ := Option.map_eq_some_iff.mp known
    unfold wordOption at option
    split at option <;> cases option <;> rfl
  · obtain ⟨set, option, rfl⟩ := Option.map_eq_some_iff.mp known
    unfold integerOption at option
    split at option <;> cases option <;> rfl
  · unfold keywordOption at known
    split at known <;> cases known <;> rfl
  · cases known

/-- What is closed when a section is left. -/
inductive Nested : Sect → Sect → Prop where
  | file : Nested .config .file
  | ldap : Nested .config .ldap
  | key : Nested .config .key
  | state : Nested .config .state
  | tls : Nested .ldap .tls
  | server : Nested .state .server

theorem inner_nested {s inner : Sect} {name : Token} (known : configSection s name = some inner) :
    Nested s inner := by
  unfold configSection at known
  split at known <;> cases known <;> constructor

/-! ## What a call leaves as it is -/

section Calls

variable {env : ConfigEnv} {vars next : ConfigVars} {a : Action}

/-- The variables besides the settings. -/
structure Frame (a : Action) (vars next : ConfigVars) : Prop where
  gtimeout : (∀ arg, a ≠ .setStateTimeout arg) → next.gtimeout = vars.gtimeout
  server : sectionOf a ≠ some .server → a ≠ .finishServer → next.server = vars.server
  gsmd : a ≠ .finishServer → next.gsmd = vars.gsmd
  passwd : sectionOf a ≠ some .key → a ≠ .finishKey →
    next.passwdKeyid = vars.passwdKeyid ∧ next.passwdKey = vars.passwdKey
  key : a ≠ .finishKey → next.key = vars.key
  ldap : a ≠ .finishLdap → next.url = vars.url ∧ next.seenLdap = vars.seenLdap
  file : a ≠ .finishFile → next.seenFile = vars.seenFile
  usingState : a ≠ .finishState → next.usingState = vars.usingState

theorem frame_settings {settings : ∀ k : Setting, Option k.Value}
    (same : next = { vars with settings := settings }) : Frame a vars next := by
  cases same
  exact ⟨fun _ => rfl, fun _ _ => rfl, fun _ => rfl, fun _ _ => ⟨rfl, rfl⟩, fun _ => rfl,
    fun _ => ⟨rfl, rfl⟩, fun _ => rfl, fun _ => rfl⟩

theorem frame_set {setter : Setter} (done : vars.set setter = .done next) : Frame a vars next := by
  obtain ⟨settings, -, same⟩ := set_done done
  exact frame_settings same

/-- A key that is stored is stored in the table. -/
theorem finishKey_done (done : finishKey env vars = .done next) :
    ∃ id key writes, vars.passwdKeyid = some id ∧ vars.passwdKey = some key ∧
      id.toNatClampNeg ≤ 127 ∧
      storeKey (env.fresh vars.key) vars.key id.toNatClampNeg key = some (next.key, writes) ∧
      (writes.all fun write => write.first + write.count ≤ write.size) = true ∧
      next = { vars with passwdKeyid := none, passwdKey := none, key := next.key } := by
  rw [finishKey] at done
  split at done
  · rename_i id key isId isKey
    split_ifs at done
    split at done
    · cases done
    · rename_i table writes stored
      split_ifs at done with inside
      cases done
      rw [Otpd.finishKey] at stored
      dsimp only at stored
      split at stored
      · cases stored
      · rename_i small
        exact ⟨id, key, writes, isId, isKey, Nat.not_lt.mp small, stored, inside, rfl⟩
  · cases done

theorem configStep_frame (done : configStep env vars a = .done next) : Frame a vars next := by
  cases a with
  | setPluginRp arg =>
      cases given : env.optP.isSome with
      | true => exact frame_settings (setPluginRp_given given done)
      | false =>
          rw [configStep, setPluginRp_set given] at done
          exact frame_set done
  | setPasswdKeyid arg =>
      cases done
      constructor <;> intros <;> first | rfl | exact ⟨rfl, rfl⟩ | contradiction
  | setStateTimeout arg =>
      cases done
      exact ⟨fun other => absurd rfl (other arg), fun _ _ => rfl, fun _ => rfl,
        fun _ _ => ⟨rfl, rfl⟩, fun _ => rfl, fun _ => ⟨rfl, rfl⟩, fun _ => rfl, fun _ => rfl⟩
  | setPasswdKey arg | setServerName arg | setServerPrimary arg | setServerBackup arg
  | setServerTimeout arg | setServerGport arg | setServerKey arg | finishServer | finishTls
  | finishState =>
      obtain ⟨_, -, same⟩ := Run.bind_eq_done done
      cases same
      constructor <;> intros <;> first | rfl | exact ⟨rfl, rfl⟩ | contradiction
  | finishFile =>
      obtain ⟨_, -, done⟩ := Run.bind_eq_done done
      obtain ⟨_, -, same⟩ := Run.bind_eq_done done
      cases same
      constructor <;> intros <;> first | rfl | exact ⟨rfl, rfl⟩ | contradiction
  | finishLdap =>
      rw [(finishLdap_done done).rest]
      constructor <;> intros <;> first | rfl | exact ⟨rfl, rfl⟩ | contradiction
  | finishKey =>
      obtain ⟨id, key, writes, -, -, -, -, -, same⟩ := finishKey_done done
      rw [same]
      constructor <;> intros <;> first | rfl | exact ⟨rfl, rfl⟩ | contradiction
  | _ => exact frame_set done

end Calls

/-! ## Items -/

/-- The items of the open sections and of the file, so far. -/
structure Items where
  server : List ServerItem := []
  state : List StateItem := []
  config : List ConfigItem := []

def Items.addServer (items : Items) (item : ServerItem) : Items :=
  { items with server := items.server ++ [item] }

def Items.addState (items : Items) (item : StateItem) : Items :=
  { items with state := items.state ++ [item] }

def Items.addConfig (items : Items) (item : ConfigItem) : Items :=
  { items with config := items.config ++ [item] }

def Items.add (items : Items) : Action → Items
  | .setAuthTimeout arg => items.addConfig (.timeout arg)
  | .setStateMode arg => items.addState (.mode arg)
  | .setStateTimeout arg => items.addState (.timeout arg)
  | .setStateGport arg => items.addState (.gport arg)
  | .setServerName arg => items.addServer (.name arg)
  | .setServerPrimary arg => items.addServer (.primary arg)
  | .setServerBackup arg => items.addServer (.backup arg)
  | .setServerTimeout arg => items.addServer (.timeout arg)
  | .setServerGport arg => items.addServer (.gport arg)
  | .setServerKey arg => items.addServer (.key arg)
  | .finishServer => { items.addState (.server items.server) with server := [] }
  | .finishState => { items.addConfig (.state items.state) with state := [] }
  | _ => items

def itemsOf (actions : List Action) : Items := actions.foldl Items.add {}

/-- A section leaves no section open that is not its own. -/
structure Closes (s : Sect) (actions : List Action) : Prop where
  state : s ≠ .state → ∀ items : Items, items.state = [] →
    (actions.foldl Items.add items).state = []
  server : s ≠ .server → ∀ items : Items, items.server = [] →
    (actions.foldl Items.add items).server = []

theorem option_closes {s : Sect} {a : Action} (inside : sectionOf a = some s) : Closes s [a] := by
  refine ⟨?_, ?_⟩
  · intro other items closed
    cases a <;> cases inside <;> first | exact closed | exact absurd rfl other
  · intro other items closed
    cases a <;> cases inside <;> first | exact closed | exact absurd rfl other

theorem nested_closes {s inner : Sect} {actions : List Action} (nested : Nested s inner)
    (closes : Closes inner actions) : Closes s (actions ++ configFinish inner) := by
  refine ⟨?_, ?_⟩
  · intro other items closed
    rw [List.foldl_append]
    cases nested with
    | state => rfl
    | server => exact absurd rfl other
    | file | ldap | key | tls => exact closes.state (fun wrong => by cases wrong) items closed
  · intro _ items closed
    rw [List.foldl_append]
    cases nested with
    | server => rfl
    | file | ldap | key | state | tls => exact closes.server (fun wrong => by cases wrong) items closed

theorem derives_closes {symbol : Sections.Symbol Sect} {tokens : List Token}
    {actions : List Action} (derived : Derives configGrammar symbol tokens actions) :
    Closes symbol.sect actions := by
  apply derived.rule
  · intro s
    exact ⟨fun _ _ closed => closed, fun _ _ closed => closed⟩
  · intro s actions actions' first second
    refine ⟨?_, ?_⟩
    · intro other items closed
      rw [List.foldl_append]
      exact second.state other _ (first.state other items closed)
    · intro other items closed
      rw [List.foldl_append]
      exact second.server other _ (first.server other items closed)
  · intro s name value a known
    exact option_closes (option_section known)
  · intro s inner name actions known closes
    exact nested_closes (inner_nested known) closes

theorem otpdSection_closes {tokens : List Token} {actions : List Action}
    (derived : OtpdSection tokens actions) :
    (itemsOf actions).state = [] ∧ (itemsOf actions).server = [] := by
  cases derived with
  | empty => exact ⟨rfl, rfl⟩
  | braces => exact ⟨rfl, rfl⟩
  | config config =>
      have closes := derives_closes config
      exact ⟨closes.state (fun wrong => by cases wrong) {} rfl,
        closes.server (fun wrong => by cases wrong) {} rfl⟩

/-! ## The variables follow the items -/

/-- The options that the items are about. -/
def watched : Setting → Bool
  | .authTimeout | .stateMode | .stateGport => true
  | _ => false

/-- The variables are those that the items of the file come to. -/
structure Follows (items : Items) (vars : ConfigVars) (seen : ConfigSeen) : Prop where
  config : Schedule.run setConfig {} items.config = some seen
  state : Schedule.run setState seen.state items.state = some vars.seen.state
  server : Schedule.run (Otpd.setServer vars.gsmd) {} items.server = some vars.server
  timeout : seen.timeout = vars.seen.timeout
  usingState : seen.usingState = vars.usingState

section Steps

variable {env : ConfigEnv} {vars next : ConfigVars} {items : Items} {seen : ConfigSeen}

theorem follows_init : Follows {} ConfigVars.init {} := ⟨rfl, rfl, rfl, rfl, rfl⟩

/-- A call that the items leave out. -/
theorem Follows.same (follows : Follows items vars seen) (sameSeen : next.seen = vars.seen)
    (sameServer : next.server = vars.server) : Follows items next seen := by
  have gsmd : next.gsmd = vars.gsmd := congrArg (fun s : ConfigSeen => s.state.gsmd) sameSeen
  have usingState : next.usingState = vars.usingState := congrArg ConfigSeen.usingState sameSeen
  exact ⟨follows.config, by rw [sameSeen]; exact follows.state,
    by rw [sameServer, gsmd]; exact follows.server, by rw [sameSeen]; exact follows.timeout,
    by rw [usingState]; exact follows.usingState⟩

/-- An option is set already, or it is set to the value. -/
theorem set_cases {setter : Setter} (done : vars.set setter = .done next) :
    (vars.settings setter.option).isSome = true ∧ next = vars ∨
      vars.settings setter.option = none ∧ ∃ v, setter.value = .done v ∧
        next = { vars with settings := Settings.put vars.settings setter.option v } := by
  obtain ⟨settings, applied, rfl⟩ := set_done done
  rw [Settings.Setter.apply] at applied
  split at applied
  · rename_i set
    cases applied
    exact .inl ⟨set, rfl⟩
  · rename_i unset
    obtain ⟨v, value, same⟩ := Run.bind_eq_done applied
    cases same
    exact .inr ⟨Option.not_isSome_iff_eq_none.mp unset, v, value, rfl⟩

/-- A call that only sets options that the items do not look at. -/
theorem Follows.unwatched (follows : Follows items vars seen)
    (rest : next = { vars with
      settings := next.settings, url := next.url, seenLdap := next.seenLdap })
    (same : ∀ k, watched k = true → next.settings k = vars.settings k) :
    Follows items next seen := by
  refine follows.same ?_ (by rw [rest])
  rw [rest]
  simp only [ConfigVars.seen, same .authTimeout rfl, same .stateMode rfl, same .stateGport rfl]

theorem Follows.set_other {setter : Setter} (follows : Follows items vars seen)
    (done : vars.set setter = .done next) (other : watched setter.option = false) :
    Follows items next seen := by
  obtain ⟨settings, applied, rfl⟩ := set_done done
  apply follows.unwatched rfl
  intro k looked
  apply Settings.Setter.apply_other applied
  intro here
  rw [← here, looked] at other
  cases other

theorem Follows.finishLdap (follows : Follows items vars seen)
    (done : configStep env vars .finishLdap = .done next) : Follows items next seen := by
  apply follows.unwatched (by rw [(finishLdap_done done).rest])
  intro k looked
  apply configStep_setsOnce.other done
  intro named
  simp only [Names, setters_finishLdap, List.mem_cons, List.not_mem_nil, or_false] at named
  obtain ⟨setter, rfl | rfl | rfl, rfl⟩ := named
  all_goals cases looked

theorem Follows.authTimeout (follows : Follows items vars seen) {arg : Int32}
    (done : vars.set (setAuthTimeout arg) = .done next) :
    ∃ seen', Follows (items.addConfig (.timeout arg)) next seen' := by
  rcases set_cases done with ⟨set, rfl⟩ | ⟨unset, v, value, rfl⟩
  · have step : setConfig seen (.timeout arg) = some seen := by
      refine if_pos ?_
      rw [follows.timeout]
      exact set
    exact ⟨seen, Schedule.run_snoc follows.config step, follows.state, follows.server, follows.timeout,
      follows.usingState⟩
  · have step : setConfig seen (.timeout arg) = some { seen with timeout := some v } := by
      simp only [setAuthTimeout] at value
      split_ifs at value with small
      cases value
      rw [setConfig, Otpd.setAuthTimeout, follows.timeout]
      refine (if_neg ?_).trans (if_neg small)
      rw [show vars.seen.timeout = none from unset]
      exact Bool.false_ne_true
    exact ⟨_, Schedule.run_snoc follows.config step, follows.state, follows.server, rfl,
      follows.usingState⟩

/-- An item of the state section. -/
theorem Follows.stateItem (follows : Follows items vars seen) {item : StateItem}
    (step : setState vars.seen.state item = some next.seen.state) (server : next.server = vars.server)
    (gsmd : next.gsmd = vars.gsmd) (timeout : next.seen.timeout = vars.seen.timeout)
    (usingState : next.usingState = vars.usingState) : Follows (items.addState item) next seen :=
  ⟨follows.config, Schedule.run_snoc follows.state step, by rw [server, gsmd]; exact follows.server,
    follows.timeout.trans timeout.symm, follows.usingState.trans usingState.symm⟩

theorem Follows.stateMode (follows : Follows items vars seen) {arg : List Byte}
    (done : vars.set (setStateMode arg) = .done next) :
    Follows (items.addState (.mode arg)) next seen := by
  rcases set_cases done with ⟨set, rfl⟩ | ⟨unset, v, value, rfl⟩
  · exact follows.stateItem (if_pos set) rfl rfl rfl rfl
  · refine follows.stateItem ?_ rfl rfl rfl rfl
    have valid : stateModeOf arg = some v := Run.ofOption_eq_done value
    rw [setState, Otpd.setStateMode, valid]
    refine if_neg ?_
    rw [show vars.seen.state.mode = none from unset]
    exact Bool.false_ne_true

theorem Follows.stateGport (follows : Follows items vars seen) {arg : Int32}
    (done : vars.set (setStateGport arg) = .done next) :
    Follows (items.addState (.gport arg)) next seen := by
  rcases set_cases done with ⟨set, rfl⟩ | ⟨unset, v, value, rfl⟩
  · exact follows.stateItem (if_pos set) rfl rfl rfl rfl
  · refine follows.stateItem ?_ rfl rfl rfl rfl
    have valid : setPort arg = some v := Run.ofOption_eq_done value
    rw [setState, valid]
    refine if_neg ?_
    rw [show vars.seen.state.gport = none from unset]
    exact Bool.false_ne_true

theorem setStateTimeout_eq (seen : StateSeen) (arg : Int32) :
    Otpd.setStateTimeout seen arg =
      { seen with gtimeout := (Otpd.setStateTimeout { gtimeout := seen.gtimeout } arg).gtimeout } := by
  simp only [Otpd.setStateTimeout]
  by_cases set : seen.gtimeout ≠ 0
  · rw [if_pos set, if_pos set]
  · rw [if_neg set, if_neg set]

theorem Follows.stateTimeout (follows : Follows items vars seen) (arg : Int32) :
    Follows (items.addState (.timeout arg)) (setStateTimeout vars arg) seen :=
  follows.stateItem (congrArg some (setStateTimeout_eq vars.seen.state arg)) rfl rfl rfl rfl

theorem Follows.serverItem (follows : Follows items vars seen) {item : ServerItem}
    (done : setServer vars item = .done next) : Follows (items.addServer item) next seen := by
  obtain ⟨server, found, same⟩ := Run.bind_eq_done done
  cases same
  exact ⟨follows.config, follows.state, Schedule.run_snoc follows.server (Run.ofOption_eq_done found),
    follows.timeout, follows.usingState⟩

theorem Follows.finishServer (follows : Follows items vars seen)
    (done : finishServer vars = .done next) :
    Follows { items.addState (.server items.server) with server := [] } next seen := by
  obtain ⟨server, finished, same⟩ := Run.bind_eq_done done
  cases same
  have step : setState vars.seen.state (.server items.server) =
      some { vars.seen.state with gsmd := vars.gsmd ++ [server] } := by
    have run : Schedule.run (Otpd.setServer vars.seen.state.gsmd) {} items.server =
        some vars.server := follows.server
    rw [setState, run, Option.bind_some, Run.ofOption_eq_done finished]
    rfl
  exact ⟨follows.config, Schedule.run_snoc follows.state step, rfl, follows.timeout, follows.usingState⟩

theorem Follows.finishState (follows : Follows items vars seen)
    (done : finishState vars = .done next) :
    ∃ seen', Follows { items.addConfig (.state items.state) with state := [] } next seen' := by
  obtain ⟨_, first, same⟩ := Run.bind_eq_done done
  cases same
  have first : seen.usingState = false := follows.usingState.trans (require_done first)
  have step : setConfig seen (.state items.state) =
      some { seen with state := vars.seen.state, usingState := true } := by
    rw [setConfig, follows.state, Option.bind_some, first]
    rfl
  exact ⟨_, Schedule.run_snoc follows.config step, rfl, follows.server, follows.timeout, rfl⟩

theorem configStep_follows {a : Action} (follows : Follows items vars seen)
    (done : configStep env vars a = .done next) : ∃ seen', Follows (items.add a) next seen' := by
  have other {items : Items} (follows : Follows items next seen) :
      ∃ seen', Follows items next seen' := ⟨_, follows⟩
  cases a with
  | setAuthTimeout arg => exact follows.authTimeout done
  | setStateMode arg => exact other (follows.stateMode done)
  | setStateGport arg => exact other (follows.stateGport done)
  | setStateTimeout arg =>
      cases done
      exact other (follows.stateTimeout arg)
  | setServerName arg | setServerPrimary arg | setServerBackup arg | setServerTimeout arg
  | setServerGport arg | setServerKey arg => exact other (follows.serverItem done)
  | finishServer => exact other (follows.finishServer done)
  | finishState => exact follows.finishState done
  | setPluginRp arg =>
      cases given : env.optP.isSome with
      | true =>
          cases setPluginRp_given given done
          exact other follows
      | false =>
          rw [configStep, setPluginRp_set given] at done
          exact other (follows.set_other done rfl)
  | setPasswdKeyid arg =>
      cases done
      exact other (follows.same rfl rfl)
  | setPasswdKey arg | finishTls =>
      obtain ⟨_, -, same⟩ := Run.bind_eq_done done
      cases same
      exact other (follows.same rfl rfl)
  | finishFile =>
      obtain ⟨_, -, done⟩ := Run.bind_eq_done done
      obtain ⟨_, -, same⟩ := Run.bind_eq_done done
      cases same
      exact other (follows.same rfl rfl)
  | finishKey =>
      obtain ⟨id, key, writes, -, -, -, -, -, same⟩ := finishKey_done done
      exact other (follows.same (by rw [same]; rfl) (by rw [same]))
  | finishLdap => exact other (follows.finishLdap done)
  | _ => exact other (follows.set_other done rfl)

theorem execute_follows {actions : List Action} (follows : Follows items vars seen)
    (run : execute (configStep env) vars actions = .done next) :
    ∃ seen', Follows (actions.foldl Items.add items) next seen' := by
  induction actions generalizing items vars seen with
  | nil =>
      cases run
      exact ⟨seen, follows⟩
  | cons a actions ih =>
      obtain ⟨middle, first, rest⟩ := Settings.execute_cons run
      obtain ⟨seen', follows'⟩ := configStep_follows follows first
      exact ih follows' rest

/-- The servers that `finish_config` makes. -/
theorem finishConfig_servers {gsmds : List ConfiguredGsmd}
    (done : finishConfig env vars = .done gsmds) :
    Otpd.finishConfig (vars.rest env) vars.seen = some gsmds := by
  obtain ⟨_, -, done⟩ := Run.bind_eq_done done
  obtain ⟨_, -, done⟩ := Run.bind_eq_done done
  obtain ⟨_, -, done⟩ := Run.bind_eq_done done
  obtain ⟨path, -, done⟩ := Run.bind_eq_done done
  obtain ⟨_, -, done⟩ := Run.bind_eq_done done
  cases mode : vars.seen.stateMode with
  | localMode =>
      rw [mode] at done
      obtain ⟨_, -, same⟩ := Run.bind_eq_done done
      cases same
      rw [Otpd.finishConfig, mode]
  | globalMode =>
      rw [mode] at done
      exact Run.ofOption_eq_done done

end Steps

/-- `configFile` on the items of a file agrees with `config_init` on its text. -/
theorem config_refines (env : ConfigEnv) {tokens : List Token} {text : List Byte}
    {actions : List Action} (written : Written tokens text) (derived : OtpdSection tokens actions)
    {c : Configuration} (returned : configInit env text = .done c) :
    configFile (c.vars.rest env) (itemsOf actions).config = some (c.vars.seen, c.gsmds) := by
  obtain ⟨vars, done⟩ := configInit_done (configActions_derived written derived) returned
  obtain ⟨seen, follows⟩ := execute_follows follows_init done.run
  obtain ⟨stateClosed, -⟩ := otpdSection_closes derived
  have follows : Follows (itemsOf actions) vars seen := follows
  have sameSeen : c.vars.seen = vars.seen := by
    rw [defaultFile_rest done.default]
    rfl
  have items : seen = c.vars.seen := by
    have state := follows.state
    rw [stateClosed] at state
    obtain ⟨timeout, state', usingState⟩ := seen
    cases state
    rw [sameSeen]
    cases follows.timeout
    cases follows.usingState
    rfl
  have servers := finishConfig_servers done.finished
  have accepted : (c.vars.rest env).accepted = true := rfl
  rw [configFile, accepted, follows.config, items, Option.bind_some, servers]
  rfl

def serverKey : List Byte :=
  ascii "000102030405060708090a0b0c0d0e0f101112131415161718191a1b1c1d1e1f"

/-- Global mode, with one server. -/
def serverText : List Byte :=
  ascii "otpd\x7btimeout=5000 file\x7bstate_server='a'\x7dstate\x7bmode='global'timeout=2000 " ++
    ascii "server\x7bname='a'primary='b'key='" ++ serverKey ++ ascii "'\x7d\x7d\x7d"

def serverTokens : List Token :=
  [.keyword .otpd, .lbrace, .keyword .timeout, .equals, .integer 5000, .keyword .userFile, .lbrace,
    .keyword .stateServer, .equals, .word (ascii "a"), .rbrace, .keyword .state, .lbrace,
    .keyword .mode, .equals, .word (ascii "global"), .keyword .timeout, .equals, .integer 2000,
    .keyword .server, .lbrace, .keyword .name, .equals, .word (ascii "a"), .keyword .primary,
    .equals, .word (ascii "b"), .keyword .key, .equals, .word serverKey, .rbrace, .rbrace, .rbrace]

theorem config_refines_server :
    ∃ c, configInit fullEnv serverText = .done c ∧
      configFile (c.vars.rest fullEnv) [.timeout 5000, .state [.mode (ascii "global"),
          .timeout 2000, .server [.name (ascii "a"), .primary (ascii "b"), .key serverKey]]] =
        some (c.vars.seen, c.gsmds) ∧
      c.gsmds.map ConfiguredGsmd.name = [ascii "a"] := by
  have written : Written serverTokens
      (Keyword.otpd.text ++ 123 :: (Keyword.timeout.text ++ 61 :: 53 :: (ascii "000" ++ 32 ::
        (Keyword.userFile.text ++ 123 :: (Keyword.stateServer.text ++ 61 :: 39 :: (ascii "a" ++
          39 :: 125 :: (Keyword.state.text ++ 123 :: (Keyword.mode.text ++ 61 :: 39 ::
            (ascii "global" ++ 39 :: (Keyword.timeout.text ++ 61 :: 50 :: (ascii "000" ++ 32 ::
              (Keyword.server.text ++ 123 :: (Keyword.name.text ++ 61 :: 39 :: (ascii "a" ++ 39 ::
                (Keyword.primary.text ++ 61 :: 39 :: (ascii "b" ++ 39 :: (Keyword.key.text ++
                  61 :: 39 :: (serverKey ++ [39, 125, 125, 125])))))))))))))))))) := by
    rw [serverTokens]
    apply Written.opened rfl
    refine Written.number 53 (ascii "000") rfl rfl rfl ?_
    apply Written.blank rfl
    apply Written.opened rfl
    refine Written.quoted (ascii "a") rfl rfl ?_
    apply Written.mark rfl
    apply Written.opened rfl
    refine Written.quoted (ascii "global") rfl rfl ?_
    refine Written.number 50 (ascii "000") rfl rfl rfl ?_
    apply Written.blank rfl
    apply Written.opened rfl
    refine Written.quoted (ascii "a") rfl rfl ?_
    refine Written.quoted (ascii "b") rfl rfl ?_
    refine Written.quoted serverKey rfl rfl ?_
    exact .mark rfl (.mark rfl (.mark rfl .nil))
  have derived : OtpdSection serverTokens [.setAuthTimeout 5000, .setFileServer (ascii "a"),
      .finishFile, .setStateMode (ascii "global"), .setStateTimeout 2000,
      .setServerName (ascii "a"), .setServerPrimary (ascii "b"), .setServerKey serverKey,
      .finishServer, .finishState] := (yyparse_iff _ _).mp rfl
  have parsed : configActions serverText = some _ := configActions_derived written derived
  obtain ⟨c, returned, servers⟩ : ∃ c, configInit fullEnv serverText = .done c ∧
      c.gsmds.map ConfiguredGsmd.name = [ascii "a"] := by
    rw [configInit, (configCalls_iff _ _).mpr parsed]
    exact ⟨_, rfl, rfl⟩
  exact ⟨c, returned, config_refines fullEnv written derived returned, servers⟩

end Otpd.ConfigFile

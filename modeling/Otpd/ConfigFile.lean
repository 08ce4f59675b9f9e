import Otpd.ConfigVars

/-!
# The configuration file

`config_init`: the command line, the actions of the file and `finish_config`.
-/

set_option autoImplicit false

namespace Otpd.ConfigFile

open CMem
open Cells (Run)
open Settings (put execute)

/-! ## `config_init` -/

section Init

variable (env : ConfigEnv) (vars : ConfigVars)

/-- The options of the command line.  What `-p` stores is cleared again before the file is
read. -/
def startup : Run Unit := do
  Run.require (env.optD.all (fun arg => (priNames.lookup arg).isSome) = true)
  Run.require (env.optU.all (fun arg => (lookupUser env arg).any env.setIds) = true)
  Run.require (env.optP.all (fun arg => arg.head? = some 47 ∧ arg.length ≤ rpMaxlen) = true)

def ConfigVars.backend : Backend := (vars.settings .backend : Option Backend).getD .file

/-- The variables as `finish_config` reads them for the servers. -/
def ConfigVars.seen : ConfigSeen where
  timeout := vars.settings .authTimeout
  state :=
    { mode := vars.settings .stateMode
      gtimeout := vars.gtimeout
      gport := vars.settings .stateGport
      gsmd := vars.gsmd }
  usingState := vars.usingState

def gsmDefaultGport : UInt16 := 1220

def ConfigVars.rest : ConfigRest where
  accepted := true
  seenFile := vars.seenFile
  fileBackend := vars.backend = .file
  fileGsmd := (vars.settings .fileServer : Option (List Byte)).getD []
  gport := env.gsmdPort.getD (htons gsmDefaultGport)
  gethostbyname := env.gethostbyname

/-- `init1`, which is a null pointer when the module is not loaded. -/
def init1 : Backend → Run Unit
  | .file => if env.fileModule then .done () else .fault
  | .ldap => Run.require (env.ldapInit1 = true)

/-- The key of the file backend is looked up in the table without a look at `nkeys`. -/
def checkKeyid : Run Unit :=
  match vars.backend, (vars.settings .fileEncrypt : Option (EncryptMode × Int32)) with
  | .file, some (.keyid, id) =>
    if vars.key.key = [] then .fail
    else if 0 ≤ id ∧ id.toNatClampNeg < vars.key.key.length then
      Run.require (vars.key.key.getD id.toNatClampNeg .null ≠ .null)
    else .fault
  | _, _ => .done ()

def otpdPluginRp : List Byte := ascii "/var/run/otpd/socket"

def otpdStatedir : Statedir := ⟨ascii "/etc/otpstate", by decide +kernel, by decide +kernel⟩

def ConfigVars.rendezvous : List Byte :=
  (vars.settings .pluginRp : Option (List Byte)).getD otpdPluginRp

def ConfigVars.statedir : Statedir := (vars.settings .statedir : Option Statedir).getD otpdStatedir

/-- `use files by default` -/
def defaultFile : Run ConfigVars :=
  if vars.seenFile = false ∧ vars.seenLdap = false then finishFile env vars else .done vars

/-- The servers, for the variables after `defaultFile`. -/
def finishConfig : Run (List ConfiguredGsmd) := do
  Run.require (vars.backend = .ldap → vars.seenLdap = true)
  init1 env vars.backend
  checkKeyid vars
  let path ← strcpy 108 vars.rendezvous
  Run.require (env.listens path = true)
  match vars.seen.stateMode with
  | .localMode =>
      Run.require (env.accessDir vars.statedir.bytes = true)
      return []
  | .globalMode => Run.ofOption (Otpd.finishConfig (vars.rest env) vars.seen)

/-- `config_t` and what is put elsewhere.  `config` is the part that `verify` reads. -/
structure Configuration where
  config : Config
  vars : ConfigVars
  gsmds : List ConfiguredGsmd

/-- The rest of `config_init`; the windows are compared at the end. -/
def ConfigVars.config : Config :=
  Otpd.configInit
    { hardfail := Option.elim (vars.settings .hardfail) 0 Int32.toUInt32
      softfail := Option.elim (vars.settings .softfail) 5 Int32.toUInt32
      timeout := vars.seen.configTimeout
      prependPin := (vars.settings .prependPin : Option Bool).getD true
      ewindowSize := 5
      rwindowSize := 25
      siteTransform := (vars.settings .siteTransform : Option Bool).getD true
      key := vars.key.key.map KeySlot.key?
      stateMode := vars.seen.stateMode }
    ⟨(vars.settings .ewindowSize : Option Int32).toList,
      (vars.settings .rwindowSize : Option Int32).toList⟩

/-- The variables after the file and what `finish_config` does first.  At a syntax error
`yyerror` exits, when the calls in front of it have been made. -/
def readActions (calls : List Action × Bool) : Run ConfigVars := do
  startup env
  let vars ← execute (configStep env) ConfigVars.init calls.1
  Run.require (calls.2 = true)
  defaultFile env vars

def configInit (text : List Byte) : Run Configuration := do
  let vars ← readActions env (configCalls text)
  let gsmds ← finishConfig env vars
  return ⟨vars.config, vars, gsmds⟩

end Init

/-! ## The first option counts -/

section First

variable (env : ConfigEnv)

/-- What a call has to say about the options: most name one, and the end of an ldap section
has defaults for three. -/
def setters : Action → List Setter
  | .setUser arg => [setUser env arg]
  | .setLogFacility arg => [setLogFacility arg]
  | .setLogLevel arg => [setLogLevel env arg]
  | .setPluginRp arg => if env.optP.isSome then [] else [⟨.pluginRp, pluginRpName arg⟩]
  | .setBackend arg => [setBackend arg]
  | .setAuthTimeout arg => [setAuthTimeout arg]
  | .setPrependPin arg => [setPrependPin arg]
  | .setHardfail arg => [setHardfail arg]
  | .setSoftfail arg => [setSoftfail arg]
  | .setEwindowSize arg => [setEwindowSize arg]
  | .setRwindowSize arg => [setRwindowSize arg]
  | .setSiteTransform arg => [setSiteTransform arg]
  | .setFilePasswd arg => [setFilePasswd env arg]
  | .setFileEncrypt mode id => [setFileEncrypt mode id]
  | .setFileServer arg => [setFileServer arg]
  | .setLdapHost arg => [setLdapHost env arg]
  | .setLdapPort arg => [setLdapPort arg]
  | .setLdapBinddn arg => [setLdapBinddn arg]
  | .setLdapBindpw arg => [setLdapBindpw arg]
  | .setLdapBasedn arg => [setLdapBasedn arg]
  | .setLdapFilter arg => [setLdapFilter arg]
  | .setLdapScope arg => [setLdapScope arg]
  | .setTlsMode arg => [setTlsMode arg]
  | .setTlsVerifyCert arg => [setTlsVerifyCert arg]
  | .setTlsCacertfile arg => [setTlsCacertfile env arg]
  | .setTlsCacertdir arg => [setTlsCacertdir env arg]
  | .setTlsCertfile arg => [setTlsCertfile env arg]
  | .setTlsKeyfile arg => [setTlsKeyfile env arg]
  | .setStateMode arg => [setStateMode arg]
  | .setStatedir arg => [setStatedir arg]
  | .setStateGport arg => [setStateGport arg]
  | .finishLdap =>
      [⟨.ldapHost, .done (ascii "localhost")⟩, ⟨.ldapPort, .done (defaultLdapPort env)⟩,
        ⟨.ldapScope, .done (ascii "sub")⟩]
  | _ => []

/-- The call is for the option, or has a default for it. -/
def Names (a : Action) (k : Setting) : Prop := ∃ setter ∈ setters env a, setter.option = k

/-- The value that the call has for the option. -/
def value (a : Action) (k : Setting) : Option k.Value := Settings.givenBy (setters env a) k

/-- Each option has the value of the first call that names it.  A later call for it returns
the variables that it finds, whatever its argument. -/
structure FirstCounts (actions : List Action) (settings : ∀ k : Setting, Option k.Value) : Prop where
  unnamed : ∀ k, (∀ a ∈ actions, ¬ Names env a k) → settings k = none
  first : ∀ k before a after, actions = before ++ a :: after →
    (∀ b ∈ before, ¬ Names env b k) → Names env a k → settings k = value env a k
  later : ∀ k before a after (setter : Setter), actions = before ++ a :: after →
    setters env a = [setter] → setter.option = k → (∃ b ∈ before, Names env b k) →
      ∃ vars, execute (configStep env) ConfigVars.init before = .done vars ∧
        configStep env vars a = .done vars

variable {env} {vars next : ConfigVars}

theorem setters_pluginRp (env : ConfigEnv) (arg : List Byte) : setters env (.setPluginRp arg) =
    if env.optP.isSome then [] else [⟨.pluginRp, pluginRpName arg⟩] := rfl

theorem setters_finishLdap (env : ConfigEnv) : setters env .finishLdap =
    [⟨.ldapHost, .done (ascii "localhost")⟩, ⟨.ldapPort, .done (defaultLdapPort env)⟩,
      ⟨.ldapScope, .done (ascii "sub")⟩] := rfl

theorem set_done {setter : Setter} (done : vars.set setter = .done next) :
    ∃ settings, setter.apply vars.settings = .done settings ∧
      next = { vars with settings := settings } := by
  obtain ⟨settings, applied, same⟩ := Run.bind_eq_done done
  cases same
  exact ⟨settings, applied, rfl⟩

theorem set_execute {setter : Setter} (done : vars.set setter = .done next) :
    execute Settings.applySetter vars.settings [setter] = .done next.settings := by
  obtain ⟨settings, applied, rfl⟩ := set_done done
  rw [execute, Settings.applySetter, applied]
  rfl

theorem setPluginRp_set (notGiven : env.optP.isSome = false) (arg : List Byte) :
    setPluginRp env vars arg = vars.set ⟨.pluginRp, pluginRpName arg⟩ := by
  rw [setPluginRp, ConfigVars.set, Settings.Setter.apply]
  by_cases set : (vars.settings .pluginRp).isSome = true
  · rw [if_pos set, if_pos set]
    rfl
  · rw [if_neg set, if_neg set]
    cases pluginRpName arg with
    | fault => rfl
    | fail => rfl
    | done path =>
        simp only [Run.done_bind, notGiven, Bool.false_eq_true, if_false]
        rfl

theorem setPluginRp_given (given : env.optP.isSome = true) {arg : List Byte}
    (done : setPluginRp env vars arg = .done next) : next = vars := by
  rw [setPluginRp] at done
  split at done
  · cases done
    rfl
  · obtain ⟨path, -, same⟩ := Run.bind_eq_done done
    cases same
    rfl

theorem require_done {condition : Prop} [Decidable condition] {u : Unit}
    (done : Run.require condition = .done u) : condition := by
  by_contra fails
  rw [Run.require_neg fails] at done
  cases done

/-- The end of an ldap section. -/
structure LdapFinished (env : ConfigEnv) (vars next : ConfigVars) : Prop where
  settings : execute Settings.applySetter vars.settings (setters env .finishLdap) =
    .done next.settings
  url : ∃ host port url, next.settings .ldapHost = some host ∧ next.settings .ldapPort = some port ∧
    ldapUrl host port = .done url ∧ next.url = some url
  password : (next.settings .ldapBinddn).isSome = true → (next.settings .ldapBindpw).isSome = true
  basedn : (next.settings .ldapBasedn).isSome = true
  filter : (next.settings .ldapFilter).isSome = true
  scope : (next.settings .ldapScope).isSome = true
  rest : next = { vars with settings := next.settings, seenLdap := true, url := next.url }

theorem set_default_done (vars : ConfigVars) (k : Setting) (v : k.Value) :
    ∃ next, vars.set ⟨k, .done v⟩ = .done next := by
  rw [ConfigVars.set, Settings.Setter.apply]
  split
  · exact ⟨_, rfl⟩
  · exact ⟨_, rfl⟩

theorem set_default {k : Setting} {v : k.Value} (done : vars.set ⟨k, .done v⟩ = .done next) :
    next.settings k = some ((vars.settings k).getD v) ∧
      ∀ k', k' ≠ k → next.settings k' = vars.settings k' := by
  obtain ⟨settings, applied, rfl⟩ := set_done done
  refine ⟨?_, fun k' other => Settings.Setter.apply_other applied other⟩
  cases set : vars.settings k with
  | none =>
      rw [Settings.Setter.apply, if_neg (by rw [set]; exact Bool.false_ne_true)] at applied
      cases applied
      exact Function.update_self ..
  | some v' => exact Settings.Setter.apply_kept applied set

theorem finishLdap_done (done : finishLdap env vars = .done next) : LdapFinished env vars next := by
  obtain ⟨_, -, done⟩ := Run.bind_eq_done done
  obtain ⟨_, -, done⟩ := Run.bind_eq_done done
  obtain ⟨vars1, hostSet, done⟩ := Run.bind_eq_done done
  obtain ⟨vars2, portSet, done⟩ := Run.bind_eq_done done
  obtain ⟨url, made, done⟩ := Run.bind_eq_done done
  obtain ⟨_, password, done⟩ := Run.bind_eq_done done
  obtain ⟨_, basedn, done⟩ := Run.bind_eq_done done
  obtain ⟨_, filter, done⟩ := Run.bind_eq_done done
  obtain ⟨vars3, scopeSet, same⟩ := Run.bind_eq_done done
  cases same
  have password := require_done password
  have basedn := require_done basedn
  have filter := require_done filter
  have isPort := (set_default portSet).1
  have host2 := ((set_default portSet).2 .ldapHost (by decide)).trans (set_default hostSet).1
  rw [host2, isPort] at made
  obtain ⟨isScope, same⟩ := set_default scopeSet
  obtain ⟨settings1, applied1, rfl⟩ := set_done hostSet
  obtain ⟨settings2, applied2, rfl⟩ := set_done portSet
  obtain ⟨settings3, applied3, rfl⟩ := set_done scopeSet
  exact {
    settings := by
      simp only [setters_finishLdap, execute, Settings.applySetter, applied1, applied2, applied3,
        Run.done_bind]
    url := ⟨_, _, url, (same _ (by decide)).trans host2, (same _ (by decide)).trans isPort,
      made, rfl⟩
    password := by
      rw [same _ (by decide), same _ (by decide)]
      exact password
    basedn := by
      rw [same _ (by decide)]
      exact basedn
    filter := by
      rw [same _ (by decide)]
      exact filter
    scope := Option.isSome_iff_exists.mpr ⟨_, isScope⟩
    rest := rfl }

theorem configStep_setters {a : Action} (done : configStep env vars a = .done next) :
    execute Settings.applySetter vars.settings (setters env a) = .done next.settings := by
  have still : next.settings = vars.settings → execute Settings.applySetter vars.settings [] =
      .done next.settings := fun same => by rw [same, execute]
  cases a with
  | setPluginRp arg =>
      cases given : env.optP.isSome with
      | true =>
          obtain rfl := setPluginRp_given given done
          rw [setters_pluginRp, if_pos given]
          exact still rfl
      | false =>
          rw [configStep, setPluginRp_set given] at done
          rw [setters_pluginRp, given]
          exact set_execute done
  | setPasswdKeyid arg =>
      cases done
      exact still rfl
  | setPasswdKey arg =>
      obtain ⟨seen, -, same⟩ := Run.bind_eq_done done
      cases same
      exact still rfl
  | setStateTimeout arg =>
      cases done
      exact still rfl
  | setServerName arg | setServerPrimary arg | setServerBackup arg | setServerTimeout arg
  | setServerGport arg | setServerKey arg | finishServer =>
      obtain ⟨server, -, same⟩ := Run.bind_eq_done done
      cases same
      exact still rfl
  | finishFile =>
      obtain ⟨_, -, done⟩ := Run.bind_eq_done done
      obtain ⟨_, -, same⟩ := Run.bind_eq_done done
      cases same
      exact still rfl
  | finishTls | finishState =>
      obtain ⟨_, -, same⟩ := Run.bind_eq_done done
      cases same
      exact still rfl
  | finishLdap => exact (finishLdap_done done).settings
  | finishKey =>
      apply still
      simp only [configStep, finishKey] at done
      split at done
      · split_ifs at done
        split at done
        · cases done
        · split_ifs at done
          cases done
          rfl
      · cases done
  | _ => exact set_execute done

theorem configStep_setsOnce : Settings.SetsOnce (configStep env) ConfigVars.settings (Names env)
    (value env) :=
  Settings.setsOnce_of_setters (setters env) configStep_setters

/-- A call that has nothing to say but one option. -/
theorem configStep_set {a : Action} {setter : Setter} (only : setters env a = [setter]) :
    configStep env vars a = vars.set setter := by
  cases a with
  | setPluginRp arg =>
      cases given : env.optP.isSome with
      | true =>
          rw [setters_pluginRp, if_pos given] at only
          cases only
      | false =>
          rw [setters_pluginRp, given] at only
          cases only
          exact setPluginRp_set given arg
  | _ =>
      cases only <;> rfl

theorem set_again {setter : Setter} (set : (vars.settings setter.option).isSome = true) :
    vars.set setter = .done vars := by
  rw [ConfigVars.set, Settings.Setter.apply_set set]
  rfl

theorem execute_firstCounts {actions : List Action}
    (run : execute (configStep env) ConfigVars.init actions = .done vars) :
    FirstCounts env actions vars.settings where
  unnamed := fun k nobody => configStep_setsOnce.unnamed nobody run
  first := by
    intro k before a after same nobody here
    subst same
    exact configStep_setsOnce.first rfl nobody here run
  later := by
    intro k before a after setter same only here earlier
    subst same
    obtain ⟨middle, front, -⟩ := Settings.execute_append run
    refine ⟨middle, front, ?_⟩
    rw [configStep_set only]
    apply set_again
    rw [here]
    exact configStep_setsOnce.set_of_named earlier front

theorem defaultFile_rest (done : defaultFile env vars = .done next) :
    next = { vars with seenFile := next.seenFile } := by
  rw [defaultFile] at done
  split at done
  · obtain ⟨_, -, done⟩ := Run.bind_eq_done done
    obtain ⟨_, -, same⟩ := Run.bind_eq_done done
    cases same
    rfl
  · cases done
    rfl

/-- What `config_init` has done when it returns; `vars` are the variables after the file. -/
structure Returned (env : ConfigEnv) (actions : List Action) (vars : ConfigVars)
    (c : Configuration) : Prop where
  started : startup env = .done ()
  run : execute (configStep env) ConfigVars.init actions = .done vars
  default : defaultFile env vars = .done c.vars
  finished : finishConfig env c.vars = .done c.gsmds
  config : c.config = c.vars.config

/-- `config_init` returns only for a file that is accepted. -/
theorem configInit_returned {text : List Byte} {c : Configuration}
    (returned : configInit env text = .done c) :
    ∃ actions vars, configActions text = some actions ∧ Returned env actions vars c := by
  obtain ⟨last, read, returned⟩ := Run.bind_eq_done returned
  obtain ⟨gsmds, finished, same⟩ := Run.bind_eq_done returned
  cases same
  obtain ⟨_, started, read⟩ := Run.bind_eq_done read
  obtain ⟨vars, run, read⟩ := Run.bind_eq_done read
  obtain ⟨_, accepted, default⟩ := Run.bind_eq_done read
  exact ⟨(configCalls text).1, vars, (configCalls_iff _ _).mp (Prod.ext rfl (require_done accepted)),
    started, run, default, finished, rfl⟩

theorem configInit_done {text : List Byte} {actions : List Action} {c : Configuration}
    (parsed : configActions text = some actions) (returned : configInit env text = .done c) :
    ∃ vars, Returned env actions vars c := by
  obtain ⟨actions', vars, parsed', done⟩ := configInit_returned returned
  cases parsed.symm.trans parsed'
  exact ⟨vars, done⟩

end First

/-- Of the calls for an option the first one counts, and the later ones are not even checked,
in every file that is accepted. -/
theorem config_first_counts (env : ConfigEnv) (text : List Byte) (actions : List Action)
    (parsed : configActions text = some actions) (c : Configuration)
    (returned : configInit env text = .done c) : FirstCounts env actions c.vars.settings := by
  obtain ⟨vars, done⟩ := configInit_done parsed returned
  have same : c.vars.settings = vars.settings := by rw [defaultFile_rest done.default]
  rw [same]
  exact execute_firstCounts done.run

/-- A system that has everything. -/
def fullEnv : ConfigEnv where
  optD := none
  optP := none
  optU := none
  getpwuid := fun _ => some ⟨60, 60⟩
  getpwnam := fun _ => some ⟨60, 60⟩
  setIds := fun _ => true
  access := fun path => path.length ≤ pathMax
  accessDir := fun path => path.length ≤ pathMax
  gethostbyname := some
  ldapPort := none
  gsmdPort := none
  fileModule := true
  ldapModule := true
  ldapInit1 := true
  listens := fun _ => true
  fresh := fun _ _ => .stray

/-- Two options twice, and `loud` is no log level. -/
def twiceText : List Byte :=
  ascii "otpd\x7blog_level=info softfail=3 log_level=loud\nsoftfail=9\x7d"

theorem config_first_counts_twice :
    ∃ c, configInit fullEnv twiceText = .done c ∧ c.vars.settings .softfail = some (3 : Int32) ∧
      c.vars.settings .logLevel = some (some 6) ∧
      ∃ vars, configStep fullEnv vars (.setLogLevel (ascii "loud")) = .done vars := by
  have calls : configCalls twiceText =
      ([.setLogLevel (ascii "info"), .setSoftfail 3, .setLogLevel (ascii "loud"), .setSoftfail 9],
        true) := by
    decide +kernel
  obtain ⟨c, returned⟩ : ∃ c, configInit fullEnv twiceText = .done c := by
    rw [configInit, calls]
    exact ⟨_, rfl⟩
  have counts := config_first_counts fullEnv twiceText _ ((configCalls_iff _ _).mp calls) c returned
  have softfail := counts.first .softfail [.setLogLevel (ascii "info")] (.setSoftfail 3)
    [.setLogLevel (ascii "loud"), .setSoftfail 9] rfl
  have logLevel := counts.first .logLevel [] (.setLogLevel (ascii "info"))
    [.setSoftfail 3, .setLogLevel (ascii "loud"), .setSoftfail 9] rfl
  obtain ⟨vars, -, ignored⟩ := counts.later .logLevel [.setLogLevel (ascii "info"), .setSoftfail 3]
    (.setLogLevel (ascii "loud")) [.setSoftfail 9] (setLogLevel fullEnv (ascii "loud")) rfl rfl rfl
    ⟨_, List.mem_cons_self, _, List.mem_singleton_self _, rfl⟩
  refine ⟨c, returned, softfail ?_ ⟨_, List.mem_singleton_self _, rfl⟩,
    logLevel ?_ ⟨_, List.mem_singleton_self _, rfl⟩, vars, ignored⟩
  · intro b member
    rw [List.mem_singleton.mp member]
    rintro ⟨setter, only, here⟩
    rw [List.mem_singleton.mp only] at here
    cases here
  · intro b member
    cases member

end Otpd.ConfigFile

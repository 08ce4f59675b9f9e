import Otpd.Lib.Schedule
import Otpd.Records

/-!
# Timeouts in the configuration file

The actions of `config.y` for the top-level timeout and the state section, in the order
of the file, and what `finish_config` makes of them for the gsmds.  In the file timeouts
are in milliseconds, in `config_t` and `gsmd_t` in nanoseconds.
-/

set_option autoImplicit false

namespace Otpd

open CMem

/-! ## The file -/

inductive ServerItem where
  | name (arg : List Byte)
  | primary (arg : List Byte)
  | backup (arg : List Byte)
  | timeout (arg : Int32)
  | gport (arg : Int32)
  | key (arg : List Byte)

inductive StateItem where
  | mode (arg : List Byte)
  | timeout (arg : Int32)
  | gport (arg : Int32)
  | server (items : List ServerItem)

inductive ConfigItem where
  | timeout (arg : Int32)
  | state (items : List StateItem)

/-! ## The parser actions -/

/-- `arg * 1000000`, which wraps in an `int`. -/
def timesMillion (arg : Int32) : Int32 := arg * 1000000

def htons (port : UInt16) : UInt16 := port >>> 8 ||| port <<< 8

/-- `seen_server_*`. -/
structure ServerSeen where
  name : Option (List Byte) := none
  primary : Option (List Byte) := none
  backup : Option (List Byte) := none
  timeout : Int32 := 0
  gport : UInt16 := 0
  key : Option (List Byte) := none

/-- An element of `gsmd`. -/
structure ServerConfig where
  name : List Byte
  primary : List Byte
  backup : Option (List Byte)
  timeout : Int32
  gport : UInt16
  key : List Byte
  deriving DecidableEq

/-- `mode` and `gport` are `none` until the option is seen. -/
structure StateSeen where
  mode : Option StateMode := none
  gtimeout : Int := 0
  gport : Option UInt16 := none
  gsmd : List ServerConfig := []
  deriving DecidableEq

/-- `timeout` is `none` until the option is seen. -/
structure ConfigSeen where
  timeout : Option Int32 := none
  state : StateSeen := {}
  usingState : Bool := false
  deriving DecidableEq

/-- `none` for `exit(1)`, here and below. -/
def setPort (arg : Int32) : Option UInt16 :=
  if arg = 0 ∨ arg > 65535 then none else some (htons arg.toUInt32.toUInt16)

def setServerName (gsmd : List ServerConfig) (seen : ServerSeen) (arg : List Byte) :
    Option ServerSeen :=
  if seen.name.isSome then some seen
  else if arg.length > gsmMaxNameLen then none
  else if gsmd.any (·.name == arg) then none
  else some { seen with name := some arg }

def setServerTimeout (seen : ServerSeen) (arg : Int32) : ServerSeen :=
  if seen.timeout ≠ 0 then seen else { seen with timeout := arg }

def setServerKey (seen : ServerSeen) (arg : List Byte) : Option ServerSeen :=
  if seen.key.isSome then some seen
  else if arg.length ≠ 64 then none
  else some { seen with key := some arg }

/-- The `server_config_item` rules. -/
def setServer (gsmd : List ServerConfig) (seen : ServerSeen) : ServerItem → Option ServerSeen
  | .name arg => setServerName gsmd seen arg
  | .primary arg => some { seen with primary := seen.primary.or (some arg) }
  | .backup arg => some { seen with backup := seen.backup.or (some arg) }
  | .timeout arg => some (setServerTimeout seen arg)
  | .gport arg =>
      if seen.gport ≠ 0 then some seen
      else (setPort arg).map fun port => { seen with gport := port }
  | .key arg => setServerKey seen arg

def finishServer (seen : ServerSeen) : Option ServerConfig :=
  match seen.name, seen.primary, seen.key with
  | some name, some primary, some key =>
      some ⟨name, primary, seen.backup, seen.timeout, seen.gport, key⟩
  | _, _, _ => none

def stateModeOf (arg : List Byte) : Option StateMode :=
  if arg = ascii "local" then some .localMode
  else if arg = ascii "global" then some .globalMode
  else none

def setStateMode (seen : StateSeen) (arg : List Byte) : Option StateSeen :=
  if seen.mode.isSome then some seen
  else (stateModeOf arg).map fun mode => { seen with mode := some mode }

def setStateTimeout (seen : StateSeen) (arg : Int32) : StateSeen :=
  if seen.gtimeout ≠ 0 then seen else { seen with gtimeout := (timesMillion arg).toInt }

/-- The `state_config_item` rules. -/
def setState (seen : StateSeen) : StateItem → Option StateSeen
  | .mode arg => setStateMode seen arg
  | .timeout arg => some (setStateTimeout seen arg)
  | .gport arg =>
      if seen.gport.isSome then some seen
      else (setPort arg).map fun port => { seen with gport := some port }
  | .server items =>
      ((Schedule.run (setServer seen.gsmd) {} items).bind finishServer).map fun server =>
        { seen with gsmd := seen.gsmd ++ [server] }

def setAuthTimeout (seen : ConfigSeen) (arg : Int32) : Option ConfigSeen :=
  if seen.timeout.isSome then some seen
  else if arg < 3000 then none
  else some { seen with timeout := some (timesMillion arg) }

/-- The `config_item` rules; `finish_state` allows one section. -/
def setConfig (seen : ConfigSeen) : ConfigItem → Option ConfigSeen
  | .timeout arg => setAuthTimeout seen arg
  | .state items =>
      (Schedule.run setState seen.state items).bind fun state =>
        if seen.usingState then none else some { seen with state := state, usingState := true }

/-! ## `finish_config` -/

/-- What the rest of the file and the system come to.  `accepted`: none of the other
options, the sockets and the directories makes otpd exit. -/
structure ConfigRest where
  accepted : Bool
  seenFile : Bool
  fileBackend : Bool
  fileGsmd : List Byte
  gport : UInt16
  gethostbyname : List Byte → Option (List Byte)

/-- The part of `gsmd_t` set here; `n` is the number of `sin`. -/
structure ConfiguredGsmd where
  name : List Byte
  foTimeout : Int
  fbTimeout : Int
  sin : List (List Byte × UInt16)
  key : List Byte
  deriving DecidableEq

/-- `config->timeout`. -/
def ConfigSeen.configTimeout (seen : ConfigSeen) : Int :=
  match seen.timeout with
  | none => 11700000000
  | some timeout => timeout.toInt

def ConfigSeen.stateMode (seen : ConfigSeen) : StateMode := seen.state.mode.getD .localMode

def defaultGtimeout (timeout : Int) : Int :=
  if timeout * 2 + 1000000000 < 30000000000 then 30000000000 else timeout * 2 + 1000000000

/-- `seen_gtimeout` as it is compared. -/
def ConfigSeen.gtimeout (seen : ConfigSeen) : Int :=
  if seen.state.gtimeout = 0 then defaultGtimeout seen.configTimeout else seen.state.gtimeout

/-- A pass of the loop over the servers; `gtimeout` has `config.timeout` taken off. -/
def finishGsmd (rest : ConfigRest) (timeout gtimeout : Int) (gport : UInt16)
    (server : ServerConfig) : Option ConfiguredGsmd :=
  if server.timeout ≠ 0 ∧ server.timeout.toInt < timeout + 1000000000 then none
  else
    let port := if server.gport = 0 then gport else server.gport
    match rest.gethostbyname server.primary, server.backup.mapM rest.gethostbyname,
        a2x server.key with
    | some primary, some backup, some key =>
        some
          { name := server.name
            foTimeout :=
              if server.timeout = 0 then gtimeout else server.timeout.toInt - timeout
            fbTimeout := timeout + 1000000000
            sin := (primary, port) :: (backup.map fun host => (host, port)).toList
            key := key }
    | _, _, _ => none

def finishConfig (rest : ConfigRest) (seen : ConfigSeen) : Option (List ConfiguredGsmd) :=
  match seen.stateMode with
  | .localMode => some []
  | .globalMode =>
    if seen.state.gsmd = [] then none
    else if seen.gtimeout < seen.configTimeout + 1000000000 then none
    else
      let unfound : Int := (if rest.seenFile then 1 else 0) -
        seen.state.gsmd.countP fun server => rest.fileBackend && server.name == rest.fileGsmd
      (seen.state.gsmd.mapM (finishGsmd rest seen.configTimeout
        (seen.gtimeout - seen.configTimeout) (seen.state.gport.getD rest.gport))).filter
        fun _ => unfound = 0

/-- `config_init`, when it returns. -/
def configFile (rest : ConfigRest) (items : List ConfigItem) :
    Option (ConfigSeen × List ConfiguredGsmd) :=
  if rest.accepted = false then none
  else
    (Schedule.run setConfig {} items).bind fun seen =>
      (finishConfig rest seen).map fun gsmds => (seen, gsmds)

/-! ## The values given -/

/-- A timeout of 0 is none. -/
def nonzero (arg : Int32) : Option Int32 := if arg ≠ 0 then some arg else none

def ServerItem.timeout? : ServerItem → Option Int32
  | .timeout arg => nonzero arg
  | _ => none

def StateItem.timeout? : StateItem → Option Int32
  | .timeout arg => nonzero arg
  | _ => none

def StateItem.mode? : StateItem → Option StateMode
  | .mode arg => stateModeOf arg
  | _ => none

/-- The timeouts of the servers of the item. -/
def StateItem.servers : StateItem → List (Option Int32)
  | .server items => [items.findSome? ServerItem.timeout?]
  | _ => []

def ConfigItem.timeout? : ConfigItem → Option Int32
  | .timeout arg => some arg
  | _ => none

def ConfigItem.inState : ConfigItem → List StateItem
  | .state items => items
  | _ => []

def authTimeout (items : List ConfigItem) : Option Int32 := items.findSome? ConfigItem.timeout?

def stateTimeout (items : List ConfigItem) : Option Int32 :=
  items.findSome? fun item => item.inState.findSome? StateItem.timeout?

def stateMode (items : List ConfigItem) : Option StateMode :=
  items.findSome? fun item => item.inState.findSome? StateItem.mode?

def serverTimeouts (items : List ConfigItem) : List (Option Int32) :=
  items.flatMap fun item => item.inState.flatMap StateItem.servers

/-- Milliseconds in nanoseconds. -/
def nanoseconds (arg : Int32) : Int := arg.toInt * 1000000

/-- The timeout of a gsmd: its own, or else the one of the state section. -/
def gsmdTimeout (items : List ConfigItem) (timeout : Int) (server : Option Int32) : Int :=
  ((server.or (stateTimeout items)).map nanoseconds).getD (defaultGtimeout timeout)

structure TimeoutsInUnits (items : List ConfigItem) (seen : ConfigSeen)
    (gsmds : List ConfiguredGsmd) : Prop where
  auth : ∀ n, authTimeout items = some n → seen.configTimeout = nanoseconds n
  state : seen.stateMode = .globalMode → ∀ n, stateTimeout items = some n →
    seen.gtimeout = nanoseconds n
  server : seen.stateMode = .globalMode →
    seen.state.gsmd.map (·.timeout.toInt) =
      (serverTimeouts items).map fun server => (server.map nanoseconds).getD 0
  failover : seen.stateMode = .globalMode →
    gsmds.map (·.foTimeout) = (serverTimeouts items).map fun server =>
      gsmdTimeout items seen.configTimeout server - seen.configTimeout
  second : seen.stateMode = .globalMode → ∀ g ∈ gsmds, 1000000000 ≤ g.foTimeout

/-! ## What the actions leave -/

/-- The value that `set_state_timeout` keeps. -/
def StateItem.product? : StateItem → Option Int
  | .timeout arg => if (timesMillion arg).toInt ≠ 0 then some (timesMillion arg).toInt else none
  | _ => none

def StateSeen.gtimeout? (seen : StateSeen) : Option Int :=
  if seen.gtimeout ≠ 0 then some seen.gtimeout else none

def stateProduct (items : List ConfigItem) : Option Int :=
  items.findSome? fun item => item.inState.findSome? StateItem.product?

theorem setServerTimeout_timeout (seen : ServerSeen) (arg : Int32) :
    nonzero (setServerTimeout seen arg).timeout = (nonzero seen.timeout).or (nonzero arg) := by
  rw [setServerTimeout]
  split
  · rename_i set
    simp [nonzero, set]
  · rename_i unset
    simp [nonzero, unset]

theorem setServer_timeout {gsmd : List ServerConfig} {seen next : ServerSeen} {item : ServerItem}
    (step : setServer gsmd seen item = some next) :
    nonzero next.timeout = (nonzero seen.timeout).or item.timeout? := by
  have other : ∀ option : Option Int32, option = option.or none := fun option => by simp
  cases item with
  | name arg =>
      simp only [setServer, setServerName] at step
      split_ifs at step
      · cases step
        exact other _
      · cases step
        exact other _
  | primary arg =>
      cases step
      exact other _
  | backup arg =>
      cases step
      exact other _
  | timeout arg =>
      cases step
      exact setServerTimeout_timeout seen arg
  | gport arg =>
      simp only [setServer] at step
      split_ifs at step
      · cases step
        exact other _
      · obtain ⟨port, -, same⟩ := Option.map_eq_some_iff.mp step
        cases same
        exact other _
  | key arg =>
      simp only [setServer, setServerKey] at step
      split_ifs at step
      · cases step
        exact other _
      · cases step
        exact other _

theorem finishServer_timeout {seen : ServerSeen} {server : ServerConfig}
    (finished : finishServer seen = some server) : server.timeout = seen.timeout := by
  simp only [finishServer] at finished
  split at finished
  · cases finished
    rfl
  · cases finished

-- The product is a variable here: the kernel would unfold `timesMillion`.
theorem keep_gtimeout (seen : StateSeen) (product : Int) :
    (if seen.gtimeout ≠ 0 then seen else { seen with gtimeout := product }).gtimeout? =
      seen.gtimeout?.or (if product ≠ 0 then some product else none) := by
  split
  · rename_i set
    simp [StateSeen.gtimeout?, set]
  · rename_i unset
    simp [StateSeen.gtimeout?, unset]

theorem setStateTimeout_gtimeout (seen : StateSeen) (arg : Int32) :
    (setStateTimeout seen arg).gtimeout? =
      seen.gtimeout?.or (StateItem.timeout arg).product? :=
  keep_gtimeout seen _

/-- What an item of the state section does to the values that are looked at. -/
structure StateStep (seen next : StateSeen) (item : StateItem) : Prop where
  mode : next.mode = seen.mode.or item.mode?
  gtimeout : next.gtimeout? = seen.gtimeout?.or item.product?
  servers : next.gsmd.map (fun server => nonzero server.timeout) =
    seen.gsmd.map (fun server => nonzero server.timeout) ++ item.servers

theorem setState_step {seen next : StateSeen} {item : StateItem}
    (step : setState seen item = some next) : StateStep seen next item := by
  have same : ∀ {V : Type} (option : Option V), option = option.or none := fun option => by simp
  cases item with
  | mode arg =>
      simp only [setState, setStateMode] at step
      split_ifs at step with set
      · cases step
        refine ⟨?_, same _, (List.append_nil _).symm⟩
        rw [Option.or_of_isSome set]
      · obtain ⟨mode, valid, set'⟩ := Option.map_eq_some_iff.mp step
        cases set'
        refine ⟨?_, same _, (List.append_nil _).symm⟩
        rw [Option.not_isSome_iff_eq_none.mp set, Option.none_or, StateItem.mode?, valid]
  | timeout arg =>
      cases step
      refine ⟨?_, setStateTimeout_gtimeout seen arg, ?_⟩
      · rw [setStateTimeout]
        split
        · exact same _
        · exact same _
      · rw [setStateTimeout]
        split
        · exact (List.append_nil _).symm
        · exact (List.append_nil _).symm
  | gport arg =>
      simp only [setState] at step
      split_ifs at step
      · cases step
        exact ⟨same _, same _, (List.append_nil _).symm⟩
      · obtain ⟨port, -, set⟩ := Option.map_eq_some_iff.mp step
        cases set
        exact ⟨same _, same _, (List.append_nil _).symm⟩
  | server items =>
      obtain ⟨server, finished, added⟩ := Option.map_eq_some_iff.mp step
      obtain ⟨last, run, finished⟩ := Option.bind_eq_some_iff.mp finished
      cases added
      have given := Schedule.run_first (fun seen : ServerSeen => nonzero seen.timeout)
        ServerItem.timeout? (fun _ _ _ => setServer_timeout) run
      refine ⟨same _, same _, ?_⟩
      rw [List.map_append, List.map_singleton, finishServer_timeout finished, given]
      rfl

/-- What an item of the file does to them. -/
structure ConfigStep (seen next : ConfigSeen) (item : ConfigItem) : Prop where
  timeout : next.timeout = seen.timeout.or (item.timeout?.map timesMillion)
  minimum : ∀ arg, item.timeout? = some arg → seen.timeout = none → 3000 ≤ arg
  mode : next.state.mode = seen.state.mode.or (item.inState.findSome? StateItem.mode?)
  gtimeout : next.state.gtimeout? =
    seen.state.gtimeout?.or (item.inState.findSome? StateItem.product?)
  servers : next.state.gsmd.map (fun server => nonzero server.timeout) =
    seen.state.gsmd.map (fun server => nonzero server.timeout) ++
      item.inState.flatMap StateItem.servers

theorem setConfig_step {seen next : ConfigSeen} {item : ConfigItem}
    (step : setConfig seen item = some next) : ConfigStep seen next item := by
  have same : ∀ {V : Type} (option : Option V), option = option.or none := fun option => by simp
  cases item with
  | timeout arg =>
      simp only [setConfig, setAuthTimeout] at step
      split_ifs at step with set small
      · cases step
        refine ⟨?_, ?_, same _, same _, (List.append_nil _).symm⟩
        · rw [Option.or_of_isSome set]
        · intro arg' _ unset
          rw [unset] at set
          cases set
      · cases step
        refine ⟨?_, ?_, same _, same _, (List.append_nil _).symm⟩
        · rw [Option.not_isSome_iff_eq_none.mp set]
          rfl
        · intro arg' given _
          cases given
          exact Int32.not_lt.mp small
  | state items =>
      obtain ⟨state, run, finished⟩ := Option.bind_eq_some_iff.mp step
      split_ifs at finished
      cases finished
      exact ⟨same _, fun arg given => (by cases given),
        Schedule.run_first StateSeen.mode StateItem.mode?
          (fun _ _ _ step => (setState_step step).mode) run,
        Schedule.run_first StateSeen.gtimeout? StateItem.product?
          (fun _ _ _ step => (setState_step step).gtimeout) run,
        Schedule.run_collect (fun seen : StateSeen =>
          seen.gsmd.map fun server => nonzero server.timeout) StateItem.servers
          (fun _ _ _ step => (setState_step step).servers) run⟩

/-- The values a file leaves that the parser takes. -/
structure Parsed (items : List ConfigItem) (seen : ConfigSeen) : Prop where
  timeout : seen.timeout = (authTimeout items).map timesMillion
  minimum : ∀ n, authTimeout items = some n → 3000 ≤ n
  mode : seen.state.mode = stateMode items
  gtimeout : seen.state.gtimeout? = stateProduct items
  servers : seen.state.gsmd.map (fun server => nonzero server.timeout) = serverTimeouts items

theorem run_minimum {items : List ConfigItem} {seen last : ConfigSeen} {n : Int32}
    (run : Schedule.run setConfig seen items = some last) (unset : seen.timeout = none)
    (given : authTimeout items = some n) : 3000 ≤ n := by
  induction items generalizing seen with
  | nil => cases given
  | cons item items ih =>
      obtain ⟨next, first, rest⟩ := Option.bind_eq_some_iff.mp run
      have step := setConfig_step first
      rw [authTimeout, List.findSome?_cons] at given
      cases value : item.timeout? with
      | none =>
          rw [value] at given
          refine ih rest ?_ given
          rw [step.timeout, unset, value]
          rfl
      | some arg =>
          rw [value] at given
          cases given
          exact step.minimum _ value unset

theorem parsed {items : List ConfigItem} {seen : ConfigSeen}
    (run : Schedule.run setConfig {} items = some seen) : Parsed items seen where
  timeout := by
    rw [authTimeout, List.map_findSome?]
    exact Schedule.run_first ConfigSeen.timeout (fun item => item.timeout?.map timesMillion)
      (fun _ _ _ step => (setConfig_step step).timeout) run
  minimum := fun _ given => run_minimum run rfl given
  mode := by
    have first := Schedule.run_first (fun seen : ConfigSeen => seen.state.mode)
      (fun item => item.inState.findSome? StateItem.mode?)
      (fun _ _ _ step => (setConfig_step step).mode) run
    exact first
  gtimeout := by
    have first := Schedule.run_first (fun seen : ConfigSeen => seen.state.gtimeout?)
      (fun item => item.inState.findSome? StateItem.product?)
      (fun _ _ _ step => (setConfig_step step).gtimeout) run
    exact first
  servers := Schedule.run_collect
    (fun seen : ConfigSeen => seen.state.gsmd.map fun server => nonzero server.timeout)
    (fun item => item.inState.flatMap StateItem.servers)
    (fun _ _ _ step => (setConfig_step step).servers) run

theorem mapM_forall₂ {A B : Type} {f : A → Option B} {as : List A} {bs : List B}
    (mapped : as.mapM f = some bs) : List.Forall₂ (fun a b => f a = some b) as bs := by
  induction as generalizing bs with
  | nil =>
      cases mapped
      exact .nil
  | cons a as ih =>
      rw [List.mapM_cons] at mapped
      obtain ⟨b, first, rest⟩ := Option.bind_eq_some_iff.mp mapped
      obtain ⟨bs', later, same⟩ := Option.bind_eq_some_iff.mp rest
      cases same
      exact .cons first (ih later)

/-- What `finish_config` makes of a server. -/
structure GsmdOf (seen : ConfigSeen) (server : ServerConfig) (g : ConfiguredGsmd) : Prop where
  second : server.timeout ≠ 0 → seen.configTimeout + 1000000000 ≤ server.timeout.toInt
  foTimeout : g.foTimeout =
    if server.timeout = 0 then seen.gtimeout - seen.configTimeout
    else server.timeout.toInt - seen.configTimeout

theorem finishConfig_global {rest : ConfigRest} {seen : ConfigSeen} {gsmds : List ConfiguredGsmd}
    (finished : finishConfig rest seen = some gsmds) (mode : seen.stateMode = .globalMode) :
    seen.configTimeout + 1000000000 ≤ seen.gtimeout ∧
      List.Forall₂ (GsmdOf seen) seen.state.gsmd gsmds := by
  simp only [finishConfig, mode] at finished
  split at finished
  · cases finished
  · split at finished
    · cases finished
    · rename_i low
      obtain ⟨mapped, -⟩ := Option.filter_eq_some_iff.mp finished
      refine ⟨Int.not_lt.mp low, (mapM_forall₂ mapped).imp ?_⟩
      intro server g built
      simp only [finishGsmd] at built
      split at built
      · cases built
      · rename_i short
        split at built
        · cases built
          exact ⟨fun set => Int.not_lt.mp fun less => short ⟨set, less⟩, rfl⟩
        · cases built

theorem configFile_some {rest : ConfigRest} {items : List ConfigItem} {seen : ConfigSeen}
    {gsmds : List ConfiguredGsmd} (accepted : configFile rest items = some (seen, gsmds)) :
    Parsed items seen ∧ finishConfig rest seen = some gsmds := by
  rw [configFile] at accepted
  split_ifs at accepted
  obtain ⟨seen', run, finished⟩ := Option.bind_eq_some_iff.mp accepted
  obtain ⟨gsmds', finished, same⟩ := Option.map_eq_some_iff.mp finished
  cases same
  exact ⟨parsed run, finished⟩

theorem timesMillion_bounds (arg : Int32) :
    -2147483648 ≤ (timesMillion arg).toInt ∧ (timesMillion arg).toInt < 2147483648 :=
  ⟨Int32.le_toInt _, Int32.toInt_lt _⟩

theorem product?_none_iff {item : StateItem} :
    item.product? = none ↔ ∀ n, item.timeout? = some n → (timesMillion n).toInt = 0 := by
  cases item with
  | timeout arg =>
      simp only [StateItem.product?, StateItem.timeout?, nonzero]
      by_cases zero : arg = 0
      · subst zero
        simp [timesMillion]
      · simp [zero]
  | mode arg => simp [StateItem.product?, StateItem.timeout?]
  | gport arg => simp [StateItem.product?, StateItem.timeout?]
  | server items => simp [StateItem.product?, StateItem.timeout?]

theorem stateProduct_none_iff {items : List ConfigItem} :
    stateProduct items = none ↔
      ∀ item ∈ items, ∀ inner ∈ item.inState, inner.product? = none := by
  simp only [stateProduct, List.findSome?_eq_none_iff]

section Accepted

variable {rest : ConfigRest} {items : List ConfigItem} {seen : ConfigSeen}
  {gsmds : List ConfiguredGsmd}

theorem Parsed.gtimeout_cases (values : Parsed items seen) :
    (stateProduct items = none ∧ seen.gtimeout = defaultGtimeout seen.configTimeout) ∨
      seen.gtimeout < 2147483648 := by
  have kept := values.gtimeout
  simp only [StateSeen.gtimeout?] at kept
  by_cases zero : seen.state.gtimeout = 0
  · rw [if_neg (not_not.mpr zero)] at kept
    exact .inl ⟨kept.symm, by rw [ConfigSeen.gtimeout, if_pos zero]⟩
  · rw [if_pos zero] at kept
    rw [ConfigSeen.gtimeout, if_neg zero]
    right
    obtain ⟨item, -, inner⟩ := List.exists_of_findSome?_eq_some kept.symm
    obtain ⟨inner, -, product⟩ := List.exists_of_findSome?_eq_some inner
    cases inner with
    | timeout arg =>
        simp only [StateItem.product?] at product
        split at product
        · have bounds := timesMillion_bounds arg
          rw [Option.some.inj product] at bounds
          exact bounds.2
        · cases product
    | mode arg => cases product
    | gport arg => cases product
    | server items => cases product

/-- What the shipped timeout comes to in global mode. -/
structure Shipped (items : List ConfigItem) (seen : ConfigSeen) (gsmds : List ConfiguredGsmd) :
    Prop where
  products : stateProduct items = none
  gtimeout : seen.gtimeout = 30000000000
  timeout : seen.configTimeout = 11700000000
  servers : ∀ server ∈ seen.state.gsmd, server.timeout = 0
  failover : gsmds.map (·.foTimeout) = seen.state.gsmd.map fun _ => 18300000000

/-- It leaves no room for another one that an `int` can hold. -/
theorem Parsed.shipped (values : Parsed items seen)
    (finished : finishConfig rest seen = some gsmds) (mode : seen.stateMode = .globalMode)
    (unset : authTimeout items = none) : Shipped items seen gsmds := by
  have timeout : seen.configTimeout = 11700000000 := by
    rw [ConfigSeen.configTimeout, values.timeout, unset]
    rfl
  obtain ⟨enough, built⟩ := finishConfig_global finished mode
  rw [timeout] at enough
  obtain ⟨products, default⟩ | small := values.gtimeout_cases
  · have gtimeout : seen.gtimeout = 30000000000 := by
      rw [default, timeout]
      decide
    have each : List.Forall₂ (fun server g => server.timeout = 0 ∧ 18300000000 = g.foTimeout)
        seen.state.gsmd gsmds := by
      refine built.imp ?_
      intro server g of
      have unset : server.timeout = 0 := by
        by_contra set
        have second := of.second set
        have := server.timeout.toInt_lt
        omega
      refine ⟨unset, ?_⟩
      rw [of.foTimeout, if_pos unset, gtimeout, timeout]
      decide
    obtain ⟨servers, failover⟩ := (List.forall₂_and_left _ _).mp each
    have same : List.Forall₂ Eq (seen.state.gsmd.map fun _ => (18300000000 : Int))
        (gsmds.map (·.foTimeout)) := by
      rw [List.forall₂_map_left_iff, List.forall₂_map_right_iff]
      exact failover
    rw [List.forall₂_eq_eq_eq] at same
    exact ⟨products, gtimeout, timeout, servers, same.symm⟩
  · omega

/-- A factor of `2 ^ 26` is lost, and 30000 does not have it. -/
theorem default_not_product {n : Int32} (lost : (timesMillion n).toInt = 0) :
    nanoseconds n ≠ 30000000000 := by
  intro same
  rw [nanoseconds] at same
  have value : n.toInt = 30000 := by omega
  have given : n = 30000 := Int32.toInt_inj.mp value
  subst given
  revert lost
  decide

end Accepted

theorem timeouts_in_units_iff (rest : ConfigRest) (items : List ConfigItem) (seen : ConfigSeen)
    (gsmds : List ConfiguredGsmd) (accepted : configFile rest items = some (seen, gsmds)) :
    TimeoutsInUnits items seen gsmds ↔
      authTimeout items = none ∧
        (stateMode items = some .globalMode → stateTimeout items = none) := by
  obtain ⟨values, finished⟩ := configFile_some accepted
  have mode : seen.stateMode = .globalMode ↔ stateMode items = some .globalMode := by
    rw [ConfigSeen.stateMode, values.mode]
    cases stateMode items with
    | none => simp
    | some mode => simp
  constructor
  · intro units
    have unset : authTimeout items = none := by
      cases given : authTimeout items with
      | none => rfl
      | some n =>
          have exact := units.auth n given
          have least := values.minimum n given
          have bounds := timesMillion_bounds n
          rw [ConfigSeen.configTimeout, values.timeout, given] at exact
          simp only [Option.map_some, nanoseconds] at exact
          rw [Int32.le_iff_toInt_le] at least
          have : (3000 : Int32).toInt = 3000 := by decide
          omega
    refine ⟨unset, ?_⟩
    intro global
    have shipped := values.shipped finished (mode.mpr global) unset
    cases given : stateTimeout items with
    | none => rfl
    | some n =>
        have exact := units.state (mode.mpr global) n given
        obtain ⟨item, inside, found⟩ := List.exists_of_findSome?_eq_some given
        obtain ⟨inner, inside', found⟩ := List.exists_of_findSome?_eq_some found
        have lost := product?_none_iff.mp
          (stateProduct_none_iff.mp shipped.products item inside inner inside') n found
        rw [shipped.gtimeout] at exact
        exact absurd exact.symm (default_not_product lost)
  · rintro ⟨unset, untimed⟩
    have shipped := fun global => values.shipped finished global unset
    refine ⟨?_, ?_, ?_, ?_, ?_⟩
    · intro n given
      rw [unset] at given
      cases given
    · intro global n given
      rw [untimed (mode.mp global)] at given
      cases given
    · intro global
      rw [← values.servers, List.map_map]
      apply List.map_congr_left
      intro server inside
      simp [nonzero, (shipped global).servers server inside]
    · intro global
      rw [(shipped global).failover, ← values.servers, List.map_map, (shipped global).timeout]
      apply List.map_congr_left
      intro server inside
      rw [Function.comp_apply, (shipped global).servers server inside, gsmdTimeout,
        untimed (mode.mp global)]
      decide
    · intro global g inside
      have fo := List.mem_map_of_mem (f := (·.foTimeout)) inside
      rw [(shipped global).failover] at fo
      obtain ⟨server, -, same⟩ := List.mem_map.mp fo
      omega

def sampleRest : ConfigRest where
  accepted := true
  seenFile := true
  fileBackend := true
  fileGsmd := ascii "one"
  gport := htons 1220
  gethostbyname := fun _ => some [127, 0, 0, 1]

def sampleServer : ServerConfig where
  name := ascii "one"
  primary := ascii "localhost"
  backup := none
  timeout := 0
  gport := 0
  key := List.replicate 64 48

/-- One server, and no timeouts. -/
def globalItems : List ConfigItem :=
  [.state [.mode (ascii "global"), .server [.name sampleServer.name,
    .primary sampleServer.primary, .key sampleServer.key]]]

def globalSeen : ConfigSeen :=
  { state := { mode := some .globalMode, gsmd := [sampleServer] }, usingState := true }

def globalGsmds : List ConfiguredGsmd :=
  [{ name := sampleServer.name, foTimeout := 18300000000, fbTimeout := 12700000000,
     sin := [([127, 0, 0, 1], htons 1220)], key := List.replicate 32 0 }]

theorem timeouts_in_units_shipped : TimeoutsInUnits globalItems globalSeen globalGsmds :=
  (timeouts_in_units_iff sampleRest globalItems globalSeen globalGsmds (by decide +kernel)).mpr
    ⟨by decide +kernel, fun _ => by decide +kernel⟩

/-- The least timeout allowed wraps to a negative one. -/
theorem timeout_3000_wraps :
    configFile sampleRest [.timeout 3000] = some ({ timeout := some (-1294967296) }, []) ∧
      ¬ TimeoutsInUnits [.timeout 3000] { timeout := some (-1294967296) } [] := by
  refine ⟨by decide +kernel, ?_⟩
  intro units
  have exact := units.auth 3000 (by decide +kernel)
  revert exact
  decide +kernel

end Otpd

import Otpd.ConfigItems

/-!
# Memory of the configuration

Which configuration files make `config_init` touch memory that is not its own: a port that
is too long for the URL, a key id in front of the table or behind a gap in it, and a key id
of the password file that the table does not reach.
-/

set_option autoImplicit false

namespace Otpd.ConfigFile

open CMem
open Cells (Run)
open Settings (put execute)

/-! ## Values in force -/

/-- What the functions check of a value.  Where they check nothing the type says it all. -/
def Good (env : ConfigEnv) : ∀ k : Setting, k.Value → Prop
  | .user, (ids : Option Ids) => (ids = none → env.optU.isSome = true) ∧
      ∀ pw, ids = some pw → env.setIds pw = true ∧ ∃ arg, lookupUser env arg = some pw
  | .logFacility, (facility : Nat) => ∃ name, facNames.lookup name = some facility
  | .logLevel, (level : Option Nat) => (level = none → env.optD.isSome = true) ∧
      ∀ n, level = some n → ∃ name, priNames.lookup name = some n
  | .authTimeout, (timeout : Int32) => ∃ arg : Int32, 3000 ≤ arg ∧ timeout = timesMillion arg
  | .pluginRp, (path : List Byte) => path.head? = some 47 ∧ path.length ≤ rpMaxlen
  | .filePasswd, (path : List Byte) => path.head? = some 47 ∧ env.access path = true
  | .fileEncrypt, (file : EncryptMode × Int32) => file.2 ≤ 127
  | .fileServer, (name : List Byte) => name.length ≤ gsmMaxNameLen
  | .ldapHost, (host : List Byte) =>
      host = ascii "localhost" ∨ (env.gethostbyname host).isSome = true
  | .ldapPort, (port : Int32) => (port = defaultLdapPort env ∨ port ≠ 0) ∧ port ≤ 65535
  | .ldapFilter, (filter : LdapFilter) => ∃ before after : List Byte,
      filter.val = before ++ ascii "%s" ++ after ++ [0] ∧ (37 : Byte) ∉ before ∧
        (37 : Byte) ∉ after ∧ filter.len = before.length + after.length
  | .ldapScope, (scope : List Byte) => scope = ascii "one" ∨ scope = ascii "sub"
  | .tlsVerifyCert, (n : Nat) => n ≤ 2
  | .tlsCacertfile, (path : List Byte) => env.access path = true
  | .tlsCacertdir, (path : List Byte) => env.access path = true
  | .tlsCertfile, (path : List Byte) => env.access path = true
  | .tlsKeyfile, (path : List Byte) => env.access path = true
  | .stateGport, (port : UInt16) => ∃ arg : Int32, arg ≠ 0 ∧ arg ≤ 65535 ∧
      port = htons arg.toUInt32.toUInt16
  | _, _ => True

section Values

variable {env : ConfigEnv}

/-- The value of a setter is one that it checked, and a string that fits. -/
structure SetterOk (env : ConfigEnv) (setter : Setter) : Prop where
  safe : setter.value ≠ .fault
  good : ∀ v, setter.value = .done v → Good env setter.option v

theorem setterOk_done {k : Setting} {v : k.Value} (good : Good env k v) :
    SetterOk env ⟨k, .done v⟩ := by
  refine ⟨by simp, ?_⟩
  intro v' same
  cases same
  exact good

theorem setterOk_ofOption {k : Setting} {found : Option k.Value}
    (good : ∀ v, found = some v → Good env k v) : SetterOk env ⟨k, .ofOption found⟩ := by
  cases found with
  | none => exact ⟨by simp [Run.ofOption], fun v same => by cases same⟩
  | some v => exact setterOk_done (good v rfl)

theorem setterOk_if {k : Setting} {condition : Prop} [Decidable condition] {r r' : Run k.Value}
    (yes : condition → SetterOk env ⟨k, r⟩) (no : ¬ condition → SetterOk env ⟨k, r'⟩) :
    SetterOk env ⟨k, if condition then r else r'⟩ := by
  by_cases holds : condition
  · rw [if_pos holds]
    exact yes holds
  · rw [if_neg holds]
    exact no holds

theorem setterOk_fail {k : Setting} : SetterOk env ⟨k, .fail⟩ :=
  ⟨by simp, fun v same => by cases same⟩

theorem setterOk_require {k : Setting} {condition : Prop} [Decidable condition] {r : Run k.Value}
    (yes : condition → SetterOk env ⟨k, r⟩) :
    SetterOk env ⟨k, Run.require condition >>= fun _ => r⟩ := by
  by_cases holds : condition
  · rw [Run.require_pos holds]
    exact yes holds
  · rw [Run.require_neg holds]
    exact setterOk_fail

theorem strcpy_fits {size : Nat} {arg : List Byte} (fits : arg.length < size) :
    strcpy size arg = .done arg := if_pos fits

theorem setterOk_filter (arg : List Byte) : SetterOk env (setLdapFilter arg) := by
  cases word : wordOf arg with
  | none =>
      have value : setLdapFilter arg = ⟨.ldapFilter, .fail⟩ := by
        rw [setLdapFilter, word]
        rfl
      rw [value]
      exact setterOk_fail
  | some w =>
      by_cases one : OneUser w.bytes
      · obtain ⟨before, after, parts, noPercentBefore, noPercentAfter⟩ := one.parts
        have accepted : Otpd.setLdapFilter ⟨false, none⟩ w = .done (some ⟨true, some
            ⟨before ++ 37 :: 115 :: after ++ [0], before.length + after.length⟩⟩) :=
          setLdapFilter_accepts rfl parts noPercentBefore noPercentAfter
        have value : setLdapFilter arg = ⟨.ldapFilter,
            .done ⟨before ++ 37 :: 115 :: after ++ [0], before.length + after.length⟩⟩ := by
          rw [setLdapFilter, word]
          simp only [Run.ofOption, Run.done_bind, accepted]
          rfl
        rw [value]
        exact setterOk_done ⟨before, after,
          congrArg (· ++ [0]) (List.append_assoc before (ascii "%s") after).symm, noPercentBefore,
          noPercentAfter, rfl⟩
      · have refused : Otpd.setLdapFilter ⟨false, none⟩ w = .fail := setLdapFilter_rejects rfl one
        have value : setLdapFilter arg = ⟨.ldapFilter, .fail⟩ := by
          rw [setLdapFilter, word]
          simp only [Run.ofOption, Run.done_bind, refused]
          rfl
        rw [value]
        exact setterOk_fail

theorem setStatedir_fits {arg : List Byte} {dir : Statedir} (set : Otpd.setStatedir arg = some dir) :
    arg.length < pathMax + 1 := by
  rw [Otpd.setStatedir] at set
  split at set
  · rename_i accepted
    have short := accepted.2
    omega
  · cases set

theorem defaultLdapPort_le (env : ConfigEnv) : defaultLdapPort env ≤ 65535 := by
  rw [defaultLdapPort]
  cases env.ldapPort with
  | none => decide
  | some port =>
      have small := port.toNat_lt
      rw [Int32.le_iff_toInt_le]
      change (Int32.ofNat port.toNat).toInt ≤ 65535
      rw [Int32.toInt_ofNat_of_lt (by omega)]
      omega

/-- A name longer than `PATH_MAX` is not found by `access`. -/
def AccessBounded (env : ConfigEnv) : Prop :=
  ∀ path, env.access path = true → path.length ≤ pathMax

theorem setters_ok (bounded : AccessBounded env) (a : Action) :
    ∀ setter ∈ setters env a, SetterOk env setter := by
  have one : ∀ {setter : Setter}, SetterOk env setter → ∀ s ∈ [setter], SetterOk env s := by
    intro setter ok s member
    rw [List.mem_singleton.mp member]
    exact ok
  cases a with
  | setUser arg =>
      refine one (setterOk_if (fun given => setterOk_done ⟨fun _ => given, ?_⟩) fun _ => ?_)
      · intro pw absent
        cases absent
      · cases found : lookupUser env arg with
        | none => exact setterOk_fail
        | some pw =>
            refine setterOk_require fun allowed => setterOk_done ⟨fun absent => ?_, ?_⟩
            · cases absent
            · intro pw' same
              cases same
              exact ⟨allowed, arg, found⟩
  | setLogFacility arg => exact one (setterOk_ofOption fun _ found => ⟨arg, found⟩)
  | setLogLevel arg =>
      refine one ?_
      rw [setLogLevel]
      cases found : priNames.lookup arg with
      | none => exact setterOk_fail
      | some level =>
          refine setterOk_if (fun given => setterOk_done ⟨fun _ => given, ?_⟩) fun _ =>
            setterOk_done ⟨fun absent => ?_, ?_⟩
          · intro n absent
            cases absent
          · cases absent
          · intro n same
            cases same
            exact ⟨arg, found⟩
  | setPluginRp arg =>
      rw [setters_pluginRp]
      split
      · intro setter member
        cases member
      · exact one (setterOk_require fun absolute => setterOk_require fun fits =>
          setterOk_done ⟨absolute, fits⟩)
  | setBackend arg =>
      exact one (setterOk_if (fun _ => setterOk_done trivial) fun _ =>
        setterOk_if (fun _ => setterOk_done trivial) fun _ => setterOk_fail)
  | setAuthTimeout arg =>
      exact one (setterOk_if (fun _ => setterOk_fail) fun enough =>
        setterOk_done ⟨arg, Int32.not_lt.mp enough, rfl⟩)
  | setFilePasswd arg =>
      refine one (setterOk_require fun absolute => setterOk_require fun found => ?_)
      rw [strcpy_fits (Nat.lt_succ_of_le (bounded arg found))]
      exact setterOk_done ⟨absolute, found⟩
  | setFileEncrypt mode id =>
      exact one (setterOk_if (fun _ => setterOk_fail) fun small =>
        setterOk_done (Int32.not_lt.mp small))
  | setFileServer arg =>
      refine one (setterOk_require fun fits => ?_)
      rw [strcpy_fits (Nat.lt_succ_of_le fits)]
      exact setterOk_done fits
  | setLdapHost arg =>
      exact one (setterOk_if (fun found => setterOk_done (.inr found)) fun _ => setterOk_fail)
  | setLdapPort arg =>
      exact one (setterOk_if (fun _ => setterOk_fail) fun valid => setterOk_done
        ⟨.inr fun zero => valid (.inl zero), Int32.not_lt.mp fun large => valid (.inr large)⟩)
  | setLdapFilter arg => exact one (setterOk_filter arg)
  | setLdapScope arg =>
      exact one (setterOk_if (fun known => setterOk_done known) fun _ => setterOk_fail)
  | setTlsMode arg =>
      exact one (setterOk_if (fun _ => setterOk_done trivial) fun _ =>
        setterOk_if (fun _ => setterOk_done trivial) fun _ =>
          setterOk_if (fun _ => setterOk_done trivial) fun _ => setterOk_fail)
  | setTlsVerifyCert arg =>
      exact one (setterOk_if (fun _ => setterOk_done (Nat.zero_le 2)) fun _ =>
        setterOk_if (fun _ => setterOk_done (Nat.le_succ 1)) fun _ =>
          setterOk_if (fun _ => setterOk_done (Nat.le_refl 2)) fun _ => setterOk_fail)
  | setTlsCacertfile arg | setTlsCacertdir arg | setTlsCertfile arg | setTlsKeyfile arg =>
      exact one (setterOk_if (fun found => setterOk_done found) fun _ => setterOk_fail)
  | setStateMode arg => exact one (setterOk_ofOption fun _ _ => trivial)
  | setStatedir arg =>
      refine one ?_
      cases dir : Otpd.setStatedir arg with
      | none =>
          rw [setStatedir, dir]
          exact setterOk_fail
      | some d =>
          have fits := setStatedir_fits dir
          rw [setStatedir, dir, strcpy_fits fits]
          exact setterOk_done trivial
  | setStateGport arg =>
      refine one (setterOk_ofOption fun port set => ?_)
      rw [setPort] at set
      split at set
      · cases set
      · rename_i valid
        cases set
        exact ⟨arg, fun zero => valid (.inl zero),
          Int32.not_lt.mp fun large => valid (.inr large), rfl⟩
  | setPrependPin arg | setHardfail arg | setSoftfail arg | setEwindowSize arg
  | setRwindowSize arg | setSiteTransform arg | setLdapBinddn arg | setLdapBindpw arg
  | setLdapBasedn arg => exact one (setterOk_done trivial)
  | finishLdap =>
      intro setter member
      simp only [setters_finishLdap, List.mem_cons, List.not_mem_nil, or_false] at member
      rcases member with rfl | rfl | rfl
      · exact setterOk_done (.inl rfl)
      · exact setterOk_done ⟨.inl rfl, defaultLdapPort_le env⟩
      · exact setterOk_done (.inr rfl)
  | _ =>
      intro setter member
      cases member

/-! ## The table of keys -/

theorem growTable_inside {fresh : Nat → KeySlot} {table : KeyTable} {keyid : Nat} :
    ((growTable fresh table keyid).2.all fun write => write.first + write.count ≤ write.size) = true ↔
      table.key = [] ∨ keyid ≤ table.nkeys := by
  rw [growTable]
  split
  · rename_i empty
    simp [empty]
  · rename_i some_
    split
    · rename_i beyond
      simp only [List.all_cons, List.all_nil, Bool.and_true, decide_eq_true_eq, some_, false_or]
      omega
    · rename_i within
      simp only [List.all_nil, some_, false_or, true_iff]
      omega

/-- One key stored in a table without stray slots. -/
structure KeyStored (table table' : KeyTable) (keyid : Nat) (writes : List KeyWrite) : Prop where
  inside : (writes.all fun write => write.first + write.count ≤ write.size) = true ↔
    table.key = [] ∨ keyid ≤ table.nkeys
  size : table'.key.length = table'.nkeys
  slots : (table.key = [] ∨ keyid ≤ table.nkeys) → KeySlot.stray ∉ table.key →
    KeySlot.stray ∉ table'.key

theorem storeKey_stored {fresh : Nat → KeySlot} {table table' : KeyTable} {keyid : Nat}
    {key : List Byte} {writes : List KeyWrite} (size : table.key.length = table.nkeys)
    (stored : storeKey fresh table keyid key = some (table', writes)) :
    KeyStored table table' keyid writes := by
  obtain ⟨nkeys, length⟩ := growTable_size fresh keyid size
  have slot := growTable_slot fresh keyid size
  rw [storeKey] at stored
  simp only at stored
  split at stored
  · cases stored
  · cases stored
    refine ⟨?_, ?_, ?_⟩
    · rw [List.all_append, Bool.and_eq_true, growTable_inside]
      simp only [List.all_cons, List.all_nil, Bool.and_true, decide_eq_true_eq, length]
      exact ⟨And.left, fun noGap => ⟨noGap, by omega⟩⟩
    · rw [List.length_set, length, nkeys]
    · intro noGap noStray member
      obtain ⟨i, inside, found⟩ := List.mem_iff_getElem.mp member
      have found : (((growTable fresh table keyid).1.key).set keyid (.entry key))[i]? =
          some .stray := by
        rw [List.getElem?_eq_getElem inside, found]
      rw [List.getElem?_set] at found
      split at found
      · split at found <;> cases found
      · rename_i other
        rw [slot] at found
        split at found
        · exact noStray (List.mem_of_getElem? found)
        · split at found
          · rcases noGap with empty | near
            · rw [if_pos empty] at found
              cases found
            · omega
          · split at found <;> cases found

end Values

/-! ## Every call -/

/-- What holds of the variables after any calls. -/
structure VarsOk (env : ConfigEnv) (vars : ConfigVars) : Prop where
  good : ∀ k v, vars.settings k = some v → Good env k v
  size : vars.key.key.length = vars.key.nkeys
  slots : KeySlot.stray ∉ vars.key.key

/-- The port that `finish_ldap` prints. -/
def ConfigVars.ldapPort (env : ConfigEnv) (vars : ConfigVars) : Int32 :=
  (vars.settings .ldapPort).getD (defaultLdapPort env)

/-- A key has its place in the table, directly behind it at most. -/
def KeyInPlace (vars : ConfigVars) : Prop :=
  ∀ id key, vars.passwdKeyid = some id → vars.passwdKey = some key → id ≤ 127 →
    if id < 0 then vars.key.key = [] ∧ id ≠ -1
    else vars.key.key = [] ∨ id.toNatClampNeg ≤ vars.key.nkeys

def Careful (env : ConfigEnv) (vars : ConfigVars) : Action → Prop
  | .finishLdap =>
      env.ldapModule = true → vars.seenLdap = false → -9999 ≤ (vars.ldapPort env).toInt
  | .finishKey => KeyInPlace vars
  | _ => True

section Calls

variable {env : ConfigEnv} {vars next : ConfigVars}

theorem set_safe {setter : Setter} (ok : SetterOk env setter) : vars.set setter ≠ .fault := by
  have safe : setter.apply vars.settings ≠ .fault := Settings.applySetter_safe ok.safe
  rw [ConfigVars.set]
  cases applied : setter.apply vars.settings with
  | fault => exact absurd applied safe
  | fail => exact Run.fail_safe
  | done settings => exact Run.done_safe _

theorem printInt_length {n : Int} (small : n ≤ 65535) : (printInt n).length ≤ 5 ↔ -9999 ≤ n := by
  have long : ∀ k : Nat, (printDec 1 k).length = max 1 (Nat.digits 10 k).length := by
    intro k
    simp only [printDec, List.length_append, List.length_replicate, List.length_map,
      List.length_reverse]
    omega
  have five := Nat.digits_length_le_iff (b := 10) (k := 5) (by decide) n.natAbs
  have four := Nat.digits_length_le_iff (b := 10) (k := 4) (by decide) n.natAbs
  rw [printInt]
  split
  · rw [List.length_cons, long]
    omega
  · rw [long]
    omega

theorem ldapUrl_safe {host : List Byte} {port : Int32} (small : port ≤ 65535) :
    ldapUrl host port ≠ .fault ↔ -9999 ≤ port.toInt := by
  have bound : port.toInt ≤ 65535 := Int32.le_iff_toInt_le.mp small
  rw [← printInt_length bound, ldapUrl, strcpy]
  have size : (ascii "ldap://" ++ host ++ 58 :: printInt port.toInt).length =
      7 + host.length + 1 + (printInt port.toInt).length := by
    rw [List.length_append, List.length_append, List.length_cons]
    have seven : (ascii "ldap://").length = 7 := by decide
    omega
  rw [size]
  split
  · rename_i fits
    exact iff_of_true (Run.done_safe _) (by omega)
  · rename_i tooLong
    exact iff_of_false (fun safe => safe rfl) (by omega)

theorem default_safe (k : Setting) (v : k.Value) : vars.set ⟨k, .done v⟩ ≠ .fault := by
  obtain ⟨next, done⟩ := set_default_done vars k v
  rw [done]
  exact Run.done_safe next

theorem ldapPort_le (ok : VarsOk env vars) : vars.ldapPort env ≤ 65535 := by
  rw [ConfigVars.ldapPort]
  cases set : vars.settings .ldapPort with
  | none => exact defaultLdapPort_le env
  | some port => exact (ok.good .ldapPort port set).2

theorem finishLdap_safe (ok : VarsOk env vars) :
    finishLdap env vars ≠ .fault ↔ Careful env vars .finishLdap := by
  rw [finishLdap, Run.require_safe_iff, Run.require_safe_iff, Careful]
  refine imp_congr_right fun _ => imp_congr_right fun _ => ?_
  obtain ⟨vars1, hostSet⟩ := set_default_done vars .ldapHost (ascii "localhost")
  obtain ⟨vars2, portSet⟩ := set_default_done vars1 .ldapPort (defaultLdapPort env)
  have port : (vars2.settings .ldapPort).getD (0 : Int32) = vars.ldapPort env := by
    rw [(set_default portSet).1, (set_default hostSet).2 .ldapPort (by decide)]
    rfl
  rw [hostSet, Run.done_bind, portSet, Run.done_bind, port, ← ldapUrl_safe (ldapPort_le ok)]
  refine Run.bind_rest_safe_iff fun url => ?_
  exact Run.bind_safe (Run.require_safe _) fun _ => Run.bind_safe (Run.require_safe _) fun _ =>
    Run.bind_safe (Run.require_safe _) fun _ => Run.bind_safe (default_safe _ _) fun _ =>
      Run.done_safe _

theorem finishKey_safe (ok : VarsOk env vars) : finishKey env vars ≠ .fault ↔ KeyInPlace vars := by
  rw [finishKey]
  split
  · rename_i id key isId isKey
    have place : KeyInPlace vars ↔ (id ≤ 127 →
        if id < 0 then vars.key.key = [] ∧ id ≠ -1
        else vars.key.key = [] ∨ id.toNatClampNeg ≤ vars.key.nkeys) := by
      constructor
      · intro all
        exact all id key isId isKey
      · intro here id' key' isId' isKey' small
        rw [isId] at isId'
        cases isId'
        exact here small
    rw [place]
    by_cases large : id > 127
    · rw [if_pos large]
      exact iff_of_true Run.fail_safe fun small => absurd large (Int32.not_lt.mpr small)
    · have small : id ≤ 127 := Int32.not_lt.mp large
      rw [if_neg large]
      by_cases negative : id < 0
      · rw [if_pos negative]
        simp only [small, negative, if_true, forall_const]
        by_cases refused : vars.key.key = [] ∧ id ≠ -1
        · rw [if_pos refused]
          exact iff_of_true Run.fail_safe refused
        · rw [if_neg refused]
          exact iff_of_false (fun safe => safe rfl) refused
      · rw [if_neg negative]
        simp only [small, negative, if_false, forall_const]
        have allowed : ¬ id.toNatClampNeg > 127 := by
          have bound := Int32.le_iff_toInt_le.mp small
          change id.toInt ≤ 127 at bound
          rw [← Int32.toNat_toInt]
          omega
        rw [Otpd.finishKey]
        simp only [if_neg allowed]
        cases stored : storeKey (env.fresh vars.key) vars.key id.toNatClampNeg key with
        | none =>
            refine iff_of_true Run.fail_safe ?_
            by_contra gap
            obtain ⟨set, beyond⟩ := not_or.mp gap
            obtain ⟨done, found, -⟩ : ∃ done, storeKey (env.fresh vars.key) vars.key
                id.toNatClampNeg key = some done ∧ _ := storeKey_gap set (Nat.lt_of_not_le beyond)
            rw [found] at stored
            cases stored
        | some done =>
            obtain ⟨table, writes⟩ := done
            rw [← (storeKey_stored ok.size stored).inside]
            dsimp only
            split
            · rename_i inside
              exact iff_of_true (Run.done_safe _) inside
            · rename_i outside
              exact iff_of_false (fun safe => safe rfl) outside
  · rename_i incomplete
    exact iff_of_true Run.fail_safe fun id key isId isKey => absurd isKey (incomplete id key isId)

theorem configStep_safe (bounded : AccessBounded env) (ok : VarsOk env vars) (a : Action) :
    configStep env vars a ≠ .fault ↔ Careful env vars a := by
  have one : ∀ {setter : Setter}, setters env a = [setter] → vars.set setter ≠ .fault := by
    intro setter same
    exact set_safe (setters_ok bounded a setter (by rw [same]; exact List.mem_singleton_self setter))
  cases a with
  | setPluginRp arg =>
      refine iff_of_true ?_ trivial
      rw [configStep, setPluginRp]
      split
      · exact Run.done_safe vars
      · refine Run.bind_safe ?_ fun path => ?_
        · exact Run.bind_safe (Run.require_safe _) fun _ =>
            Run.bind_safe (Run.require_safe _) fun _ => Run.done_safe arg
        · split
          · exact Run.done_safe _
          · exact Run.done_safe _
  | setPasswdKeyid arg | setStateTimeout arg => exact iff_of_true (Run.done_safe _) trivial
  | setPasswdKey arg | setServerName arg | setServerPrimary arg | setServerBackup arg
  | setServerTimeout arg | setServerGport arg | setServerKey arg | finishServer =>
      exact iff_of_true (Run.bind_safe (Run.ofOption_safe _) fun _ => Run.done_safe _) trivial
  | finishFile =>
      exact iff_of_true (Run.bind_safe (Run.require_safe _) fun _ =>
        Run.bind_safe (Run.require_safe _) fun _ => Run.done_safe _) trivial
  | finishTls | finishState =>
      exact iff_of_true (Run.bind_safe (Run.require_safe _) fun _ => Run.done_safe _) trivial
  | finishLdap => exact finishLdap_safe ok
  | finishKey => exact finishKey_safe ok
  | _ => exact iff_of_true (one rfl) trivial

theorem configStep_ok (bounded : AccessBounded env) (ok : VarsOk env vars) {a : Action}
    (done : configStep env vars a = .done next) : VarsOk env next := by
  have good := Settings.execute_values (Good env)
    (fun setter member => (setters_ok bounded a setter member).good) ok.good
    (configStep_setters done)
  by_cases atEnd : a = .finishKey
  · subst atEnd
    obtain ⟨id, key, writes, -, -, -, stored, inside, -⟩ := finishKey_done done
    have kept := storeKey_stored ok.size stored
    exact ⟨good, kept.size, kept.slots (kept.inside.mp inside) ok.slots⟩
  · have same := (configStep_frame done).key atEnd
    exact ⟨good, by rw [same]; exact ok.size, by rw [same]; exact ok.slots⟩

theorem varsOk_init : VarsOk env ConfigVars.init := by
  refine ⟨?_, rfl, List.not_mem_nil⟩
  intro k v set
  cases set

/-! ## The whole file -/

/-- The file backend has its functions, and its key, if it has one, a slot in the table. -/
def FinishCareful (env : ConfigEnv) (vars : ConfigVars) : Prop :=
  vars.backend = .file → env.fileModule = true ∧
    ∀ id : Int32, vars.settings .fileEncrypt = some (EncryptMode.keyid, id) →
      vars.key.key = [] ∨ 0 ≤ id ∧ id.toNatClampNeg < vars.key.nkeys

theorem rendezvous_fits (ok : VarsOk env vars) : vars.rendezvous.length < 108 := by
  rw [ConfigVars.rendezvous]
  cases set : vars.settings .pluginRp with
  | none => decide +kernel
  | some path =>
      have fits := (ok.good .pluginRp path set).2
      have small : rpMaxlen ≤ 107 := Nat.min_le_left ..
      change path.length < 108
      omega

theorem checkKeyid_safe (ok : VarsOk env vars) (backend : vars.backend = .file) :
    checkKeyid vars ≠ .fault ↔
      ∀ id : Int32, vars.settings .fileEncrypt = some (EncryptMode.keyid, id) →
        vars.key.key = [] ∨ 0 ≤ id ∧ id.toNatClampNeg < vars.key.nkeys := by
  rw [checkKeyid]
  split
  · rename_i id _ isKeyid
    have only : (∀ id' : Int32, vars.settings .fileEncrypt = some (EncryptMode.keyid, id') →
        vars.key.key = [] ∨ 0 ≤ id' ∧ id'.toNatClampNeg < vars.key.nkeys) ↔
        (vars.key.key = [] ∨ 0 ≤ id ∧ id.toNatClampNeg < vars.key.nkeys) := by
      constructor
      · intro all
        exact all id isKeyid
      · intro here id' same
        rw [isKeyid] at same
        cases same
        exact here
    rw [only, ← ok.size]
    split
    · rename_i empty
      exact iff_of_true Run.fail_safe (.inl empty)
    · rename_i notEmpty
      split
      · rename_i inside
        exact iff_of_true (Run.require_safe _) (.inr inside)
      · rename_i outside
        exact iff_of_false (fun safe => safe rfl) (not_or.mpr ⟨notEmpty, outside⟩)
  · rename_i other
    exact iff_of_true (Run.done_safe ()) fun id isKeyid => absurd isKeyid (other id backend)

/-- The socket and the servers. -/
theorem listen_safe (ok : VarsOk env vars) : ∀ _ : Unit,
    (strcpy 108 vars.rendezvous >>= fun path =>
      Run.require (env.listens path = true) >>= fun _ =>
        match vars.seen.stateMode with
        | .localMode => Run.require (env.accessDir vars.statedir.bytes = true) >>= fun _ => return []
        | .globalMode => Run.ofOption (Otpd.finishConfig (vars.rest env) vars.seen)) ≠ .fault := by
  intro _
  rw [strcpy_fits (rendezvous_fits ok), Run.done_bind]
  refine Run.bind_safe (Run.require_safe _) fun _ => ?_
  split
  · exact Run.bind_safe (Run.require_safe _) fun _ => Run.done_safe []
  · exact Run.ofOption_safe _

theorem finishConfig_safe (ok : VarsOk env vars) :
    finishConfig env vars ≠ .fault ↔ FinishCareful env vars := by
  rw [finishConfig, Run.require_safe_iff, FinishCareful]
  cases backend : vars.backend with
  | ldap =>
      refine iff_of_true (fun _ => ?_) fun wrong => by cases wrong
      refine Run.bind_safe (Run.require_safe _) fun _ => Run.bind_safe ?_ (listen_safe ok)
      rw [checkKeyid, backend]
      exact Run.done_safe ()
  | file =>
      simp only [reduceCtorEq, false_imp_iff, true_imp_iff, init1]
      by_cases loaded : env.fileModule = true
      · rw [if_pos loaded, Run.done_bind]
        refine (Run.bind_rest_safe_iff (listen_safe ok)).trans ?_
        rw [checkKeyid_safe ok backend]
        exact (and_iff_right loaded).symm
      · rw [if_neg loaded]
        exact iff_of_false (fun safe => safe rfl) fun both => loaded both.1

theorem startup_safe : startup env ≠ .fault := by
  exact Run.bind_safe (Run.require_safe _) fun _ =>
    Run.bind_safe (Run.require_safe _) fun _ => Run.require_safe _

theorem defaultFile_safe : defaultFile env vars ≠ .fault := by
  rw [defaultFile]
  split
  · exact Run.bind_safe (Run.require_safe _) fun _ =>
      Run.bind_safe (Run.require_safe _) fun _ => Run.done_safe _
  · exact Run.done_safe vars

/-- Every call, up to an error in the text, finds the variables in a state that it is careful
in, and so does what is done after a file without an error. -/
structure FileCareful (env : ConfigEnv) (calls : List Action × Bool) : Prop where
  each : Schedule.Along (fun vars a => Settings.finished (configStep env vars a)) (Careful env)
    ConfigVars.init calls.1
  finish : ∀ vars, readActions env calls = .done vars → FinishCareful env vars

theorem execute_ok (bounded : AccessBounded env) {actions : List Action}
    (run : execute (configStep env) ConfigVars.init actions = .done vars) : VarsOk env vars :=
  Settings.execute_invariant (VarsOk env) (fun _ _ _ ok done => configStep_ok bounded ok done)
    varsOk_init run

theorem defaultFile_ok (ok : VarsOk env vars) (done : defaultFile env vars = .done next) :
    VarsOk env next := by
  rw [defaultFile] at done
  split at done
  · obtain ⟨_, -, done⟩ := Run.bind_eq_done done
    obtain ⟨_, -, same⟩ := Run.bind_eq_done done
    cases same
    exact ⟨ok.good, ok.size, ok.slots⟩
  · cases done
    exact ok

theorem readActions_safe (bounded : AccessBounded env) {calls : List Action × Bool} :
    readActions env calls ≠ .fault ↔ (startup env = .done () →
      Schedule.Along (fun vars a => Settings.finished (configStep env vars a)) (Careful env)
        ConfigVars.init calls.1) := by
  have made : execute (configStep env) ConfigVars.init calls.1 ≠ .fault ↔ _ :=
    Settings.execute_safe_iff (VarsOk env) (fun _ _ _ ok done => configStep_ok bounded ok done)
      (fun _ a ok => configStep_safe bounded ok a) varsOk_init
  have rest : ∀ vars, (Run.require (calls.2 = true) >>= fun _ => defaultFile env vars) ≠ .fault :=
    fun _ => Run.bind_safe (Run.require_safe _) fun _ => defaultFile_safe
  rw [← made, readActions, Run.bind_safe_iff, and_iff_right startup_safe]
  constructor
  · intro all started
    exact (Run.bind_rest_safe_iff rest).mp (all () started)
  · intro safe _ started
    exact (Run.bind_rest_safe_iff rest).mpr (safe started)

theorem readActions_ok (bounded : AccessBounded env) {calls : List Action × Bool}
    (read : readActions env calls = .done vars) : VarsOk env vars := by
  obtain ⟨_, -, read⟩ := Run.bind_eq_done read
  obtain ⟨_, run, read⟩ := Run.bind_eq_done read
  obtain ⟨_, -, default⟩ := Run.bind_eq_done read
  exact defaultFile_ok (execute_ok bounded run) default

end Calls

/-- Reading a configuration file, with a syntax error or without, touches no memory that is
not there exactly when no port is too long for the URL, no key misses the table and, at the
end of a file that is accepted, the file backend is loaded and finds its key. -/
theorem config_memory (env : ConfigEnv) (bounded : AccessBounded env) (text : List Byte) :
    configInit env text ≠ .fault ↔ (startup env = .done () → FileCareful env (configCalls text)) := by
  have finish : ∀ vars, readActions env (configCalls text) = .done vars →
      ((finishConfig env vars >>= fun gsmds =>
        (return ⟨vars.config, vars, gsmds⟩ : Run Configuration)) ≠ .fault ↔
          FinishCareful env vars) := by
    intro vars read
    exact (Run.bind_rest_safe_iff fun _ => Run.done_safe _).trans
      (finishConfig_safe (readActions_ok bounded read))
  rw [configInit, Run.bind_safe_iff, readActions_safe bounded]
  constructor
  · intro both started
    exact ⟨both.1 started, fun vars read => (finish vars read).mp (both.2 vars read)⟩
  · intro careful
    refine ⟨fun started => (careful started).each, ?_⟩
    intro vars read
    obtain ⟨_, started, -⟩ := Run.bind_eq_done read
    exact (finish vars read).mpr ((careful started).finish vars read)

/-- A key id that leaves a gap behind the table, and no last brace. -/
def gapText : List Byte :=
  ascii "otpd\x7bpasswdkey\x7bid=0 key='00'\x7dpasswdkey\x7bid=2 key='00'\x7d"

/-- The key is stored before the missing brace is noticed. -/
theorem config_memory_gap :
    configActions gapText = none ∧ configInit fullEnv gapText = .fault ∧
      ¬ FileCareful fullEnv (configCalls gapText) := by
  have calls : configCalls gapText = ([.setPasswdKeyid 0, .setPasswdKey (ascii "00"), .finishKey,
      .setPasswdKeyid 2, .setPasswdKey (ascii "00"), .finishKey], false) := by
    decide +kernel
  have bounded : AccessBounded fullEnv := fun path found => of_decide_eq_true found
  have fault : configInit fullEnv gapText = .fault := by
    rw [configInit, calls]
    rfl
  refine ⟨by decide +kernel, fault, ?_⟩
  intro careful
  exact (config_memory fullEnv bounded gapText).mpr (fun _ => careful) fault

end Otpd.ConfigFile

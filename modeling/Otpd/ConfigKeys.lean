import Otpd.ConfigMemory

/-!
# Keys of the configuration file

The table of keys that `verify` decrypts with, and the `passwdkey` sections of the file.
The sections are those of `KeyTable`, so that what is proved about a file of sections holds
of the text of a configuration file.
-/

set_option autoImplicit false

namespace Otpd.ConfigFile

open CMem
open Cells (Run)
open Settings (execute)

/-! ## Sections for keys -/

/-- The items of the section that is open, and those of the sections before it. -/
structure KeyItems where
  opened : List KeyItem := []
  sections : List (List KeyItem) := []

def KeyItems.add (items : KeyItems) : Action → KeyItems
  | .setPasswdKeyid arg => { items with opened := items.opened ++ [.keyid arg.toNatClampNeg] }
  | .setPasswdKey arg => { items with opened := items.opened ++ [.key arg] }
  | .finishKey => ⟨[], items.sections ++ [items.opened]⟩
  | _ => items

def keySections (actions : List Action) : List (List KeyItem) :=
  (actions.foldl KeyItems.add {}).sections

/-- The id and the key that a section gives; `none` when one is missing or is not right. -/
def sectionKey (items : List KeyItem) : Option (Nat × List Byte) :=
  (Schedule.run setKeyItem {} items).bind fun seen =>
    seen.keyid.bind fun keyid => seen.key.map fun key => (keyid, key)

/-- The table has the keys of the sections under their ids, and no others. -/
structure KeysRead (sections : List (List KeyItem)) (table : List (Option (List Byte))) : Prop where
  complete : ∀ items ∈ sections, (sectionKey items).isSome = true
  entry : ∀ (id : Nat) (key : List Byte), table[id]? = some (some key) ↔
    some (id, key) ∈ sections.map sectionKey

/-! ## The table follows the sections -/

/-- The run of the sections that are finished, and the options of the one that is open. -/
structure KeyFollows (items : KeyItems) (vars : ConfigVars) (sections : List KeySection)
    (r : KeyRun) : Prop where
  opened : Schedule.run setKeyItem {} items.opened =
    some ⟨vars.passwdKeyid.map Int32.toNatClampNeg, vars.passwdKey⟩
  same : sections.map KeySection.items = items.sections
  run : Schedule.run keyStep KeyRun.start sections = some r
  table : r.table = vars.key
  given : r.given = sections.map fun e => (e.keyid, e.key)
  kept : TableKept r

section Steps

variable {env : ConfigEnv} {vars next : ConfigVars} {items : KeyItems}
  {sections : List KeySection} {r : KeyRun}

theorem keyFollows_init : KeyFollows {} ConfigVars.init [] KeyRun.start where
  opened := rfl
  same := rfl
  run := rfl
  table := rfl
  given := rfl
  kept := by
    refine ⟨?_, rfl, ?_, .inl ⟨rfl, rfl⟩, ?_, ?_⟩
    · intro write member
      cases member
    · intro given member
      cases member
    · intro id key
      simp [KeyRun.start]
    · intro id within
      cases within

theorem KeyFollows.keyid (follows : KeyFollows items vars sections r) (arg : Int32) :
    KeyFollows { items with opened := items.opened ++ [.keyid arg.toNatClampNeg] }
      (setPasswdKeyid vars arg) sections r := by
  refine ⟨Schedule.run_snoc follows.opened ?_, follows.same, follows.run, follows.table, follows.given,
    follows.kept⟩
  rw [setKeyItem, Otpd.setPasswdKeyid, setPasswdKeyid, Option.map_or]
  rfl

theorem KeyFollows.key (follows : KeyFollows items vars sections r) {arg : List Byte}
    (done : setPasswdKey vars arg = .done next) :
    KeyFollows { items with opened := items.opened ++ [.key arg] } next sections r := by
  obtain ⟨seen, found, same⟩ := Run.bind_eq_done done
  cases same
  refine ⟨Schedule.run_snoc follows.opened ?_, follows.same, follows.run, follows.table, follows.given,
    follows.kept⟩
  have found := Run.ofOption_eq_done found
  rw [Otpd.setPasswdKey] at found
  rw [setKeyItem, Otpd.setPasswdKey]
  split_ifs at found ⊢ with set odd
  · cases found
    rfl
  · obtain ⟨key, valid, same⟩ := Option.map_eq_some_iff.mp found
    cases same
    rw [valid]
    rfl

theorem KeyFollows.finish (follows : KeyFollows items vars sections r)
    (done : finishKey env vars = .done next) : ∃ sections' r',
      KeyFollows ⟨[], items.sections ++ [items.opened]⟩ next sections' r' := by
  obtain ⟨id, key, writes, isId, isKey, small, stored, inside, rest⟩ := finishKey_done done
  have complete : Schedule.run setKeyItem {} items.opened =
      some ⟨some id.toNatClampNeg, some key⟩ := by
    rw [follows.opened, isId, isKey]
    rfl
  rw [← follows.table] at stored
  let e : KeySection := ⟨items.opened, env.fresh r.table, id.toNatClampNeg, key, complete, small⟩
  have step := keyStep_stored (e := e) stored
  have noGap : LeavesNoGap r e := (storeKey_stored follows.kept.size stored).inside.mp inside
  exact ⟨sections ++ [e], _, {
    opened := by
      rw [rest]
      rfl
    same := by
      rw [List.map_append, follows.same]
      rfl
    run := Schedule.run_snoc follows.run step
    table := rfl
    given := by
      rw [follows.given, List.map_append]
      rfl
    kept := (noGap.section_kept follows.kept).kept _ step }⟩

/-- A call that is not for a key. -/
theorem KeyFollows.other {a : Action} (follows : KeyFollows items vars sections r)
    (done : configStep env vars a = .done next) (notKey : sectionOf a ≠ some .key)
    (notFinished : a ≠ .finishKey) : KeyFollows items next sections r := by
  have frame := configStep_frame done
  obtain ⟨keyid, key⟩ := frame.passwd notKey notFinished
  exact ⟨by rw [keyid, key]; exact follows.opened, follows.same, follows.run,
    by rw [frame.key notFinished]; exact follows.table, follows.given, follows.kept⟩

theorem configStep_keyFollows {a : Action} (follows : KeyFollows items vars sections r)
    (done : configStep env vars a = .done next) :
    ∃ sections' r', KeyFollows (items.add a) next sections' r' := by
  cases a with
  | setPasswdKeyid arg =>
      cases done
      exact ⟨sections, r, follows.keyid arg⟩
  | setPasswdKey arg => exact ⟨sections, r, follows.key done⟩
  | finishKey => exact follows.finish done
  | _ => exact ⟨sections, r, follows.other done (fun wrong => by cases wrong)
      fun wrong => by cases wrong⟩

theorem execute_keyFollows {actions : List Action} (follows : KeyFollows items vars sections r)
    (run : execute (configStep env) vars actions = .done next) :
    ∃ sections' r', KeyFollows (actions.foldl KeyItems.add items) next sections' r' := by
  induction actions generalizing items vars sections r with
  | nil =>
      cases run
      exact ⟨sections, r, follows⟩
  | cons a actions ih =>
      obtain ⟨middle, first, rest⟩ := Settings.execute_cons run
      obtain ⟨sections', r', follows'⟩ := configStep_keyFollows follows first
      exact ih follows' rest

theorem sectionKey_items (e : KeySection) : sectionKey e.items = some (e.keyid, e.key) := by
  rw [sectionKey, e.complete]
  rfl

theorem KeyFollows.read (follows : KeyFollows items vars sections r) :
    KeysRead items.sections (vars.key.key.map KeySlot.key?) := by
  refine ⟨?_, ?_⟩
  · intro items' member
    rw [← follows.same] at member
    obtain ⟨e, -, rfl⟩ := List.mem_map.mp member
    rw [sectionKey_items]
    rfl
  · intro id key
    have given : some (id, key) ∈ items.sections.map sectionKey ↔ (id, key) ∈ r.given := by
      rw [← follows.same, follows.given, List.map_map]
      simp [sectionKey_items]
    rw [given, ← follows.kept.entry id key, follows.table, List.getElem?_map]
    cases vars.key.key[id]? with
    | none => simp
    | some slot => cases slot <;> simp [KeySlot.key?]

end Steps

/-- The keys that `verify` decrypts with are those of the `passwdkey` sections. -/
theorem config_keys (env : ConfigEnv) (text : List Byte) (actions : List Action)
    (parsed : configActions text = some actions) (c : Configuration)
    (returned : configInit env text = .done c) : KeysRead (keySections actions) c.config.key := by
  obtain ⟨vars, done⟩ := configInit_done parsed returned
  obtain ⟨sections, r, follows⟩ := execute_keyFollows keyFollows_init done.run
  have same : c.config.key = vars.key.key.map KeySlot.key? := by
    rw [done.config, defaultFile_rest done.default]
    rfl
  rw [same]
  exact follows.read

/-- Three keys, the last one first and its key before its id, and none under 1. -/
def keysText : List Byte :=
  ascii "otpd\x7bpasswdkey\x7bkey='02'id=2\x7dpasswdkey\x7bid=0 key='00'\x7d" ++
    ascii "passwdkey\x7bid=3 key='03'\x7d\x7d"

theorem config_keys_unsorted :
    ∃ c, configInit fullEnv keysText = .done c ∧ c.config.key[0]? = some (some [0]) ∧
      c.config.key[2]? = some (some [2]) ∧ c.config.key[3]? = some (some [3]) ∧
      ∀ key, c.config.key[1]? ≠ some (some key) := by
  have calls : configCalls keysText = ([.setPasswdKey (ascii "02"), .setPasswdKeyid 2, .finishKey,
      .setPasswdKeyid 0, .setPasswdKey (ascii "00"), .finishKey, .setPasswdKeyid 3,
      .setPasswdKey (ascii "03"), .finishKey], true) := by
    decide +kernel
  obtain ⟨c, returned⟩ : ∃ c, configInit fullEnv keysText = .done c := by
    rw [configInit, calls]
    exact ⟨_, rfl⟩
  have read := config_keys fullEnv keysText _ ((configCalls_iff _ _).mp calls) c returned
  refine ⟨c, returned, (read.entry 0 [0]).mpr (by decide), (read.entry 2 [2]).mpr (by decide),
    (read.entry 3 [3]).mpr (by decide), ?_⟩
  intro key found
  have given := (read.entry 1 key).mp found
  have others : ∀ entry ∈ (keySections [.setPasswdKey (ascii "02"), .setPasswdKeyid 2, .finishKey,
      .setPasswdKeyid 0, .setPasswdKey (ascii "00"), .finishKey, .setPasswdKeyid 3,
      .setPasswdKey (ascii "03"), .finishKey]).map sectionKey, entry.map Prod.fst ≠ some 1 := by
    decide
  exact others _ given rfl

end Otpd.ConfigFile

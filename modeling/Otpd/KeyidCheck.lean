import Otpd.KeyTable
import Otpd.PasswdRecord

/-!
# The key of the password file

With the file backend all users share one `passwdkey`.  `finish_config` looks it up in the
table of keys, by an id that was compared with 127 but not with the size of the table.
-/

set_option autoImplicit false

namespace Otpd

open CMem

/-! ## `encrypt` in the file section -/

/-- The first option counts; `none` is `exit(1)`. -/
def setFileEncrypt (seen : Option FileConfig) (arg : EncryptMode × Nat) :
    Option (Option FileConfig) :=
  if seen.isSome then some seen
  else if arg.2 > 127 then none
  else some (some ⟨arg.1, arg.2⟩)

/-- `config.file` after the `encrypt` options of the file. -/
def fileEncrypt (options : List (EncryptMode × Nat)) : Option FileConfig :=
  (Schedule.run setFileEncrypt none options).map fun seen => seen.getD ⟨.clear, 0⟩

/-! ## `finish_config` -/

/-- Whether the check passes, and the slot it reads; `behind` is what lies at and beyond
the end of the table. -/
def finishConfigKeyid (behind : Nat → KeySlot) (table : KeyTable) (file : FileConfig) :
    Bool × Option Nat :=
  if file.encryptmode = .keyid then
    if table.key = [] then (false, none)
    else
      ((if file.keyid < table.key.length then table.key.getD file.keyid .null
        else behind file.keyid) ≠ .null, some file.keyid)
  else (true, none)

/-- Accepted exactly with a section for the id, without a read beyond the table, and then
good for every user of the file. -/
structure KeyidChecked (behind : Nat → KeySlot) (s : KeyRun) (file : FileConfig) : Prop where
  accepts : (finishConfigKeyid behind s.table file).1 = true ↔
    ∃ key, (file.keyid, key) ∈ s.given
  inside : ∀ i, (finishConfigKeyid behind s.table file).2 = some i → i < s.table.nkeys
  found : (finishConfigKeyid behind s.table file).1 = true →
    ∀ passwd username user, fileGet file passwd username = .found user →
      ∃ key, (file.keyid, key) ∈ s.given ∧
        s.table.key[user.keyid]? = some (.entry key) ∧
        ∀ config undef, config.key = s.table.key.map KeySlot.key? →
          passwdKey config undef user.keyid = key

/-- The section leaves slot `k` in a gap, with something other than NULL in it. -/
def LeavesDirty (s : KeyRun) (e : KeySection) (k : Nat) : Prop :=
  s.table.key ≠ [] ∧ s.table.nkeys ≤ k ∧ k < e.keyid ∧ e.fresh k ≠ .null

theorem setFileEncrypt_seen (file : FileConfig) (options : List (EncryptMode × Nat)) :
    Schedule.run setFileEncrypt (some file) options = some (some file) := by
  induction options with
  | nil => rfl
  | cons option options ih => exact ih

theorem fileEncrypt_first {mode : EncryptMode} {k : Nat} {options : List (EncryptMode × Nat)}
    {file : FileConfig} (configured : fileEncrypt ((mode, k) :: options) = some file) :
    file = ⟨mode, k⟩ ∧ k ≤ 127 := by
  rw [fileEncrypt, Schedule.run, setFileEncrypt, if_neg (by simp)] at configured
  by_cases large : k > 127
  · rw [if_pos large] at configured
    cases configured
  · rw [if_neg large, Option.bind_some, setFileEncrypt_seen] at configured
    cases configured
    exact ⟨rfl, Nat.not_lt.mp large⟩

theorem fileGet_keyid {file : FileConfig} {passwd : PasswdFile} {username : Username} {user : User}
    (found : fileGet file passwd username = .found user) : user.keyid = file.keyid := by
  unfold fileGet at found
  dsimp only at found
  split at found
  · cases found
  · split at found
    · split at found
      · cases found
      · cases found
    · obtain ⟨card, key, pin, -, -, rfl⟩ := (fileParse_found_iff file _ user).mp found
      rfl

/-! ## One section, gap or no gap -/

/-- What holds of the table after any sections. -/
structure TableGrown (s : KeyRun) : Prop where
  size : s.table.key.length = s.table.nkeys
  above : ∀ given ∈ s.given, given.1 < s.table.nkeys
  stored : ∀ id key, (id, key) ∈ s.given → s.table.key[id]? = some (.entry key)

/-- What one section does to the table. -/
structure SectionStored (s next : KeyRun) (e : KeySection) : Prop where
  given : next.given = s.given ++ [(e.keyid, e.key)]
  nkeys : next.table.nkeys = max s.table.nkeys (e.keyid + 1)
  size : next.table.key.length = next.table.nkeys
  free : e.keyid < s.table.nkeys → s.table.key[e.keyid]? = some .null
  here : next.table.key[e.keyid]? = some (.entry e.key)
  old : ∀ i < s.table.nkeys, i ≠ e.keyid → next.table.key[i]? = s.table.key[i]?
  gap : ∀ i, s.table.nkeys ≤ i → i < e.keyid →
    next.table.key[i]? = some (if s.table.key = [] then .null else e.fresh i)

section Step

variable {s next : KeyRun} {e : KeySection} {k : Nat}

theorem keyStep_section (grown : TableGrown s) (step : keyStep s e = some next) :
    SectionStored s next e := by
  rw [keyStep_eq] at step
  obtain ⟨done, stored, rfl⟩ := Option.map_eq_some_iff.mp step
  rw [storeKey] at stored
  obtain ⟨nkeys, size⟩ := growTable_size e.fresh e.keyid grown.size
  have slot := growTable_slot e.fresh e.keyid grown.size
  generalize growTable e.fresh s.table e.keyid = result at stored nkeys size slot
  obtain ⟨table, writes⟩ := result
  dsimp only at stored nkeys size slot
  split at stored
  · cases stored
  · rename_i free
    cases stored
    have within : e.keyid < table.key.length := by
      rw [size]
      omega
    refine ⟨rfl, nkeys, ?_, ?_, ?_, ?_, ?_⟩
    · show (table.key.set e.keyid _).length = table.nkeys
      rw [List.length_set, size, nkeys]
    · intro old
      have same := slot e.keyid
      rw [if_pos old] at same
      rw [← same]
      rw [List.getD_eq_getElem?_getD, List.getElem?_eq_getElem within, Option.getD_some,
        not_not] at free
      rw [List.getElem?_eq_getElem within, free]
    · exact List.getElem?_set_self within
    · intro i old other
      show (table.key.set e.keyid _)[i]? = _
      rw [List.getElem?_set_ne (Ne.symm other), slot i, if_pos old]
    · intro i beyond below
      show (table.key.set e.keyid _)[i]? = _
      rw [List.getElem?_set_ne (by omega), slot i, if_neg (by omega), if_pos below]

theorem TableGrown.step (grown : TableGrown s) (stored : SectionStored s next e) :
    TableGrown next where
  size := stored.size
  above := by
    intro given member
    rw [stored.given] at member
    rw [stored.nkeys]
    rcases List.mem_append.mp member with old | new
    · have := grown.above given old
      omega
    · rw [List.mem_singleton.mp new]
      omega
  stored := by
    intro id key member
    rw [stored.given] at member
    rcases List.mem_append.mp member with before | new
    · have slot := grown.stored id key before
      have other : id ≠ e.keyid := by
        rintro rfl
        have within : e.keyid < s.table.nkeys := grown.above _ before
        rw [stored.free within] at slot
        cases slot
      rw [stored.old id (grown.above _ before) other]
      exact slot
    · cases List.mem_singleton.mp new
      exact stored.here

/-- Slot `k` is what it should be without a section for it, unless it has one. -/
def SlotSound (s : KeyRun) (k : Nat) : Prop :=
  s.table.key[k]? = some .null ∨ ∃ key, (k, key) ∈ s.given

theorem SectionStored.given_other (stored : SectionStored s next e) (other : k ≠ e.keyid) :
    (∃ key, (k, key) ∈ next.given) ↔ ∃ key, (k, key) ∈ s.given := by
  rw [stored.given]
  simp [other]

/-- A slot goes bad in one way. -/
theorem SectionStored.sound_iff (stored : SectionStored s next e) (grown : TableGrown s) :
    (k < next.table.nkeys → SlotSound next k) ↔
      (k < s.table.nkeys → SlotSound s k) ∧ ¬ LeavesDirty s e k := by
  rw [stored.nkeys]
  by_cases same : k = e.keyid
  · subst same
    refine iff_of_true (fun _ => Or.inr ⟨e.key, ?_⟩) ⟨fun old => Or.inl (stored.free old), ?_⟩
    · rw [stored.given]
      exact List.mem_append_right _ (List.mem_singleton_self _)
    · rintro ⟨-, -, below, -⟩
      exact Nat.lt_irrefl _ below
  · rw [SlotSound, stored.given_other same]
    by_cases old : k < s.table.nkeys
    · rw [stored.old k old same]
      constructor
      · intro sound
        refine ⟨fun _ => sound (by omega), ?_⟩
        rintro ⟨-, beyond, -⟩
        exact Nat.not_le.mpr old beyond
      · rintro ⟨sound, -⟩ -
        exact sound old
    · have notGiven : ¬ ∃ key, (k, key) ∈ s.given := by
        rintro ⟨key, given⟩
        exact old (grown.above _ given)
      by_cases below : k < e.keyid
      · rw [stored.gap k (Nat.not_lt.mp old) below]
        by_cases first : s.table.key = []
        · refine iff_of_true (fun _ => Or.inl (by rw [if_pos first]))
            ⟨fun within => absurd within old, ?_⟩
          rintro ⟨set, -⟩
          exact set first
        · rw [if_neg first, Option.some.injEq]
          constructor
          · intro sound
            refine ⟨fun within => absurd within old, ?_⟩
            rintro ⟨-, -, -, dirty⟩
            exact (sound (by omega)).elim dirty notGiven
          · rintro ⟨-, clean⟩ -
            exact Or.inl (by_contra fun dirty => clean ⟨first, Nat.not_lt.mp old, below, dirty⟩)
      · refine iff_of_true (fun within => by omega) ⟨fun within => absurd within old, ?_⟩
        rintro ⟨-, -, inGap, -⟩
        exact below inGap

end Step

/-! ## A whole file -/

section Run

variable {s last : KeyRun} {sections : List KeySection} {k : Nat}

theorem tableGrown_start : TableGrown KeyRun.start := by
  refine ⟨rfl, ?_, ?_⟩
  · intro given member
    cases member
  · intro id key member
    cases member

theorem tableGrown_run (grown : TableGrown s) (reached : Schedule.run keyStep s sections = some last) :
    TableGrown last := by
  have always : Schedule.Along keyStep (fun _ _ => True) s sections :=
    Schedule.along_of_forall fun _ _ => trivial
  refine Schedule.run_invariant TableGrown ?_ grown always reached
  intro s e next grown _ step
  exact grown.step (keyStep_section grown step)

theorem run_nkeys (grown : TableGrown s) (reached : Schedule.run keyStep s sections = some last) :
    k < last.table.nkeys ↔ k < s.table.nkeys ∨ ∃ e ∈ sections, k ≤ e.keyid := by
  induction sections generalizing s with
  | nil =>
      cases Option.some.inj reached
      simp
  | cons e sections ih =>
      obtain ⟨next, step, rest⟩ := Option.bind_eq_some_iff.mp reached
      have stored := keyStep_section grown step
      rw [ih (grown.step stored) rest, stored.nkeys, lt_sup_iff, Nat.lt_succ_iff, or_assoc]
      simp

theorem run_sound (grown : TableGrown s) (reached : Schedule.run keyStep s sections = some last) :
    (k < last.table.nkeys → SlotSound last k) ↔
      (k < s.table.nkeys → SlotSound s k) ∧
        Schedule.Along keyStep (fun s e => ¬ LeavesDirty s e k) s sections := by
  induction sections generalizing s with
  | nil =>
      cases Option.some.inj reached
      simp [Schedule.Along]
  | cons e sections ih =>
      obtain ⟨next, step, rest⟩ := Option.bind_eq_some_iff.mp reached
      have stored := keyStep_section grown step
      rw [ih (grown.step stored) rest, stored.sound_iff grown, Schedule.Along, step, and_assoc]
      simp

end Run

/-! ## The check -/

section Check

variable (behind : Nat → KeySlot) {s : KeyRun} {file : FileConfig}

theorem finishConfigKeyid_empty (byKeyid : file.encryptmode = .keyid) (empty : s.table.key = []) :
    finishConfigKeyid behind s.table file = (false, none) := by
  rw [finishConfigKeyid, if_pos byKeyid, if_pos empty]

theorem finishConfigKeyid_set (byKeyid : file.encryptmode = .keyid) (set : s.table.key ≠ []) :
    finishConfigKeyid behind s.table file =
      (decide ((if file.keyid < s.table.key.length then s.table.key.getD file.keyid .null
        else behind file.keyid) ≠ .null), some file.keyid) := by
  rw [finishConfigKeyid, if_pos byKeyid, if_neg set]

/-- Inside the table the check is as good as the slot. -/
theorem finishConfigKeyid_inside (grown : TableGrown s) (byKeyid : file.encryptmode = .keyid)
    (inside : file.keyid < s.table.nkeys) :
    (finishConfigKeyid behind s.table file).1 = true ↔
      s.table.key[file.keyid]? ≠ some .null := by
  have within : file.keyid < s.table.key.length := by
    rw [grown.size]
    exact inside
  have set : s.table.key ≠ [] := by
    intro empty
    rw [empty] at within
    exact Nat.not_lt_zero _ within
  rw [finishConfigKeyid_set behind byKeyid set, if_pos within, List.getD_eq_getElem?_getD,
    List.getElem?_eq_getElem within, Option.getD_some]
  simp

theorem TableGrown.passwdKey (grown : TableGrown s) {id : Nat} {key : List Byte}
    (given : (id, key) ∈ s.given) {config : Config} {undef : Undef}
    (same : config.key = s.table.key.map KeySlot.key?) : passwdKey config undef id = key := by
  rw [Otpd.passwdKey, same, List.getElem?_map, grown.stored id key given]
  rfl

theorem keyidChecked_empty (grown : TableGrown s) (byKeyid : file.encryptmode = .keyid)
    (empty : s.table.key = []) : KeyidChecked behind s file := by
  have check := finishConfigKeyid_empty behind byKeyid empty
  refine ⟨?_, ?_, ?_⟩
  · rw [check]
    refine iff_of_false Bool.false_ne_true ?_
    rintro ⟨key, given⟩
    have slot := grown.stored _ key given
    rw [empty] at slot
    cases slot
  · rw [check]
    intro i read
    cases read
  · rw [check]
    intro accepted
    cases accepted

theorem keyidChecked_set (grown : TableGrown s) (byKeyid : file.encryptmode = .keyid)
    (set : s.table.key ≠ []) :
    KeyidChecked behind s file ↔ file.keyid < s.table.nkeys ∧ SlotSound s file.keyid := by
  constructor
  · intro checked
    have inside : file.keyid < s.table.nkeys := by
      apply checked.inside
      rw [finishConfigKeyid_set behind byKeyid set]
    refine ⟨inside, ?_⟩
    by_cases null : s.table.key[file.keyid]? = some .null
    · exact Or.inl null
    · exact Or.inr (checked.accepts.mp ((finishConfigKeyid_inside behind grown byKeyid inside).mpr null))
  · rintro ⟨inside, sound⟩
    have accepted := finishConfigKeyid_inside behind grown byKeyid inside
    have accepts : (finishConfigKeyid behind s.table file).1 = true ↔
        ∃ key, (file.keyid, key) ∈ s.given := by
      rw [accepted]
      constructor
      · exact sound.resolve_left
      · rintro ⟨key, given⟩ null
        rw [grown.stored _ key given] at null
        cases null
    refine ⟨accepts, ?_, ?_⟩
    · rw [finishConfigKeyid_set behind byKeyid set]
      intro i read
      cases read
      exact inside
    · intro passes passwd username user found
      obtain ⟨key, given⟩ := accepts.mp passes
      rw [fileGet_keyid found]
      exact ⟨key, given, grown.stored _ key given, fun _ _ same => grown.passwdKey given same⟩

end Check

/-- For the id `k` of the file section: no key at all, or some id as large and no section
that left slot `k` dirty in a gap. -/
theorem keyid_check_iff (sections : List KeySection) (s : KeyRun)
    (reached : Schedule.run keyStep KeyRun.start sections = some s) (k : Nat)
    (options : List (EncryptMode × Nat)) (file : FileConfig)
    (configured : fileEncrypt ((.keyid, k) :: options) = some file) (behind : Nat → KeySlot) :
    KeyidChecked behind s file ↔
      sections = [] ∨ (∃ e ∈ sections, k ≤ e.keyid) ∧
        Schedule.Along keyStep (fun s e => ¬ LeavesDirty s e k) KeyRun.start sections := by
  obtain ⟨rfl, -⟩ := fileEncrypt_first configured
  have grown := tableGrown_run tableGrown_start reached
  have nkeys : k < s.table.nkeys ↔ ∃ e ∈ sections, k ≤ e.keyid := by
    rw [run_nkeys tableGrown_start reached]
    simp [KeyRun.start]
  have sound := run_sound (k := k) tableGrown_start reached
  cases sections with
  | nil =>
      cases Option.some.inj reached
      exact iff_of_true (keyidChecked_empty behind tableGrown_start rfl rfl) (Or.inl rfl)
  | cons e rest =>
      have set : s.table.key ≠ [] := by
        intro empty
        have first : e.keyid < s.table.nkeys := by
          rw [run_nkeys tableGrown_start reached]
          exact Or.inr ⟨e, List.mem_cons_self, Nat.le_refl _⟩
        rw [← grown.size, empty] at first
        exact Nat.not_lt_zero _ first
      rw [keyidChecked_set behind grown rfl set, nkeys]
      simp only [reduceCtorEq, false_or]
      refine and_congr_right fun larger => ?_
      rw [← nkeys] at larger
      simpa [larger, KeyRun.start] using sound

/-- Sections for the ids 0 and 1, and the file asks for 1. -/
theorem keyid_check_second : ∃ s, Schedule.run keyStep KeyRun.start
      [keySection 0 (by decide), keySection 1 (by decide)] = some s ∧
    (finishConfigKeyid (fun _ => .stray) s.table ⟨.keyid, 1⟩).1 = true ∧
    KeyidChecked (fun _ => .stray) s ⟨.keyid, 1⟩ := by
  refine ⟨_, rfl, rfl, (keyid_check_iff [keySection 0 (by decide), keySection 1 (by decide)] _ rfl 1
    [] ⟨.keyid, 1⟩ rfl fun _ => .stray).mpr (Or.inr ⟨?_, ?_⟩)⟩
  · exact ⟨keySection 1 (by decide), List.mem_cons_of_mem _ (List.mem_singleton_self _),
      Nat.le_refl 1⟩
  · refine ⟨?_, ?_⟩
    · rintro ⟨set, -⟩
      exact set rfl
    · intro next _
      refine ⟨?_, fun _ _ => trivial⟩
      rintro ⟨-, -, below, -⟩
      exact Nat.lt_irrefl 1 below

/-- A section for the id 0 only, and the file asks for 5: the check reads slot 5 of a
table of one. -/
theorem keyid_check_beyond : ∃ s, Schedule.run keyStep KeyRun.start [keySection 0 (by decide)] =
      some s ∧
    fileEncrypt [(.keyid, 5)] = some ⟨.keyid, 5⟩ ∧
    finishConfigKeyid (fun _ => .stray) s.table ⟨.keyid, 5⟩ = (true, some 5) ∧
    s.table.nkeys = 1 ∧ (∀ key, (5, key) ∉ s.given) ∧
    ∀ behind, ¬ KeyidChecked behind s ⟨.keyid, 5⟩ := by
  refine ⟨_, rfl, rfl, rfl, rfl, ?_, ?_⟩
  · intro key given
    cases List.mem_singleton.mp given
  · intro behind checked
    have inside : 5 < 1 := checked.inside 5 rfl
    omega

end Otpd

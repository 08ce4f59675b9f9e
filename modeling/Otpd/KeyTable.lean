import Otpd.Lib.Schedule
import Otpd.Records

/-!
# The table of password keys

The `passwdkey` sections of the configuration file, and the table indexed by key id that
`finish_key` grows from one section to the next.
-/

set_option autoImplicit false

namespace Otpd

open CMem

/-! ## A section -/

inductive KeyItem where
  | keyid (arg : Nat)
  | key (arg : List Byte)

/-- `passwd_keyid` and `passwd_key`, once they are seen. -/
structure KeySeen where
  keyid : Option Nat := none
  key : Option (List Byte) := none

def setPasswdKeyid (seen : KeySeen) (arg : Nat) : KeySeen :=
  { seen with keyid := seen.keyid.or (some arg) }

/-- `none` for `exit(1)`, here and below. -/
def setPasswdKey (seen : KeySeen) (arg : List Byte) : Option KeySeen :=
  if seen.key.isSome then some seen
  else if arg.length % 2 = 1 then none
  else (a2nx arg (arg.length / 2)).map fun key => { seen with key := some key }

/-- The `key_config_item` rules. -/
def setKeyItem (seen : KeySeen) : KeyItem → Option KeySeen
  | .keyid arg => some (setPasswdKeyid seen arg)
  | .key arg => setPasswdKey seen arg

/-! ## The table -/

/-- A pointer in the table; `stray` is one that nobody put there. -/
inductive KeySlot where
  | null
  | entry (key : List Byte)
  | stray
  deriving DecidableEq

/-- The key as the users of the table see it. -/
def KeySlot.key? : KeySlot → Option (List Byte)
  | .entry key => some key
  | .null | .stray => none

/-- `config.key`, with no slots for NULL, and `config.nkeys`. -/
structure KeyTable where
  key : List KeySlot
  nkeys : Nat

/-- `count` slots from `first` on, in a block of `size`. -/
structure KeyWrite where
  first : Nat
  count : Nat
  size : Nat

def KeyWrite.Inside (write : KeyWrite) : Prop := write.first + write.count ≤ write.size

/-- Room for `keyid`.  `fresh` is what `realloc` finds behind the old block; the `memset`
for it starts at the new slot. -/
def growTable (fresh : Nat → KeySlot) (table : KeyTable) (keyid : Nat) :
    KeyTable × List KeyWrite :=
  if table.key = [] then
    (⟨List.replicate (keyid + 1) .null, keyid + 1⟩, [⟨0, keyid + 1, keyid + 1⟩])
  else if keyid ≥ table.nkeys then
    let count := keyid + 1 - table.nkeys
    (⟨(List.range (keyid + 1)).map fun i =>
        if keyid ≤ i ∧ i < keyid + count then .null else table.key.getD i (fresh i), keyid + 1⟩,
      [⟨keyid, count, keyid + 1⟩])
  else (table, [])

/-- Store the key unless the slot is taken. -/
def storeKey (fresh : Nat → KeySlot) (table : KeyTable) (keyid : Nat) (key : List Byte) :
    Option (KeyTable × List KeyWrite) :=
  let (grown, writes) := growTable fresh table keyid
  if grown.key.getD keyid .null ≠ .null then none
  else
    some ({ grown with key := grown.key.set keyid (.entry key) },
      writes ++ [⟨keyid, 1, grown.key.length⟩])

def finishKey (fresh : Nat → KeySlot) (table : KeyTable) (seen : KeySeen) :
    Option (KeyTable × List KeyWrite) :=
  match seen.keyid, seen.key with
  | some keyid, some key => if keyid > 127 then none else storeKey fresh table keyid key
  | _, _ => none

/-! ## A file -/

/-- A complete section with an id that is allowed, and the memory behind the table when
it is finished. -/
structure KeySection where
  items : List KeyItem
  fresh : Nat → KeySlot
  keyid : Nat
  key : List Byte
  complete : Schedule.run setKeyItem {} items = some ⟨some keyid, some key⟩
  allowed : keyid ≤ 127

/-- The table, the writes made and the sections given so far. -/
structure KeyRun where
  table : KeyTable
  writes : List KeyWrite
  given : List (Nat × List Byte)

def KeyRun.start : KeyRun := ⟨⟨[], 0⟩, [], []⟩

/-- A `passwdkey` section, to its end. -/
def keyStep (s : KeyRun) (e : KeySection) : Option KeyRun :=
  (Schedule.run setKeyItem {} e.items).bind fun seen =>
    (finishKey e.fresh s.table seen).map fun done =>
      ⟨done.1, s.writes ++ done.2, s.given ++ [(e.keyid, e.key)]⟩

structure TableKept (s : KeyRun) : Prop where
  inside : ∀ write ∈ s.writes, write.Inside
  size : s.table.key.length = s.table.nkeys
  above : ∀ given ∈ s.given, given.1 < s.table.nkeys
  largest : s.given = [] ∧ s.table.nkeys = 0 ∨ ∃ given ∈ s.given, s.table.nkeys = given.1 + 1
  entry : ∀ id key, s.table.key[id]? = some (.entry key) ↔ (id, key) ∈ s.given
  unset : ∀ id < s.table.nkeys, s.table.key[id]? = some .null ↔ ∀ key, (id, key) ∉ s.given

/-- A section is refused for an id that was given before, and for nothing else, and the
table stays right. -/
structure SectionKept (s : KeyRun) (e : KeySection) : Prop where
  refused : keyStep s e = none ↔ ∃ key, (e.keyid, key) ∈ s.given
  kept : ∀ next, keyStep s e = some next → TableKept next

/-- The first section, or an id that leaves no gap behind the largest so far. -/
def LeavesNoGap (s : KeyRun) (e : KeySection) : Prop :=
  s.table.key = [] ∨ e.keyid ≤ s.table.nkeys

section Table

variable {s next : KeyRun} {e : KeySection} {table : KeyTable} {fresh : Nat → KeySlot}
  {keyid : Nat} {key : List Byte}

theorem keyStep_eq :
    keyStep s e = (storeKey e.fresh s.table e.keyid e.key).map fun done =>
      ⟨done.1, s.writes ++ done.2, s.given ++ [(e.keyid, e.key)]⟩ := by
  rw [keyStep, e.complete, Option.bind_some]
  simp only [finishKey]
  rw [if_neg (Nat.not_lt.mpr e.allowed)]

theorem keyStep_stored {done : KeyTable × List KeyWrite}
    (stored : storeKey e.fresh s.table e.keyid e.key = some done) :
    keyStep s e = some ⟨done.1, s.writes ++ done.2, s.given ++ [(e.keyid, e.key)]⟩ := by
  rw [keyStep_eq, stored, Option.map_some]

theorem growTable_size (fresh : Nat → KeySlot) (keyid : Nat) (size : table.key.length = table.nkeys) :
    (growTable fresh table keyid).1.nkeys = max table.nkeys (keyid + 1) ∧
      (growTable fresh table keyid).1.key.length = max table.nkeys (keyid + 1) := by
  rw [growTable]
  split
  · rename_i empty
    have none : table.nkeys = 0 := by
      rw [← size, empty, List.length_nil]
    simp [none]
  · split
    · rename_i beyond
      dsimp only
      rw [List.length_map, List.length_range]
      omega
    · rename_i within
      dsimp only
      omega

/-- The slots after the growth; those of a gap hold what was behind the table. -/
theorem growTable_slot (fresh : Nat → KeySlot) (keyid : Nat)
    (size : table.key.length = table.nkeys) (i : Nat) :
    (growTable fresh table keyid).1.key[i]? =
      if i < table.nkeys then table.key[i]?
      else if i < keyid then some (if table.key = [] then .null else fresh i)
      else if i = keyid then some .null
      else none := by
  rw [growTable]
  split
  · rename_i empty
    have none : table.nkeys = 0 := by
      rw [← size, empty, List.length_nil]
    rw [none, if_neg (Nat.not_lt_zero i), List.getElem?_replicate]
    by_cases below : i < keyid
    · rw [if_pos below, if_pos (by omega)]
    · rw [if_neg below]
      by_cases same : i = keyid
      · rw [if_pos same, if_pos (by omega)]
      · rw [if_neg same, if_neg (by omega)]
  · split
    · rename_i beyond
      dsimp only
      rw [List.getElem?_map]
      by_cases old : i < table.nkeys
      · rw [if_pos old, List.getElem?_range (by omega), Option.map_some, if_neg (by omega),
          List.getD_eq_getElem?_getD, List.getElem?_eq_getElem (by omega), Option.getD_some]
      · rw [if_neg old]
        by_cases below : i < keyid
        · rw [if_pos below, List.getElem?_range (by omega), Option.map_some, if_neg (by omega),
            List.getD_eq_getElem?_getD, List.getElem?_eq_none (by omega), Option.getD_none]
        · rw [if_neg below]
          by_cases same : i = keyid
          · rw [if_pos same, List.getElem?_range (by omega), Option.map_some, if_pos (by omega)]
          · rw [if_neg same, List.getElem?_eq_none (by rw [List.length_range]; omega),
              Option.map_none]
    · rename_i within
      dsimp only
      by_cases old : i < table.nkeys
      · rw [if_pos old]
      · rw [if_neg old, if_neg (by omega), if_neg (by omega), List.getElem?_eq_none (by omega)]

theorem storeKey_null (cleared : (growTable fresh table keyid).1.key.getD keyid .null = .null) :
    storeKey fresh table keyid key =
      some (⟨(growTable fresh table keyid).1.key.set keyid (.entry key),
          (growTable fresh table keyid).1.nkeys⟩,
        (growTable fresh table keyid).2 ++
          [⟨keyid, 1, (growTable fresh table keyid).1.key.length⟩]) := by
  rw [storeKey]
  exact if_neg (not_not.mpr cleared)

/-- A larger id clears slots behind the block. -/
theorem storeKey_gap (set : table.key ≠ []) (gap : table.nkeys < keyid) :
    ∃ done, storeKey fresh table keyid key = some done ∧ ∃ write ∈ done.2, ¬ write.Inside := by
  have beyond : keyid ≥ table.nkeys := Nat.le_of_lt gap
  have grown : growTable fresh table keyid =
      (⟨(List.range (keyid + 1)).map fun i =>
          if keyid ≤ i ∧ i < keyid + (keyid + 1 - table.nkeys) then .null
          else table.key.getD i (fresh i), keyid + 1⟩,
        [⟨keyid, keyid + 1 - table.nkeys, keyid + 1⟩]) := by
    rw [growTable, if_neg set, if_pos beyond]
  have cleared : (growTable fresh table keyid).1.key.getD keyid .null = .null := by
    rw [grown, List.getD_eq_getElem?_getD, List.getElem?_map, List.getElem?_range (by omega),
      Option.map_some, if_pos (by omega), Option.getD_some]
  refine ⟨_, storeKey_null cleared, ⟨keyid, keyid + 1 - table.nkeys, keyid + 1⟩, ?_, ?_⟩
  · rw [grown]
    exact List.mem_append_left _ (List.mem_singleton_self _)
  · simp only [KeyWrite.Inside]
    omega

/-- The slots after the growth, when the new ones are cleared. -/
def grownSlots (table : KeyTable) (keyid : Nat) : List KeySlot :=
  table.key ++ List.replicate (keyid + 1 - table.nkeys) .null

theorem grownSlots_length (size : table.key.length = table.nkeys) :
    (grownSlots table keyid).length = max table.nkeys (keyid + 1) := by
  rw [grownSlots, List.length_append, List.length_replicate, size]
  omega

theorem grownSlots_get (size : table.key.length = table.nkeys) (i : Nat) :
    (grownSlots table keyid)[i]? =
      if i < table.nkeys then table.key[i]?
      else if i < keyid + 1 then some .null
      else none := by
  rw [grownSlots, List.getElem?_append, size]
  split
  · rfl
  · rename_i beyond
    rw [List.getElem?_replicate]
    split
    · rw [if_pos (by omega)]
    · rw [if_neg (by omega)]

/-- Without a gap the new slots are all cleared, inside the new block. -/
theorem growTable_fits (size : table.key.length = table.nkeys)
    (fits : table.key = [] ∨ keyid ≤ table.nkeys) :
    (growTable fresh table keyid).1 =
        ⟨grownSlots table keyid, max table.nkeys (keyid + 1)⟩ ∧
      ∀ write ∈ (growTable fresh table keyid).2, write.Inside := by
  constructor
  · have slots : (growTable fresh table keyid).1.key = grownSlots table keyid := by
      apply List.ext_getElem?
      intro i
      rw [growTable_slot fresh keyid size, grownSlots_get size]
      by_cases old : i < table.nkeys
      · rw [if_pos old, if_pos old]
      · rw [if_neg old, if_neg old]
        by_cases below : i < keyid
        · have first : table.key = [] := fits.resolve_right (by omega)
          rw [if_pos below, if_pos first, if_pos (by omega)]
        · rw [if_neg below]
          by_cases same : i = keyid
          · rw [if_pos same, if_pos (by omega)]
          · rw [if_neg same, if_neg (by omega)]
    rw [← slots, ← (growTable_size fresh keyid size).1]
  · rw [growTable]
    split
    · simp only [List.mem_singleton, forall_eq, KeyWrite.Inside]
      omega
    · rename_i set
      have within := fits.resolve_left set
      split
      · simp only [List.mem_singleton, forall_eq, KeyWrite.Inside]
        omega
      · intro write inside
        cases inside

/-- With the new slots cleared, an empty slot takes the key. -/
theorem storeKey_fits (size : table.key.length = table.nkeys)
    (fits : table.key = [] ∨ keyid ≤ table.nkeys) (empty : table.key.getD keyid .null = .null) :
    ∃ writes, storeKey fresh table keyid key =
        some (⟨(grownSlots table keyid).set keyid (.entry key), max table.nkeys (keyid + 1)⟩,
          writes) ∧
      ∀ write ∈ writes, write.Inside := by
  obtain ⟨grown, inside⟩ : (growTable fresh table keyid).1 = _ ∧ _ := growTable_fits size fits
  have cleared : (growTable fresh table keyid).1.key.getD keyid .null = .null := by
    rw [grown, List.getD_eq_getElem?_getD, grownSlots_get size]
    rw [List.getD_eq_getElem?_getD] at empty
    split
    · exact empty
    · rw [if_pos (Nat.lt_succ_self keyid)]
      rfl
  refine ⟨_, by rw [storeKey_null cleared, grown], ?_⟩
  intro write member
  rcases List.mem_append.mp member with old | new
  · exact inside write old
  · rw [List.mem_singleton.mp new, KeyWrite.Inside]
    show keyid + 1 ≤ (grownSlots table keyid).length
    rw [grownSlots_length size]
    omega

theorem storeKey_taken (size : table.key.length = table.nkeys)
    (taken : table.key.getD keyid .null ≠ .null) : storeKey fresh table keyid key = none := by
  have within : keyid < table.nkeys := by
    by_contra beyond
    rw [List.getD_eq_getElem?_getD, List.getElem?_eq_none (by omega)] at taken
    exact taken rfl
  have set : table.key ≠ [] := by
    intro empty
    rw [empty, List.length_nil] at size
    omega
  have grown : growTable fresh table keyid = (table, []) := by
    rw [growTable, if_neg set, if_neg (Nat.not_le.mpr within)]
  rw [storeKey, grown]
  exact if_pos taken

theorem TableKept.taken_iff (kept : TableKept s) :
    s.table.key.getD keyid .null ≠ .null ↔ ∃ key, (keyid, key) ∈ s.given := by
  rw [List.getD_eq_getElem?_getD]
  by_cases within : keyid < s.table.nkeys
  · have unset := kept.unset keyid within
    cases found : s.table.key[keyid]? with
    | none =>
        rw [List.getElem?_eq_none_iff, kept.size] at found
        exact absurd within (Nat.not_lt.mpr found)
    | some slot =>
        rw [found, Option.some.injEq] at unset
        rw [Option.getD_some, ne_eq, unset]
        simp
  · rw [List.getElem?_eq_none (by rw [kept.size]; omega)]
    refine iff_of_false (fun differs => differs rfl) ?_
    rintro ⟨key, given⟩
    exact within (kept.above _ given)

theorem TableKept.grown_entry (kept : TableKept s) {i : Nat} {k : List Byte} :
    (grownSlots s.table keyid)[i]? = some (.entry k) ↔ s.table.key[i]? = some (.entry k) := by
  rw [grownSlots_get kept.size]
  split
  · rfl
  · rename_i beyond
    rw [List.getElem?_eq_none (by rw [kept.size]; omega)]
    split
    · simp
    · rfl

/-- The new key is added to a table that has room for it. -/
theorem TableKept.add (kept : TableKept s) (unused : ∀ key, (keyid, key) ∉ s.given)
    {writes : List KeyWrite} (inside : ∀ write ∈ writes, write.Inside) :
    TableKept
      ⟨⟨(grownSlots s.table keyid).set keyid (.entry key), max s.table.nkeys (keyid + 1)⟩,
        s.writes ++ writes, s.given ++ [(keyid, key)]⟩ where
  inside := by
    intro write member
    rcases List.mem_append.mp member with old | new
    · exact kept.inside write old
    · exact inside write new
  size := by
    show ((grownSlots s.table keyid).set keyid _).length = _
    rw [List.length_set, grownSlots_length kept.size]
  above := by
    intro given member
    show given.1 < max s.table.nkeys (keyid + 1)
    rcases List.mem_append.mp member with old | new
    · have := kept.above given old
      omega
    · rw [List.mem_singleton.mp new]
      omega
  largest := by
    right
    by_cases larger : s.table.nkeys ≤ keyid + 1
    · exact ⟨(keyid, key), List.mem_append_right _ (List.mem_singleton_self _), by
        show max s.table.nkeys (keyid + 1) = keyid + 1
        omega⟩
    · obtain ⟨-, none⟩ | ⟨given, member, largest⟩ := kept.largest
      · omega
      · exact ⟨given, List.mem_append_left _ member, by
          show max s.table.nkeys (keyid + 1) = given.1 + 1
          omega⟩
  entry := by
    intro id k
    show ((grownSlots s.table keyid).set keyid (.entry key))[id]? = _ ↔ _
    rw [List.mem_append, List.mem_singleton, Prod.mk.injEq]
    by_cases same : id = keyid
    · subst same
      have within : id < (grownSlots s.table id).length := by
        rw [grownSlots_length kept.size]
        omega
      rw [List.getElem?_set_self within]
      simp [unused k, eq_comm]
    · rw [List.getElem?_set_ne (Ne.symm same), kept.grown_entry, kept.entry id k]
      simp [same]
  unset := by
    intro id within
    have within : id < max s.table.nkeys (keyid + 1) := within
    show ((grownSlots s.table keyid).set keyid (.entry key))[id]? = _ ↔ _
    by_cases same : id = keyid
    · subst same
      have inside' : id < (grownSlots s.table id).length := by
        rw [grownSlots_length kept.size]
        omega
      rw [List.getElem?_set_self inside']
      refine iff_of_false (fun null => by cases Option.some.inj null) ?_
      intro none
      exact none key (List.mem_append_right _ (List.mem_singleton_self _))
    · have others : (∀ k, (id, k) ∉ s.given ++ [(keyid, key)]) ↔ ∀ k, (id, k) ∉ s.given := by
        simp [same]
      rw [List.getElem?_set_ne (Ne.symm same), others, grownSlots_get kept.size]
      split
      · rename_i old
        exact kept.unset id old
      · rename_i beyond
        rw [if_pos (by omega)]
        refine iff_of_true rfl ?_
        intro k given
        exact beyond (kept.above _ given)

theorem LeavesNoGap.section_kept (kept : TableKept s) (fits : LeavesNoGap s e) :
    SectionKept s e := by
  by_cases taken : s.table.key.getD e.keyid .null ≠ .null
  · have refused : keyStep s e = none := by
      rw [keyStep_eq, storeKey_taken kept.size taken, Option.map_none]
    refine ⟨iff_of_true refused (kept.taken_iff.mp taken), ?_⟩
    intro next accepted
    rw [refused] at accepted
    cases accepted
  · have unused := mt kept.taken_iff.mpr taken
    obtain ⟨writes, stored, inside⟩ : ∃ writes, storeKey e.fresh s.table e.keyid e.key =
        some (_, writes) ∧ _ := storeKey_fits kept.size fits (not_not.mp taken)
    have accepted := keyStep_stored stored
    refine ⟨iff_of_false (by rw [accepted]; exact Option.some_ne_none _) unused, ?_⟩
    intro next same
    rw [accepted] at same
    cases Option.some.inj same
    exact kept.add (not_exists.mp unused) inside

theorem SectionKept.no_gap (kept : SectionKept s e) : LeavesNoGap s e := by
  by_contra gap
  obtain ⟨set, beyond⟩ := not_or.mp gap
  obtain ⟨done, stored, write, member, outside⟩ : ∃ done,
      storeKey e.fresh s.table e.keyid e.key = some done ∧ _ :=
    storeKey_gap set (Nat.not_le.mp beyond)
  exact outside ((kept.kept _ (keyStep_stored stored)).inside write (List.mem_append_right _ member))

/-- `ldap_get` finds the ids that have a section. -/
theorem TableKept.keyid_found (kept : TableKept s) {config : Config} {val : List Byte}
    (same : config.key = s.table.key.map KeySlot.key?) (digits : val.all isDigit) :
    ldapKeyEncryption config (some val) = some (.keyid, (strtoul val).toNat) ↔
      ∃ key, ((strtoul val).toNat, key) ∈ s.given := by
  have noWord : ∀ word : List Byte, word.all isDigit = false → val ≠ word := by
    intro word letters equal
    rw [equal, letters] at digits
    cases digits
  have slot : (config.key[(strtoul val).toNat]?).join.isSome ↔
      ∃ key, ((strtoul val).toNat, key) ∈ s.given := by
    simp only [← kept.entry, same, List.getElem?_map]
    cases s.table.key[(strtoul val).toNat]? with
    | none => simp
    | some slot =>
        cases slot with
        | null => simp [KeySlot.key?]
        | entry key => simp [KeySlot.key?]
        | stray => simp [KeySlot.key?]
  simp only [ldapKeyEncryption]
  rw [if_neg (noWord _ (by decide +kernel)), if_neg (noWord _ (by decide +kernel)),
    if_neg (noWord _ (by decide +kernel)), if_pos digits, ← slot]
  split
  · rename_i found
    exact iff_of_true rfl found
  · rename_i missing
    exact iff_of_false (Option.some_ne_none _).symm missing

end Table

theorem key_table_iff (sections : List KeySection) :
    Schedule.Along keyStep SectionKept KeyRun.start sections ↔
      Schedule.Along keyStep LeavesNoGap KeyRun.start sections := by
  have start : TableKept KeyRun.start := by
    refine ⟨?_, rfl, ?_, .inl ⟨rfl, rfl⟩, ?_, ?_⟩
    · intro write member
      cases member
    · intro given member
      cases member
    · intro id key
      simp [KeyRun.start]
    · intro id within
      cases within
  have always : Schedule.Along keyStep (fun _ _ => True) KeyRun.start sections :=
    Schedule.along_of_forall fun _ _ => trivial
  refine Schedule.along_iff TableKept SectionKept ?_ ?_ start always
  · intro s e kept _
    exact ⟨fun section_kept => section_kept.no_gap, fun fits => fits.section_kept kept⟩
  · intro s e next _ _ section_kept accepted
    exact section_kept.kept next accepted

/-- The key `00` under an id, with cleared memory behind the table. -/
def keySection (keyid : Nat) (allowed : keyid ≤ 127) : KeySection where
  items := [.keyid keyid, .key [48, 48]]
  fresh := fun _ => .null
  keyid := keyid
  key := [0]
  complete := rfl
  allowed := allowed

/-- Ids 0 and 2: the second section clears a slot behind the table. -/
theorem key_table_gap :
    (∃ s, Schedule.run keyStep KeyRun.start
        [keySection 0 (by decide), keySection 2 (by decide)] = some s ∧
      ∃ write ∈ s.writes, ¬ write.Inside) ∧
    ¬ Schedule.Along keyStep SectionKept KeyRun.start
      [keySection 0 (by decide), keySection 2 (by decide)] := by
  have outside : ¬ (⟨2, 2, 3⟩ : KeyWrite).Inside := by
    simp only [KeyWrite.Inside]
    decide
  have first : keyStep KeyRun.start (keySection 0 (by decide)) =
      some ⟨⟨[.entry [0]], 1⟩, [⟨0, 1, 1⟩, ⟨0, 1, 1⟩], [(0, [0])]⟩ := rfl
  have second : keyStep ⟨⟨[.entry [0]], 1⟩, [⟨0, 1, 1⟩, ⟨0, 1, 1⟩], [(0, [0])]⟩
      (keySection 2 (by decide)) =
      some ⟨⟨[.entry [0], .null, .entry [0]], 3⟩,
        [⟨0, 1, 1⟩, ⟨0, 1, 1⟩, ⟨2, 2, 3⟩, ⟨2, 1, 3⟩], [(0, [0]), (2, [0])]⟩ := rfl
  have both : Schedule.run keyStep KeyRun.start
      [keySection 0 (by decide), keySection 2 (by decide)] =
      keyStep ⟨⟨[.entry [0]], 1⟩, [⟨0, 1, 1⟩, ⟨0, 1, 1⟩], [(0, [0])]⟩
        (keySection 2 (by decide)) := rfl
  constructor
  · exact ⟨_, both.trans second, ⟨2, 2, 3⟩, by simp, outside⟩
  · intro along
    have kept := (along.2 _ first).1.kept _ second
    exact outside (kept.inside ⟨2, 2, 3⟩ (by simp))

end Otpd

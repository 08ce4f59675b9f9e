import Otpd.StateDir

/-!
# Whose state is read

The names that `mkstemp` makes for one user may be the names of others, and then their
files get mixed up.  What `state_parse` checks still keeps them apart: `state_read_own`.
-/

set_option autoImplicit false

namespace Otpd

open CMem
open Files (Disk)

/-! ## A line that was cut off -/

section Cut

variable {record parsed : StateRecord} {text : List Byte}

/-- `state_parse` needs every delimiter. -/
theorem parseFields_count (taken : parseFields text = some parsed) : 6 ≤ text.count 58 := by
  simp only [parseFields, Option.bind_eq_bind, Option.bind_eq_some_iff] at taken
  obtain ⟨⟨f1, t1⟩, s1, -, -, ⟨f2, t2⟩, s2, -, -, ⟨f3, t3⟩, s3, -, -, ⟨f4, t4⟩, s4, -, -,
    ⟨f5, t5⟩, s5, -, -, ⟨f6, t6⟩, s6, -⟩ := taken
  have step : ∀ {bytes field tail : List Byte}, splitAt 58 bytes = some (field, tail) →
      tail.count 58 + 1 ≤ bytes.count 58 := by
    intro bytes field tail split
    rw [(splitAt_eq split).1, List.count_append, List.count_cons_self]
    omega
  dsimp only at s2 s3 s4 s5 s6
  have := step s1
  have := step s2
  have := step s3
  have := step s4
  have := step s5
  have := step s6
  omega

theorem unparseFields_count (record : StateRecord) : (unparseFields record).count 58 = 6 := by
  have hex := List.count_eq_zero.mpr (x2a_clean record.challenge).1
  have csd := List.count_eq_zero.mpr record.csd.noColon
  have rd := List.count_eq_zero.mpr record.rd.noColon
  have number := fun n => List.count_eq_zero.mpr (printHex_clean n).1
  simp only [unparseFields, List.count_append, List.count_cons_self, List.count_nil, hex, csd, rd,
    number]

theorem unparseFields_last (record : StateRecord) :
    ∃ init, unparseFields record = init ++ [58] := by
  apply List.getLast?_eq_some_iff.mp
  simp [unparseFields, List.getLast?_append, List.getLast?_cons]

/-- What is left of a line's fields gives the record of the whole line or none. -/
theorem parseFields_cut (cut : text <+: unparseFields record ++ [10])
    (taken : parseFields (text ++ [0]) = some parsed) : parsed = record := by
  have whole : ∀ tail, parseFields (unparseFields record ++ tail) = some parsed →
      parsed = record := by
    intro tail same
    rw [parseFields_unparse] at same
    exact (Option.some.inj same).symm
  rcases List.prefix_concat_iff.mp cut with rfl | inside
  · refine whole [10, 0] ?_
    rw [List.append_assoc] at taken
    exact taken
  · obtain ⟨init, ends⟩ := unparseFields_last record
    have total := unparseFields_count record
    rw [ends] at inside total
    rcases List.prefix_concat_iff.mp inside with rfl | short
    · rw [← ends] at taken
      exact whole [0] taken
    · exfalso
      have enough := parseFields_count taken
      have fewer := short.sublist.count_le 58
      simp only [List.count_append] at enough total
      simp at enough total
      omega

end Cut

/-- Only the line of the user himself has his name and a delimiter at its front. -/
theorem parseLine_front {buf : List Byte} {user : Username} {parsed : StateRecord}
    (taken : parseLine buf user = some parsed) :
    ∃ rest, buf = 53 :: 58 :: (user.bytes ++ 58 :: rest) ∧ parseFields rest = some parsed := by
  simp only [parseLine] at taken
  split_ifs at taken with short version name
  refine ⟨_, ?_, taken⟩
  simp only [ne_eq, not_not] at version name
  calc buf = buf.take 2 ++ ((buf.drop 2).take (user.bytes.length + 1) ++
          (buf.drop 2).drop (user.bytes.length + 1)) := by
        rw [List.take_append_drop, List.take_append_drop]
    _ = _ := by
        rw [version, name, List.drop_drop]
        simp

/-! ## Whose bytes are in a file -/

section Own

variable (dir : Statedir) (start : Disk (List Byte) Byte)
  (owner : Nat → Option (Username × StateRecord))

/-- Where the inodes of a user may be found: at the names of the temporary files, and at
every name that ends before more characters of `mkstemp`. -/
def Near (user : Username) (name : List Byte) : Prop :=
  Temporary dir user name ∨
    ∃ s : List Byte, (∀ c ∈ s, mkstempChar c = true) ∧ stateFilename dir user = name ++ s

/-- An entry leads to a file that was there at the start, or to one of a call of
`state_write`; `owner` says which. -/
inductive Linked (name : List Byte) (ino : Nat) : Prop where
  | original (unowned : owner ino = none) (entry : start.dir name = some ino)
      (old : ino < start.next)
  | made {user : Username} {record : StateRecord} (owned : owner ino = some (user, record))
      (near : Near dir user name)

def PhaseOk (data : Nat → List Byte) : IoPhase → Prop
  | .writing user record tmpfilename fd rest =>
      owner fd = some (user, record) ∧ data fd ++ rest = stateLineOf user record ∧
        Temporary dir user tmpfilename
  | .written user _ tmpfilename _ | .closed user _ tmpfilename _ => Temporary dir user tmpfilename
  | .reading user fd buf =>
      Linked dir start owner (stateFilename dir user) fd ∧ buf <+: data fd ∧
        buf.length ≤ gsmMaxStateLen
  | _ => True

/-- A call of `state_read` gave the file that was there at the start, or a line of the
user's own, or something that `state_parse` takes for no state at all. -/
def ResultOk (calls : List (Username × StateRecord)) : IoResult → Prop
  | .gave _ user (some buf) => ∀ state parsed, stateParse buf user state = some parsed →
      parsed.nullstate = false →
        (∃ bytes, start.contents (stateFilename dir user) = some bytes ∧
          stateRead true (some bytes) = some buf) ∨
        ∃ record, (user, record) ∈ calls ∧ parsed = state.fill record
  | _ => True

/-- The inode that a thread writes. -/
def IoPhase.fd? : IoPhase → Option Nat
  | .writing _ _ _ fd _ => some fd
  | _ => none

structure OwnKept (w : DirWorld) : Prop where
  entries : w.disk.Everywhere (Linked dir start owner)
  later : start.next ≤ w.disk.next
  fresh : ∀ ino call, owner ino = some call → start.next ≤ ino ∧ ino < w.disk.next
  called : ∀ ino call, owner ino = some call → call ∈ w.calls
  line : ∀ ino user record, owner ino = some (user, record) →
    w.disk.data ino <+: stateLineOf user record
  kept : ∀ ino < start.next, w.disk.data ino = start.data ino ∧ w.disk.synced ino = true
  phases : ∀ t, PhaseOk dir start owner w.disk.data (w.phase t)
  alone : ∀ t t' fd, (w.phase t).fd? = some fd → (w.phase t').fd? = some fd → t = t'
  held : ∀ t tmpfilename ino, (w.phase t).tmp? = some tmpfilename →
    w.disk.dir tmpfilename = some ino → ∃ call, owner ino = some call
  results : ∀ result ∈ w.results, ResultOk dir start w.calls result

/-! ## What `state_parse` makes of another user's file -/

section Parse

variable {dir start owner} {user user' : Username} {record : StateRecord} {data buf : List Byte}

theorem Near.same_user (near : Near dir user' (stateFilename dir user)) {tail : List Byte}
    (front : user.bytes ++ [58] <+: user'.bytes ++ 58 :: tail) : user' = user := by
  have delimiter : mkstempChar 58 = false := by decide
  rcases near with ⟨s, size, chars, longer⟩ | ⟨s, chars, shorter⟩
  · exfalso
    rw [stateFilename_eq, stateFilename_eq, List.append_assoc, List.cons_append] at longer
    have bytes := (List.cons.inj (List.append_cancel_left longer)).2
    rw [bytes, List.append_assoc, List.prefix_append_right_inj] at front
    cases s with
    | nil => cases size
    | cons c s =>
        have first := (List.cons_prefix_cons.mp front).1
        rw [first] at chars
        rw [chars 58 List.mem_cons_self] at delimiter
        cases delimiter
  · rw [stateFilename_eq, stateFilename_eq, List.append_assoc, List.cons_append] at shorter
    have bytes := (List.cons.inj (List.append_cancel_left shorter)).2
    rw [bytes, List.append_assoc, List.prefix_append_right_inj] at front
    cases s with
    | nil =>
        ext1
        rw [bytes, List.append_nil]
    | cons c s =>
        exfalso
        have first := (List.cons_prefix_cons.mp front).1
        rw [← first] at chars
        rw [chars 58 List.mem_cons_self] at delimiter
        cases delimiter

theorem stateRead_text (given : stateRead true (some data) = some buf) (nonempty : buf ≠ []) :
    ∃ text, text <+: data ∧ buf = text ++ [0] := by
  simp only [stateRead, Bool.not_true, Bool.false_eq_true, if_false] at given
  split_ifs at given
  · cases given
    exact absurd rfl nonempty
  · cases given
    exact ⟨_, List.dropLast_prefix data, rfl⟩
  · cases given
    exact ⟨data, List.prefix_rfl, rfl⟩

theorem Near.parsed_own (near : Near dir user' (stateFilename dir user))
    (cut : data <+: stateLineOf user' record) (given : stateRead true (some data) = some buf)
    {state parsed : State} (taken : stateParse buf user state = some parsed)
    (nonnull : parsed.nullstate = false) : user' = user ∧ parsed = state.fill record := by
  have nonempty : buf ≠ [] := by
    rintro rfl
    cases taken
    cases nonnull
  obtain ⟨text, inData, rfl⟩ := stateRead_text given nonempty
  rw [stateParse, if_neg nonempty] at taken
  obtain ⟨found, line, rfl⟩ := Option.map_eq_some_iff.mp taken
  obtain ⟨rest, front, fields⟩ := parseLine_front line
  have cutOff : text <+: 53 :: 58 :: (user'.bytes ++ 58 :: (unparseFields record ++ [10])) := by
    have whole := inData.trans cut
    rw [stateLineOf, stateWrite_unparse] at whole
    simpa [stateUnparse] using whole
  -- The NUL that `state_read` adds is behind the delimiter after the name.
  have noNul : (0 : Byte) ∉ 53 :: 58 :: (user.bytes ++ [58]) := by
    simpa using user.noNul
  have inside : 53 :: 58 :: (user.bytes ++ [58]) <+: text := by
    have reached : 53 :: 58 :: (user.bytes ++ [58]) <+: text ++ [0] := by
      rw [front]
      exact ⟨rest, by simp⟩
    rcases List.prefix_concat_iff.mp reached with whole | before
    · rw [whole] at noNul
      simp at noNul
    · exact before
  obtain ⟨more, rfl⟩ := inside
  have names := ((List.prefix_append _ more).trans cutOff)
  have same := near.same_user (List.cons_prefix_cons.mp (List.cons_prefix_cons.mp names).2).2
  subst same
  refine ⟨rfl, ?_⟩
  have restEq : rest = more ++ [0] := by simpa using front.symm
  have short : more <+: unparseFields record ++ [10] := by
    have tails := (List.cons_prefix_cons.mp (List.cons_prefix_cons.mp cutOff).2).2
    simpa [List.append_assoc, List.prefix_append_right_inj] using tails
  rw [restEq] at fields
  rw [parseFields_cut short fields]

end Parse

/-! ## Every call keeps it -/

section Keep

variable {dir start owner} {w : DirWorld} {t : Nat}

theorem ResultOk.mono {calls calls' : List (Username × StateRecord)} (more : calls ⊆ calls')
    {result : IoResult} (ok : ResultOk dir start calls result) :
    ResultOk dir start calls' result := by
  cases result with
  | gave t user buf =>
      cases buf with
      | none => trivial
      | some buf =>
          intro state parsed taken nonnull
          rcases ok state parsed taken nonnull with first | ⟨record, called, same⟩
          · exact Or.inl first
          · exact Or.inr ⟨record, more called, same⟩
  | wrote user record => trivial
  | notWritten user record => trivial
  | opened t user => trivial
  | crashed => trivial

theorem OwnKept.call (kept : OwnKept dir start owner w) (call : Username × StateRecord) :
    OwnKept dir start owner { w with calls := w.calls ++ [call] } where
  entries := kept.entries
  later := kept.later
  fresh := kept.fresh
  called := fun ino call owned => List.mem_append_left _ (kept.called ino call owned)
  line := kept.line
  kept := kept.kept
  phases := kept.phases
  alone := kept.alone
  held := kept.held
  results := fun result member =>
    (kept.results result member).mono (List.subset_append_left _ _)

theorem OwnKept.result (kept : OwnKept dir start owner w) {result : IoResult}
    (ok : ResultOk dir start w.calls result) :
    OwnKept dir start owner (w.log result) where
  entries := kept.entries
  later := kept.later
  fresh := kept.fresh
  called := kept.called
  line := kept.line
  kept := kept.kept
  phases := kept.phases
  alone := kept.alone
  held := kept.held
  results := by
    intro other member
    rcases List.mem_append.mp member with before | last
    · exact kept.results other before
    · cases List.mem_singleton.mp last
      exact ok

theorem setPhase_alone
    (alone : ∀ t t' fd, (w.phase t).fd? = some fd → (w.phase t').fd? = some fd → t = t')
    {phase : IoPhase} (fd : ∀ fd, phase.fd? = some fd → (w.phase t).fd? = some fd)
    (t₁ t₂ : Nat) (fd₀ : Nat) (first : ((w.setPhase t phase).phase t₁).fd? = some fd₀)
    (second : ((w.setPhase t phase).phase t₂).fd? = some fd₀) : t₁ = t₂ := by
  have before : ∀ t', ((w.setPhase t phase).phase t').fd? = some fd₀ →
      (w.phase t').fd? = some fd₀ := by
    intro t' here
    by_cases same : t' = t
    · subst same
      rw [DirWorld.setPhase_self] at here
      exact fd fd₀ here
    · rwa [DirWorld.setPhase_ne w same] at here
  exact alone t₁ t₂ fd₀ (before t₁ first) (before t₂ second)

theorem setPhase_tmp {phase : IoPhase}
    (tmp : ∀ tmp, phase.tmp? = some tmp → (w.phase t).tmp? = some tmp) {t' : Nat}
    {name : List Byte} (has : ((w.setPhase t phase).phase t').tmp? = some name) :
    (w.phase t').tmp? = some name := by
  by_cases same : t' = t
  · subst same
    rw [DirWorld.setPhase_self] at has
    exact tmp name has
  · rwa [DirWorld.setPhase_ne w same] at has

theorem setPhase_idle_tmp {t' : Nat} {name : List Byte}
    (has : ((w.setPhase t .idle).phase t').tmp? = some name) : (w.phase t').tmp? = some name :=
  setPhase_tmp (fun _ absent => by cases absent) has

/-- A call that leaves the data as they are. -/
theorem OwnKept.setPhase (kept : OwnKept dir start owner w) {disk : Disk (List Byte) Byte}
    {phase : IoPhase} (entries : disk.Everywhere (Linked dir start owner))
    (next : disk.next = w.disk.next) (data : disk.data = w.disk.data)
    (synced : ∀ ino < start.next, disk.synced ino = true)
    (here : PhaseOk dir start owner w.disk.data phase)
    (fd : ∀ fd, phase.fd? = some fd → (w.phase t).fd? = some fd)
    (held : ∀ t' tmpfilename ino, ((w.setPhase t phase).phase t').tmp? = some tmpfilename →
      disk.dir tmpfilename = some ino → ∃ call, owner ino = some call) :
    OwnKept dir start owner { w.setPhase t phase with disk := disk } where
  entries := entries
  later := by
    rw [next]
    exact kept.later
  fresh := by
    intro ino call owned
    rw [next]
    exact kept.fresh ino call owned
  called := kept.called
  line := by
    intro ino user record owned
    rw [data]
    exact kept.line ino user record owned
  kept := by
    intro ino old
    rw [data]
    exact ⟨(kept.kept ino old).1, synced ino old⟩
  phases := by
    intro t'
    rw [data]
    by_cases same : t' = t
    · subst same
      rw [DirWorld.setPhase_self]
      exact here
    · rw [DirWorld.setPhase_ne w same]
      exact kept.phases t'
  alone := setPhase_alone kept.alone fd
  held := held
  results := kept.results

theorem OwnKept.setPhase_only (kept : OwnKept dir start owner w) {phase : IoPhase}
    (here : PhaseOk dir start owner w.disk.data phase)
    (fd : ∀ fd, phase.fd? = some fd → (w.phase t).fd? = some fd)
    (tmp : ∀ tmp, phase.tmp? = some tmp → (w.phase t).tmp? = some tmp) :
    OwnKept dir start owner (w.setPhase t phase) :=
  kept.setPhase kept.entries rfl rfl (fun ino old => (kept.kept ino old).2) here fd
    fun t' name ino has entry => kept.held t' name ino (setPhase_tmp tmp has) entry

theorem OwnKept.finish (kept : OwnKept dir start owner w) {result : IoResult}
    (ok : ResultOk dir start w.calls result) : OwnKept dir start owner (w.finish t result) :=
  have idle : OwnKept dir start owner (w.setPhase t .idle) :=
    kept.setPhase_only trivial (fun _ absent => by cases absent) fun _ absent => by cases absent
  idle.result ok

theorem Linked.inside (kept : OwnKept dir start owner w) {name : List Byte} {ino : Nat}
    (linked : Linked dir start owner name ino) : ino < w.disk.next := by
  cases linked with
  | original _ _ old => exact Nat.lt_of_lt_of_le old kept.later
  | made owned _ => exact (kept.fresh ino _ owned).2

/-- A new inode has no place yet, so giving it an owner changes no entry. -/
theorem Linked.claim (kept : OwnKept dir start owner w) (call : Username × StateRecord)
    {name : List Byte} {ino : Nat} (linked : Linked dir start owner name ino) :
    Linked dir start (Function.update owner w.disk.next (some call)) name ino := by
  have same : Function.update owner w.disk.next (some call) ino = owner ino :=
    Function.update_of_ne (Nat.ne_of_lt (linked.inside kept)) _ _
  cases linked with
  | original unowned entry old => exact .original (same.trans unowned) entry old
  | made owned near => exact .made (same.trans owned) near

/-- What holds of a thread stays while the inodes only grow, and the one it writes is left
alone. -/
theorem PhaseOk.stable {owner' : Nat → Option (Username × StateRecord)}
    {data data' : Nat → List Byte} {phase : IoPhase} (ok : PhaseOk dir start owner data phase)
    (linked : ∀ name ino, Linked dir start owner name ino →
      Linked dir start owner' name ino ∧ data ino <+: data' ino)
    (owned : ∀ ino call, owner ino = some call → owner' ino = some call)
    (own : ∀ fd, phase.fd? = some fd → data' fd = data fd) :
    PhaseOk dir start owner' data' phase := by
  cases phase with
  | writing user record tmpfilename fd rest =>
      obtain ⟨mine, whole, named⟩ := ok
      refine ⟨owned fd _ mine, ?_, named⟩
      rw [own fd rfl]
      exact whole
  | reading user fd buf =>
      obtain ⟨entry, front, short⟩ := ok
      obtain ⟨entry', grown⟩ := linked _ fd entry
      exact ⟨entry', front.trans grown, short⟩
  | written user record tmpfilename fd => exact ok
  | closed user record tmpfilename fd => exact ok
  | idle => trivial
  | undoing user record tmpfilename => trivial

theorem OwnKept.create (kept : OwnKept dir start owner w) {user : Username} {record : StateRecord}
    {tmpfilename : List Byte} (named : Temporary dir user tmpfilename)
    (called : (user, record) ∈ w.calls) :
    OwnKept dir start (Function.update owner w.disk.next (some (user, record)))
      { w.setPhase t (.writing user record tmpfilename w.disk.next (stateLineOf user record)) with
        disk := w.disk.newFile tmpfilename } := by
  have new : Function.update owner w.disk.next (some (user, record)) w.disk.next =
      some (user, record) := Function.update_self _ _ _
  have older : ∀ ino call,
      Function.update owner w.disk.next (some (user, record)) ino = some call →
        (ino = w.disk.next ∧ call = (user, record)) ∨
          (ino ≠ w.disk.next ∧ owner ino = some call) := by
    intro ino call owned
    rw [Function.update_apply] at owned
    split at owned
    · rename_i same
      exact Or.inl ⟨same, (Option.some.inj owned).symm⟩
    · rename_i other
      exact Or.inr ⟨other, owned⟩
  have data : ∀ ino, ino ≠ w.disk.next →
      (w.disk.newFile tmpfilename).data ino = w.disk.data ino := fun ino ne =>
    Function.update_of_ne ne _ _
  have empty : (w.disk.newFile tmpfilename).data w.disk.next = [] := Function.update_self _ _ _
  have below : ∀ t' fd, (w.phase t').fd? = some fd → fd ≠ w.disk.next := by
    intro t' fd here
    have phase := kept.phases t'
    cases at_ : w.phase t' with
    | writing user' record' tmp' fd' rest' =>
        rw [at_] at here phase
        cases here
        exact Nat.ne_of_lt (kept.fresh _ _ phase.1).2
    | _ => rw [at_] at here; cases here
  refine
    { entries := (kept.entries.imp fun name ino linked => linked.claim kept _).newFile
        (.made new (Or.inl named))
      later := Nat.le_succ_of_le kept.later
      fresh := ?_
      called := ?_
      line := ?_
      kept := ?_
      phases := ?_
      alone := ?_
      held := ?_
      results := kept.results }
  · intro ino call owned
    rcases older ino call owned with ⟨rfl, -⟩ | ⟨-, before⟩
    · exact ⟨kept.later, Nat.lt_succ_self _⟩
    · exact ⟨(kept.fresh ino call before).1, Nat.lt_succ_of_lt (kept.fresh ino call before).2⟩
  · intro ino call owned
    rcases older ino call owned with ⟨-, rfl⟩ | ⟨-, before⟩
    · exact called
    · exact kept.called ino call before
  · intro ino user' record' owned
    rcases older ino _ owned with ⟨rfl, -⟩ | ⟨ne, before⟩
    · exact empty ▸ List.nil_prefix
    · rw [data ino ne]
      exact kept.line ino user' record' before
  · intro ino old
    have ne : ino ≠ w.disk.next := Nat.ne_of_lt (Nat.lt_of_lt_of_le old kept.later)
    refine ⟨(data ino ne).trans (kept.kept ino old).1, ?_⟩
    exact (Function.update_of_ne ne _ _).trans (kept.kept ino old).2
  · intro t'
    by_cases same : t' = t
    · subst same
      rw [DirWorld.setPhase_self]
      exact ⟨new, by rw [empty, List.nil_append], named⟩
    · rw [DirWorld.setPhase_ne w same]
      refine (kept.phases t').stable (fun name ino linked => ⟨linked.claim kept _, ?_⟩) ?_ ?_
      · rw [data ino (Nat.ne_of_lt (linked.inside kept))]
      · intro ino call before
        exact (Function.update_of_ne (Nat.ne_of_lt (kept.fresh ino call before).2) _ _).trans before
      · intro fd here
        exact data fd (below t' fd here)
  · intro t₁ t₂ fd first second
    by_cases one : t₁ = t
    · by_cases two : t₂ = t
      · rw [one, two]
      · subst one
        rw [DirWorld.setPhase_self] at first
        rw [DirWorld.setPhase_ne w two] at second
        cases first
        exact absurd rfl (below t₂ _ second)
    · by_cases two : t₂ = t
      · subst two
        rw [DirWorld.setPhase_self] at second
        rw [DirWorld.setPhase_ne w one] at first
        cases second
        exact absurd rfl (below t₁ _ first)
      · rw [DirWorld.setPhase_ne w one] at first
        rw [DirWorld.setPhase_ne w two] at second
        exact kept.alone t₁ t₂ fd first second
  · intro t' name ino has entry
    simp only [Files.Disk.newFile, Function.update_apply w.disk.dir] at entry
    split_ifs at entry with fileNew
    · cases entry
      exact ⟨_, new⟩
    · have inside := (kept.entries.here entry).inside kept
      by_cases same : t' = t
      · subst same
        rw [DirWorld.setPhase_self] at has
        cases has
        exact absurd rfl fileNew
      · rw [DirWorld.setPhase_ne w same] at has
        obtain ⟨call, owned⟩ := kept.held t' name ino has entry
        exact ⟨call, (Function.update_of_ne (Nat.ne_of_lt inside) _ _).trans owned⟩

theorem OwnKept.append (kept : OwnKept dir start owner w) {user : Username}
    {record : StateRecord} {tmpfilename : List Byte} {fd : Nat} {rest : List Byte} {phase : IoPhase}
    (at_ : w.phase t = .writing user record tmpfilename fd rest) (n : Nat)
    (next : phase = .written user record tmpfilename fd ∨
      phase = .writing user record tmpfilename fd (rest.drop n)) :
    OwnKept dir start owner
      { w.setPhase t phase with disk := w.disk.append fd (rest.take n) } := by
  have here := kept.phases t
  rw [at_] at here
  obtain ⟨mine, whole, named⟩ := here
  have there : (w.disk.append fd (rest.take n)).data fd = w.disk.data fd ++ rest.take n :=
    Function.update_self _ _ _
  have others : ∀ ino, ino ≠ fd →
      (w.disk.append fd (rest.take n)).data ino = w.disk.data ino :=
    fun ino ne => w.disk.append_data_ne _ ne
  have old : ∀ ino < start.next, ino ≠ fd := by
    rintro ino before rfl
    exact Nat.not_lt_of_le (kept.fresh ino _ mine).1 before
  refine
    { entries := kept.entries.append fd _
      later := kept.later
      fresh := kept.fresh
      called := kept.called
      line := ?_
      kept := ?_
      phases := ?_
      alone := ?_
      held := ?_
      results := kept.results }
  · intro ino user' record' owned
    by_cases same : ino = fd
    · subst same
      cases owned.symm.trans mine
      rw [there, ← whole]
      exact List.prefix_append_right_inj _ |>.mpr (List.take_prefix n rest)
    · rw [others ino same]
      exact kept.line ino user' record' owned
  · intro ino before
    refine ⟨(others ino (old ino before)).trans (kept.kept ino before).1, ?_⟩
    exact (Function.update_of_ne (old ino before) _ _).trans (kept.kept ino before).2
  · intro t'
    by_cases same : t' = t
    · subst same
      rw [DirWorld.setPhase_self]
      rcases next with rfl | rfl
      · exact named
      · refine ⟨mine, ?_, named⟩
        rw [there, List.append_assoc, List.take_append_drop]
        exact whole
    · rw [DirWorld.setPhase_ne w same]
      refine (kept.phases t').stable (fun name ino linked => ⟨linked, ?_⟩)
        (fun _ _ owned => owned) ?_
      · by_cases fdSame : ino = fd
        · subst fdSame
          rw [there]
          exact List.prefix_append _ _
        · rw [others ino fdSame]
      · intro fd' other
        apply others
        rintro rfl
        exact same (kept.alone t' t fd' other (by rw [at_]; rfl))
  · refine setPhase_alone kept.alone ?_
    intro fd' same
    rw [at_]
    rcases next with rfl | rfl
    · cases same
    · exact same
  · intro t' name ino has entry
    refine kept.held t' name ino (setPhase_tmp ?_ has) entry
    intro tmp same
    rw [at_]
    rcases next with rfl | rfl
    · exact same
    · exact same

theorem OwnKept.crash (kept : OwnKept dir start owner w) (k : Nat) (keep : Nat → Nat) :
    OwnKept dir start owner
      { w.log .crashed with disk := w.disk.crash k keep, phase := fun _ => .idle } where
  entries := kept.entries.crash k keep
  later := kept.later
  fresh := kept.fresh
  called := kept.called
  line := fun ino user record owned =>
    (w.disk.crash_data_prefix k keep ino).trans (kept.line ino user record owned)
  kept := by
    intro ino old
    obtain ⟨data, synced⟩ := kept.kept ino old
    exact ⟨(Files.Disk.crash_data_synced k keep synced).trans data, rfl⟩
  phases := fun _ => trivial
  alone := fun _ _ _ absent => by cases absent
  held := fun _ _ _ absent => by cases absent
  results := by
    have noted : OwnKept dir start owner (w.log .crashed) := kept.result trivial
    exact noted.results

/-- Whoever wrote the file at the temporary name, the user's own name is near him. -/
theorem Near.renamed {user user' : Username} {tmpfilename : List Byte}
    (named : Temporary dir user tmpfilename) (near : Near dir user' tmpfilename) :
    Near dir user' (stateFilename dir user) := by
  rcases near with other | ⟨more, moreChars, longer⟩
  · cases named.user_eq other
    exact Or.inr ⟨[], by simp, (List.append_nil _).symm⟩
  · obtain ⟨s, -, chars, rfl⟩ := named
    refine Or.inr ⟨s ++ more, ?_, by rw [longer, List.append_assoc]⟩
    intro c member
    rcases List.mem_append.mp member with first | second
    · exact chars c first
    · exact moreChars c second

theorem OwnKept.rename (kept : OwnKept dir start owner w) {user : Username}
    {record : StateRecord} {tmpfilename : List Byte} {fd : Nat}
    (at_ : w.phase t = .closed user record tmpfilename fd) {disk : Disk (List Byte) Byte}
    (renamed : w.disk.rename tmpfilename (stateFilename dir user) = some disk) :
    OwnKept dir start owner { w.finish t (.wrote user record) with disk := disk } := by
  have named : Temporary dir user tmpfilename := by
    have here := kept.phases t
    rwa [at_] at here
  have has : (w.phase t).tmp? = some tmpfilename := by rw [at_]; rfl
  obtain ⟨moved, entry, made⟩ := Option.map_eq_some_iff.mp renamed
  have entries : disk.Everywhere (Linked dir start owner) := by
    refine kept.entries.rename renamed ?_
    intro ino found
    obtain ⟨call, owned⟩ := kept.held t tmpfilename ino has found
    cases kept.entries.here found with
    | original unowned _ _ =>
        rw [unowned] at owned
        cases owned
    | made owned near => exact .made owned (near.renamed named)
  have idle : OwnKept dir start owner { w.setPhase t .idle with disk := disk } := by
    subst made
    refine kept.setPhase entries rfl rfl (fun ino old => (kept.kept ino old).2) trivial
      (fun _ absent => by cases absent) ?_
    intro t' name ino has' found
    have hasBefore := setPhase_idle_tmp has'
    simp only [Files.Disk.setDir, Function.update_apply] at found
    split_ifs at found with target source
    · cases found
      exact kept.held t tmpfilename moved has entry
    · exact kept.held t' name ino hasBefore found
  exact idle.result trivial

theorem OwnKept.unlink (kept : OwnKept dir start owner w) {user : Username}
    {record : StateRecord} (tmpfilename : List Byte) :
    OwnKept dir start owner
      { w.finish t (.notWritten user record) with disk := w.disk.unlink tmpfilename } := by
  have idle : OwnKept dir start owner
      { w.setPhase t .idle with disk := w.disk.unlink tmpfilename } := by
    refine kept.setPhase (kept.entries.unlink tmpfilename) rfl rfl
      (fun ino old => (kept.kept ino old).2) trivial (fun _ absent => by cases absent) ?_
    intro t' name ino has' found
    have hasBefore := setPhase_idle_tmp has'
    simp only [Files.Disk.unlink, Files.Disk.setDir, Function.update_apply] at found
    split_ifs at found
    exact kept.held t' name ino hasBefore found
  exact idle.result trivial

theorem OwnKept.gave (kept : OwnKept dir start owner w) {user : Username} {fd : Nat}
    {buf : List Byte} (at_ : w.phase t = .reading user fd buf)
    (ended : readable (w.disk.data fd) buf = 0) :
    ResultOk dir start w.calls (.gave t user (endRead buf (w.disk.data fd).length)) := by
  have here := kept.phases t
  rw [at_] at here
  obtain ⟨linked, front, short⟩ := here
  rw [endRead_eq front short ended]
  cases given : stateRead true (some (w.disk.data fd)) with
  | none => trivial
  | some text =>
      intro state parsed taken nonnull
      cases linked with
      | original _ entry old =>
          left
          rw [(kept.kept fd old).1] at given
          exact ⟨start.data fd, by rw [Files.Disk.contents, entry]; rfl, given⟩
      | made owned near =>
          right
          obtain ⟨rfl, same⟩ := near.parsed_own (kept.line fd _ _ owned) given taken nonnull
          exact ⟨_, kept.called fd _ owned, same⟩

theorem OwnKept.step (kept : OwnKept dir start owner w) {event : IoEvent} {next : DirWorld}
    (taken : w.step dir event = some next) : ∃ owner', OwnKept dir start owner' next := by
  cases event with
  | stateWrite t user record suffix =>
      simp only [DirWorld.step] at taken
      split at taken
      · split_ifs at taken
        have called := kept.call (user, record)
        split at taken
        · cases taken
          exact ⟨owner, called.finish trivial⟩
        · simp only [Option.bind_eq_bind, Option.bind_eq_some_iff] at taken
          obtain ⟨tmpfilename, named, made, created, stored⟩ := taken
          obtain ⟨-, rfl⟩ := Files.Disk.create_eq created
          cases stored
          exact ⟨_, called.create (mkstempName_temporary named) (by simp)⟩
      · cases taken
  | write t n =>
      simp only [DirWorld.step] at taken
      split at taken
      · rename_i user record tmpfilename fd rest at_
        cases n with
        | none =>
            cases taken
            refine ⟨owner, kept.setPhase_only trivial (fun _ absent => by cases absent) ?_⟩
            intro tmp same
            rw [at_]
            exact same
        | some n =>
            simp only at taken
            split_ifs at taken with short ended
            · cases taken
              exact ⟨owner, kept.append at_ n (Or.inl rfl)⟩
            · cases taken
              exact ⟨owner, kept.append at_ n (Or.inr rfl)⟩
      · cases taken
  | fsync t ok =>
      simp only [DirWorld.step] at taken
      split at taken
      · rename_i user record tmpfilename fd at_
        cases taken
        have here := kept.phases t
        rw [at_] at here
        have same : ∀ tmp, (IoPhase.closed user record tmpfilename fd).tmp? = some tmp →
            (w.phase t).tmp? = some tmp := by
          intro tmp same
          rw [at_]
          exact same
        have disk_eq : (if ok then w.disk.fsync fd else w.disk).dir = w.disk.dir ∧
            (if ok then w.disk.fsync fd else w.disk).next = w.disk.next ∧
            (if ok then w.disk.fsync fd else w.disk).data = w.disk.data := by
          cases ok <;> exact ⟨rfl, rfl, rfl⟩
        refine ⟨owner, kept.setPhase ?_ disk_eq.2.1 disk_eq.2.2 ?_ here
          (fun _ absent => by cases absent) ?_⟩
        · cases ok with
          | false => exact kept.entries
          | true => exact kept.entries.fsync fd
        · intro ino old
          have before := (kept.kept ino old).2
          cases ok with
          | false => exact before
          | true =>
              simp only [if_true, Files.Disk.fsync, Function.update_apply]
              split
              · rfl
              · exact before
        · intro t' name ino has entry
          rw [disk_eq.1] at entry
          exact kept.held t' name ino (setPhase_tmp same has) entry
      · cases taken
  | rename t ok =>
      simp only [DirWorld.step] at taken
      split at taken
      · rename_i user record tmpfilename fd at_
        split_ifs at taken
        · obtain ⟨disk, renamed, rfl⟩ := Option.map_eq_some_iff.mp taken
          exact ⟨owner, kept.rename at_ renamed⟩
        · cases taken
          refine ⟨owner, kept.setPhase_only trivial (fun _ absent => by cases absent) ?_⟩
          intro tmp same
          rw [at_]
          exact same
      · cases taken
  | unlink t ok =>
      simp only [DirWorld.step] at taken
      split at taken
      · cases taken
        cases ok with
        | true => exact ⟨owner, kept.unlink _⟩
        | false => exact ⟨owner, kept.finish trivial⟩
      · cases taken
  | stateRead t user opened =>
      simp only [DirWorld.step] at taken
      split at taken
      · split_ifs at taken
        · cases taken
          exact ⟨owner, kept.finish trivial⟩
        · have opened : OwnKept dir start owner (w.log (.opened t user)) := kept.result trivial
          split at taken
          · cases taken
            refine ⟨owner, opened.finish ?_⟩
            intro state parsed null nonnull
            cases null
            cases nonnull
          · rename_i fd entry
            cases taken
            refine ⟨owner, opened.setPhase_only ⟨kept.entries.here entry, List.nil_prefix, ?_⟩
              (fun _ absent => by cases absent) (fun _ absent => by cases absent)⟩
            exact Nat.zero_le _
      · cases taken
  | read t rc =>
      simp only [DirWorld.step] at taken
      split at taken
      · rename_i user fd buf at_
        have here := kept.phases t
        rw [at_] at here
        obtain ⟨linked, front, short⟩ := here
        cases rc with
        | again =>
            cases taken
            exact ⟨owner, kept⟩
        | error =>
            cases taken
            exact ⟨owner, kept.finish trivial⟩
        | bytes n =>
            simp only at taken
            split_ifs at taken with most zero ended
            · cases taken
              refine ⟨owner, kept.setPhase_only ⟨linked, ?_, ?_⟩
                (fun _ absent => by cases absent) (fun _ absent => by cases absent)⟩
              · obtain ⟨tail, split⟩ := front
                rw [← split, List.drop_left]
                exact List.prefix_append_right_inj _ |>.mpr (List.take_prefix n tail)
              · simp only [readable] at most
                simp only [List.length_append, List.length_take, List.length_drop]
                omega
            · cases taken
              exact ⟨owner, kept.finish (kept.gave at_ ended)⟩
      · cases taken
  | settle k =>
      cases taken
      exact ⟨owner, { kept with entries := kept.entries.settle k }⟩
  | crash k keep =>
      cases taken
      exact ⟨owner, kept.crash k keep⟩

end Keep

end Own

end Otpd

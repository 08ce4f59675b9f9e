import Otpd.Records
import Otpd.WorkThread

/-!
# Which line of otppasswd belongs to a user

`file_get` compares the beginning of each `fgets` piece with `username:`.  A line that
does not fit into the buffer comes in several pieces, and all but the first of them
start in its middle.
-/

set_option autoImplicit false

namespace Otpd

open CMem

/-! ## Lines and pieces -/

/-- The lines of a file, newlines included; `line` is the one begun, last byte first. -/
def linesFrom : List Byte → List Byte → List (List Byte)
  | line, [] => if line = [] then [] else [line.reverse]
  | line, b :: rest =>
      if b = 10 then (b :: line).reverse :: linesFrom [] rest else linesFrom (b :: line) rest

def linesOf (contents : List Byte) : List (List Byte) := linesFrom [] contents

section Pieces

variable {size room : Nat} {piece text rest : List Byte}

theorem linesFrom_newline (line : List Byte) (plain : (10 : Byte) ∉ text) :
    linesFrom line (text ++ 10 :: rest) = (line.reverse ++ (text ++ [10])) :: linesOf rest := by
  induction text generalizing line with
  | nil => simp [linesFrom, linesOf]
  | cons b text ih =>
      simp only [List.mem_cons, not_or] at plain
      rw [List.cons_append, linesFrom, if_neg (Ne.symm plain.1), ih _ plain.2]
      simp

theorem linesFrom_last (line : List Byte) (plain : (10 : Byte) ∉ text) :
    linesFrom line text = if line.reverse ++ text = [] then [] else [line.reverse ++ text] := by
  induction text generalizing line with
  | nil => simp [linesFrom]
  | cons b text ih =>
      simp only [List.mem_cons, not_or] at plain
      rw [linesFrom, if_neg (Ne.symm plain.1), ih _ plain.2]
      simp

/-- A newline ends a piece, whatever room is left. -/
theorem fgetsFrom_newline (plain : (10 : Byte) ∉ text) :
    fgetsFrom size room piece (text ++ 10 :: rest) =
      fgetsFrom size room piece (text ++ [10]) ++ fgetsAll size rest := by
  induction text generalizing room piece with
  | nil => simp [fgetsFrom, fgetsAll]
  | cons b text ih =>
      simp only [List.mem_cons, not_or] at plain
      simp only [List.cons_append, fgetsFrom]
      split
      · rw [ih plain.2, List.cons_append]
      · exact ih plain.2

/-- Either the file ends before a newline or its first line is cut off. -/
theorem first_line (contents : List Byte) :
    (10 : Byte) ∉ contents ∨
      ∃ text rest, (10 : Byte) ∉ text ∧ contents = text ++ 10 :: rest := by
  by_cases newline : (10 : Byte) ∈ contents
  · obtain ⟨text, rest, cut, plain⟩ := List.eq_append_cons_of_mem newline
    exact .inr ⟨text, rest, plain, cut⟩
  · exact .inl newline

theorem fgetsAll_lines (size : Nat) (contents : List Byte) :
    fgetsAll size contents = (linesOf contents).flatMap (fgetsAll size) := by
  induction length : contents.length using Nat.strong_induction_on generalizing contents with
  | _ n ih =>
      rcases first_line contents with plain | ⟨text, rest, plain, rfl⟩
      · rw [linesOf, linesFrom_last [] plain]
        cases contents with
        | nil => rfl
        | cons b contents => simp
      · have shorter : rest.length < n := by
          rw [← length, List.length_append, List.length_cons]
          omega
        rw [linesOf, linesFrom_newline [] plain, List.flatMap_cons, ← ih _ shorter rest rfl]
        exact fgetsFrom_newline plain

/-- A line as `linesOf` gives it: the only newline is at its end. -/
def OneLine (line : List Byte) : Prop := line ≠ [] ∧ (10 : Byte) ∉ line.dropLast

theorem linesOf_oneLine (contents : List Byte) : ∀ line ∈ linesOf contents, OneLine line := by
  induction length : contents.length using Nat.strong_induction_on generalizing contents with
  | _ n ih =>
      intro line inside
      rcases first_line contents with plain | ⟨text, rest, plain, rfl⟩
      · rw [linesOf, linesFrom_last [] plain] at inside
        split at inside
        · cases inside
        · rename_i some
          cases List.mem_singleton.mp inside
          exact ⟨some, fun newline => plain (List.mem_of_mem_dropLast newline)⟩
      · have shorter : rest.length < n := by
          rw [← length, List.length_append, List.length_cons]
          omega
        rw [linesOf, linesFrom_newline [] plain] at inside
        rcases List.mem_cons.mp inside with rfl | later
        · simp [OneLine, plain]
        · exact ih _ shorter rest rfl line later

/-- The first piece of a line has as much of it as there is room for. -/
theorem fgetsFrom_first (line : OneLine text) (room_pos : 1 ≤ room) :
    ∃ more, fgetsFrom size room piece text = (piece.reverse ++ text.take room) :: more := by
  induction text generalizing room piece with
  | nil => exact (line.1 rfl).elim
  | cons b text ih =>
      obtain ⟨below, rfl⟩ : ∃ below, room = below + 1 := ⟨room - 1, by omega⟩
      rw [fgetsFrom]
      split
      · rename_i full
        have short : text.take below = [] := by
          rcases full with newline | full
          · cases text with
            | nil => simp
            | cons c text =>
                refine (line.2 ?_).elim
                rw [List.dropLast_cons_cons, newline]
                exact List.mem_cons_self
          · rw [show below = 0 by omega, List.take_zero]
        exact ⟨_, by rw [List.take_succ_cons, short, List.reverse_cons]⟩
      · rename_i room_left
        cases text with
        | nil => exact ⟨[], by simp [fgetsFrom]⟩
        | cons c text =>
            have rest : OneLine (c :: text) := by
              refine ⟨List.cons_ne_nil _ _, fun newline => line.2 ?_⟩
              rw [List.dropLast_cons_cons]
              exact List.mem_cons_of_mem _ newline
            have begun : ∃ more, fgetsFrom size below (b :: piece) (c :: text) =
                ((b :: piece).reverse ++ (c :: text).take below) :: more := ih rest (by omega)
            obtain ⟨more, first⟩ := begun
            refine ⟨more, ?_⟩
            rw [Nat.add_sub_cancel, first, List.take_succ_cons, List.reverse_cons, List.append_assoc,
              List.singleton_append]

end Pieces

/-! ## The search -/

def StartsEntry (username : Username) (s : List Byte) : Prop := username.bytes ++ [58] <+: s

/-- The test of the search loop. -/
def isEntry (username : Username) (s : List Byte) : Bool :=
  s.take username.bytes.length = username.bytes ∧ s.getD username.bytes.length 0 = 58

/-- Line and piece of the line that `file_get` stops at. -/
def searchLines (username : Username) : List (List Byte) → Option (Nat × Nat)
  | [] => none
  | line :: rest =>
      match (fgetsAll 160 line).findIdx? (isEntry username ∘ cstr) with
      | some k => some (0, k)
      | none => (searchLines username rest).map fun place => (place.1 + 1, place.2)

/-- The first field of a line. -/
def firstField (line : List Byte) : Option (List Byte) :=
  if (58 : Byte) ∈ line then some (line.takeWhile (· ≠ 58)) else none

/-- The first line with this username in its first field. -/
def entryLine (username : Username) (lines : List (List Byte)) : Option Nat :=
  lines.findIdx? fun line => firstField line == some username.bytes

def pieceAt (lines : List (List Byte)) (place : Nat × Nat) : List Byte :=
  (fgetsAll 160 (lines.getD place.1 [])).getD place.2 []

section Search

variable {username : Username} {s line : List Byte} {lines : List (List Byte)}

theorem startsEntry_iff :
    StartsEntry username s ↔
      s.take username.bytes.length = username.bytes ∧ s.getD username.bytes.length 0 = 58 := by
  constructor
  · rintro ⟨rest, rfl⟩
    simp [List.getD]
  · rintro ⟨named, delimiter⟩
    obtain ⟨b, rest, cut⟩ : ∃ b rest, s.drop username.bytes.length = b :: rest := by
      cases cut : s.drop username.bytes.length with
      | nil =>
          have short : s.length ≤ username.bytes.length := List.drop_eq_nil_iff.mp cut
          rw [List.getD_eq_getElem?_getD, List.getElem?_eq_none short] at delimiter
          cases delimiter
      | cons b rest => exact ⟨b, rest, rfl⟩
    have whole := List.take_append_drop username.bytes.length s
    rw [named, cut] at whole
    subst whole
    have colon : b = 58 := by simpa [List.getD] using delimiter
    subst colon
    exact ⟨rest, by simp⟩

theorem isEntry_cstr : isEntry username (cstr s) = true ↔ StartsEntry username s := by
  have clean : ∀ b ∈ username.bytes ++ [58], decide (b ≠ 0) = true := by
    intro b inside
    apply decide_eq_true
    rintro rfl
    rcases List.mem_append.mp inside with name | colon
    · exact username.noNul name
    · exact absurd (List.mem_singleton.mp colon) (by decide)
  have before : StartsEntry username (cstr s) ↔ StartsEntry username s := by
    constructor
    · intro entry
      exact entry.trans (List.takeWhile_prefix _)
    · rintro ⟨rest, rfl⟩
      rw [StartsEntry, cstr, List.takeWhile_append_of_pos clean]
      exact List.prefix_append _ _
  rw [← before, startsEntry_iff, isEntry, decide_eq_true_iff]

theorem startsEntry_take : StartsEntry username (line.take 159) ↔ StartsEntry username line := by
  have bound := username.bound
  constructor
  · intro entry
    exact entry.trans (List.take_prefix _ _)
  · rintro ⟨rest, rfl⟩
    rw [StartsEntry, List.take_append, List.take_of_length_le]
    · exact List.prefix_append _ _
    · rw [List.length_append, List.length_singleton]
      omega

theorem firstField_iff :
    firstField line = some username.bytes ↔
      (58 : Byte) ∉ username.bytes ∧ StartsEntry username line := by
  constructor
  · intro field
    rw [firstField] at field
    split at field
    · rename_i colon
      obtain ⟨text, rest, rfl, plain⟩ := List.eq_append_cons_of_mem colon
      have letters : ∀ b ∈ text, decide (b ≠ 58) = true := by
        intro b inside
        apply decide_eq_true
        rintro rfl
        exact plain inside
      rw [List.takeWhile_append_of_pos letters, Option.some.injEq] at field
      have same : text = username.bytes := by simpa using field
      rw [← same]
      refine ⟨plain, rest, ?_⟩
      rw [← same, List.append_assoc, List.singleton_append]
    · cases field
  · rintro ⟨plain, rest, rfl⟩
    have letters : ∀ b ∈ username.bytes, decide (b ≠ 58) = true := by
      intro b inside
      apply decide_eq_true
      rintro rfl
      exact plain inside
    rw [firstField, if_pos (by simp), List.append_assoc, List.takeWhile_append_of_pos letters]
    simp

theorem searchLines_find (username : Username) (lines : List (List Byte)) :
    ((lines.flatMap (fgetsAll 160)).map cstr).find? (isEntry username) =
      (searchLines username lines).map fun place => cstr (pieceAt lines place) := by
  induction lines with
  | nil => rfl
  | cons line lines ih =>
      rw [List.flatMap_cons, List.map_append, List.find?_append, ih, searchLines]
      cases found : (fgetsAll 160 line).findIdx? (isEntry username ∘ cstr) with
      | none =>
          have none : ((fgetsAll 160 line).map cstr).find? (isEntry username) = none := by
            rw [List.find?_eq_bind_findIdx?_getElem?, List.findIdx?_map, found, Option.bind_none]
          rw [none, Option.none_or, Option.map_map]
          rfl
      | some k =>
          have first : ((fgetsAll 160 line).map cstr).find? (isEntry username) =
              some (cstr (pieceAt (line :: lines) (0, k))) := by
            obtain ⟨inside, -, -⟩ := List.findIdx?_eq_some_iff_getElem.mp found
            rw [List.find?_eq_bind_findIdx?_getElem?, List.findIdx?_map, found, Option.bind_some,
              List.getElem?_map, List.getElem?_eq_getElem inside]
            simp [pieceAt, List.getD, List.getElem?_eq_getElem inside]
          rw [first, Option.some_or]
          rfl

theorem fileGet_search (file : FileConfig) (contents : List Byte) (username : Username) :
    fileGet file ⟨true, contents, false⟩ username =
      match searchLines username (linesOf contents) with
      | none => .unknown
      | some place => fileParse file (cstr (pieceAt (linesOf contents) place)) := by
  have search := searchLines_find username (linesOf contents)
  rw [← fgetsAll_lines] at search
  have loop : fileGet file ⟨true, contents, false⟩ username =
      (((fgetsAll 160 contents).map cstr).find? (isEntry username)).elim .unknown
        (fileParse file) := by
    cases found : ((fgetsAll 160 contents).map cstr).find? (isEntry username) with
    | none =>
        unfold isEntry at found
        simp only [fileGet, found, Bool.true_eq_false, Bool.false_eq_true, if_false, Option.elim]
    | some s =>
        unfold isEntry at found
        simp only [fileGet, found, Bool.true_eq_false, if_false, Option.elim]
  rw [loop, search]
  cases searchLines username (linesOf contents) with
  | none => rfl
  | some place => rfl

/-- A username with a colon starts no piece, and no piece from the middle of a line
starts with `username:` unless that line or one before it does. -/
structure EntriesClear (username : Username) (lines : List (List Byte)) : Prop where
  colon : (58 : Byte) ∈ username.bytes →
    ∀ line ∈ lines, ∀ s ∈ fgetsAll 160 line, ¬ StartsEntry username s
  inner : ∀ before line after s, lines = before ++ line :: after → s ∈ (fgetsAll 160 line).tail →
    StartsEntry username s → ∃ start ∈ before ++ [line], StartsEntry username start

theorem entryLine_colon (colon : (58 : Byte) ∈ username.bytes) (lines : List (List Byte)) :
    entryLine username lines = none := by
  rw [entryLine, List.findIdx?_eq_none_iff]
  intro line _
  rw [beq_eq_false_iff_ne]
  intro field
  exact (firstField_iff.mp field).1 colon

theorem EntriesClear.of_head (plain : (58 : Byte) ∉ username.bytes)
    (entry : StartsEntry username line) : EntriesClear username (line :: lines) where
  colon := fun colon => (plain colon).elim
  inner := by
    intro before other after s cut _ _
    refine ⟨line, ?_, entry⟩
    cases before with
    | nil =>
        cases cut
        exact List.mem_singleton.mpr rfl
    | cons first before =>
        cases cut
        exact List.mem_cons_self

theorem EntriesClear.cons_iff (none : ∀ s ∈ fgetsAll 160 line, ¬ StartsEntry username s)
    (other : ¬ StartsEntry username line) :
    EntriesClear username (line :: lines) ↔ EntriesClear username lines := by
  constructor
  · intro clear
    refine ⟨fun colon l inside => clear.colon colon l (List.mem_cons_of_mem _ inside), ?_⟩
    intro before l after s cut inner entry
    obtain ⟨start, inside, starts⟩ :=
      clear.inner (line :: before) l after s (by rw [cut, List.cons_append]) inner entry
    rcases List.mem_cons.mp inside with rfl | later
    · exact (other starts).elim
    · exact ⟨start, later, starts⟩
  · intro clear
    refine ⟨?_, ?_⟩
    · intro colon l inside
      rcases List.mem_cons.mp inside with rfl | later
      · exact none
      · exact clear.colon colon l later
    · intro before l after s cut inner entry
      cases before with
      | nil =>
          cases cut
          exact (none s (List.mem_of_mem_tail inner) entry).elim
      | cons first before =>
          cases cut
          obtain ⟨start, inside, starts⟩ := clear.inner before l after s rfl inner entry
          exact ⟨start, List.mem_cons_of_mem _ inside, starts⟩

theorem searchLines_iff (wellFormed : ∀ line ∈ lines, OneLine line) :
    (searchLines username lines = (entryLine username lines).map fun n => (n, 0)) ↔
      EntriesClear username lines := by
  induction lines with
  | nil =>
      refine iff_of_true rfl ⟨?_, ?_⟩
      · intro _ line wrong
        cases wrong
      intro before line after s cut
      cases before with
      | nil => cases cut
      | cons first before => cases cut
  | cons line lines ih =>
      have later := ih fun l inside => wellFormed l (List.mem_cons_of_mem _ inside)
      obtain ⟨more, pieces⟩ : ∃ more, fgetsAll 160 line = line.take 159 :: more :=
        fgetsFrom_first (wellFormed line List.mem_cons_self) (by decide)
      have entry : entryLine username (line :: lines) =
          if firstField line == some username.bytes then some 0
          else (entryLine username lines).map (· + 1) := List.findIdx?_cons
      have search : (fgetsAll 160 line).findIdx? (isEntry username ∘ cstr) =
          if isEntry username (cstr (line.take 159)) then some 0
          else (more.findIdx? (isEntry username ∘ cstr)).map (· + 1) := by
        rw [pieces, List.findIdx?_cons]
        rfl
      by_cases starts : StartsEntry username line
      · rw [searchLines, search, if_pos (isEntry_cstr.mpr (startsEntry_take.mpr starts))]
        by_cases colon : (58 : Byte) ∈ username.bytes
        · rw [entryLine_colon colon]
          refine iff_of_false (by simp) ?_
          intro clear
          exact clear.colon colon line List.mem_cons_self (line.take 159)
            (by rw [pieces]; exact List.mem_cons_self) (startsEntry_take.mpr starts)
        · have named : firstField line = some username.bytes := firstField_iff.mpr ⟨colon, starts⟩
          rw [entry, named, beq_self_eq_true, if_pos rfl]
          exact iff_of_true rfl (.of_head colon starts)
      · have unnamed : (firstField line == some username.bytes) = false := by
          rw [beq_eq_false_iff_ne]
          exact fun named => starts (firstField_iff.mp named).2
        have first : isEntry username (cstr (line.take 159)) = false := by
          rw [Bool.eq_false_iff]
          exact fun wrong => starts (startsEntry_take.mp (isEntry_cstr.mp wrong))
        rw [searchLines, search, first, entry, unnamed, if_neg Bool.false_ne_true,
          if_neg Bool.false_ne_true]
        cases inner : more.findIdx? (isEntry username ∘ cstr) with
        | some k =>
            obtain ⟨inside, matching, -⟩ := List.findIdx?_eq_some_iff_getElem.mp inner
            refine iff_of_false ?_ ?_
            · intro same
              cases found : entryLine username lines with
              | none => simp [found] at same
              | some n => simp [found] at same
            · intro clear
              obtain ⟨start, only, starting⟩ := clear.inner [] line lines more[k] rfl
                (by rw [pieces]; exact List.getElem_mem inside) (isEntry_cstr.mp matching)
              rw [List.nil_append, List.mem_singleton] at only
              exact starts (only ▸ starting)
        | none =>
            have noPiece : ∀ s ∈ fgetsAll 160 line, ¬ StartsEntry username s := by
              intro s inside
              rw [pieces] at inside
              rcases List.mem_cons.mp inside with rfl | tail
              · exact fun entry => starts (startsEntry_take.mp entry)
              · have refused := List.findIdx?_eq_none_iff.mp inner s tail
                exact fun entry => absurd (isEntry_cstr.mpr entry) (Bool.eq_false_iff.mp refused)
            rw [EntriesClear.cons_iff noPiece starts, ← later]
            cases searchLines username lines with
            | none =>
                cases entryLine username lines with
                | none => simp
                | some n => simp
            | some place =>
                cases entryLine username lines with
                | none => simp
                | some n => simp [Prod.ext_iff]

/-- A line belongs to one username. -/
theorem entryLine_user {other : Username} {n : Nat} (first : entryLine username lines = some n)
    (second : entryLine other lines = some n) : username = other := by
  obtain ⟨inside, field, -⟩ := List.findIdx?_eq_some_iff_getElem.mp first
  obtain ⟨_, field', -⟩ := List.findIdx?_eq_some_iff_getElem.mp second
  rw [beq_iff_eq] at field field'
  exact CString.ext (Option.some.inj (field.symm.trans field'))

end Search

/-- `file_get` goes on with the start of the first line whose first field is the username,
splits that into the record it returns, and returns -1 when there is no such line. -/
structure ReadsOwnLine (file : FileConfig) (contents : List Byte) (username : Username) : Prop where
  own : ∀ place, searchLines username (linesOf contents) = some place →
    ∃ n, entryLine username (linesOf contents) = some n ∧ place = (n, 0)
  record : ∀ n, entryLine username (linesOf contents) = some n →
    fileGet file ⟨true, contents, false⟩ username =
      fileParse file (cstr (pieceAt (linesOf contents) (n, 0)))
  unknown : fileGet file ⟨true, contents, false⟩ username = .unknown ↔
    entryLine username (linesOf contents) = none

theorem fileParse_known (file : FileConfig) (s : List Byte) : fileParse file s ≠ .unknown := by
  intro wrong
  rw [fileParse] at wrong
  split at wrong
  · cases wrong
  · split at wrong
    · cases wrong
    · dsimp only at wrong
      split_ifs at wrong

theorem fileGet_unknown_iff (file : FileConfig) (contents : List Byte) (username : Username) :
    fileGet file ⟨true, contents, false⟩ username = .unknown ↔
      searchLines username (linesOf contents) = none := by
  rw [fileGet_search]
  cases searchLines username (linesOf contents) with
  | none => simp
  | some place => simp [fileParse_known]

theorem readsOwnLine_iff (file : FileConfig) (contents : List Byte) (username : Username) :
    ReadsOwnLine file contents username ↔ EntriesClear username (linesOf contents) := by
  rw [← searchLines_iff (linesOf_oneLine contents)]
  constructor
  · intro reads
    cases found : searchLines username (linesOf contents) with
    | none =>
        rw [reads.unknown.mp ((fileGet_unknown_iff file contents username).mpr found),
          Option.map_none]
    | some place =>
        obtain ⟨n, entry, rfl⟩ := reads.own place found
        rw [entry, Option.map_some]
  · intro same
    refine ⟨?_, ?_, ?_⟩
    · intro place found
      obtain ⟨n, entry, at_⟩ := Option.map_eq_some_iff.mp (same.symm.trans found)
      exact ⟨n, entry, at_.symm⟩
    · intro n entry
      rw [entry, Option.map_some] at same
      rw [fileGet_search, same]
    · rw [fileGet_unknown_iff, same, Option.map_eq_none_iff]

theorem file_get_reads_own_line_iff (file : FileConfig) (contents : List Byte)
    (username : Username) :
    (ReadsOwnLine file contents username ↔ EntriesClear username (linesOf contents)) ∧
      ∀ other place, ReadsOwnLine file contents username → ReadsOwnLine file contents other →
        searchLines username (linesOf contents) = some place →
        searchLines other (linesOf contents) = some place → username = other := by
  refine ⟨readsOwnLine_iff file contents username, ?_⟩
  intro other place reads reads' found found'
  obtain ⟨n, entry, rfl⟩ := reads.own place found
  obtain ⟨m, entry', at_⟩ := reads'.own _ found'
  cases at_
  exact entryLine_user entry entry'

def frank : Username := ⟨ascii "frank", by decide, by decide⟩

def franksDouble : Username := ⟨ascii "frank:hotp-d6", by decide, by decide⟩

def franksLine : List Byte := ascii "frank:hotp-d6:000102030405060708090A0B0C0D0E0F10111213:3132\n"

theorem file_get_reads_franks_line :
    EntriesClear frank (linesOf franksLine) ∧ ReadsOwnLine ⟨.clear, 0⟩ franksLine frank := by
  have same : searchLines frank (linesOf franksLine) =
      (entryLine frank (linesOf franksLine)).map fun n => (n, 0) := by decide +kernel
  have clear := (searchLines_iff (linesOf_oneLine franksLine)).mp same
  exact ⟨clear, (file_get_reads_own_line_iff ⟨.clear, 0⟩ franksLine frank).1.mpr clear⟩

/-- Both names resolve to the one line and get the same record. -/
theorem file_get_reads_others_line :
    badUsername franksDouble = false ∧
      fileGet ⟨.clear, 0⟩ ⟨true, franksLine, false⟩ franksDouble =
        fileGet ⟨.clear, 0⟩ ⟨true, franksLine, false⟩ frank ∧
      fileGet ⟨.clear, 0⟩ ⟨true, franksLine, false⟩ frank ≠ .unknown ∧
      ¬ ReadsOwnLine ⟨.clear, 0⟩ franksLine franksDouble := by
  have double : searchLines franksDouble (linesOf franksLine) = some (0, 0) := by decide +kernel
  have single : searchLines frank (linesOf franksLine) = some (0, 0) := by decide +kernel
  refine ⟨by decide, ?_, ?_, ?_⟩
  · rw [fileGet_search, fileGet_search, double, single]
  · rw [ne_eq, fileGet_unknown_iff, single]
    exact Option.some_ne_none _
  · intro reads
    obtain ⟨n, entry, -⟩ := reads.own _ double
    rw [entryLine_colon (by decide)] at entry
    cases entry

end Otpd

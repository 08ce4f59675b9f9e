import Otpd.Lib.Files
import Otpd.Lib.Schedule
import Otpd.StateFile

/-!
# The state directory

`state_read` and `state_write` as the system calls they make, for any number of threads
and users in one directory.  Every call may fail, writes and reads may be short, and the
machine may crash between any two calls.
-/

set_option autoImplicit false

namespace Otpd

open CMem
open Files (Disk)

/-! ## Names -/

def pathMax : Nat := 4096

/-- `config.state.statedir`. -/
structure Statedir where
  bytes : List Byte
  absolute : bytes.head? = some 47
  bound : bytes.length ≤ pathMax - 31 - 8

/-- `none` for `exit(1)`. -/
def setStatedir (arg : List Byte) : Option Statedir :=
  if accepted : arg.head? = some 47 ∧ arg.length ≤ pathMax - 31 - 8 then
    some ⟨arg, accepted.1, accepted.2⟩
  else none

/-- What `snprintf` leaves in a buffer when it prints a text. -/
def snprintf (size : Nat) (text : List Byte) : List Byte := text.take (size - 1)

def stateFilename (dir : Statedir) (username : Username) : List Byte :=
  snprintf pathMax (dir.bytes ++ 47 :: username.bytes)

def stateTemplate (dir : Statedir) (username : Username) : List Byte :=
  snprintf pathMax (dir.bytes ++ 47 :: (username.bytes ++ ascii "XXXXXX"))

/-- The characters `mkstemp` puts for an X. -/
def mkstempChar (c : Byte) : Bool :=
  (48 ≤ c && c ≤ 57) || (65 ≤ c && c ≤ 90) || (97 ≤ c && c ≤ 122)

/-- The name `mkstemp` makes of a template; `none` is `EINVAL`. -/
def mkstempName (template suffix : List Byte) : Option (List Byte) :=
  if template.drop (template.length - 6) = ascii "XXXXXX" ∧ suffix.length = 6 ∧
      suffix.all mkstempChar = true then
    some (template.take (template.length - 6) ++ suffix)
  else none

/-- The user's files are entries of the directory itself. -/
def inDirectory (username : Username) : Bool :=
  username.bytes ≠ [] && !username.bytes.contains 47 && username.bytes ≠ ascii "." &&
    username.bytes ≠ ascii ".."

/-! ## The calls -/

inductive IoPhase where
  | idle
  | writing (user : Username) (record : StateRecord) (tmpfilename : List Byte) (fd : Nat)
      (rest : List Byte)
  | written (user : Username) (record : StateRecord) (tmpfilename : List Byte) (fd : Nat)
  | closed (user : Username) (record : StateRecord) (tmpfilename : List Byte) (fd : Nat)
  | undoing (user : Username) (record : StateRecord) (tmpfilename : List Byte)
  | reading (user : Username) (fd : Nat) (buf : List Byte)

/-- The temporary file that a thread has made. -/
def IoPhase.tmp? : IoPhase → Option (List Byte)
  | .writing _ _ tmpfilename _ _ | .written _ _ tmpfilename _ | .closed _ _ tmpfilename _
  | .undoing _ _ tmpfilename => some tmpfilename
  | _ => none

/-- What calls returned; `opened` is `open` in `state_read`. -/
inductive IoResult where
  | wrote (user : Username) (record : StateRecord)
  | notWritten (user : Username) (record : StateRecord)
  | opened (t : Nat) (user : Username)
  | gave (t : Nat) (user : Username) (buf : Option (List Byte))
  | crashed
  deriving DecidableEq

inductive ReadRc where
  | again
  | error
  | bytes (n : Nat)

/-- System calls of thread `t` and what they come to.  The first call of `state_write`
is `mkstemp`, which fails or finds a suffix; `write` writes `n` bytes or fails.  An
error of `read` is equally one of `lseek` behind it. -/
inductive IoEvent where
  | stateWrite (t : Nat) (user : Username) (record : StateRecord) (suffix : Option (List Byte))
  | write (t : Nat) (n : Option Nat)
  | fsync (t : Nat) (ok : Bool)
  | rename (t : Nat) (ok : Bool)
  | unlink (t : Nat) (ok : Bool)
  | stateRead (t : Nat) (user : Username) (opened : Bool)
  | read (t : Nat) (rc : ReadRc)
  | settle (k : Nat)
  | crash (k : Nat) (keep : Nat → Nat)

/-- `calls` are the calls of `state_write` and `results` what happened, oldest first;
neither is in the source. -/
structure DirWorld where
  disk : Disk (List Byte) Byte
  phase : Nat → IoPhase
  calls : List (Username × StateRecord)
  results : List IoResult

def DirWorld.start (disk : Disk (List Byte) Byte) : DirWorld := ⟨disk, fun _ => .idle, [], []⟩

def DirWorld.setPhase (w : DirWorld) (t : Nat) (phase : IoPhase) : DirWorld :=
  { w with phase := Function.update w.phase t phase }

@[simp]
theorem DirWorld.setPhase_self (w : DirWorld) (t : Nat) (phase : IoPhase) :
    (w.setPhase t phase).phase t = phase := by
  simp only [DirWorld.setPhase, Function.update_self]

theorem DirWorld.setPhase_ne (w : DirWorld) {t t' : Nat} (ne : t' ≠ t) (phase : IoPhase) :
    (w.setPhase t phase).phase t' = w.phase t' := by
  simp only [DirWorld.setPhase, Function.update_of_ne ne]

def DirWorld.log (w : DirWorld) (result : IoResult) : DirWorld :=
  { w with results := w.results ++ [result] }

def DirWorld.finish (w : DirWorld) (t : Nat) (result : IoResult) : DirWorld :=
  (w.setPhase t .idle).log result

/-- The line in the file, with the LF that `state_write` adds. -/
def stateLineOf (user : Username) (record : StateRecord) : List Byte :=
  stateWrite (stateUnparse user record)

/-- The end of `state_read`, once `read` returned 0; `size` is where `SEEK_END` is. -/
def endRead (buf : List Byte) (size : Nat) : Option (List Byte) :=
  if buf.length = gsmMaxStateLen ∧ buf.length ≠ size then none
  else if buf = [] then some []
  else if buf.getLast? = some 10 then some (buf.dropLast ++ [0])
  else some (buf ++ [0])

/-- How much `read` can give. -/
def readable (data buf : List Byte) : Nat :=
  min (gsmMaxStateLen - buf.length) (data.length - buf.length)

/-- One system call; `none` when the thread is not there, or the call cannot come to
that.  Usernames that lead out of the directory are left out. -/
def DirWorld.step (dir : Statedir) (w : DirWorld) : IoEvent → Option DirWorld
  | .stateWrite t user record suffix =>
    match w.phase t with
    | .idle =>
      if inDirectory user = false then none
      else
        let w := { w with calls := w.calls ++ [(user, record)] }
        match suffix with
        | none => some (w.finish t (.notWritten user record))
        | some suffix => do
            let tmpfilename ← mkstempName (stateTemplate dir user) suffix
            let (fd, disk) ← w.disk.create tmpfilename
            some { w.setPhase t (.writing user record tmpfilename fd (stateLineOf user record)) with
              disk := disk }
    | _ => none
  | .write t n =>
    match w.phase t with
    | .writing user record tmpfilename fd rest =>
      match n with
      | none => some (w.setPhase t (.undoing user record tmpfilename))
      | some n =>
        if n > rest.length then none
        else
          let next := if rest.drop n = [] then IoPhase.written user record tmpfilename fd
            else .writing user record tmpfilename fd (rest.drop n)
          some { w.setPhase t next with disk := w.disk.append fd (rest.take n) }
    | _ => none
  | .fsync t ok =>
    match w.phase t with
    | .written user record tmpfilename fd =>
        some { w.setPhase t (.closed user record tmpfilename fd) with
          disk := if ok then w.disk.fsync fd else w.disk }
    | _ => none
  | .rename t ok =>
    match w.phase t with
    | .closed user record tmpfilename _ =>
      if ok then
        (w.disk.rename tmpfilename (stateFilename dir user)).map fun disk =>
          { w.finish t (.wrote user record) with disk := disk }
      else some (w.setPhase t (.undoing user record tmpfilename))
    | _ => none
  | .unlink t ok =>
    match w.phase t with
    | .undoing user record tmpfilename =>
        some { w.finish t (.notWritten user record) with
          disk := if ok then w.disk.unlink tmpfilename else w.disk }
    | _ => none
  | .stateRead t user opened =>
    match w.phase t with
    | .idle =>
      if inDirectory user = false then none
      else if opened = false then some (w.finish t (.gave t user none))
      else
        let w := w.log (.opened t user)
        match w.disk.dir (stateFilename dir user) with
        | none => some (w.finish t (.gave t user (some [])))
        | some fd => some (w.setPhase t (.reading user fd []))
    | _ => none
  | .read t rc =>
    match w.phase t with
    | .reading user fd buf =>
      match rc with
      | .again => some w
      | .error => some (w.finish t (.gave t user none))
      | .bytes n =>
        if n > readable (w.disk.data fd) buf then none
        else if n ≠ 0 then
          some (w.setPhase t (.reading user fd (buf ++ ((w.disk.data fd).drop buf.length).take n)))
        else if readable (w.disk.data fd) buf = 0 then
          some (w.finish t (.gave t user (endRead buf (w.disk.data fd).length)))
        else none
    | _ => none
  | .settle k => some { w with disk := w.disk.settle k }
  | .crash k keep =>
    some { w.log .crashed with disk := w.disk.crash k keep, phase := fun _ => .idle }

/-! ## No name is cut off -/

section Names

variable (dir : Statedir) (user : Username)

theorem stateFilename_eq : stateFilename dir user = dir.bytes ++ 47 :: user.bytes := by
  have := dir.bound
  have := user.bound
  apply List.take_of_length_le
  simp only [pathMax, List.length_append, List.length_cons] at *
  omega

theorem stateTemplate_eq : stateTemplate dir user = stateFilename dir user ++ ascii "XXXXXX" := by
  have := dir.bound
  have := user.bound
  rw [stateFilename_eq, stateTemplate, List.append_assoc, List.cons_append]
  apply List.take_of_length_le
  have six : (ascii "XXXXXX").length = 6 := rfl
  simp only [pathMax, List.length_append, List.length_cons, six] at *
  omega

/-- The names of the temporary files of a user. -/
def Temporary (name : List Byte) : Prop :=
  ∃ s : List Byte, s.length = 6 ∧ (∀ c ∈ s, mkstempChar c = true) ∧
    name = stateFilename dir user ++ s

variable {dir user} {suffix name : List Byte}

theorem mkstempName_temporary (made : mkstempName (stateTemplate dir user) suffix = some name) :
    Temporary dir user name := by
  rw [mkstempName] at made
  split_ifs at made with accepted
  cases made
  refine ⟨suffix, accepted.2.1, List.all_eq_true.mp accepted.2.2, ?_⟩
  have six : (ascii "XXXXXX").length = 6 := rfl
  rw [stateTemplate_eq, List.length_append, six, Nat.add_sub_cancel, List.take_left]

theorem stateFilename_inj {user' : Username}
    (same : stateFilename dir user = stateFilename dir user') : user = user' := by
  rw [stateFilename_eq, stateFilename_eq] at same
  ext1
  exact (List.cons.inj (List.append_cancel_left same)).2

/-- Two users' temporary files have one name only if the users are the same. -/
theorem Temporary.user_eq {user' : Username} (first : Temporary dir user name)
    (second : Temporary dir user' name) : user = user' := by
  obtain ⟨s, size, -, rfl⟩ := first
  obtain ⟨s', size', -, same⟩ := second
  exact stateFilename_inj (List.append_inj_left' same (by rw [size, size']))

end Names

/-- The loop of `state_read` came to the end of the file, or of its buffer. -/
theorem endRead_eq {data buf : List Byte} (front : buf <+: data)
    (short : buf.length ≤ gsmMaxStateLen) (ended : readable data buf = 0) :
    endRead buf data.length = stateRead true (some data) := by
  have size := front.length_le
  simp only [readable] at ended
  simp only [endRead, stateRead, Bool.not_true, Bool.false_eq_true, if_false]
  by_cases large : data.length > gsmMaxStateLen
  · rw [if_pos large, if_pos]
    exact ⟨by omega, by omega⟩
  · have whole : buf = data := front.eq_of_length (by omega)
    subst whole
    rw [if_neg large, if_neg]
    exact fun full => full.2 rfl

def sampleStatedir : Statedir := ⟨ascii "/s", by decide, by decide⟩

def emptyDisk : Disk (List Byte) Byte := ⟨fun _ => none, [], fun _ => [], fun _ => true, 0⟩

theorem emptyDisk_atRest : emptyDisk.AtRest :=
  ⟨rfl, (fun _ _ absent => by cases absent), fun _ below => absurd below (Nat.not_lt_zero _)⟩

def henry : Username := ⟨ascii "henry", by decide, by decide⟩

end Otpd

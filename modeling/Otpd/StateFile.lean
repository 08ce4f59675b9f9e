import Otpd.Mac

/-!
# The state line

`state_parse`, `state_unparse`, `state_read` and `state_write` of `state.c`.  The
line is kept as text; `StateRecord` is what it denotes.  `deliver_persist` says
that whatever was persisted, in either state mode, is read back field by field.
-/

set_option autoImplicit false

namespace Otpd

open CMem

/-- What one state line says. -/
@[ext]
structure StateRecord where
  challenge : List Byte
  challengeBound : challenge.length ≤ 16
  csd : StateField 63
  rd : StateField 31
  failcount : UInt32
  authtime : UInt32
  mincardtime : UInt32
  deriving DecidableEq

def State.record (state : State) : StateRecord where
  challenge := state.challenge.bytes.take state.clen
  challengeBound := by have := state.clen.isLt; simp only [List.length_take]; omega
  csd := state.csd
  rd := state.rd
  failcount := state.failcount
  authtime := state.authtime
  mincardtime := state.mincardtime

def State.fill (state : State) (record : StateRecord) : State :=
  { state with
    nullstate := false
    clen := ⟨record.challenge.length, by have := record.challengeBound; omega⟩
    challenge := state.challenge.copy record.challenge
    csd := record.csd
    rd := record.rd
    failcount := record.failcount
    authtime := record.authtime
    mincardtime := record.mincardtime }

@[simp]
theorem State.record_fill (state : State) (record : StateRecord) :
    (state.fill record).record = record := by
  ext1 <;> simp [State.record, State.fill, Buffer.copy_take _ _ record.challengeBound]

/-! ## `state_parse` -/

/-- `strlen(p) > n` guards the copy; the delimiter search has already excluded
`:` and NUL. -/
def StateField.ofBytes (n : Nat) (bytes : List Byte) : Option (StateField n) :=
  if clean : bytes.length ≤ n ∧ (58 : Byte) ∉ bytes ∧ (0 : Byte) ∉ bytes then
    some ⟨bytes, clean.1, clean.2.1, clean.2.2⟩
  else none

theorem StateField.ofBytes_bytes {n : Nat} (field : StateField n) :
    StateField.ofBytes n field.bytes = some field := by
  rw [StateField.ofBytes, dif_pos ⟨field.bound, field.noColon, field.noNul⟩]

def parseChallenge (hex : List Byte) : Option { bytes : List Byte // bytes.length ≤ 16 } :=
  if hex.length > 32 then none
  else if hex.length % 2 = 1 then none
  else
    match a2x hex with
    | none => none
    | some bytes => if bound : bytes.length ≤ 16 then some ⟨bytes, bound⟩ else none

/-- `state_parse` from the challenge field on. -/
def parseFields (p : List Byte) : Option StateRecord := do
  let (hex, p) ← splitAt 58 p
  let challenge ← parseChallenge hex
  let (text, p) ← splitAt 58 p
  let csd ← StateField.ofBytes 63 text
  let (text, p) ← splitAt 58 p
  let rd ← StateField.ofBytes 31 text
  let (text, p) ← splitAt 58 p
  let failcount ← scanHex text
  let (text, p) ← splitAt 58 p
  let authtime ← scanHex text
  let (text, _) ← splitAt 58 p
  let mincardtime ← scanHex text
  some ⟨challenge.val, challenge.property, csd, rd, failcount, authtime, mincardtime⟩

def parseLine (buf : List Byte) (username : Username) : Option StateRecord :=
  let ulen := username.bytes.length
  if buf.length < 4 + ulen then none
  else if buf.take 2 ≠ [53, 58] then none
  else if (buf.drop 2).take (ulen + 1) ≠ username.bytes ++ [58] then none
  else parseFields (buf.drop (2 + (ulen + 1)))

/-- `buf` holds `buflen` bytes, the last of them NUL; an empty one is null state. -/
def stateParse (buf : List Byte) (username : Username) (state : State) : Option State :=
  if buf = [] then some { state with nullstate := true }
  else (parseLine buf username).map state.fill

/-! ## `state_unparse` -/

def unparseFields (record : StateRecord) : List Byte :=
  x2a record.challenge x2aHexConversion ++ 58 :: (record.csd.bytes ++ 58 ::
    (record.rd.bytes ++ 58 :: (printHex record.failcount ++ 58 ::
      (printHex record.authtime ++ 58 :: (printHex record.mincardtime ++ [58])))))

def stateUnparse (username : Username) (record : StateRecord) : List Byte :=
  [53, 58] ++ (username.bytes ++ [58] ++ unparseFields record)

/-! ## `state_read` and `state_write` -/

def gsmMaxStateLen : Nat := 892

/-- `none` is the error return; a missing or empty file gives no bytes. -/
def stateRead (readable : Bool) (file : Option (List Byte)) : Option (List Byte) :=
  if !readable then none
  else
    match file with
    | none => some []
    | some bytes =>
      if bytes.length > gsmMaxStateLen then none
      else if bytes = [] then some []
      else if bytes.getLast? = some 10 then some (bytes.dropLast ++ [0])
      else some (bytes ++ [0])

def stateWrite (buf : List Byte) : List Byte :=
  if buf ≠ [] ∧ buf.getLast? ≠ some 10 then buf ++ [10] else buf

/-- The state kept for one user: a file, or gsmd's copy of the line. -/
abbrev Store := Option (List Byte)

/-- The bytes handed to `state_parse`: the file as `state_read` leaves it, or the
gsmd answer past `A username `. -/
def deliver (mode : StateMode) (readable : Bool) (store : Store) : Option (List Byte) :=
  match mode with
  | .localMode => stateRead readable store
  | .globalMode =>
    match store with
    | none => some []
    | some text => some (text ++ [0])

def persist (mode : StateMode) (text : List Byte) : Store :=
  match mode with
  | .localMode => some (stateWrite text)
  | .globalMode => some text

/-! ## Round trip -/

theorem parseChallenge_x2a (bytes : List Byte) (bound : bytes.length ≤ 16) :
    parseChallenge (x2a bytes x2aHexConversion) = some ⟨bytes, bound⟩ := by
  have notLong : ¬ (x2a bytes x2aHexConversion).length > 32 := by
    rw [x2a_length]
    omega
  have even : ¬ (x2a bytes x2aHexConversion).length % 2 = 1 := by
    rw [x2a_length]
    omega
  rw [parseChallenge, if_neg notLong, if_neg even, a2x_x2a]
  exact dif_pos bound

theorem parseFields_unparse (record : StateRecord) (tail : List Byte) :
    parseFields (unparseFields record ++ tail) = some record := by
  have numeral : ∀ (n : UInt32) (rest : List Byte),
      splitAt 58 (printHex n ++ 58 :: rest) = some (printHex n, rest) := fun n rest =>
    splitAt_append 58 _ rest (printHex_clean n).1 (printHex_clean n).2
  have field : ∀ {n : Nat} (f : StateField n) (rest : List Byte),
      splitAt 58 (f.bytes ++ 58 :: rest) = some (f.bytes, rest) := fun f rest =>
    splitAt_append 58 _ rest f.noColon f.noNul
  have hex : ∀ rest, splitAt 58 (x2a record.challenge x2aHexConversion ++ 58 :: rest) =
      some (x2a record.challenge x2aHexConversion, rest) := fun rest =>
    splitAt_append 58 _ rest (x2a_clean _).1 (x2a_clean _).2
  have text : unparseFields record ++ tail =
      x2a record.challenge x2aHexConversion ++ 58 :: (record.csd.bytes ++ 58 ::
        (record.rd.bytes ++ 58 :: (printHex record.failcount ++ 58 ::
          (printHex record.authtime ++ 58 :: (printHex record.mincardtime ++ 58 :: tail))))) := by
    simp only [unparseFields, List.append_assoc, List.cons_append, List.nil_append]
  rw [text, parseFields, hex]
  dsimp only [Option.bind_eq_bind, Option.bind_some]
  rw [parseChallenge_x2a _ record.challengeBound, Option.bind_some, field record.csd]
  dsimp only [Option.bind_some]
  rw [StateField.ofBytes_bytes, Option.bind_some, field record.rd]
  dsimp only [Option.bind_some]
  rw [StateField.ofBytes_bytes, Option.bind_some, numeral]
  dsimp only [Option.bind_some]
  rw [scanHex_printHex, Option.bind_some, numeral]
  dsimp only [Option.bind_some]
  rw [scanHex_printHex, Option.bind_some, numeral]
  dsimp only [Option.bind_some]
  rw [scanHex_printHex, Option.bind_some]

theorem unparseFields_length (record : StateRecord) :
    6 ≤ (unparseFields record).length ∧ (unparseFields record).length ≤ 156 := by
  have := record.challengeBound
  have := record.csd.bound
  have := record.rd.bound
  have := printHex_length_le record.failcount
  have := printHex_length_le record.authtime
  have := printHex_length_le record.mincardtime
  simp only [unparseFields, List.length_append, List.length_cons, List.length_nil, x2a_length]
  omega

theorem parseLine_unparse (username : Username) (record : StateRecord) (tail : List Byte) :
    parseLine (stateUnparse username record ++ tail) username = some record := by
  have size := (unparseFields_length record).1
  have long : ¬ (stateUnparse username record ++ tail).length < 4 + username.bytes.length := by
    simp only [stateUnparse, List.length_append, List.length_cons, List.length_nil]
    omega
  have version : (stateUnparse username record ++ tail).take 2 = [53, 58] := by
    simp [stateUnparse]
  have afterVersion : (stateUnparse username record ++ tail).drop 2 =
      (username.bytes ++ [58]) ++ (unparseFields record ++ tail) := by
    simp [stateUnparse]
  have named : ((stateUnparse username record ++ tail).drop 2).take (username.bytes.length + 1) =
      username.bytes ++ [58] := by
    rw [afterVersion]
    exact List.take_left' (by simp)
  have body : (stateUnparse username record ++ tail).drop (2 + (username.bytes.length + 1)) =
      unparseFields record ++ tail := by
    rw [← List.drop_drop, afterVersion]
    exact List.drop_left' (by simp)
  simp only [parseLine, if_neg long, version, named, body, ne_eq, not_true_eq_false, if_false]
  exact parseFields_unparse record tail

theorem stateUnparse_getLast (username : Username) (record : StateRecord) :
    (stateUnparse username record).getLast? = some 58 := by
  simp only [stateUnparse, unparseFields, ← List.append_assoc, ← List.cons_append,
    List.getLast?_append, Option.or_some, List.getLast?_cons]
  simp

theorem stateWrite_unparse (username : Username) (record : StateRecord) :
    stateWrite (stateUnparse username record) = stateUnparse username record ++ [10] := by
  rw [stateWrite, if_pos]
  exact ⟨by simp [stateUnparse], by rw [stateUnparse_getLast]; decide⟩

/-- Both transports hand back the printed line followed by something that
`state_parse` does not look at. -/
theorem deliver_persist (mode mode' : StateMode) (username : Username) (record : StateRecord) :
    ∃ tail, deliver mode' true (persist mode (stateUnparse username record)) =
      some (stateUnparse username record ++ tail) := by
  have body := (unparseFields_length record).2
  have name := username.bound
  have size : (stateUnparse username record).length ≤ 190 := by
    simp only [stateUnparse, List.length_append, List.length_cons, List.length_nil]
    omega
  have nonempty : stateUnparse username record ≠ [] := by simp [stateUnparse]
  cases mode' with
  | globalMode =>
      cases mode with
      | globalMode => exact ⟨[0], rfl⟩
      | localMode =>
          refine ⟨[10, 0], ?_⟩
          simp only [deliver, persist, stateWrite_unparse, List.append_assoc, List.cons_append,
            List.nil_append]
  | localMode =>
      refine ⟨[0], ?_⟩
      cases mode with
      | globalMode =>
          have short : ¬ (stateUnparse username record).length > gsmMaxStateLen := by
            simp only [gsmMaxStateLen]
            omega
          have last : ¬ (stateUnparse username record).getLast? = some 10 := by
            rw [stateUnparse_getLast]
            decide
          simp only [deliver, persist, stateRead, Bool.not_true, Bool.false_eq_true, if_false,
            if_neg short, if_neg nonempty, if_neg last]
      | localMode =>
          have short : ¬ (stateUnparse username record ++ [10]).length > gsmMaxStateLen := by
            simp only [gsmMaxStateLen, List.length_append, List.length_cons, List.length_nil]
            omega
          simp only [deliver, persist, stateWrite_unparse, stateRead, Bool.not_true,
            Bool.false_eq_true, if_false, if_neg short, List.append_eq_nil_iff, nonempty,
            false_and, List.getLast?_concat, if_true, List.dropLast_concat]

theorem stateParse_unparse (username : Username) (record : StateRecord) (tail : List Byte)
    (state : State) :
    stateParse (stateUnparse username record ++ tail) username state =
      some (state.fill record) := by
  have nonempty : stateUnparse username record ++ tail ≠ [] := by simp [stateUnparse]
  rw [stateParse, if_neg nonempty, parseLine_unparse]
  rfl

/-! ## Both transports -/

/-- gsmd's answer to a GET, `A username state` with its NUL. -/
def gsmdAnswer (username : Username) (text : List Byte) : List Byte :=
  65 :: 32 :: (username.bytes ++ 32 :: (text ++ [0]))

/-- `state_get_global` once `gsmd` has accepted the message `pmsg`. -/
def stateGetGlobal (pmsg : List Byte) (username : Username) (state : State) : Option State :=
  (stateParse (pmsg.drop (3 + username.bytes.length)) username state).map
    ({ · with locked := true, updated := false })

theorem gsmdAnswer_state (username : Username) (text : List Byte) :
    (gsmdAnswer username text).drop (3 + username.bytes.length) = text ++ [0] := by
  have header : gsmdAnswer username text = (65 :: 32 :: (username.bytes ++ [32])) ++ (text ++ [0]) := by
    simp [gsmdAnswer]
  rw [header]
  apply List.drop_left'
  simp only [List.length_cons, List.length_append, List.length_nil]
  omega

/-- The answer's text is what `deliver` hands on in global mode. -/
theorem stateGetGlobal_answer (username : Username) (text : List Byte) (state : State) :
    stateGetGlobal (gsmdAnswer username text) username state =
      ((deliver .globalMode true (some text)).bind (stateParse · username state)).map
        ({ · with locked := true, updated := false }) := by
  rw [stateGetGlobal, gsmdAnswer_state]
  rfl

theorem State.fill_clen (fresh state : State) : (fresh.fill state.record).clen = state.clen := by
  apply Fin.ext
  have := state.clen.isLt
  have := state.challenge.size
  simp only [State.fill, State.record, List.length_take]
  omega

theorem state_codec_both_transports (username : Username) (state fresh : State) :
    (∃ buf parsed,
      stateRead true (some (stateWrite (stateUnparse username state.record))) = some buf ∧
      stateParse buf username fresh = some parsed ∧
      parsed.nullstate = false ∧ parsed.clen = state.clen ∧ parsed.record = state.record) ∧
    (∃ parsed,
      stateGetGlobal (gsmdAnswer username (stateUnparse username state.record)) username fresh =
        some parsed ∧
      parsed.nullstate = false ∧ parsed.clen = state.clen ∧ parsed.record = state.record) := by
  constructor
  · obtain ⟨tail, delivered⟩ := deliver_persist .localMode .localMode username state.record
    exact ⟨_, _, delivered, stateParse_unparse username state.record tail fresh, rfl,
      fresh.fill_clen state, fresh.record_fill state.record⟩
  · refine ⟨{ fresh.fill state.record with locked := true, updated := false }, ?_, rfl,
      fresh.fill_clen state, fresh.record_fill state.record⟩
    rw [stateGetGlobal, gsmdAnswer_state, stateParse_unparse]
    rfl

end Otpd

import Otpd.Gsmd
import Otpd.Lib.Cells

/-!
# Bounds of the state parser

`state_parse` again, this time on the cells of its buffer, with every access checked, and
the way back: `state_unparse` into the buffers of `state_put_local` and
`state_put_global`.  `stateParseAt_eq` says that on a buffer whose last cell is NUL it is
the parser of the state line and never faults.
-/

set_option autoImplicit false

namespace Otpd

open CMem
open Cells

/-- What `state_parse` fills in; `challenge` is the first `clen` bytes of the array. -/
structure ParsedState where
  challenge : List Byte
  csd : List Byte
  rd : List Byte
  failcount : UInt32
  authtime : UInt32
  mincardtime : UInt32

def StateRecord.parsed (record : StateRecord) : ParsedState :=
  ⟨record.challenge, record.csd.bytes, record.rd.bytes, record.failcount, record.authtime,
    record.mincardtime⟩

/-! ## `state_parse` -/

/-- The delimiter search and the NUL in place of it, with the string in front and the
position behind. -/
def fieldAt (mem : List Byte) (p : Nat) : Run (List Byte × List Byte × Nat) := do
  let (mem, q) ← cut 58 mem p
  let text ← strAt mem p
  return (text, mem, q)

def parseFieldsAt (mem : List Byte) (p : Nat) : Run ParsedState := do
  let (text, mem, p) ← fieldAt mem p
  Run.require (text.length ≤ 16 * 2)
  Run.require (text.length % 2 = 0)
  let challenge ← Run.ofOption (a2x text)
  let (csd, mem, p) ← fieldAt mem p
  Run.require (csd.length ≤ 63)
  let (rd, mem, p) ← fieldAt mem p
  Run.require (rd.length ≤ 31)
  let (text, mem, p) ← fieldAt mem p
  let failcount ← Run.ofOption (scanHex text)
  let (text, mem, p) ← fieldAt mem p
  let authtime ← Run.ofOption (scanHex text)
  let (text, _, _) ← fieldAt mem p
  let mincardtime ← Run.ofOption (scanHex text)
  return ⟨challenge, csd, rd, failcount, authtime, mincardtime⟩

/-- `none` is null state. -/
def stateParseAt (mem : List Byte) (buflen : Nat) (username : Username) :
    Run (Option ParsedState) :=
  let ulen := username.bytes.length
  if buflen = 0 then .done none
  else do
    Run.require (4 + ulen ≤ buflen)
    let version ← load mem 0
    Run.require (version = 53)
    let delimiter ← load mem 1
    Run.require (delimiter = 58)
    let same ← strncmpEq mem 2 username.bytes
    Run.require (same = true)
    let delimiter ← load mem (2 + ulen)
    Run.require (delimiter = 58)
    let parsed ← parseFieldsAt mem (2 + (ulen + 1))
    return some parsed

section Fields

variable {mem : List Byte} {p : Nat} {α β γ : Type}

/-- A field on the cells against the same field of the text. -/
theorem fieldAt_bind (terminated : (0 : Byte) ∈ mem.drop p)
    (k : List Byte × List Byte × Nat → Run β) (f : List Byte × List Byte → Option α) (g : α → β)
    (next : ∀ text tail mem' q, splitAt 58 (mem.drop p) = some (text, tail) →
      mem'.drop q = tail → (0 : Byte) ∈ tail → k (text, mem', q) = Run.ofOption ((f (text, tail)).map g)) :
    (fieldAt mem p >>= k) = Run.ofOption (((splitAt 58 (mem.drop p)).bind f).map g) := by
  cases split : splitAt 58 (mem.drop p) with
  | none =>
      rw [fieldAt, cut_none terminated split]
      rfl
  | some pair =>
      obtain ⟨text, tail⟩ := pair
      obtain ⟨mem', run, isText, rest, ends⟩ := cut_some (by decide) terminated split
      simp only [fieldAt, run, Run.done_bind, isText, Run.pure_eq]
      exact next text tail mem' _ split rest ends

/-- A length check in front of the copy is what `StateField` asks for. -/
theorem require_field {n : Nat} {bytes text tail : List Byte}
    (split : splitAt 58 bytes = some (text, tail)) (k : Unit → Run β)
    (f : StateField n → Option α) (g : α → β)
    (next : ∀ field : StateField n, field.bytes = text → k () = Run.ofOption ((f field).map g)) :
    (Run.require (text.length ≤ n) >>= k) =
      Run.ofOption (((StateField.ofBytes n text).bind f).map g) := by
  obtain ⟨-, noColon, noNul⟩ := splitAt_eq split
  by_cases short : text.length ≤ n
  · rw [Run.require_pos short, Run.done_bind, StateField.ofBytes, dif_pos ⟨short, noColon, noNul⟩]
    exact next ⟨text, short, noColon, noNul⟩ rfl
  · rw [Run.require_neg short, StateField.ofBytes, dif_neg fun clean => short clean.1]
    rfl

theorem ofOption_bind (converted : Option γ) (k : γ → Run β) (f : γ → Option α) (g : α → β)
    (next : ∀ value, k value = Run.ofOption ((f value).map g)) :
    (Run.ofOption converted >>= k) = Run.ofOption ((converted.bind f).map g) := by
  cases converted with
  | none => rfl
  | some value => exact next value

theorem require_challenge (text : List Byte) (k : List Byte → Run β)
    (f : { bytes : List Byte // bytes.length ≤ 16 } → Option α) (g : α → β)
    (next : ∀ challenge, k challenge.val = Run.ofOption ((f challenge).map g)) :
    (do
      Run.require (text.length ≤ 16 * 2)
      Run.require (text.length % 2 = 0)
      let challenge ← Run.ofOption (a2x text)
      k challenge) = Run.ofOption (((parseChallenge text).bind f).map g) := by
  rw [parseChallenge]
  by_cases short : text.length ≤ 16 * 2
  · rw [Run.require_pos short, if_neg (by omega)]
    by_cases even : text.length % 2 = 0
    · rw [Run.require_pos even, if_neg (by omega)]
      cases decoded : a2x text with
      | none => rfl
      | some bytes =>
          have bound : bytes.length ≤ 16 := by
            rw [a2nx_length decoded]
            omega
          dsimp only
          rw [dif_pos bound]
          exact next ⟨bytes, bound⟩
    · rw [Run.require_neg even, if_pos (by omega)]
      rfl
  · rw [Run.require_neg short, if_pos (by omega)]
    rfl

end Fields

theorem parseFieldsAt_eq {mem : List Byte} {p : Nat} (terminated : (0 : Byte) ∈ mem.drop p) :
    parseFieldsAt mem p = Run.ofOption ((parseFields (mem.drop p)).map StateRecord.parsed) := by
  unfold parseFieldsAt parseFields
  apply fieldAt_bind terminated
  intro text rest mem1 p1 _ rest1 ends
  apply require_challenge
  intro challenge
  rw [← rest1] at ends ⊢
  apply fieldAt_bind ends
  intro csdText rest mem2 p2 isCsd rest2 ends
  apply require_field isCsd
  intro csd csd_eq
  rw [← rest2] at ends ⊢
  apply fieldAt_bind ends
  intro rdText rest mem3 p3 isRd rest3 ends
  apply require_field isRd
  intro rd rd_eq
  rw [← rest3] at ends ⊢
  apply fieldAt_bind ends
  intro text rest mem4 p4 _ rest4 ends
  apply ofOption_bind
  intro failcount
  rw [← rest4] at ends ⊢
  apply fieldAt_bind ends
  intro text rest mem5 p5 _ rest5 ends
  apply ofOption_bind
  intro authtime
  rw [← rest5] at ends ⊢
  apply fieldAt_bind ends
  intro text rest mem6 p6 _ rest6 ends
  apply ofOption_bind
  intro mincardtime
  rw [← csd_eq, ← rd_eq]
  rfl

theorem take_two_iff (mem : List Byte) (long : 2 ≤ mem.length) :
    mem.take 2 = [53, 58] ↔ mem.getD 0 0 = 53 ∧ mem.getD 1 0 = 58 := by
  match mem, long with
  | a :: b :: rest, _ => simp

theorem take_name_iff (bytes name : List Byte) (long : name.length < bytes.length) :
    bytes.take (name.length + 1) = name ++ [58] ↔
      bytes.take name.length = name ∧ bytes.getD name.length 0 = 58 := by
  rw [List.take_add_one, List.getElem?_eq_getElem long, List.getD_eq_getElem?_getD,
    List.getElem?_eq_getElem long, Option.getD_some, Option.toList_some]
  constructor
  · intro same
    obtain ⟨front, last⟩ := List.append_inj same (by rw [List.length_take]; omega)
    exact ⟨front, (List.cons.inj last).1⟩
  · rintro ⟨front, last⟩
    rw [front, last]

/-- On a terminated buffer the parser stays inside and computes what `parseLine` says. -/
theorem stateParseAt_eq (content : List Byte) (username : Username) :
    stateParseAt (content ++ [0]) (content ++ [0]).length username =
      Run.ofOption ((parseLine (content ++ [0]) username).map fun record =>
        some record.parsed) := by
  have terminated : ∀ p < (content ++ [(0 : Byte)]).length, (0 : Byte) ∈ (content ++ [0]).drop p := by
    intro p inside
    rw [List.length_append, List.length_singleton] at inside
    rw [List.drop_append_of_le_length (by omega)]
    exact List.mem_append_right _ (List.mem_singleton_self 0)
  have nonempty : (content ++ [(0 : Byte)]).length ≠ 0 := by simp
  generalize content ++ [(0 : Byte)] = mem at terminated nonempty ⊢
  simp only [stateParseAt, if_neg nonempty, parseLine]
  by_cases long : 4 + username.bytes.length ≤ mem.length
  · rw [Run.require_pos long, if_neg (by omega), Run.done_bind, load_lt (by omega),
      load_lt (by omega), load_lt (by omega), strncmpEq_eq (by omega)]
    simp only [Run.done_bind]
    have named := take_name_iff (mem.drop 2) username.bytes (by rw [List.length_drop]; omega)
    rw [show (mem.drop 2).getD username.bytes.length 0 = mem.getD (2 + username.bytes.length) 0 by
      simp [List.getD_eq_getElem?_getD]] at named
    by_cases first : mem.getD 0 0 = 53
    · rw [Run.require_pos first, Run.done_bind]
      by_cases second : mem.getD 1 0 = 58
      · rw [Run.require_pos second, if_neg (not_not.mpr ((take_two_iff mem (by omega)).mpr
          ⟨first, second⟩)), Run.done_bind]
        by_cases same : (mem.drop 2).take username.bytes.length = username.bytes
        · rw [Run.require_pos (decide_eq_true same), Run.done_bind]
          by_cases third : mem.getD (2 + username.bytes.length) 0 = 58
          · rw [Run.require_pos third, if_neg (not_not.mpr (named.mpr ⟨same, third⟩)),
              Run.done_bind, parseFieldsAt_eq (terminated _ (by omega))]
            cases parseFields (mem.drop (2 + (username.bytes.length + 1))) with
            | none => rfl
            | some record => rfl
          · rw [Run.require_neg third, if_pos fun line => third (named.mp line).2]
            rfl
        · rw [Run.require_neg (by simpa using same), if_pos fun line => same (named.mp line).1]
          rfl
      · rw [Run.require_neg second, if_pos fun line =>
          second ((take_two_iff mem (by omega)).mp line).2]
        rfl
    · rw [Run.require_neg first, if_pos fun line =>
        first ((take_two_iff mem (by omega)).mp line).1]
      rfl
  · rw [Run.require_neg long, if_pos (by omega)]
    rfl

theorem stateRead_terminated {readable : Bool} {file : Option (List Byte)} {buf : List Byte}
    (read : stateRead readable file = some buf) :
    buf.length ≤ gsmMaxStateLen + 1 ∧ (buf = [] ∨ ∃ content, buf = content ++ [0]) := by
  unfold stateRead at read
  split at read
  · cases read
  · split at read
    · cases read
      exact ⟨Nat.zero_le _, Or.inl rfl⟩
    · rename_i bytes
      split at read
      · cases read
      · rename_i fits
        split at read
        · cases read
          exact ⟨Nat.zero_le _, Or.inl rfl⟩
        · split at read
          · cases read
            refine ⟨?_, Or.inr ⟨_, rfl⟩⟩
            rw [List.length_append, List.length_dropLast, List.length_singleton]
            omega
          · cases read
            refine ⟨?_, Or.inr ⟨_, rfl⟩⟩
            rw [List.length_append, List.length_singleton]
            omega

/-- Both transports hand over a buffer on which the checked parser and `state_parse` agree. -/
theorem stateParseAt_deliver {mode : StateMode} {readable : Bool} {store : Store}
    {buf : List Byte} (delivered : deliver mode readable store = some buf) (username : Username) :
    stateParseAt buf buf.length username =
      if buf = [] then .done none
      else Run.ofOption ((parseLine buf username).map fun record => some record.parsed) := by
  have ends : buf = [] ∨ ∃ content, buf = content ++ [0] := by
    cases mode with
    | localMode => exact (stateRead_terminated delivered).2
    | globalMode =>
        cases store with
        | none =>
            cases delivered
            exact Or.inl rfl
        | some text =>
            cases delivered
            exact Or.inr ⟨text, rfl⟩
  rcases ends with rfl | ⟨content, rfl⟩
  · rfl
  · rw [if_neg (by simp)]
    exact stateParseAt_eq content username

/-! ## `state_unparse` and its callers -/

/-- The `sprintf` of `state_unparse`. -/
def unparseText (username : Username) (hex : List Byte) (parsed : ParsedState) : List Byte :=
  [53, 58] ++ (username.bytes ++ [58] ++ (hex ++ 58 :: (parsed.csd ++ 58 ::
    (parsed.rd ++ 58 :: (printHex parsed.failcount ++ 58 :: (printHex parsed.authtime ++ 58 ::
      (printHex parsed.mincardtime ++ [58])))))))

/-- Into `mem` at `p`; `s` is the array for the challenge in hex. -/
def stateUnparseAt (s : Buffer 33) (mem : List Byte) (p : Nat) (username : Username)
    (parsed : ParsedState) : Run (List Byte) := do
  let s ← store s.bytes 0 (x2a parsed.challenge x2aHexConversion ++ [0])
  let hex ← strAt s 0
  store mem p (unparseText username hex parsed ++ [0])

/-- The bytes `state_write` passes to `xwrite`; the newline goes over the NUL. -/
def stateWriteAt (buf : List Byte) : Run (List Byte) := do
  let len ← strlen buf 0
  if len = 0 then return []
  else
    let last ← load buf (len - 1)
    if last = 10 then return buf.take len
    else
      let buf ← store buf len [10]
      return buf.take (len + 1)

def statePutLocalAt (s : Buffer 33) (buf : Buffer (gsmMaxStateLen + 1)) (username : Username)
    (parsed : ParsedState) : Run (List Byte) := do
  let buf ← stateUnparseAt s buf.bytes 0 username parsed
  stateWriteAt buf

/-- The request of `state_put_global` as `gsmd` pads it; `cmsg` is what the message may
take up of the datagram. -/
def statePutGlobalAt (s : Buffer 33) (cmsg : Buffer gsmMaxMsgLen) (username : Username)
    (parsed : ParsedState) : Run (List Byte) := do
  let ulen := username.bytes.length
  let cmsg ← store cmsg.bytes 0 (80 :: 32 :: (username.bytes ++ [32, 0]))
  let cmsg ← stateUnparseAt s cmsg (ulen + 3) username parsed
  let text ← strAt cmsg 0
  let len := text.length + 1
  let plen := paddedLen len
  let cmsg ← store cmsg len (List.replicate (plen - len) 0)
  return cmsg.take plen

section Unparse

variable (username : Username) (record : StateRecord)

theorem stateUnparse_length_le : (stateUnparse username record).length ≤ 190 := by
  have body := (unparseFields_length record).2
  have name := username.bound
  simp only [stateUnparse, List.length_append, List.length_cons, List.length_nil]
  omega

theorem unparseFields_noNul : (0 : Byte) ∉ unparseFields record := by
  simp only [unparseFields, List.mem_append, List.mem_cons, List.not_mem_nil, not_or]
  exact ⟨(x2a_clean _).2, by decide, record.csd.noNul, by decide, record.rd.noNul, by decide,
    (printHex_clean _).2, by decide, (printHex_clean _).2, by decide, (printHex_clean _).2,
    by decide, not_false⟩

theorem stateUnparse_noNul : (0 : Byte) ∉ stateUnparse username record := by
  have fields := unparseFields_noNul record
  have name := username.noNul
  simp [stateUnparse, fields, name]

variable (s : Buffer 33)

theorem stateUnparseAt_eq (mem : List Byte) (p : Nat)
    (fits : p + (stateUnparse username record).length + 1 ≤ mem.length) :
    ∃ rest, stateUnparseAt s mem p username record.parsed =
        .done (mem.take p ++ (stateUnparse username record ++ 0 :: rest)) ∧
      p + (stateUnparse username record).length + 1 + rest.length = mem.length := by
  have short := record.challengeBound
  have array : 0 + (x2a record.challenge x2aHexConversion).length + 1 ≤ s.bytes.length := by
    rw [s.size, x2a_length]
    omega
  obtain ⟨after, hex, -⟩ := store_string _ _ 0 array
  obtain ⟨rest, run, size⟩ := store_string mem _ p fits
  refine ⟨rest, ?_, size⟩
  change (store s.bytes 0 (x2a record.challenge x2aHexConversion ++ [0]) >>= _) = _
  rw [hex, Run.done_bind, List.take_zero, List.nil_append, strAt_start (x2a_clean _).2,
    Run.done_bind]
  exact run

/-- The line and its newline, in the buffer of the state file. -/
theorem statePutLocalAt_eq (buf : Buffer (gsmMaxStateLen + 1)) :
    statePutLocalAt s buf username record.parsed = .done (stateUnparse username record ++ [10]) := by
  have short := stateUnparse_length_le username record
  obtain ⟨rest, run, size⟩ := stateUnparseAt_eq username record s buf.bytes 0
    (by rw [buf.size, gsmMaxStateLen]; omega)
  have last := stateUnparse_getLast username record
  have clean := stateUnparse_noNul username record
  rw [statePutLocalAt, run, Run.done_bind, List.take_zero, List.nil_append]
  generalize stateUnparse username record = line at size last clean ⊢
  have nonempty : line ≠ [] := by
    rintro rfl
    cases last
  have isLine : strAt (line ++ 0 :: rest) 0 = .done line := strAt_start clean rest
  have positive : line.length ≠ 0 := by simpa using nonempty
  have lastCell : (line ++ 0 :: rest).getD (line.length - 1) 0 = 58 := by
    rw [List.getD_eq_getElem?_getD, List.getElem?_append_left (by omega),
      ← List.getLast?_eq_getElem?, last]
    rfl
  have room : line.length + [(10 : Byte)].length ≤ (line ++ 0 :: rest).length := by
    simp only [List.length_append, List.length_cons, List.length_nil]
    omega
  simp only [stateWriteAt, strlen, isLine, Run.done_bind, Run.pure_eq, if_neg positive]
  rw [load_lt (by simp only [List.length_append, List.length_cons]; omega), lastCell, Run.done_bind,
    if_neg (by decide), store_fits room, Run.done_bind, List.take_left, ← List.append_assoc]
  exact congrArg Run.done (List.take_left' (by simp))

/-- The request with its NUL, padded to words: the plaintext of `gsmdRequest`. -/
theorem statePutGlobalAt_eq (cmsg : Buffer gsmMaxMsgLen) {text : List Byte}
    (isText : text = 80 :: 32 :: (username.bytes ++ 32 :: stateUnparse username record)) :
    paddedLen (text.length + 1) ≤ gsmMaxMsgLen ∧
      statePutGlobalAt s cmsg username record.parsed =
        .done (text ++ List.replicate (paddedLen (text.length + 1) - text.length) 0) := by
  have short := stateUnparse_length_le username record
  have name := username.bound
  have cells : cmsg.bytes.length = 936 := cmsg.size
  -- the command and the name come first, and the state goes over their NUL
  have front : (80 :: 32 :: (username.bytes ++ [32]) : List Byte).length =
      username.bytes.length + 3 := by simp
  have whole : (80 :: 32 :: (username.bytes ++ [32])) ++ stateUnparse username record = text := by
    rw [isText]
    simp
  have length : text.length = username.bytes.length + 3 + (stateUnparse username record).length := by
    rw [← whole, List.length_append, front]
  have clean : (0 : Byte) ∉ text := by
    rw [isText]
    simp [username.noNul, stateUnparse_noNul]
  obtain ⟨after, command, size⟩ := store_string cmsg.bytes
    (80 :: 32 :: (username.bytes ++ [32])) 0 (by rw [front]; omega)
  rw [List.take_zero, List.nil_append] at command
  obtain ⟨rest, unparsed, size'⟩ := stateUnparseAt_eq username record s
    ((80 :: 32 :: (username.bytes ++ [32])) ++ 0 :: after) (username.bytes.length + 3) (by
      rw [List.length_append, front, List.length_cons]
      rw [front] at size
      omega)
  rw [List.take_left' front, ← List.append_assoc, whole] at unparsed
  have isString : strAt (text ++ 0 :: rest) 0 = .done text := strAt_start clean rest
  rw [List.length_append, front, List.length_cons] at size'
  rw [front] at size
  generalize padded : paddedLen (text.length + 1) = plen
  have bounds : text.length + 1 ≤ plen ∧ plen ≤ 936 := by
    rw [← padded, paddedLen]
    omega
  refine ⟨bounds.2, ?_⟩
  have room : text.length + 1 + (List.replicate (plen - (text.length + 1)) (0 : Byte)).length ≤
      (text ++ 0 :: rest).length := by
    rw [List.length_replicate, List.length_append, List.length_cons]
    omega
  have firsts : (text ++ 0 :: rest).take (text.length + 1) = text ++ [0] := by
    rw [List.append_cons]
    exact List.take_left' (by simp)
  have zeros : plen - text.length = 1 + (plen - (text.length + 1)) := by omega
  have stored : store cmsg.bytes 0 (80 :: 32 :: (username.bytes ++ [32, 0])) =
      .done ((80 :: 32 :: (username.bytes ++ [32])) ++ 0 :: after) := by
    rw [← command]
    simp
  simp only [statePutGlobalAt, stored, Run.done_bind, unparsed, isString, padded, store_fits room,
    Run.pure_eq, firsts]
  rw [zeros, List.replicate_add, ← List.append_assoc, ← List.append_assoc]
  refine congrArg Run.done (List.take_left' ?_)
  simp only [List.length_append, List.length_replicate, List.length_singleton]
  omega

end Unparse

/-! ## Both ways -/

/-- Whatever the state line says, the parser stays inside it, and what it accepts can be
written back into both buffers. -/
theorem state_parse_bounded (content : List Byte) (username : Username) :
    stateParseAt (content ++ [0]) (content ++ [0]).length username = .fail ∨
      ∃ parsed, stateParseAt (content ++ [0]) (content ++ [0]).length username =
          .done (some parsed) ∧
        parsed.challenge.length ≤ 16 ∧
        (parsed.csd.length ≤ 63 ∧ (58 : Byte) ∉ parsed.csd) ∧
        (parsed.rd.length ≤ 31 ∧ (58 : Byte) ∉ parsed.rd) ∧
        ∀ (failcount authtime mincardtime : UInt32) (s : Buffer 33),
          (∀ buf : Buffer (gsmMaxStateLen + 1), ∃ line, statePutLocalAt s buf username
              ⟨parsed.challenge, parsed.csd, parsed.rd, failcount, authtime, mincardtime⟩ =
                .done line ∧ line.length ≤ gsmMaxStateLen + 1) ∧
          (∀ cmsg : Buffer gsmMaxMsgLen, ∃ message, statePutGlobalAt s cmsg username
              ⟨parsed.challenge, parsed.csd, parsed.rd, failcount, authtime, mincardtime⟩ =
                .done message ∧ message.length ≤ gsmMaxMsgLen) := by
  rw [stateParseAt_eq]
  cases parseLine (content ++ [0]) username with
  | none => exact Or.inl rfl
  | some record =>
      refine Or.inr ⟨record.parsed, rfl, record.challengeBound,
        ⟨record.csd.bound, record.csd.noColon⟩, ⟨record.rd.bound, record.rd.noColon⟩, ?_⟩
      intro failcount authtime mincardtime s
      have updated : (⟨record.parsed.challenge, record.parsed.csd, record.parsed.rd, failcount,
          authtime, mincardtime⟩ : ParsedState) =
          ({ record with failcount, authtime, mincardtime } : StateRecord).parsed := rfl
      rw [updated]
      generalize ({ record with failcount, authtime, mincardtime } : StateRecord) = next
      constructor
      · intro buf
        refine ⟨_, statePutLocalAt_eq username next s buf, ?_⟩
        have short := stateUnparse_length_le username next
        rw [List.length_append, List.length_singleton, gsmMaxStateLen]
        omega
      · intro cmsg
        obtain ⟨fits, run⟩ := statePutGlobalAt_eq username next s cmsg rfl
        refine ⟨_, run, ?_⟩
        rw [List.length_append, List.length_replicate]
        generalize (80 :: 32 :: (username.bytes ++ 32 :: stateUnparse username next)).length = n
          at fits ⊢
        rw [paddedLen] at fits ⊢
        omega

end Otpd

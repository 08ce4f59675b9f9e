import Otpd.Lib.Cells

/-!
# The LDAP filter

`set_ldap_filter` of `config.y`, which checks the filter and rewrites its `%u` in place,
and the `sprintf` of `ldap_get`, into a block whose size was computed from the stored
length.  Both run on checked cells.
-/

set_option autoImplicit false

namespace Otpd

open CMem Cells

/-! ## `set_ldap_filter` -/

/-- A WORD of the configuration.  The lexer counts the characters of a token in an `int`. -/
abbrev ConfigWord := CString 2147483647

/-- `config.ldap.filter`; `val` is the string with its NUL. -/
structure LdapFilter where
  val : List Byte
  len : Nat
  deriving DecidableEq

/-- `seen_ldap_filter` and the option itself, null at first. -/
structure LdapFilterOption where
  seen : Bool
  filter : Option LdapFilter
  deriving DecidableEq

/-- The loop from `i`: `seen_u` and the string at the end.  `fail` is the `exit(1)`, and
the inner `none` stands for a loop that is still running when the fuel is used up. -/
def filterLoop (l : Nat) : Nat → UInt32 → UInt32 → List Byte → Run (Option (UInt32 × List Byte))
  | 0, _, _, _ => return none
  | fuel + 1, i, seenU, arg =>
    if i.toNat < l then do
      let c ← load arg i.toNat
      if c = 37 then do
        Run.require (seenU = 0)
        let next ← load arg (i + 1).toNat
        Run.require (next = 117)
        Run.require (i.toNat ≠ l - 1)
        let arg ← store arg (i + 1).toNat [115]
        filterLoop l fuel (i + 1) (seenU + 1) arg
      else filterLoop l fuel (i + 1) seenU arg
    else return some (seenU, arg)

def setLdapFilter (option : LdapFilterOption) (arg : ConfigWord) : Run (Option LdapFilterOption) :=
  if option.seen then return some option
  else do
    let l := arg.bytes.length
    match ← filterLoop l (l + 1) 0 0 (arg.bytes ++ [0]) with
    | none => return none
    | some (seenU, val) =>
      Run.require (seenU ≠ 0)
      return some ⟨true, some ⟨val, l - 2⟩⟩

/-! ## `ldap_get` -/

/-- What `sprintf` makes of a format; `none` for every directive but `%s`, and for one
without an argument. -/
def sprintfText : List Byte → List (List Byte) → Option (List Byte)
  | [], _ => some []
  | [c], _ => if c = 37 then none else some [c]
  | c :: d :: format, args =>
    if c = 37 then
      match args with
      | [] => none
      | arg :: args => if d = 115 then (sprintfText format args).map (arg ++ ·) else none
    else (sprintfText (d :: format) args).map (c :: ·)

/-- The cells that `xmalloc` returned, after the `sprintf`. -/
def ldapGetFilter (filter : LdapFilter) (username block : List Byte) : Run (List Byte) := do
  let format ← strAt filter.val 0
  match sprintfText format [username] with
  | none => .fault
  | some text => store block 0 (text ++ [0])

/-! ## The loop -/

section Loop

variable {l fuel : Nat} {front tail : List Byte} {seenU : UInt32} {c d : Byte}

theorem filterLoop_end (arg : List Byte) {i : UInt32} (finished : ¬ i.toNat < l) :
    filterLoop l (fuel + 1) i seenU arg = .done (some (seenU, arg)) := by
  rw [filterLoop, if_neg finished]
  rfl

theorem filterLoop_other (other : c ≠ 37) (inside : front.length < l) (bounded : l < 2 ^ 32) :
    filterLoop l (fuel + 1) (UInt32.ofNat front.length) seenU (front ++ c :: tail) =
      filterLoop l fuel (UInt32.ofNat (front ++ [c]).length) seenU ((front ++ [c]) ++ tail) := by
  rw [filterLoop, index_toNat (inside.trans bounded), if_pos inside, load_between,
    ← index_next front c, ← List.append_cons]
  simp only [Run.done_bind, if_neg other]

theorem filterLoop_second (again : seenU ≠ 0) (inside : front.length < l) (bounded : l < 2 ^ 32) :
    filterLoop l (fuel + 1) (UInt32.ofNat front.length) seenU (front ++ 37 :: tail) = .fail := by
  rw [filterLoop, index_toNat (inside.trans bounded), if_pos inside, load_between]
  simp only [Run.done_bind, if_true, Run.require_neg again]
  rfl

theorem filterLoop_bare (wrong : d ≠ 117) (inside : front.length < l) (bounded : l < 2 ^ 32) :
    filterLoop l (fuel + 1) (UInt32.ofNat front.length) 0 (front ++ 37 :: d :: tail) = .fail := by
  rw [filterLoop, index_toNat (inside.trans bounded), if_pos inside, load_between]
  simp only [Run.done_bind, if_true]
  rw [Run.require_pos True.intro, index_next_toNat 37 (by omega), List.append_cons, load_between]
  simp only [Run.done_bind, Run.require_neg wrong]
  rfl

theorem filterLoop_percent (inside : front.length + 1 < l) (bounded : l < 2 ^ 32) :
    filterLoop l (fuel + 1) (UInt32.ofNat front.length) 0 (front ++ 37 :: 117 :: tail) =
      filterLoop l fuel (UInt32.ofNat (front ++ [37]).length) 1
        ((front ++ [37]) ++ 115 :: tail) := by
  have here : front.length < l := by omega
  rw [filterLoop, index_toNat (here.trans bounded), if_pos here, load_between]
  simp only [Run.done_bind, if_true]
  rw [Run.require_pos True.intro, index_next_toNat 37 (by omega), List.append_cons, load_between]
  simp only [Run.done_bind]
  rw [Run.require_pos True.intro, Run.require_pos (show front.length ≠ l - 1 by omega)]
  simp only [Run.done_bind]
  rw [store_between, index_next front 37]
  rfl

/-- Characters other than the percent sign are passed over. -/
theorem filterLoop_skip (rest : List Byte) (noPercent : (37 : Byte) ∉ rest)
    (within : front.length + rest.length ≤ l) (bounded : l < 2 ^ 32) :
    filterLoop l (rest.length + fuel) (UInt32.ofNat front.length) seenU (front ++ (rest ++ tail)) =
      filterLoop l fuel (UInt32.ofNat (front ++ rest).length) seenU ((front ++ rest) ++ tail) := by
  induction rest generalizing front with
  | nil =>
      rw [List.append_nil, List.length_nil, Nat.zero_add]
      rfl
  | cons c rest ih =>
      obtain ⟨other, noPercent⟩ := List.ne_and_not_mem_of_not_mem_cons noPercent
      rw [List.length_cons] at within ⊢
      have shorter : (front ++ [c]).length + rest.length ≤ l := by
        rw [List.length_append, List.length_singleton]
        omega
      rw [show rest.length + 1 + fuel = rest.length + fuel + 1 by omega, List.cons_append,
        filterLoop_other (Ne.symm other) (by omega) bounded, ih noPercent shorter,
        List.append_assoc, List.singleton_append]

end Loop

/-! ## What is accepted -/

/-- Exactly one percent sign, and a `u` behind it. -/
def OneUser (text : List Byte) : Prop :=
  text.count 37 = 1 ∧ ∃ before after, text = before ++ 37 :: 117 :: after

theorem OneUser.parts {text : List Byte} (one : OneUser text) :
    ∃ before after, text = before ++ 37 :: 117 :: after ∧ (37 : Byte) ∉ before ∧
      (37 : Byte) ∉ after := by
  obtain ⟨count, before, after, rfl⟩ := one
  rw [List.count_append, List.count_cons_self, List.count_cons_of_ne (by decide)] at count
  refine ⟨before, after, rfl, ?_, ?_⟩
  · exact List.count_eq_zero.mp (by omega)
  · exact List.count_eq_zero.mp (by omega)

section Accept

variable {l : Nat} {text : List Byte}

/-- Up to the first percent sign nothing happens. -/
theorem filterLoop_before (before rest : List Byte) (noPercent : (37 : Byte) ∉ before)
    (length : l = before.length + rest.length) (bounded : l < 2 ^ 32) :
    filterLoop l (l + 1) 0 0 (before ++ rest ++ [0]) =
      filterLoop l (rest.length + 1) (UInt32.ofNat before.length) 0 (before ++ (rest ++ [0])) := by
  have passed : filterLoop l (before.length + (rest.length + 1)) (UInt32.ofNat [].length) 0
      ([] ++ (before ++ (rest ++ [0]))) = _ :=
    filterLoop_skip before noPercent (by rw [List.length_nil]; omega) bounded
  rw [List.nil_append] at passed
  rw [List.append_assoc, length, Nat.add_assoc]
  rw [length] at passed
  exact passed

theorem filterLoop_absent (noPercent : (37 : Byte) ∉ text) (bounded : text.length < 2 ^ 32) :
    filterLoop text.length (text.length + 1) 0 0 (text ++ [0]) = .done (some (0, text ++ [0])) := by
  have passed := filterLoop_before text [] noPercent (Nat.add_zero _).symm bounded
  rw [List.append_nil] at passed
  rw [passed]
  exact filterLoop_end _ (by rw [index_toNat bounded]; omega)

/-- The first `%u` is rewritten, and then nothing happens up to the next percent sign. -/
theorem filterLoop_between (before between rest : List Byte)
    (noPercentBefore : (37 : Byte) ∉ before) (noPercentBetween : (37 : Byte) ∉ between)
    (length : l = before.length + (between.length + rest.length + 2)) (bounded : l < 2 ^ 32) :
    filterLoop l (l + 1) 0 0 (before ++ 37 :: 117 :: (between ++ rest) ++ [0]) =
      filterLoop l (rest.length + 1) (UInt32.ofNat (before ++ 37 :: 115 :: between).length) 1
        ((before ++ 37 :: 115 :: between) ++ (rest ++ [0])) := by
  have rewritten : (37 : Byte) ∉ 115 :: between :=
    List.not_mem_cons_of_ne_of_not_mem (by decide) noPercentBetween
  have passed : filterLoop l ((115 :: between).length + (rest.length + 1))
      (UInt32.ofNat (before ++ [37]).length) 1
      ((before ++ [37]) ++ (115 :: between ++ (rest ++ [0]))) = _ :=
    filterLoop_skip (115 :: between) rewritten (by simp; omega) bounded
  have left : (117 :: (between ++ rest)).length = (115 :: between).length + rest.length := by
    simp
    omega
  rw [filterLoop_before before (37 :: 117 :: (between ++ rest)) noPercentBefore (by simp; omega)
    bounded, List.cons_append, List.cons_append, List.length_cons,
    filterLoop_percent (by omega) bounded, left]
  simp only [List.append_assoc, List.cons_append, List.nil_append, Nat.add_assoc] at passed ⊢
  exact passed

theorem filterLoop_accepts (before after : List Byte) (noPercentBefore : (37 : Byte) ∉ before)
    (noPercentAfter : (37 : Byte) ∉ after) (length : l = before.length + (after.length + 2))
    (bounded : l < 2 ^ 32) :
    filterLoop l (l + 1) 0 0 (before ++ 37 :: 117 :: after ++ [0]) =
      .done (some (1, before ++ 37 :: 115 :: after ++ [0])) := by
  have passed := filterLoop_between before after [] noPercentBefore noPercentAfter length bounded
  have ended : (before ++ 37 :: 115 :: after).length = l := by
    simp
    omega
  rw [List.append_nil] at passed
  rw [passed]
  exact filterLoop_end _ (by rw [index_toNat (by omega)]; omega)

/-- Any other filter with a percent sign in it is refused at the first one, when no `u` is
behind it, or at the second. -/
theorem filterLoop_rejects (percent : (37 : Byte) ∈ text) (other : ¬ OneUser text)
    (bounded : text.length < 2 ^ 32) :
    filterLoop text.length (text.length + 1) 0 0 (text ++ [0]) = .fail := by
  obtain ⟨before, rest, rfl, noPercent⟩ := List.eq_append_cons_of_mem percent
  by_cases user : ∃ after, rest = 117 :: after
  · obtain ⟨after, rfl⟩ := user
    have again : (37 : Byte) ∈ after := by
      by_contra once
      apply other
      refine ⟨?_, before, after, rfl⟩
      rw [List.count_append, List.count_cons_self, List.count_cons_of_ne (by decide),
        List.count_eq_zero.mpr noPercent, List.count_eq_zero.mpr once]
    obtain ⟨between, after, rfl, noPercentBetween⟩ := List.eq_append_cons_of_mem again
    rw [filterLoop_between before between (37 :: after) noPercent noPercentBetween (by simp)
      bounded]
    exact filterLoop_second (by decide) (by simp) bounded
  · rw [filterLoop_before before (37 :: rest) noPercent List.length_append bounded]
    have inside : before.length < (before ++ 37 :: rest).length := by simp
    cases rest with
    | nil => exact filterLoop_bare (by decide) inside bounded
    | cons d rest =>
        have wrong : d ≠ 117 := by
          intro same
          exact user ⟨rest, by rw [same]⟩
        exact filterLoop_bare wrong inside bounded

end Accept

/-! ## Both files together -/

theorem setLdapFilter_seen (option : LdapFilterOption) (arg : ConfigWord)
    (seen : option.seen = true) : setLdapFilter option arg = .done (some option) := by
  rw [setLdapFilter, if_pos seen]
  rfl

section Option

variable {option : LdapFilterOption} {arg : ConfigWord}

theorem setLdapFilter_accepts {before after : List Byte} (unset : option.seen = false)
    (parts : arg.bytes = before ++ 37 :: 117 :: after) (noPercentBefore : (37 : Byte) ∉ before)
    (noPercentAfter : (37 : Byte) ∉ after) :
    setLdapFilter option arg = .done (some ⟨true, some
      ⟨before ++ 37 :: 115 :: after ++ [0], before.length + after.length⟩⟩) := by
  have length := congrArg List.length parts
  rw [List.length_append, List.length_cons, List.length_cons] at length
  have bounded := arg.bound
  rw [setLdapFilter, unset, if_neg (by decide)]
  have loop := filterLoop_accepts before after noPercentBefore noPercentAfter length (by omega)
  rw [← parts] at loop
  simp only [loop, Run.done_bind]
  rw [Run.require_pos (by decide),
    show arg.bytes.length - 2 = before.length + after.length by omega]
  rfl

theorem setLdapFilter_rejects (unset : option.seen = false) (other : ¬ OneUser arg.bytes) :
    setLdapFilter option arg = .fail := by
  have bounded := arg.bound
  rw [setLdapFilter, unset, if_neg (by decide)]
  by_cases percent : (37 : Byte) ∈ arg.bytes
  · simp only [filterLoop_rejects percent other (by omega)]
    rfl
  · simp only [filterLoop_absent percent (by omega), Run.done_bind]
    rfl

end Option

/-! ## The text that `sprintf` writes -/

theorem sprintfText_cons {c : Byte} (other : c ≠ 37) (format : List Byte)
    (args : List (List Byte)) :
    sprintfText (c :: format) args = (sprintfText format args).map (c :: ·) := by
  cases format with
  | nil => simp [sprintfText, other]
  | cons d format => simp [sprintfText, other]

theorem sprintfText_string (format arg : List Byte) (args : List (List Byte)) :
    sprintfText (37 :: 115 :: format) (arg :: args) =
      (sprintfText format args).map (arg ++ ·) := by
  simp [sprintfText]

theorem sprintfText_plain {format : List Byte} (noPercent : (37 : Byte) ∉ format)
    (rest : List Byte) (args : List (List Byte)) :
    sprintfText (format ++ rest) args = (sprintfText rest args).map (format ++ ·) := by
  induction format with
  | nil => simp
  | cons c format ih =>
      obtain ⟨other, noPercent⟩ := List.ne_and_not_mem_of_not_mem_cons noPercent
      rw [List.cons_append, sprintfText_cons (Ne.symm other), ih noPercent, Option.map_map]
      rfl

theorem sprintfText_filter {before after : List Byte} (noPercentBefore : (37 : Byte) ∉ before)
    (noPercentAfter : (37 : Byte) ∉ after) (username : List Byte) :
    sprintfText (before ++ 37 :: 115 :: after) [username] =
      some (before ++ (username ++ after)) := by
  have tail := sprintfText_plain noPercentAfter [] []
  rw [List.append_nil] at tail
  rw [sprintfText_plain noPercentBefore, sprintfText_string, tail, sprintfText, Option.map_some,
    Option.map_some, Option.map_some, List.append_nil]

/-- The format is a string without a second percent sign, and its text with the NUL fills the
block. -/
theorem ldapGetFilter_eq {before after : List Byte} (noPercentBefore : (37 : Byte) ∉ before)
    (noPercentAfter : (37 : Byte) ∉ after) (noNul : (0 : Byte) ∉ before ++ after)
    (username block : List Byte)
    (allocated : block.length = before.length + after.length + username.length + 1) :
    ldapGetFilter ⟨before ++ 37 :: 115 :: after ++ [0], before.length + after.length⟩ username
      block = .done (before ++ username ++ after ++ [0]) := by
  have format_noNul : (0 : Byte) ∉ before ++ 37 :: 115 :: after := by
    intro inside
    apply noNul
    simpa using inside
  have read : strAt (before ++ 37 :: 115 :: after ++ [0]) 0 =
      .done (before ++ 37 :: 115 :: after) := strAt_start format_noNul []
  have fits : 0 + (before ++ (username ++ after) ++ [0]).length = block.length := by
    simp
    omega
  rw [ldapGetFilter, read]
  simp only [Run.done_bind, sprintfText_filter noPercentBefore noPercentAfter]
  rw [store_fits (Nat.le_of_eq fits), fits, List.take_zero, List.drop_length, List.nil_append,
    List.append_nil, ← List.append_assoc before]

/-- A filter is accepted exactly when its one percent sign stands in front of a `u`.  The text
of an accepted one is the filter with the username in that place, and the block that `ldap_get`
allocates holds it and its NUL and nothing else. -/
theorem ldap_filter_safe (option : LdapFilterOption) (arg : ConfigWord)
    (unset : option.seen = false) :
    ((∃ option', setLdapFilter option arg = .done (some option')) ↔ OneUser arg.bytes) ∧
      (¬ OneUser arg.bytes → setLdapFilter option arg = .fail) ∧
      ∀ option', setLdapFilter option arg = .done (some option') →
        ∃ filter before after, option'.filter = some filter ∧
          arg.bytes = before ++ ascii "%u" ++ after ∧
          filter.val = before ++ ascii "%s" ++ after ++ [0] ∧
          (37 : Byte) ∉ before ∧ (37 : Byte) ∉ after ∧
          ∀ (n : Nat) (username : CString n) (block : List Byte),
            block.length = filter.len + username.bytes.length + 1 →
              ldapGetFilter filter username.bytes block =
                .done (before ++ username.bytes ++ after ++ [0]) ∧
              (before ++ username.bytes ++ after ++ [0]).length = block.length := by
  by_cases one : OneUser arg.bytes
  · obtain ⟨before, after, parts, noPercentBefore, noPercentAfter⟩ := one.parts
    have accepted := setLdapFilter_accepts unset parts noPercentBefore noPercentAfter
    have noNul : (0 : Byte) ∉ before ++ after := by
      intro inside
      apply arg.noNul
      rw [parts]
      simpa using inside
    refine ⟨⟨fun _ => one, fun _ => ⟨_, accepted⟩⟩, fun other => absurd one other, ?_⟩
    intro option' set
    rw [accepted] at set
    cases set
    refine ⟨_, before, after, rfl, ?_, ?_, noPercentBefore, noPercentAfter, ?_⟩
    · rw [parts, List.append_assoc]
      rfl
    · exact congrArg (· ++ [0]) (List.append_assoc before (ascii "%s") after).symm
    · intro n username block allocated
      refine ⟨ldapGetFilter_eq noPercentBefore noPercentAfter noNul username.bytes block allocated,
        ?_⟩
      simp only at allocated
      simp only [List.length_append, List.length_singleton]
      omega
  · have refused := setLdapFilter_rejects unset one
    refine ⟨⟨?_, fun accepted => absurd accepted one⟩, fun _ => refused, ?_⟩
    · intro accepted
      obtain ⟨option', set⟩ := accepted
      rw [refused] at set
      cases set
    · intro option' set
      rw [refused] at set
      cases set

/-- One filter that is accepted, and one with a second directive. -/
theorem ldap_filter_safe_uid :
    (∃ option', setLdapFilter ⟨false, none⟩ ⟨ascii "(uid=%u)", by decide, by decide⟩ =
        .done (some option')) ∧
      setLdapFilter ⟨false, none⟩ ⟨ascii "(uid=%u%s)", by decide, by decide⟩ = .fail := by
  constructor
  · exact (ldap_filter_safe _ _ rfl).1.mpr ⟨by decide, ascii "(uid=", ascii ")", by decide⟩
  · exact (ldap_filter_safe _ _ rfl).2.1 fun one => absurd one.1 (by decide)

example : ldapGetFilter ⟨ascii "(uid=%s)" ++ [0], 6⟩ (ascii "alice") (List.replicate 12 7) =
    .done (ascii "(uid=alice)" ++ [0]) := rfl

end Otpd

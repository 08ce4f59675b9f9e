import Mathlib.Tactic

/-!
# Files of options in nested sections

A section holds items, and an item is `name = value` or `name { ... }`.  `Derives` is the
grammar, with the lists as left recursion and, for some sections, an empty alternative
beside the one for a single item; so a derivation is not unique.  `parse` reads such a
file from left to right with a stack of the open sections, and finds the actions of every
derivation.  `reductions` are the actions up to the first error.
-/

set_option autoImplicit false

namespace Sections

variable {S T A : Type}

/-- Which options and sections there are in a section, and what is done for them. -/
structure Grammar (S T A : Type) where
  equals : T
  opening : T
  closing : T
  option : S → T → T → Option A
  inner : S → T → Option S
  finish : S → List A
  mayBeEmpty : S → Bool
  equals_ne : equals ≠ opening
  closing_option : ∀ s value, option s closing value = none
  closing_inner : ∀ s, inner s closing = none

inductive Symbol (S : Type) where
  | body (s : S)
  | item (s : S)

/-- The productions, with the actions in the order of the reductions. -/
inductive Derives (g : Grammar S T A) : Symbol S → List T → List A → Prop where
  | option {s : S} {name value : T} {action : A} (known : g.option s name value = some action) :
      Derives g (.item s) [name, g.equals, value] [action]
  | nested {s inner : S} {name : T} {tokens : List T} {actions : List A}
      (known : g.inner s name = some inner) (body : Derives g (.body inner) tokens actions) :
      Derives g (.item s) (name :: g.opening :: (tokens ++ [g.closing]))
        (actions ++ g.finish inner)
  | empty {s : S} (allowed : g.mayBeEmpty s = true) : Derives g (.body s) [] []
  | single {s : S} {tokens : List T} {actions : List A}
      (item : Derives g (.item s) tokens actions) : Derives g (.body s) tokens actions
  | more {s : S} {tokens tokens' : List T} {actions actions' : List A}
      (body : Derives g (.body s) tokens actions) (item : Derives g (.item s) tokens' actions') :
      Derives g (.body s) (tokens ++ tokens') (actions ++ actions')

/-- The stack holds the open sections and whether they have an item yet. -/
def parse [DecidableEq T] (g : Grammar S T A) : List (S × Bool) → List T → Option (List A)
  | [], [] => some []
  | [], _ :: _ => none
  | _ :: _, [] => none
  | (s, filled) :: below, name :: rest =>
    if name = g.closing then
      if (filled || g.mayBeEmpty s) = true then (parse g below rest).map (g.finish s ++ ·) else none
    else
      match rest with
      | sign :: value :: rest =>
        if sign = g.equals then
          (g.option s name value).bind fun action =>
            (parse g ((s, true) :: below) rest).map (action :: ·)
        else if sign = g.opening then
          (g.inner s name).bind fun inner =>
            parse g ((inner, false) :: (s, true) :: below) (value :: rest)
        else none
      | _ => none

/-- The actions in front of the first error, and whether there is none: an option is done at
its value, a section at its brace. -/
def reductions [DecidableEq T] (g : Grammar S T A) : List (S × Bool) → List T → List A × Bool
  | [], [] => ([], true)
  | [], _ :: _ => ([], false)
  | _ :: _, [] => ([], false)
  | (s, filled) :: below, name :: rest =>
    if name = g.closing then
      if (filled || g.mayBeEmpty s) = true then
        let later := reductions g below rest
        (g.finish s ++ later.1, later.2)
      else ([], false)
    else
      match rest with
      | sign :: value :: rest =>
        if sign = g.equals then
          match g.option s name value with
          | none => ([], false)
          | some action =>
            let later := reductions g ((s, true) :: below) rest
            (action :: later.1, later.2)
        else if sign = g.opening then
          match g.inner s name with
          | none => ([], false)
          | some inner => reductions g ((inner, false) :: (s, true) :: below) (value :: rest)
        else ([], false)
      | _ => ([], false)

variable {g : Grammar S T A} {s : S}

theorem Derives.cons {tokens tokens' : List T} {actions actions' : List A}
    (item : Derives g (.item s) tokens actions) (body : Derives g (.body s) tokens' actions') :
    Derives g (.body s) (tokens ++ tokens') (actions ++ actions') := by
  generalize which : Symbol.body s = symbol at body
  induction body with
  | option known => cases which
  | nested known body ih => cases which
  | empty allowed =>
      cases which
      rw [List.append_nil, List.append_nil]
      exact .single item
  | single later =>
      cases which
      exact .more (.single item) later
  | more body later ih =>
      cases which
      rw [← List.append_assoc, ← List.append_assoc]
      exact .more (ih rfl) later

def Symbol.sect : Symbol S → S
  | .body s => s
  | .item s => s

/-- What holds of the actions of a section, for every option and every section inside. -/
theorem Derives.rule {P : S → List A → Prop} (nil : ∀ s, P s [])
    (append : ∀ {s actions actions'}, P s actions → P s actions' → P s (actions ++ actions'))
    (option : ∀ {s name value action}, g.option s name value = some action → P s [action])
    (nested : ∀ {s inner name actions}, g.inner s name = some inner → P inner actions →
      P s (actions ++ g.finish inner))
    {symbol : Symbol S} {tokens : List T} {actions : List A}
    (derived : Derives g symbol tokens actions) : P symbol.sect actions := by
  induction derived with
  | option known => exact option known
  | nested known body ih => exact nested known ih
  | empty allowed => exact nil _
  | single item ih => exact ih
  | more body item ihBody ihItem => exact append ihBody ihItem

section Complete

variable [DecidableEq T] {tokens : List T} {actions : List A}

theorem parse_close {filled : Bool} {below : List (S × Bool)} {rest : List T}
    (allowed : (filled || g.mayBeEmpty s) = true) :
    parse g ((s, filled) :: below) (g.closing :: rest) =
      (parse g below rest).map (g.finish s ++ ·) := by
  rw [parse.eq_def]
  simp only [if_pos allowed, reduceIte]

theorem parse_option {name value : T} {action : A} {filled : Bool} {below : List (S × Bool)}
    {rest : List T} (known : g.option s name value = some action) :
    parse g ((s, filled) :: below) (name :: g.equals :: value :: rest) =
      (parse g ((s, true) :: below) rest).map (action :: ·) := by
  have notClosing : name ≠ g.closing := by
    rintro rfl
    rw [g.closing_option] at known
    cases known
  rw [parse, if_neg notClosing, if_pos rfl, known]
  rfl

theorem parse_nested {name value : T} {inner : S} {filled : Bool} {below : List (S × Bool)}
    {rest : List T} (known : g.inner s name = some inner) :
    parse g ((s, filled) :: below) (name :: g.opening :: value :: rest) =
      parse g ((inner, false) :: (s, true) :: below) (value :: rest) := by
  have notClosing : name ≠ g.closing := by
    rintro rfl
    rw [g.closing_inner] at known
    cases known
  rw [parse, if_neg notClosing, if_neg g.equals_ne.symm, if_pos rfl, known]
  rfl

/-- What the parser does at a phrase of the grammar, whatever stands around it. -/
def Parses (g : Grammar S T A) (tokens : List T) (actions : List A) : Symbol S → Prop
  | .item s => ∀ (filled : Bool) (below : List (S × Bool)) (rest : List T),
      parse g ((s, filled) :: below) (tokens ++ rest) =
        (parse g ((s, true) :: below) rest).map (actions ++ ·)
  | .body s => ∀ (filled : Bool) (below : List (S × Bool)) (rest : List T),
      ∃ filled', (filled' || g.mayBeEmpty s) = true ∧
        parse g ((s, filled) :: below) (tokens ++ rest) =
          (parse g ((s, filled') :: below) rest).map (actions ++ ·)

theorem Derives.parses {symbol : Symbol S} (derived : Derives g symbol tokens actions) :
    Parses g tokens actions symbol := by
  induction derived with
  | option known =>
      intro filled below rest
      exact parse_option known
  | @nested s inner name tokens actions known body ih =>
      intro filled below rest
      obtain ⟨filled', allowed, parsed⟩ := ih false ((s, true) :: below) (g.closing :: rest)
      rw [parse_close allowed, Option.map_map] at parsed
      have whole : name :: g.opening :: (tokens ++ [g.closing]) ++ rest =
          name :: g.opening :: (tokens ++ g.closing :: rest) := by simp
      rw [whole]
      -- the section has a token after the brace, if only the one that closes it
      cases inside : tokens ++ g.closing :: rest with
      | nil => simp at inside
      | cons value rest' =>
          rw [parse_nested known, ← inside, parsed]
          congr 1
          funext later
          exact (List.append_assoc _ _ _).symm
  | empty allowed =>
      intro filled below rest
      refine ⟨filled, by rw [allowed, Bool.or_true], ?_⟩
      exact Option.map_id'.symm
  | single item ih =>
      intro filled below rest
      exact ⟨true, rfl, ih filled below rest⟩
  | more body item ihBody ihItem =>
      intro filled below rest
      obtain ⟨filled', -, parsed⟩ := ihBody filled below (_ ++ rest)
      refine ⟨true, rfl, ?_⟩
      rw [List.append_assoc, parsed, ihItem filled' below rest, Option.map_map]
      congr 1
      funext later
      exact (List.append_assoc _ _ _).symm

end Complete

theorem later_iff {did actions : List A} {later : List A × Bool} :
    (did ++ later.1, later.2) = (actions, true) ↔
      ∃ rest, later = (rest, true) ∧ did ++ rest = actions := by
  constructor
  · intro same
    obtain ⟨actions', whole⟩ := later
    cases same
    exact ⟨actions', rfl, rfl⟩
  · rintro ⟨rest, rfl, rfl⟩
    rfl

/-- Without an error the actions are those of the whole file. -/
theorem reductions_iff [DecidableEq T] (stack : List (S × Bool)) (tokens : List T)
    (actions : List A) :
    reductions g stack tokens = (actions, true) ↔ parse g stack tokens = some actions := by
  have refused : ∀ {actions : List A}, ([], false) = (actions, true) ↔ none = some actions :=
    iff_of_false (fun same => by cases same) fun same => by cases same
  induction stack, tokens using parse.induct g generalizing actions with
  | case1 => simp [reductions, parse]
  | case2 token rest => exact refused
  | case3 top below => exact refused
  | case4 s filled below rest allowed ih =>
      rw [parse_close allowed, Option.map_eq_some_iff, reductions.eq_def]
      simp only [if_pos allowed, reduceIte, later_iff, ih]
  | case5 s filled below rest notAllowed =>
      rw [parse.eq_def, reductions.eq_def]
      simp only [if_neg notAllowed, reduceIte]
      exact refused
  | case6 s filled below name notClosing value rest ih =>
      rw [parse.eq_def, reductions.eq_def]
      simp only [if_neg notClosing, reduceIte]
      cases known : g.option s name value with
      | none => exact refused
      | some action =>
          rw [Option.bind_some, Option.map_eq_some_iff]
          simp only [← ih]
          exact @later_iff A [action] actions _
  | case7 s filled below name notClosing value rest notEquals ih =>
      rw [parse.eq_def, reductions.eq_def]
      simp only [if_neg notClosing, if_neg notEquals, reduceIte]
      cases known : g.inner s name with
      | none => exact refused
      | some inner => exact ih inner actions
  | case8 s filled below name notClosing sign value rest notEquals notOpening =>
      rw [parse.eq_def, reductions.eq_def]
      simp only [if_neg notClosing, if_neg notEquals, if_neg notOpening]
      exact refused
  | case9 s filled below name rest notClosing short =>
      rw [parse.eq_def, reductions.eq_def]
      simp only [if_neg notClosing]
      exact refused

/-! ## What is accepted -/

/-- The tokens that close all open sections, after more items. -/
inductive Completes (g : Grammar S T A) : List (S × Bool) → List T → List A → Prop where
  | done : Completes g [] [] []
  | close {s : S} {filled : Bool} {below : List (S × Bool)} {tokens : List T} {actions : List A}
      (allowed : (filled || g.mayBeEmpty s) = true) (later : Completes g below tokens actions) :
      Completes g ((s, filled) :: below) (g.closing :: tokens) (g.finish s ++ actions)
  | item {s : S} {filled : Bool} {below : List (S × Bool)} {first tokens : List T}
      {did actions : List A} (item : Derives g (.item s) first did)
      (later : Completes g ((s, true) :: below) tokens actions) :
      Completes g ((s, filled) :: below) (first ++ tokens) (did ++ actions)

/-- The innermost section has a body up to its brace. -/
theorem Completes.inner {filled : Bool} {below : List (S × Bool)} {tokens : List T}
    {actions : List A} (completes : Completes g ((s, filled) :: below) tokens actions) :
    ∃ body tokens' did actions', tokens = body ++ g.closing :: tokens' ∧
      actions = did ++ (g.finish s ++ actions') ∧ Completes g below tokens' actions' ∧
      (Derives g (.body s) body did ∨ body = [] ∧ did = [] ∧ filled = true) := by
  generalize which : (s, filled) :: below = stack at completes
  induction completes generalizing filled with
  | done => cases which
  | @close s' filled' below' tokens actions allowed later ih =>
      cases which
      refine ⟨[], tokens, [], actions, rfl, rfl, later, ?_⟩
      cases filled' with
      | true => exact .inr ⟨rfl, rfl, rfl⟩
      | false => exact .inl (.empty allowed)
  | @item s' filled' below' first tokens did actions item later ih =>
      cases which
      obtain ⟨body, tokens', did', actions', rfl, rfl, rest, inner⟩ := ih rfl
      refine ⟨first ++ body, tokens', did ++ did', actions', by simp, by simp, rest, .inl ?_⟩
      rcases inner with derived | ⟨rfl, rfl, -⟩
      · exact item.cons derived
      · rw [List.append_nil, List.append_nil]
        exact .single item

theorem parse_completes [DecidableEq T] {stack : List (S × Bool)} {tokens : List T}
    {actions : List A} (parsed : parse g stack tokens = some actions) :
    Completes g stack tokens actions := by
  induction stack, tokens using parse.induct g generalizing actions with
  | case1 =>
      cases parsed
      exact .done
  | case2 token rest => cases parsed
  | case3 top below => cases parsed
  | case4 s filled below rest allowed ih =>
      rw [parse_close allowed] at parsed
      obtain ⟨actions', later, rfl⟩ := Option.map_eq_some_iff.mp parsed
      exact .close allowed (ih later)
  | case5 s filled below rest notAllowed =>
      unfold parse at parsed
      rw [if_pos rfl, if_neg notAllowed] at parsed
      cases parsed
  | case6 s filled below name notClosing value rest ih =>
      unfold parse at parsed
      simp only [if_neg notClosing, reduceIte] at parsed
      obtain ⟨action, known, parsed⟩ := Option.bind_eq_some_iff.mp parsed
      obtain ⟨actions', later, rfl⟩ := Option.map_eq_some_iff.mp parsed
      exact .item (.option known) (ih later)
  | case7 s filled below name notClosing value rest notEquals ih =>
      unfold parse at parsed
      simp only [if_neg notClosing, if_neg notEquals, reduceIte] at parsed
      obtain ⟨inner, known, parsed⟩ := Option.bind_eq_some_iff.mp parsed
      obtain ⟨body, tokens', did, actions', inside, rfl, later, derived⟩ := (ih inner parsed).inner
      have body : Derives g (.body inner) body did := by
        rcases derived with derived | ⟨-, -, none⟩
        · exact derived
        · cases none
      have first : Completes g ((s, filled) :: below) _ _ := .item (.nested known body) later
      rw [inside]
      simpa using first
  | case8 s filled below name notClosing sign value rest notEquals notOpening =>
      unfold parse at parsed
      simp only [if_neg notClosing, if_neg notEquals, if_neg notOpening] at parsed
      cases parsed
  | case9 s filled below name rest notClosing short =>
      unfold parse at parsed
      simp only [if_neg notClosing] at parsed
      cases parsed

/-- The parser accepts what the grammar derives, with the same actions. -/
theorem parse_iff [DecidableEq T] (g : Grammar S T A) (s : S) (tokens : List T)
    (actions : List A) :
    parse g [(s, false)] tokens = some actions ↔
      ∃ body did, tokens = body ++ [g.closing] ∧ actions = did ++ g.finish s ∧
        Derives g (.body s) body did := by
  constructor
  · intro parsed
    obtain ⟨body, tokens', did, actions', split, same, later, derived⟩ :=
      (parse_completes parsed).inner
    cases later
    rw [List.append_nil] at same
    rcases derived with derived | ⟨-, -, none⟩
    · exact ⟨body, did, split, same, derived⟩
    · cases none
  · rintro ⟨body, did, rfl, rfl, derived⟩
    obtain ⟨filled, allowed, parsed⟩ := derived.parses false [] [g.closing]
    rw [parsed, parse_close allowed, parse]
    simp

end Sections

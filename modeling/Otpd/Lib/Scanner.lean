import Mathlib.Tactic

/-!
# Scanners

A scanner cuts a text into tokens from the left.  `best` is the choice of a rule: the one
that matches most, and of several the first.  `scan` runs a scanner that keeps a state and
says after each match how much more of the text it took.
-/

set_option autoImplicit false

namespace Scanner

variable {α A S T : Type}

/-- `munch` is the length of the longest match, 0 for none. -/
structure Rule (α A : Type) where
  munch : List α → Nat
  action : A

def best : List (Rule α A) → List α → Option (Nat × A)
  | [], _ => none
  | rule :: rules, text =>
    match best rules text with
    | none => if rule.munch text = 0 then none else some (rule.munch text, rule.action)
    | some (n, action) =>
        if rule.munch text < n then some (n, action) else some (rule.munch text, rule.action)

/-- The longest match, when all rules that match as much do the same. -/
theorem best_unique {rules : List (Rule α A)} {rule : Rule α A} {text : List α}
    (member : rule ∈ rules) (some_ : 0 < rule.munch text)
    (longest : ∀ rule' ∈ rules, rule'.munch text ≤ rule.munch text)
    (unique : ∀ rule' ∈ rules, rule'.munch text = rule.munch text → rule'.action = rule.action) :
    best rules text = some (rule.munch text, rule.action) := by
  have shorter : ∀ {rules' : List (Rule α A)}, rules' ⊆ rules → ∀ {n : Nat} {action : A},
      best rules' text = some (n, action) →
        n ≤ rule.munch text ∧ (n = rule.munch text → action = rule.action) := by
    intro rules' among
    induction rules' with
    | nil => intro n action found; cases found
    | cons rule' rules' ih =>
        intro n action found
        have here := among List.mem_cons_self
        have later : ∀ {n : Nat} {action : A}, best rules' text = some (n, action) →
            n ≤ rule.munch text ∧ (n = rule.munch text → action = rule.action) :=
          ih fun _ member => among (List.mem_cons_of_mem _ member)
        rw [best] at found
        split at found
        · split_ifs at found
          cases found
          exact ⟨longest rule' here, unique rule' here⟩
        · rename_i rest
          split_ifs at found
          · cases found
            exact later rest
          · cases found
            exact ⟨longest rule' here, unique rule' here⟩
  have reaches : ∀ {rules' : List (Rule α A)}, rule ∈ rules' →
      ∃ n action, best rules' text = some (n, action) ∧ rule.munch text ≤ n := by
    intro rules' member
    induction rules' with
    | nil => cases member
    | cons rule' rules' ih =>
        rw [best]
        rcases List.mem_cons.mp member with rfl | later
        · cases found : best rules' text with
          | none => exact ⟨_, _, if_neg (Nat.ne_of_gt some_), Nat.le_refl _⟩
          | some pair =>
              obtain ⟨n, action⟩ := pair
              by_cases less : rule.munch text < n
              · exact ⟨n, action, if_pos less, Nat.le_of_lt less⟩
              · exact ⟨_, _, if_neg less, Nat.le_refl _⟩
        · obtain ⟨n, action, found, enough⟩ := ih later
          rw [found]
          by_cases less : rule'.munch text < n
          · exact ⟨n, action, if_pos less, enough⟩
          · exact ⟨_, _, if_neg less, Nat.le_trans enough (Nat.not_lt.mp less)⟩
  obtain ⟨n, action, found, enough⟩ := reaches member
  obtain ⟨most, same⟩ := shorter (List.Subset.refl _) found
  have exactly : n = rule.munch text := Nat.le_antisymm most enough
  rw [found, same exactly, exactly]

/-- A rule at the end is taken only when it matches more. -/
theorem best_concat (rules : List (Rule α A)) (last : Rule α A) (text : List α) :
    best (rules ++ [last]) text =
      match best rules text with
      | none => if last.munch text = 0 then none else some (last.munch text, last.action)
      | some (n, action) =>
          if n < last.munch text then some (last.munch text, last.action) else some (n, action) := by
  induction rules with
  | nil => rfl
  | cons rule rules ih =>
      rw [List.cons_append, best, ih, best]
      cases best rules text with
      | none =>
          by_cases absent : last.munch text = 0
          · by_cases here : rule.munch text = 0
            · simp only [if_pos absent, if_pos here]
            · have notLess : ¬ rule.munch text < last.munch text := by omega
              simp only [if_pos absent, if_neg here, if_neg notLess]
          · by_cases here : rule.munch text = 0
            · have less : rule.munch text < last.munch text := by omega
              simp only [if_neg absent, if_pos here, if_pos less]
            · simp only [if_neg absent, if_neg here]
      | some pair =>
          obtain ⟨n, action⟩ := pair
          by_cases ahead : n < last.munch text
          · by_cases first : rule.munch text < n
            · have less : rule.munch text < last.munch text := by omega
              simp only [if_pos ahead, if_pos first, if_pos less]
            · simp only [if_pos ahead, if_neg first]
          · by_cases first : rule.munch text < n
            · simp only [if_neg ahead, if_pos first]
            · have notLess : ¬ rule.munch text < last.munch text := by omega
              simp only [if_neg ahead, if_neg first, if_neg notLess]

/-! ## Patterns -/

/-- A fixed text. -/
def literal [DecidableEq α] (word text : List α) : Nat :=
  if word <+: text then word.length else 0

/-- As many elements as possible that have a property. -/
def many (p : α → Bool) (text : List α) : Nat := (text.takeWhile p).length

theorem literal_append [DecidableEq α] (word rest : List α) :
    literal word (word ++ rest) = word.length := if_pos (List.prefix_append word rest)

theorem literal_le [DecidableEq α] (word text : List α) : literal word text ≤ word.length := by
  rw [literal]
  split_ifs
  · exact Nat.le_refl _
  · exact Nat.zero_le _

theorem literal_zero [DecidableEq α] {word text : List α} (other : ¬ word <+: text) :
    literal word text = 0 := if_neg other

theorem many_append {p : α → Bool} {run rest : List α} (all : ∀ c ∈ run, p c = true)
    (ends : ∀ c ∈ rest.head?, p c = false) : many p (run ++ rest) = run.length := by
  rw [many, List.takeWhile_append_of_pos all]
  cases rest with
  | nil => simp
  | cons c rest => simp [ends c rfl]

/-! ## Scanning -/

/-- `step` is given the state and the text, and says how many characters it takes after
the first one, the state after them and the tokens; `none` is an error.  The number is
how many characters are still to be passed over. -/
def scan (step : S → α → List α → Option (Nat × S × List T)) : S → Nat → List α → Option (List T)
  | _, _, [] => some []
  | s, k + 1, _ :: rest => scan step s k rest
  | s, 0, c :: rest =>
      (step s c rest).bind fun taken => (scan step taken.2.1 taken.1 rest).map (taken.2.2 ++ ·)

/-- The tokens in front of the first error, and whether there is none. -/
def scanned (step : S → α → List α → Option (Nat × S × List T)) : S → Nat → List α → List T × Bool
  | _, _, [] => ([], true)
  | s, k + 1, _ :: rest => scanned step s k rest
  | s, 0, c :: rest =>
    match step s c rest with
    | none => ([], false)
    | some (k, s', out) =>
      let later := scanned step s' k rest
      (out ++ later.1, later.2)

variable {step : S → α → List α → Option (Nat × S × List T)}

theorem scanned_iff (s : S) (k : Nat) (text : List α) (out : List T) :
    scanned step s k text = (out, true) ↔ scan step s k text = some out := by
  induction text generalizing s k out with
  | nil => simp [scanned, scan]
  | cons c rest ih =>
      cases k with
      | succ k => exact ih s k out
      | zero =>
          cases here : step s c rest with
          | none => simp [scanned, scan, here]
          | some taken =>
              obtain ⟨k, s', first⟩ := taken
              simp only [scanned, scan, here, Option.bind_some, Option.map_eq_some_iff, ← ih,
                Prod.ext_iff]
              constructor
              · rintro ⟨same, whole⟩
                exact ⟨_, ⟨rfl, whole⟩, same⟩
              · rintro ⟨later, ⟨rfl, whole⟩, same⟩
                exact ⟨same, whole⟩

theorem scan_skip (s : S) (k : Nat) (text : List α) :
    scan step s k text = scan step s 0 (text.drop k) := by
  induction text generalizing k with
  | nil => cases k <;> rfl
  | cons c rest ih =>
      cases k with
      | zero => rfl
      | succ k => exact ih k

theorem scan_cons {s s' : S} {c : α} {taken rest : List α} {out : List T}
    (here : step s c (taken ++ rest) = some (taken.length, s', out)) :
    scan step s 0 (c :: (taken ++ rest)) = (scan step s' 0 rest).map (out ++ ·) := by
  rw [scan, here, Option.bind_some, scan_skip, List.drop_left]

end Scanner

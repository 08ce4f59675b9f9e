import Mathlib.Tactic

/-!
# Schedules

A system takes one event after another; `none` is an event that cannot happen in
that state, or one that goes wrong.  `Along` says of a schedule what every event of
it finds, and the two rules turn a fact about one event into one about the whole
schedule: `run_invariant` for every state reached, `run_total` when no event may
fail.
-/

set_option autoImplicit false

namespace Schedule

variable {S E : Type*} {step : S → E → Option S} {Ok : S → E → Prop}

def run (step : S → E → Option S) : S → List E → Option S
  | s, [] => some s
  | s, e :: es => (step s e).bind fun next => run step next es

/-- Every event meets `Ok` in the state it finds, as far as the run gets. -/
def Along (step : S → E → Option S) (Ok : S → E → Prop) : S → List E → Prop
  | _, [] => True
  | s, e :: es => Ok s e ∧ ∀ next, step s e = some next → Along step Ok next es

instance Along.decidable [∀ s e, Decidable (Ok s e)] :
    ∀ (s : S) (es : List E), Decidable (Along step Ok s es)
  | _, [] => .isTrue trivial
  | s, e :: es =>
      match taken : step s e with
      | none => decidable_of_iff (Ok s e) (by simp [Along, taken])
      | some next =>
          have := Along.decidable next es
          decidable_of_iff (Ok s e ∧ Along step Ok next es) (by simp [Along, taken])

theorem along_of_forall (all : ∀ s e, Ok s e) {s : S} {es : List E} : Along step Ok s es := by
  induction es generalizing s with
  | nil => trivial
  | cons e es ih => exact ⟨all s e, fun _ _ => ih⟩

/-- A property of the events alone. -/
theorem along_of_mem {Ok : E → Prop} {es : List E} (all : ∀ e ∈ es, Ok e) {s : S} :
    Along step (fun _ e => Ok e) s es := by
  induction es generalizing s with
  | nil => trivial
  | cons e es ih =>
      refine ⟨all e List.mem_cons_self, ?_⟩
      intro next _
      exact ih fun e' member => all e' (List.mem_cons_of_mem _ member)

theorem run_append (step : S → E → Option S) (s : S) (es more : List E) :
    run step s (es ++ more) = (run step s es).bind fun next => run step next more := by
  induction es generalizing s with
  | nil => rfl
  | cons e es ih =>
      simp only [List.cons_append, run]
      cases step s e with
      | none => rfl
      | some next => exact ih next

theorem run_snoc {s middle last : S} {es : List E} {e : E} (reached : run step s es = some middle)
    (taken : step middle e = some last) : run step s (es ++ [e]) = some last := by
  rw [run_append, reached, Option.bind_some, run, taken]
  rfl

/-- An event in the middle of a schedule meets `Ok` in the state reached before it. -/
theorem Along.at_event {s found : S} {before after : List E} {e : E}
    (along : Along step Ok s (before ++ e :: after)) (reached : run step s before = some found) :
    Ok found e := by
  induction before generalizing s with
  | nil =>
      cases Option.some.inj reached
      exact along.1
  | cons first before ih =>
      obtain ⟨next, taken, rest⟩ := Option.bind_eq_some_iff.mp reached
      exact ih (along.2 next taken) rest

theorem run_invariant (Inv : S → Prop)
    (keeps : ∀ s e next, Inv s → Ok s e → step s e = some next → Inv next) {s : S}
    {es : List E} {last : S} (start : Inv s) (along : Along step Ok s es)
    (reached : run step s es = some last) : Inv last := by
  induction es generalizing s with
  | nil =>
      cases Option.some.inj reached
      exact start
  | cons e es ih =>
      obtain ⟨next, first, rest⟩ := Option.bind_eq_some_iff.mp reached
      exact ih (keeps s e next start along.1 first) (along.2 next first) rest

theorem run_total (Inv : S → Prop)
    (keeps : ∀ s e, Inv s → Ok s e → ∃ next, step s e = some next ∧ Inv next) {s : S}
    {es : List E} (start : Inv s) (along : Along step Ok s es) :
    ∃ last, run step s es = some last ∧ Inv last := by
  induction es generalizing s with
  | nil => exact ⟨s, rfl, start⟩
  | cons e es ih =>
      obtain ⟨next, first, kept⟩ := keeps s e start along.1
      obtain ⟨last, rest, atLast⟩ := ih kept (along.2 next first)
      exact ⟨last, by simp only [run, first, Option.bind_some, rest], atLast⟩

/-- Every event uses up some of what there is. -/
theorem run_length (Inv : S → Prop) (used : S → ℕ)
    (keeps : ∀ s e next, Inv s → Ok s e → step s e = some next →
      Inv next ∧ used s + 1 ≤ used next) {s : S} {es : List E} {last : S} (start : Inv s)
    (along : Along step Ok s es) (reached : run step s es = some last) :
    used s + es.length ≤ used last := by
  induction es generalizing s with
  | nil =>
      cases Option.some.inj reached
      exact Nat.le_refl _
  | cons e es ih =>
      obtain ⟨next, first, rest⟩ := Option.bind_eq_some_iff.mp reached
      obtain ⟨kept, more⟩ := keeps s e next start along.1 first
      have later := ih kept (along.2 next first) rest
      rw [List.length_cons]
      omega

/-- A slot that the first event with a value for it fills. -/
theorem run_first {V : Type*} (slot : S → Option V) (value : E → Option V)
    (fills : ∀ s e next, step s e = some next → slot next = (slot s).or (value e)) {s : S}
    {es : List E} {last : S} (reached : run step s es = some last) :
    slot last = (slot s).or (es.findSome? value) := by
  induction es generalizing s with
  | nil =>
      cases Option.some.inj reached
      simp
  | cons e es ih =>
      obtain ⟨next, first, rest⟩ := Option.bind_eq_some_iff.mp reached
      rw [ih rest, fills s e next first, Option.or_assoc, List.findSome?_cons]
      cases value e with
      | none => rfl
      | some v => rfl

/-- A list that every event adds to. -/
theorem run_collect {V : Type*} (list : S → List V) (value : E → List V)
    (adds : ∀ s e next, step s e = some next → list next = list s ++ value e) {s : S}
    {es : List E} {last : S} (reached : run step s es = some last) :
    list last = list s ++ es.flatMap value := by
  induction es generalizing s with
  | nil =>
      cases Option.some.inj reached
      simp
  | cons e es ih =>
      obtain ⟨next, first, rest⟩ := Option.bind_eq_some_iff.mp reached
      rw [ih rest, adds s e next first, List.flatMap_cons, List.append_assoc]

/-- An invariant that the events keep as long as they meet one property gives them another. -/
theorem Along.of_invariant (Inv : S → Prop) {Rule : S → E → Prop}
    (gives : ∀ s e, Inv s → Rule s e → Ok s e)
    (keeps : ∀ s e next, Inv s → Rule s e → step s e = some next → Inv next) {s : S}
    {es : List E} (start : Inv s) (rule : Along step Rule s es) : Along step Ok s es := by
  induction es generalizing s with
  | nil => trivial
  | cons e es ih =>
      refine ⟨gives s e start rule.1, ?_⟩
      intro next taken
      exact ih (keeps s e next start rule.1 taken) (rule.2 next taken)

/-- Two properties of events that agree wherever the invariant holds, and either of
which keeps it, pick out the same schedules. -/
theorem along_iff (Inv : S → Prop) (Ok : S → E → Prop) {Ok' : S → E → Prop}
    {Rule : S → E → Prop} (agree : ∀ s e, Inv s → Rule s e → (Ok s e ↔ Ok' s e))
    (keeps : ∀ s e next, Inv s → Rule s e → Ok s e → step s e = some next → Inv next) {s : S}
    {es : List E} (start : Inv s) (rule : Along step Rule s es) :
    Along step Ok s es ↔ Along step Ok' s es := by
  induction es generalizing s with
  | nil => exact Iff.rfl
  | cons e es ih =>
      have here := agree s e start rule.1
      constructor
      · rintro ⟨ok, rest⟩
        refine ⟨here.mp ok, ?_⟩
        intro next first
        exact (ih (keeps s e next start rule.1 ok first) (rule.2 next first)).mp (rest next first)
      · rintro ⟨ok', rest⟩
        refine ⟨here.mpr ok', ?_⟩
        intro next first
        exact (ih (keeps s e next start rule.1 (here.mpr ok') first) (rule.2 next first)).mpr
          (rest next first)

theorem along_congr {Ok' : S → E → Prop} (agree : ∀ s e, Ok s e ↔ Ok' s e) {s : S} {es : List E} :
    Along step Ok s es ↔ Along step Ok' s es := by
  have same : Ok = Ok' := funext fun s => funext fun e => propext (agree s e)
  rw [same]

theorem Along.and {Ok' : S → E → Prop} {s : S} {es : List E} (first : Along step Ok s es)
    (second : Along step Ok' s es) : Along step (fun s e => Ok s e ∧ Ok' s e) s es := by
  induction es generalizing s with
  | nil => trivial
  | cons e es ih =>
      refine ⟨⟨first.1, second.1⟩, ?_⟩
      intro next taken
      exact ih (first.2 next taken) (second.2 next taken)

end Schedule

import Mathlib.Logic.Function.Basic
import Otpd.Lib.Cells
import Otpd.Lib.Schedule

/-!
# Settings that are made once

Commands run one after the other on checked memory, until one of them is turned down or
touches memory that is not its own.  Of the commands for an option the first one sets it,
and the later ones are not looked at.  `SetsOnce.first` is what that means for the whole
list of commands, and `execute_safe_iff` says which lists touch no other memory.
-/

set_option autoImplicit false

namespace Settings

open Cells

/-! ## Commands one after the other -/

def finished {A : Type} : Run A → Option A
  | .done a => some a
  | .fail => none
  | .fault => none

section Execute

variable {S E : Type} {step : S → E → Run S} {s last : S} {es more : List E}

def execute (step : S → E → Run S) : S → List E → Run S
  | s, [] => .done s
  | s, e :: es => step s e >>= fun next => execute step next es

theorem execute_cons {e : E} (run : execute step s (e :: es) = .done last) :
    ∃ next, step s e = .done next ∧ execute step next es = .done last :=
  Run.bind_eq_done run

theorem execute_append (run : execute step s (es ++ more) = .done last) :
    ∃ middle, execute step s es = .done middle ∧ execute step middle more = .done last := by
  induction es generalizing s with
  | nil => exact ⟨s, rfl, run⟩
  | cons e es ih =>
      obtain ⟨next, first, rest⟩ := execute_cons run
      obtain ⟨middle, front, back⟩ := ih rest
      refine ⟨middle, ?_, back⟩
      rw [execute, first, Run.done_bind]
      exact front

theorem execute_invariant (Inv : S → Prop)
    (keeps : ∀ s e next, Inv s → step s e = .done next → Inv next) (start : Inv s)
    (run : execute step s es = .done last) : Inv last := by
  induction es generalizing s with
  | nil =>
      cases run
      exact start
  | cons e es ih =>
      obtain ⟨next, first, rest⟩ := execute_cons run
      exact ih (keeps s e next start first) rest

/-- The commands touch no other memory exactly when each of them is careful in the state that
it finds. -/
theorem execute_safe_iff (Inv : S → Prop) {Careful : S → E → Prop}
    (keeps : ∀ s e next, Inv s → step s e = .done next → Inv next)
    (agree : ∀ s e, Inv s → (step s e ≠ .fault ↔ Careful s e)) (start : Inv s) :
    execute step s es ≠ .fault ↔ Schedule.Along (fun s e => finished (step s e)) Careful s es := by
  induction es generalizing s with
  | nil => exact iff_of_true (Run.done_safe s) trivial
  | cons e es ih =>
      rw [Schedule.Along, ← agree s e start, execute]
      cases taken : step s e with
      | fault => exact iff_of_false (fun safe => safe rfl) fun safe => safe.1 rfl
      | fail =>
          refine iff_of_true Run.fail_safe ⟨Run.fail_safe, ?_⟩
          intro next wrong
          cases wrong
      | done next =>
          rw [Run.done_bind, ih (keeps s e next start taken)]
          constructor
          · intro later
            refine ⟨Run.done_safe next, ?_⟩
            intro other same
            cases same
            exact later
          · intro safe
            exact safe.2 next rfl

end Execute

/-! ## The first command for an option -/

section Once

variable {S E K : Type} {V : K → Type}

/-- A command that finishes leaves the options alone that it does not name and those that are
set, and sets the ones it names to its values. -/
structure SetsOnce (step : S → E → Run S) (slots : S → ∀ k, Option (V k)) (names : E → K → Prop)
    (value : E → ∀ k, Option (V k)) : Prop where
  other : ∀ {s e next k}, step s e = .done next → ¬ names e k → slots next k = slots s k
  kept : ∀ {s e next k v}, step s e = .done next → slots s k = some v → slots next k = some v
  taken : ∀ {s e next k}, step s e = .done next → names e k → slots s k = none →
    ∃ v, value e k = some v ∧ slots next k = some v

variable {step : S → E → Run S} {slots : S → ∀ k, Option (V k)} {names : E → K → Prop}
  {value : E → ∀ k, Option (V k)} {s last : S} {k : K}

theorem SetsOnce.unnamed (once : SetsOnce step slots names value) {es : List E}
    (nobody : ∀ e ∈ es, ¬ names e k) (run : execute step s es = .done last) :
    slots last k = slots s k := by
  induction es generalizing s with
  | nil =>
      cases run
      rfl
  | cons e es ih =>
      obtain ⟨next, first, rest⟩ := execute_cons run
      rw [ih (fun e' member => nobody e' (List.mem_cons_of_mem e member)) rest,
        once.other first (nobody e List.mem_cons_self)]

theorem SetsOnce.kept_run (once : SetsOnce step slots names value) {es : List E} {v : V k}
    (set : slots s k = some v) (run : execute step s es = .done last) : slots last k = some v :=
  execute_invariant (fun s => slots s k = some v) (fun _ _ _ kept step => once.kept step kept) set
    run

theorem SetsOnce.set_of_named (once : SetsOnce step slots names value) {es : List E}
    (here : ∃ e ∈ es, names e k) (run : execute step s es = .done last) :
    (slots last k).isSome = true := by
  induction es generalizing s with
  | nil =>
      obtain ⟨_, member, -⟩ := here
      cases member
  | cons e es ih =>
      obtain ⟨next, first, rest⟩ := execute_cons run
      by_cases named : names e k
      · have set : (slots next k).isSome = true := by
          cases unset : slots s k with
          | none =>
              obtain ⟨v, -, set⟩ := once.taken first named unset
              rw [set]
              rfl
          | some v =>
              rw [once.kept first unset]
              rfl
        obtain ⟨v, set⟩ := Option.isSome_iff_exists.mp set
        rw [once.kept_run set rest]
        rfl
      · obtain ⟨e', member, named'⟩ := here
        rcases List.mem_cons.mp member with rfl | later
        · exact absurd named' named
        · exact ih ⟨e', later, named'⟩ rest

theorem SetsOnce.first (once : SetsOnce step slots names value) {before after : List E} {e : E}
    (unset : slots s k = none) (nobody : ∀ b ∈ before, ¬ names b k) (here : names e k)
    (run : execute step s (before ++ e :: after) = .done last) : slots last k = value e k := by
  obtain ⟨found, front, run⟩ := execute_append run
  obtain ⟨next, taken, back⟩ := execute_cons run
  obtain ⟨v, given, set⟩ := once.taken taken here ((once.unnamed nobody front).trans unset)
  rw [given]
  exact once.kept_run set back

end Once

/-! ## One option -/

section Setter

variable {K : Type} {V : K → Type} [DecidableEq K]

/-- A command for one option; `value` is found only when the option is not set. -/
structure Setter (V : K → Type) where
  option : K
  value : Run (V option)

def put (settings : ∀ k, Option (V k)) (k : K) (v : V k) : ∀ k, Option (V k) :=
  Function.update settings k (some v)

def Setter.apply (setter : Setter V) (settings : ∀ k, Option (V k)) : Run (∀ k, Option (V k)) :=
  if (settings setter.option).isSome then .done settings
  else setter.value >>= fun v => .done (put settings setter.option v)

def Setter.given (setter : Setter V) : ∀ k, Option (V k) :=
  match setter.value with
  | .done v => put (fun _ => none) setter.option v
  | _ => fun _ => none

variable {setter : Setter V} {settings next : ∀ k, Option (V k)} {k : K}

/-- The value is not looked at when the option is set. -/
theorem Setter.apply_set (set : (settings setter.option).isSome = true) :
    setter.apply settings = .done settings := if_pos set

theorem Setter.apply_other (done : setter.apply settings = .done next) (other : k ≠ setter.option) :
    next k = settings k := by
  rw [Setter.apply] at done
  split at done
  · cases done
    rfl
  · obtain ⟨v, -, same⟩ := Run.bind_eq_done done
    cases same
    exact Function.update_of_ne other ..

theorem Setter.apply_kept {v : V k} (done : setter.apply settings = .done next)
    (set : settings k = some v) : next k = some v := by
  by_cases here : k = setter.option
  · subst here
    rw [Setter.apply, if_pos (by rw [set]; rfl)] at done
    cases done
    exact set
  · rw [Setter.apply_other done here]
    exact set

theorem Setter.apply_taken (done : setter.apply settings = .done next)
    (unset : settings setter.option = none) :
    ∃ v, setter.given setter.option = some v ∧ next setter.option = some v := by
  rw [Setter.apply, if_neg (by rw [unset]; exact Bool.false_ne_true)] at done
  obtain ⟨v, value, same⟩ := Run.bind_eq_done done
  cases same
  refine ⟨v, ?_, Function.update_self ..⟩
  rw [Setter.given, value]
  exact Function.update_self ..

theorem Setter.given_other (other : k ≠ setter.option) : setter.given k = none := by
  unfold Setter.given
  cases setter.value with
  | done v => exact Function.update_of_ne other ..
  | fail => rfl
  | fault => rfl

def applySetter (settings : ∀ k, Option (V k)) (setter : Setter V) : Run (∀ k, Option (V k)) :=
  setter.apply settings

theorem applySetter_setsOnce : SetsOnce (applySetter (V := V)) (fun settings => settings)
    (fun setter k => setter.option = k) Setter.given where
  other := fun done other => Setter.apply_other done fun same => other same.symm
  kept := fun done set => Setter.apply_kept done set
  taken := by
    intro settings setter next k done here unset
    subst here
    exact Setter.apply_taken done unset

/-- The value that the first of some setters for an option has for it. -/
def givenBy (setters : List (Setter V)) (k : K) : Option (V k) :=
  setters.findSome? fun setter => setter.given k

theorem applySetter_safe (safe : setter.value ≠ .fault) :
    applySetter settings setter ≠ .fault := by
  rw [applySetter, Setter.apply]
  split
  · intro wrong
    cases wrong
  · cases found : setter.value with
    | fault => exact absurd found safe
    | fail =>
        intro wrong
        cases wrong
    | done v =>
        intro wrong
        cases wrong

/-- What the setters check holds of every value that is in force. -/
theorem execute_values (Good : ∀ k, V k → Prop) {setters : List (Setter V)}
    (checked : ∀ setter ∈ setters, ∀ v, setter.value = .done v → Good setter.option v)
    (before : ∀ k v, settings k = some v → Good k v)
    (run : execute applySetter settings setters = .done next) :
    ∀ k v, next k = some v → Good k v := by
  induction setters generalizing settings with
  | nil =>
      cases run
      exact before
  | cons setter setters ih =>
      obtain ⟨middle, first, rest⟩ := execute_cons run
      refine ih (fun s member => checked s (List.mem_cons_of_mem setter member)) ?_ rest
      intro k v set
      rw [applySetter, Setter.apply] at first
      split at first
      · cases first
        exact before k v set
      · obtain ⟨v', found, same⟩ := Run.bind_eq_done first
        cases same
        by_cases here : k = setter.option
        · subst here
          rw [put, Function.update_self] at set
          rw [← Option.some.inj set]
          exact checked setter List.mem_cons_self v' found
        · rw [put, Function.update_of_ne here] at set
          exact before k v set

theorem execute_taken {setters : List (Setter V)} (here : ∃ setter ∈ setters, setter.option = k)
    (unset : settings k = none) (run : execute applySetter settings setters = .done next) :
    ∃ v, givenBy setters k = some v ∧ next k = some v := by
  induction setters generalizing settings with
  | nil =>
      obtain ⟨_, member, -⟩ := here
      cases member
  | cons setter setters ih =>
      obtain ⟨middle, first, rest⟩ := execute_cons run
      by_cases mine : setter.option = k
      · subst mine
        obtain ⟨v, given, set⟩ := Setter.apply_taken first unset
        refine ⟨v, ?_, applySetter_setsOnce.kept_run set rest⟩
        rw [givenBy, List.findSome?_cons, given]
      · have other : k ≠ setter.option := fun same => mine same.symm
        have later : ∃ setter ∈ setters, setter.option = k := by
          obtain ⟨setter', member, same⟩ := here
          rcases List.mem_cons.mp member with rfl | member
          · exact absurd same mine
          · exact ⟨setter', member, same⟩
        obtain ⟨v, given, set⟩ := ih later ((Setter.apply_other first other).trans unset) rest
        refine ⟨v, ?_, set⟩
        rw [givenBy, List.findSome?_cons, Setter.given_other other]
        exact given

/-- Commands that apply some setters each, one after the other. -/
theorem setsOnce_of_setters {S E : Type} {step : S → E → Run S} {slots : S → ∀ k, Option (V k)}
    (setters : E → List (Setter V))
    (applied : ∀ {s e next}, step s e = .done next →
      execute applySetter (slots s) (setters e) = .done (slots next)) :
    SetsOnce step slots (fun e k => ∃ setter ∈ setters e, setter.option = k)
      (fun e k => givenBy (setters e) k) where
  other := by
    intro s e next k done other
    refine applySetter_setsOnce.unnamed ?_ (applied done)
    intro setter member here
    exact other ⟨setter, member, here⟩
  kept := by
    intro s e next k v done set
    exact applySetter_setsOnce.kept_run set (applied done)
  taken := fun done here unset => execute_taken here unset (applied done)

end Setter

end Settings

import Mathlib.Order.Basic
import Mathlib.Data.List.Basic
import Mathlib.Tactic

/-!
# Runs of a deterministic service

A service answers calls one after another, each on the state the previous one
left.  `trace` lists the transitions of a run.  Two rules carry facts about one
transition to the whole run: `history_invariant`, where the invariant may speak
about everything that happened before, and `Climbs`, for a level that never
falls and labels that always lie above it.
-/

set_option autoImplicit false

namespace Runs

variable {S C O : Type*}

@[ext]
structure Transition (S C O : Type*) where
  pre : S
  call : C
  out : O
  post : S

def transition (step : S → C → O × S) (s : S) (c : C) : Transition S C O :=
  ⟨s, c, (step s c).1, (step s c).2⟩

def trace (step : S → C → O × S) : S → List C → List (Transition S C O)
  | _, [] => []
  | s, c :: cs => transition step s c :: trace step (step s c).2 cs

def final (step : S → C → O × S) : S → List C → S
  | s, [] => s
  | s, c :: cs => final step (step s c).2 cs

theorem final_append (step : S → C → O × S) (s : S) (cs : List C) (c : C) :
    final step s (cs ++ [c]) = (step (final step s cs) c).2 := by
  induction cs generalizing s with
  | nil => rfl
  | cons d cs ih => exact ih _

theorem trace_append (step : S → C → O × S) (s : S) (cs : List C) (c : C) :
    trace step s (cs ++ [c]) = trace step s cs ++ [transition step (final step s cs) c] := by
  induction cs generalizing s with
  | nil => rfl
  | cons d cs ih => exact congrArg (transition step s d :: ·) (ih _)

theorem trace_is_step (step : S → C → O × S) {s : S} {cs : List C} {t : Transition S C O}
    (member : t ∈ trace step s cs) : t = transition step t.pre t.call := by
  induction cs generalizing s with
  | nil => simp [trace] at member
  | cons c cs ih =>
      rcases List.mem_cons.mp member with rfl | later
      · rfl
      · exact ih later

theorem trace_call_mem (step : S → C → O × S) {s : S} {cs : List C} {t : Transition S C O}
    (member : t ∈ trace step s cs) : t.call ∈ cs := by
  induction cs generalizing s with
  | nil => simp [trace] at member
  | cons c cs ih =>
      rcases List.mem_cons.mp member with rfl | later
      · exact List.mem_cons_self
      · exact List.mem_cons_of_mem _ (ih later)

/-- An invariant over the past and the current state holds at the end of the run
and before every transition of it. -/
theorem history_invariant (step : S → C → O × S)
    (Inv : List (Transition S C O) → S → Prop) (Ok : S → C → Prop)
    (preserve : ∀ past s c, Inv past s → Ok s c →
      Inv (past ++ [transition step s c]) (step s c).2) :
    ∀ (cs : List C) (past : List (Transition S C O)) (s : S), Inv past s →
      (∀ t ∈ trace step s cs, Ok t.pre t.call) →
      Inv (past ++ trace step s cs) (final step s cs) ∧
        ∀ before t after, trace step s cs = before ++ t :: after → Inv (past ++ before) t.pre := by
  intro cs
  induction cs with
  | nil =>
      intro past s inv _
      refine ⟨by simpa [trace, final] using inv, ?_⟩
      intro before t after split
      simp [trace] at split
  | cons c cs ih =>
      intro past s inv ok
      have here : Ok s c := ok (transition step s c) List.mem_cons_self
      obtain ⟨atEnd, atSplit⟩ := ih (past ++ [transition step s c]) (step s c).2
        (preserve past s c inv here) (fun t member => ok t (List.mem_cons_of_mem _ member))
      refine ⟨by simpa [trace, final] using atEnd, ?_⟩
      intro before t after split
      cases before with
      | nil =>
          simp only [trace, List.nil_append, List.cons.injEq] at split
          rw [← split.1, List.append_nil]
          exact inv
      | cons first before =>
          simp only [trace, List.cons_append, List.cons.injEq] at split
          have earlier := atSplit before t after split.2
          rwa [List.append_assoc, List.singleton_append, split.1] at earlier

theorem state_invariant (step : S → C → O × S) (Inv : S → Prop) (Ok : S → C → Prop)
    (preserve : ∀ s c, Inv s → Ok s c → Inv (step s c).2) {s : S} {cs : List C} (start : Inv s)
    (ok : ∀ t ∈ trace step s cs, Ok t.pre t.call) :
    Inv (final step s cs) ∧ ∀ t ∈ trace step s cs, Inv t.pre := by
  obtain ⟨atEnd, atSplit⟩ := history_invariant step (fun _ => Inv) Ok
    (fun _ s c => preserve s c) cs [] s start ok
  refine ⟨atEnd, ?_⟩
  intro t member
  obtain ⟨before, after, split⟩ := List.append_of_mem member
  exact atSplit before t after split

/-! ## What holds since something happened -/

section Since

variable {T : Type*} {P Q : T → Prop} {past : List T} {x : T}

/-- `P` held of some element of the past and `Q` of all that came after it. -/
def Since (P Q : T → Prop) (past : List T) : Prop :=
  ∃ before x after, past = before ++ x :: after ∧ P x ∧ ∀ y ∈ after, Q y

theorem Since.here (holds : P x) : Since P Q (past ++ [x]) := ⟨past, x, [], rfl, holds, by simp⟩

theorem Since.keep (since : Since P Q past) (holds : Q x) : Since P Q (past ++ [x]) := by
  obtain ⟨before, y, after, rfl, there, later⟩ := since
  refine ⟨before, y, after ++ [x], by simp, there, ?_⟩
  intro z member
  rcases List.mem_append.mp member with earlier | last
  · exact later z earlier
  · rw [List.mem_singleton.mp last]
    exact holds

end Since

/-! ## A level that never falls -/

section Climb

variable {L : Type*} [Preorder L]

/-- One transition keeps the state good, does not lower its level, and a label it
carries lies above the level before it and at most at the level after it. -/
def Climbs (step : S → C → O × S) (Good : S → Prop) (Ok : S → C → Prop) (level : S → L)
    (label : Transition S C O → Option L) : Prop :=
  ∀ s c, Good s → Ok s c → Good (step s c).2 ∧ level s ≤ level (step s c).2 ∧
    ∀ n, label (transition step s c) = some n → level s < n ∧ n ≤ level (step s c).2

variable {step : S → C → O × S} {Good : S → Prop} {Ok : S → C → Prop} {level : S → L}
  {label : Transition S C O → Option L}

theorem Climbs.good (climbs : Climbs step Good Ok level label) {s : S} {cs : List C}
    (good : Good s) (ok : ∀ t ∈ trace step s cs, Ok t.pre t.call) :
    ∀ t ∈ trace step s cs, Good t.pre :=
  (state_invariant step Good Ok (fun s c good here => (climbs s c good here).1) good ok).2

theorem Climbs.labels_above (climbs : Climbs step Good Ok level label) :
    ∀ (cs : List C) (s : S), Good s → (∀ t ∈ trace step s cs, Ok t.pre t.call) →
      ∀ n ∈ (trace step s cs).filterMap label, level s < n := by
  intro cs
  induction cs with
  | nil => intro s _ _ n member; simp [trace] at member
  | cons c cs ih =>
      intro s good ok n member
      obtain ⟨good', rises, above⟩ := climbs s c good (ok (Runs.transition step s c) List.mem_cons_self)
      obtain ⟨t, inTrace, labelled⟩ := List.mem_filterMap.mp member
      rcases List.mem_cons.mp inTrace with rfl | later
      · exact (above n labelled).1
      · exact lt_of_le_of_lt rises (ih _ good' (fun t h => ok t (List.mem_cons_of_mem _ h)) n
          (List.mem_filterMap.mpr ⟨t, later, labelled⟩))

theorem Climbs.labels_increasing (climbs : Climbs step Good Ok level label) :
    ∀ (cs : List C) (s : S), Good s → (∀ t ∈ trace step s cs, Ok t.pre t.call) →
      ((trace step s cs).filterMap label).Pairwise (· < ·) := by
  intro cs
  induction cs with
  | nil => intro s _ _; simp [trace]
  | cons c cs ih =>
      intro s good ok
      obtain ⟨good', -, above⟩ := climbs s c good (ok (Runs.transition step s c) List.mem_cons_self)
      have later : ∀ t ∈ trace step (step s c).2 cs, Ok t.pre t.call :=
        fun t member => ok t (List.mem_cons_of_mem _ member)
      have tail := ih (step s c).2 good' later
      simp only [trace]
      cases labelled : label (Runs.transition step s c) with
      | none => rwa [List.filterMap_cons_none labelled]
      | some n =>
          rw [List.filterMap_cons_some labelled, List.pairwise_cons]
          refine ⟨?_, tail⟩
          intro m member
          exact lt_of_le_of_lt (above n labelled).2
            (climbs.labels_above cs (step s c).2 good' later m member)

end Climb

end Runs

import Otpd.Lib.Schedule
import Mathlib.Data.Int.Bitwise

/-!
# The time left for LDAP

`ldap_get` starts with the configured timeout and takes off the time that has passed
whenever a call that can block returns.  Clock readings are in nanoseconds, a `timeval`
is in seconds and microseconds.
-/

set_option autoImplicit false

namespace Otpd

/-- `struct timeval`. -/
structure TimeVal where
  sec : Int
  usec : Int
  deriving DecidableEq

def TimeVal.micros (tv : TimeVal) : Int := tv.sec * 1000000 + tv.usec

def TimeVal.Normalised (tv : TimeVal) : Prop := 0 ≤ tv.usec ∧ tv.usec < 1000000

/-- The timeout that `ldap_init1` makes of `config->timeout`. -/
def ldapTimeout (timeout : Int) : TimeVal :=
  let usec := timeout.tdiv 1000
  ⟨usec.tdiv 1000000, usec.tmod 1000000⟩

/-- What `tv` and `hrlast` point to. -/
structure LdapClock where
  tv : TimeVal
  hrlast : Int
  deriving DecidableEq

/-- `update_timeout` at the time `now`, and whether it returns `LDAP_TIMEOUT`. -/
def updateTimeout (left : LdapClock) (now : Int) : Bool × LdapClock :=
  let hret := now - left.hrlast
  let sec := left.tv.sec - hret.tdiv 1000000000
  let usec := left.tv.usec - hret.tmod 1000000
  let tv : TimeVal := if usec < 0 then ⟨sec - 1, usec + 1000000⟩ else ⟨sec, usec⟩
  (decide (Int.lor tv.sec tv.usec < 0), ⟨tv, left.hrlast + hret⟩)

def updateStep (left : LdapClock) (now : Int) : Option LdapClock := some (updateTimeout left now).2

/-- The clock does not go back. -/
def ClockForward (left : LdapClock) (now : Int) : Prop := left.hrlast ≤ now

instance : DecidableRel ClockForward := fun _ now => inferInstanceAs (Decidable (_ ≤ now))

/-- One call takes off the nanoseconds passed, to within a microsecond. -/
structure ExactUpdate (left : LdapClock) (now : Int) : Prop where
  normalised : (updateTimeout left now).2.tv.Normalised
  exact : |1000 * ((updateTimeout left now).2.tv.micros - left.tv.micros) + (now - left.hrlast)| ≤
    1000
  timeout : (updateTimeout left now).1 = true ↔ (updateTimeout left now).2.tv.micros < 0

/-- So does every call at the times `clocks`, and all together the time up to the last. -/
structure AccountedExactly (left : LdapClock) (clocks : List Int) : Prop where
  each : Schedule.Along updateStep ExactUpdate left clocks
  total : ∀ last, Schedule.run updateStep left clocks = some last →
    |1000 * (last.tv.micros - left.tv.micros) + (clocks.getLastD left.hrlast - left.hrlast)| ≤
      1000 * clocks.length

/-- Between whole seconds, the nanoseconds behind the millisecond are subtracted as
microseconds and the milliseconds are not. -/
def CountedRight (left : LdapClock) (now : Int) : Prop :=
  let hret := now - left.hrlast
  |1000000 * (hret / 1000000 % 1000) - 999 * (hret % 1000000)| ≤ 1000

instance : DecidableRel CountedRight := fun _ _ => inferInstanceAs (Decidable (_ ≤ _))

theorem ldapTimeout_normalised {timeout : Int} (positive : 0 ≤ timeout) :
    (ldapTimeout timeout).Normalised ∧ (ldapTimeout timeout).micros = timeout / 1000 := by
  have usec : timeout.tdiv 1000 = timeout / 1000 := Int.tdiv_eq_ediv_of_nonneg positive
  have least : 0 ≤ timeout / 1000 := by omega
  simp only [ldapTimeout, TimeVal.Normalised, TimeVal.micros, usec,
    Int.tdiv_eq_ediv_of_nonneg least, Int.tmod_eq_emod_of_nonneg least]
  omega

theorem lor_neg_iff (a b : Int) : Int.lor a b < 0 ↔ a < 0 ∨ b < 0 := by
  cases a with
  | ofNat a =>
      cases b with
      | ofNat b =>
          have := Int.natCast_nonneg (a ||| b)
          simp only [Int.lor, Int.ofNat_eq_natCast]
          omega
      | negSucc b => simp [Int.lor, Int.negSucc_lt_zero]
  | negSucc a =>
      cases b with
      | ofNat b => simp [Int.lor, Int.negSucc_lt_zero]
      | negSucc b => simp [Int.lor, Int.negSucc_lt_zero]

section Update

variable {left : LdapClock} {now : Int}

theorem updateTimeout_hrlast : (updateTimeout left now).2.hrlast = now := by
  simp only [updateTimeout]
  omega

theorem updateTimeout_tv (forward : ClockForward left now) (normalised : left.tv.Normalised) :
    (updateTimeout left now).2.tv.Normalised ∧
      (updateTimeout left now).2.tv.micros = left.tv.micros -
        ((now - left.hrlast) / 1000000000 * 1000000 + (now - left.hrlast) % 1000000) := by
  have passed : 0 ≤ now - left.hrlast := Int.sub_nonneg.mpr forward
  obtain ⟨least, most⟩ := normalised
  simp only [updateTimeout, Int.tdiv_eq_ediv_of_nonneg passed, Int.tmod_eq_emod_of_nonneg passed,
    TimeVal.Normalised, TimeVal.micros]
  split
  · simp only
    omega
  · simp only
    omega

theorem updateTimeout_expired (normalised : (updateTimeout left now).2.tv.Normalised) :
    (updateTimeout left now).1 = true ↔ (updateTimeout left now).2.tv.micros < 0 := by
  have tested : (updateTimeout left now).1 = decide
      (Int.lor (updateTimeout left now).2.tv.sec (updateTimeout left now).2.tv.usec < 0) := rfl
  obtain ⟨least, most⟩ := normalised
  rw [tested, decide_eq_true_eq, lor_neg_iff, TimeVal.micros]
  omega

theorem exactUpdate_iff (forward : ClockForward left now) (normalised : left.tv.Normalised) :
    ExactUpdate left now ↔ CountedRight left now := by
  obtain ⟨normalised', value⟩ := updateTimeout_tv forward normalised
  have error : 1000 * ((updateTimeout left now).2.tv.micros - left.tv.micros) +
      (now - left.hrlast) = 1000000 * ((now - left.hrlast) / 1000000 % 1000) -
        999 * ((now - left.hrlast) % 1000000) := by
    rw [value]
    omega
  constructor
  · intro update
    have exact := update.exact
    rw [error] at exact
    exact exact
  · intro counted
    refine ⟨normalised', ?_, updateTimeout_expired normalised'⟩
    rw [error]
    exact counted

end Update

/-- The errors of the calls add up to at most a microsecond for each. -/
theorem total_exact {left last : LdapClock} {clocks : List Int}
    (each : Schedule.Along updateStep ExactUpdate left clocks)
    (reached : Schedule.run updateStep left clocks = some last) :
    |1000 * (last.tv.micros - left.tv.micros) + (clocks.getLastD left.hrlast - left.hrlast)| ≤
      1000 * clocks.length := by
  induction clocks generalizing left with
  | nil =>
      cases Option.some.inj reached
      simp
  | cons now clocks ih =>
      obtain ⟨update, rest⟩ := each
      have later := ih (rest _ rfl) reached
      have first := update.exact
      rw [updateTimeout_hrlast] at later
      rw [List.getLastD_cons, List.length_cons]
      push_cast
      rw [abs_le] at later first ⊢
      omega

theorem ldap_timeout_iff (left : LdapClock) (clocks : List Int)
    (normalised : left.tv.Normalised)
    (forward : Schedule.Along updateStep ClockForward left clocks) :
    AccountedExactly left clocks ↔ Schedule.Along updateStep CountedRight left clocks := by
  have agree : Schedule.Along updateStep ExactUpdate left clocks ↔
      Schedule.Along updateStep CountedRight left clocks :=
    Schedule.along_iff (fun left => left.tv.Normalised) ExactUpdate
      (fun left now normalised forward => exactUpdate_iff forward normalised)
      (fun left now next _ _ update taken => by
        cases taken
        exact update.normalised) normalised forward
  constructor
  · intro accounted
    exact agree.mp accounted.each
  · intro counted
    have each := agree.mpr counted
    exact ⟨each, fun last reached => total_exact each reached⟩

/-- The least timeout that the configuration allows, from the time 0. -/
def leastClock : LdapClock := ⟨ldapTimeout 3000000000, 0⟩

theorem ldap_timeout_seconds : AccountedExactly leastClock [1000000000, 3000000000] :=
  (ldap_timeout_iff leastClock [1000000000, 3000000000]
    (ldapTimeout_normalised (by decide)).1
    (by decide)).mpr (by decide)

/-- Half a second is never taken off. -/
theorem ldap_timeout_kept :
    updateTimeout leastClock 500000000 = (false, ⟨⟨3, 0⟩, 500000000⟩) ∧
      ¬ AccountedExactly leastClock [500000000] := by
  refine ⟨by decide, ?_⟩
  intro accounted
  have exact := accounted.each.1.exact
  revert exact
  decide

end Otpd

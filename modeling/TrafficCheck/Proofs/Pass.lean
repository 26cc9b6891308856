import Mathlib.Data.List.Forall2
import TrafficCheck.Proofs.Lifecycle

/-!
# Passes over a set

A pass checks the assertions of a set in order. Each of them ends as its own check leaves it,
whatever stands around it, up to the first one whose own check errs: with that error the pass ends,
and this assertion and all behind it stay as they were.

## Main definitions

* `Assertion.Settles`, `Assertion.Errs`: how the own check of an assertion ends.

## Main statements

* `AssertionSet.settles_or_errs`: either all own checks settle or there is a first one that errs.
* `AssertionSet.checkEach_append`: a pass over assertions whose own checks settle goes on behind
  them.
* `AssertionSet.check_eq_own_checks`: what a pass leaves of a set and what it reports.
-/

namespace TrafficCheck

namespace Assertion

variable {t : Topology} {h : History} {a a' : Assertion}

/-- The own check of an assertion leaves it as `a'`. -/
def Settles (t : Topology) (h : History) (a a' : Assertion) : Prop :=
  (a.check t h).outcome = .ok a'

/-- The own check of an assertion ends in an error. -/
def Errs (t : Topology) (h : History) (a : Assertion) (e : AssertionError) : Prop :=
  (a.check t h).outcome = .error e

theorem Errs.not_settles {e : AssertionError} (he : a.Errs t h e) (a' : Assertion) :
    ¬a.Settles t h a' := by
  intro ha
  exact absurd (he.symm.trans ha) (by simp)

/-- Assertions that are no longer active do not err. -/
theorem Errs.isActive {e : AssertionError} (he : a.Errs t h e) : a.isActive = true := by
  refine Decidable.byContradiction fun ha => ?_
  exact he.not_settles a (outcome_check_of_not_active ha)

theorem Settles.again (ha : a.Settles t h a') : a'.Settles t h a' := check_again ha

end Assertion

namespace AssertionSet

open Assertion (Settles Errs)

variable {t : Topology} {h : History} {a a' : Assertion} {as as' before before' : List Assertion}
  {e : AssertionError}

/-! ## First errors -/

/-- Either all own checks settle or there is a first one that errs. -/
theorem settles_or_errs (t : Topology) (h : History) (as : List Assertion) :
    (∃ as', List.Forall₂ (Settles t h) as as') ∨
      ∃ before before' a after e, as = before ++ a :: after ∧
        List.Forall₂ (Settles t h) before before' ∧ a.Errs t h e := by
  induction as with
  | nil => exact .inl ⟨[], .nil⟩
  | cons a rest ih =>
    cases hcheck : (a.check t h).outcome with
    | error e => exact .inr ⟨[], [], a, rest, e, rfl, .nil, hcheck⟩
    | ok a' =>
      rcases ih with ⟨rest', hrest⟩ | ⟨before, before', b, after, e, rfl, hbefore, hb⟩
      · exact .inl ⟨a' :: rest', .cons hcheck hrest⟩
      · exact .inr ⟨a :: before, a' :: before', b, after, e, rfl, .cons hcheck hbefore, hb⟩

/-- Assertions whose own checks settle if they are active all settle. -/
theorem exists_forall₂_settles
    (hall : ∀ a ∈ as, a.isActive = true → ∃ a', a.Settles t h a') :
    ∃ as', List.Forall₂ (Settles t h) as as' := by
  rcases settles_or_errs t h as with hsettles | ⟨before, before', a, after, e, rfl, -, ha⟩
  · exact hsettles
  · obtain ⟨a', ha'⟩ := hall a (by simp) ha.isActive
    exact absurd ha' (ha.not_settles a')

/-! ## Passes over a list -/

theorem checkEach_cons_of_settles (ha : a.Settles t h a') (rest : List Assertion) :
    (checkEach t h (a :: rest)).value =
      (a' :: (checkEach t h rest).value.1, (checkEach t h rest).value.2) := by
  have hrun : (a.check t h).run.value = .ok a' := ha
  rw [checkEach, Logged.value_bind, hrun]
  rfl

theorem checkEach_cons_of_errs (ha : a.Errs t h e) (rest : List Assertion) :
    (checkEach t h (a :: rest)).value = (a :: rest, .error e) := by
  have hrun : (a.check t h).run.value = .error e := ha
  rw [checkEach, Logged.value_bind, hrun]
  rfl

/-- A pass over assertions whose own checks settle leaves what these checks leave and goes on
behind them. -/
theorem checkEach_append (hbefore : List.Forall₂ (Settles t h) before before')
    (rest : List Assertion) :
    (checkEach t h (before ++ rest)).value =
      (before' ++ (checkEach t h rest).value.1, (checkEach t h rest).value.2) := by
  induction hbefore with
  | nil => rfl
  | cons ha _ ih => rw [List.cons_append, checkEach_cons_of_settles ha, ih, List.cons_append]

theorem checkEach_of_settles (has : List.Forall₂ (Settles t h) as as') :
    (checkEach t h as).value = (as', .ok ()) := by
  have hpass := checkEach_append has []
  rw [List.append_nil] at hpass
  rw [hpass]
  simp [checkEach]

theorem checkEach_of_errs (hbefore : List.Forall₂ (Settles t h) before before')
    (ha : a.Errs t h e) (after : List Assertion) :
    (checkEach t h (before ++ a :: after)).value = (before' ++ a :: after, .error e) := by
  rw [checkEach_append hbefore, checkEach_cons_of_errs ha]

/-- What a pass has settled is left alone by the same pass. -/
theorem forall₂_settles_again (has : List.Forall₂ (Settles t h) as as') :
    List.Forall₂ (Settles t h) as' as' := by
  induction has with
  | nil => exact .nil
  | cons ha _ ih => exact .cons ha.again ih

/-! ## Passes over a set -/

theorem value_check (s : AssertionSet) (t : Topology) (h : History) :
    (s.check t h).value = ({ s with assertions := (checkEach t h s.assertions).value.1 },
      (checkEach t h s.assertions).value.2) := rfl

/-- A pass changes nothing but states. If no active assertion errs in its own check, the pass ends
well and every assertion is as its own check leaves it; the same pass then changes nothing any more.
Otherwise the pass ends with the error of the first assertion that errs: those before it are as
their own checks leave them, and from it on all are as they were. -/
theorem check_eq_own_checks (s : AssertionSet) (t : Topology) (h : History) :
    ∃ checked result, (s.check t h).value = (checked, result) ∧
      checked.files = s.files ∧ checked.failures = s.failures ∧
      checked.assertions.map Assertion.asRead = s.assertions.map Assertion.asRead ∧
      ((∀ a ∈ s.assertions, a.isActive = true → ∃ a', a.Settles t h a') →
        result = .ok () ∧ List.Forall₂ (Settles t h) s.assertions checked.assertions) ∧
      (∀ before a after e, s.assertions = before ++ a :: after →
        (∀ b ∈ before, b.isActive = true → ∃ b', b.Settles t h b') → a.Errs t h e →
        result = .error e ∧ ∃ before', List.Forall₂ (Settles t h) before before' ∧
          checked.assertions = before' ++ a :: after) ∧
      (result = .ok () → (checked.check t h).value = (checked, .ok ())) := by
  refine ⟨_, _, value_check s t h, rfl, rfl, map_asRead_checkEach t h s.assertions, ?_, ?_, ?_⟩
  · intro hall
    obtain ⟨as', has⟩ := exists_forall₂_settles hall
    rw [checkEach_of_settles has]
    exact ⟨rfl, has⟩
  · intro before a after e hsplit hall ha
    obtain ⟨before', hbefore⟩ := exists_forall₂_settles hall
    rw [hsplit, checkEach_of_errs hbefore ha]
    exact ⟨rfl, before', hbefore, rfl⟩
  · intro hok
    rcases settles_or_errs t h s.assertions with
      ⟨as', has⟩ | ⟨before, before', a, after, e, hsplit, hbefore, ha⟩
    · rw [checkEach_of_settles has, value_check, checkEach_of_settles (forall₂_settles_again has)]
    · rw [hsplit, checkEach_of_errs hbefore ha] at hok
      exact absurd hok (by simp)

end AssertionSet

end TrafficCheck

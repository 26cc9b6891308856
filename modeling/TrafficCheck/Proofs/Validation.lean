import Mathlib.Data.List.Forall2
import TrafficCheck.Proofs.Retention

/-!
# Validation

Validation ignores the active assertions that read a counter which a catalog does not know, and each
of them for just these counters. Nothing else of a set changes, so that what remains active reads
known counters alone, and validating again finds nothing to ignore. One record tells of all of it.

## Main definitions

* `Assertion.Misses`, `Assertion.IsInvalid`: which counters of an assertion a catalog does not know.
* `Assertion.Validated`: an assertion before and after validation.
* `Record.TellsOf`: the record of a validation.

## Main statements

* `AssertionSet.validateOne_eq_self_iff`: which assertions stay as they are.
* `AssertionSet.log_validate`: what validation tells.
* `AssertionSet.validation_characterized`: what validation does to a set and tells of it.
-/

namespace TrafficCheck

/-! ## Assertions -/

namespace Assertion

variable {c c' : Catalog} {a : Assertion} {counter : String}

/-- An assertion reads a counter that a catalog does not know. -/
def Misses (c : Catalog) (a : Assertion) (counter : String) : Prop :=
  (∃ v ∈ a.inputs.values, v.counter = counter) ∧ c.knows counter = false

/-- An active assertion reads a counter that a catalog does not know. -/
def IsInvalid (c : Catalog) (a : Assertion) : Prop :=
  a.isActive = true ∧ ∃ v ∈ a.inputs.values, c.knows v.counter = false

instance : DecidablePred (IsInvalid c) := fun _ => inferInstanceAs (Decidable (_ ∧ _))

theorem isInvalid_iff : a.IsInvalid c ↔ a.isActive = true ∧ ∃ counter, a.Misses c counter := by
  simp [IsInvalid, Misses]

/-- A catalog that knows more counters finds fewer assertions invalid. -/
theorem IsInvalid.mono (hknown : ∀ counter, c.knows counter = true → c'.knows counter = true)
    (ha : a.IsInvalid c') : a.IsInvalid c := by
  refine ha.imp_right ?_
  rintro ⟨v, hv, hunknown⟩
  refine ⟨v, hv, Bool.eq_false_iff.2 fun hc => ?_⟩
  exact absurd (hknown v.counter hc) (by simp [hunknown])

/-- An assertion before and after validation: an invalid one is ignored for the counters that the
catalog does not know, which are named in ascending order, and any other one stays as it is. -/
structure Validated (c : Catalog) (a a' : Assertion) : Prop where
  ignored : a.IsInvalid c → ∃ names : List String, names.Pairwise (· < ·) ∧
    (∀ counter, counter ∈ names ↔ a.Misses c counter) ∧
    a' = { a with state := .ignored ("with invalid counter(s) " ++ ", ".intercalate names) }
  kept : ¬a.IsInvalid c → a' = a

end Assertion

/-! ## Records -/

namespace Record

/-- The first line of the record of a validation. -/
def validationHeading (ignored : Nat) (unknown : List String) : String :=
  let assertions := if ignored > 1 then "assertions" else "assertion"
  let counters := if unknown.length > 1 then "counters are" else "counter is"
  s!"{ignored} {assertions} with the following invalid {counters} ignored:"

/-- A record tells of some assertions that were ignored for some unknown counters: it names all of
these counters, or the first eleven of them and how many there are. -/
structure TellsOf (r : Record) (ignored : Nat) (unknown : List String) : Prop where
  level : r.level = .error
  few : unknown.length ≤ 11 → r.message = "\n".intercalate
    (validationHeading ignored unknown :: unknown.map fun name => "\t" ++ name)
  many : 11 < unknown.length → r.message = "\n".intercalate
    (validationHeading ignored unknown :: ((unknown.take 11).map fun name => "\t" ++ name) ++
      [s!"<...> Total {unknown.length} items."])

/-- Lines are joined to a first one by writing a line feed before each of them. -/
theorem intercalate_newLine (first : String) (rest : List String) :
    "\n".intercalate (first :: rest) = first ++
      String.join (rest.map fun line => "\n" ++ line) := by
  induction rest generalizing first with
  | nil => simp
  | cons second rest ih =>
    rw [String.intercalate_cons_cons, ih, List.map_cons, String.join_cons, String.append_assoc,
      String.append_assoc]

/-- The names in the message of a validation stand on lines of their own. -/
theorem join_names (names : List String) :
    String.join (names.map fun name => "\n\t" ++ name) =
      String.join ((names.map fun name => "\t" ++ name).map fun line => "\n" ++ line) := by
  rw [List.map_map]
  refine congrArg String.join (List.map_congr_left fun name _ => ?_)
  rw [Function.comp_apply, ← String.append_assoc]
  rfl

theorem tellsOf_validationMessage (ignored : Nat) (unknown : List String) :
    (Record.mk .error (AssertionSet.validationMessage ignored unknown)).TellsOf ignored
      unknown := by
  have hmessage : AssertionSet.validationMessage ignored unknown =
      validationHeading ignored unknown ++
        String.join ((unknown.take 11).map fun name => "\n\t" ++ name) ++
        (if 11 < unknown.length then s!"\n<...> Total {unknown.length} items." else "") := rfl
  refine ⟨rfl, fun hfew => ?_, fun hmany => ?_⟩
  · rw [hmessage, if_neg (Nat.not_lt.2 hfew), List.take_of_length_le hfew, String.append_empty,
      join_names, intercalate_newLine]
  · have htotal : "\n" ++ s!"<...> Total {unknown.length} items." =
        s!"\n<...> Total {unknown.length} items." := by
      simp only [← String.append_assoc]
      rfl
    rw [hmessage, if_pos hmany, join_names, List.cons_append, intercalate_newLine, List.map_append,
      String.join_append, List.map_singleton, String.join_cons, String.join_nil,
      String.append_empty, htotal, String.append_assoc]

end Record

/-! ## Single assertions -/

namespace AssertionSet

variable {s : AssertionSet} {c : Catalog} {a : Assertion} {counter : String}

theorem mem_unknownCounters_iff : counter ∈ unknownCounters c a ↔ a.Misses c counter := by
  rw [unknownCounters, List.mem_filter, Assertion.counters, NameSet.mem_keys_ofNames, List.mem_map,
    Bool.not_eq_true']
  rfl

theorem pairwise_unknownCounters (c : Catalog) (a : Assertion) :
    (unknownCounters c a).Pairwise (· < ·) :=
  a.counters.ordered.sublist List.filter_sublist

theorem isInvalid_iff_unknownCounters :
    a.IsInvalid c ↔ a.isActive = true ∧ unknownCounters c a ≠ [] := by
  rw [Assertion.isInvalid_iff]
  simp only [← mem_unknownCounters_iff]
  refine and_congr_right fun _ => ⟨?_, List.exists_mem_of_ne_nil _⟩
  rintro ⟨counter, hcounter⟩
  exact List.ne_nil_of_mem hcounter

theorem validateOne_of_isInvalid (ha : a.IsInvalid c) : validateOne c a =
    { a with
      state := .ignored ("with invalid counter(s) " ++
        ", ".intercalate (unknownCounters c a)) } := by
  obtain ⟨hactive, hunknown⟩ := isInvalid_iff_unknownCounters.1 ha
  unfold validateOne
  split
  · contradiction
  · rw [Assertion.ignore, if_pos hactive]

theorem validateOne_of_not_isInvalid (ha : ¬a.IsInvalid c) : validateOne c a = a := by
  by_cases hactive : a.isActive = true
  · have hknown : unknownCounters c a = [] :=
      not_not.1 fun hne => ha (isInvalid_iff_unknownCounters.2 ⟨hactive, hne⟩)
    rw [validateOne, hknown]
  · exact validateOne_of_not_active hactive c

/-- Validation leaves just those assertions as they are that are not invalid. -/
theorem validateOne_eq_self_iff : validateOne c a = a ↔ ¬a.IsInvalid c := by
  refine ⟨fun heq ha => ?_, validateOne_of_not_isInvalid⟩
  have hactive := ha.1
  rw [← heq, validateOne_of_isInvalid ha] at hactive
  exact absurd hactive (by simp [Assertion.isActive])

theorem validated_validateOne (c : Catalog) (a : Assertion) : a.Validated c (validateOne c a) where
  ignored := fun ha => ⟨unknownCounters c a, pairwise_unknownCounters c a,
    fun _ => mem_unknownCounters_iff, validateOne_of_isInvalid ha⟩
  kept := validateOne_of_not_isInvalid

/-- What validation leaves is valid. -/
theorem not_isInvalid_validateOne : ¬(validateOne c a).IsInvalid c := by
  intro ha
  have heq := validateOne_of_active ha.1
  exact validateOne_eq_self_iff.1 heq (heq ▸ ha)

/-! ## Sets -/

theorem invalid_eq (s : AssertionSet) (c : Catalog) :
    s.invalid c = s.assertions.filter fun a => a.IsInvalid c := by
  refine List.filter_congr fun a _ => ?_
  rw [Bool.eq_iff_iff, decide_eq_true_eq, isInvalid_iff_unknownCounters]
  simp

theorem length_invalid (s : AssertionSet) (c : Catalog) :
    (s.invalid c).length = s.assertions.countP fun a => a.IsInvalid c := by
  rw [invalid_eq, List.countP_eq_length_filter]

/-- Validation tells nothing, or one record of all invalid assertions. -/
theorem log_validate (s : AssertionSet) (c : Catalog) :
    (s.validate c).log = if s.invalid c = [] then [] else
      [⟨.error, validationMessage (s.invalid c).length
        (NameSet.ofNames ((s.invalid c).flatMap (unknownCounters c))).keys⟩] := by
  rw [validate]
  cases hinvalid : s.invalid c <;> simp

/-- A set without invalid assertions passes validation unchanged and in silence. -/
theorem validate_of_valid (hvalid : ∀ a ∈ s.assertions, ¬a.IsInvalid c) :
    s.validate c = pure (s, 0) := by
  have hinvalid : s.invalid c = [] := by
    rw [invalid_eq, List.filter_eq_nil_iff]
    simpa using hvalid
  have hassertions : s.assertions.map (validateOne c) = s.assertions := by
    rw [List.map_congr_left fun a ha => validateOne_of_not_isInvalid (hvalid a ha), List.map_id']
  rw [validate, hinvalid, hassertions]
  rfl

theorem mem_unknown_iff :
    counter ∈ (NameSet.ofNames ((s.invalid c).flatMap (unknownCounters c))).keys ↔
      ∃ a ∈ s.assertions, a.isActive = true ∧ a.Misses c counter := by
  rw [NameSet.mem_keys_ofNames, List.mem_flatMap, invalid_eq]
  simp only [List.mem_filter, decide_eq_true_eq, mem_unknownCounters_iff, Assertion.isInvalid_iff]
  grind

/-- Validation ignores exactly the active assertions that read a counter which the catalog does not
know, naming these counters in ascending order, and returns their number; all else stays as it was.
What remains active reads known counters only, so that a second validation with the same catalog
finds, changes and tells nothing. A catalog that knows more changes no more assertions. Validation
tells nothing if it ignores nothing, and else one record that lists the unknown counters. -/
theorem validation_characterized (s : AssertionSet) (c : Catalog) :
    ∃ valid ignored, (s.validate c).value = (valid, ignored) ∧
      valid.files = s.files ∧ valid.failures = s.failures ∧
      List.Forall₂ (Assertion.Validated c) s.assertions valid.assertions ∧
      (ignored = s.assertions.countP fun a => a.IsInvalid c) ∧
      (∀ counter, valid.referencedCounters.contains counter = true → c.knows counter = true) ∧
      valid.validate c = pure (valid, 0) ∧
      (∀ c' : Catalog, (∀ counter, c.knows counter = true → c'.knows counter = true) → ∀ i : Nat,
        (s.validate c').value.1.assertions[i]? ≠ s.assertions[i]? →
          valid.assertions[i]? ≠ s.assertions[i]?) ∧
      ∃ unknown : List String, unknown.Pairwise (· < ·) ∧
        (∀ counter, counter ∈ unknown ↔
          ∃ a ∈ s.assertions, a.isActive = true ∧ a.Misses c counter) ∧
        (ignored = 0 → (s.validate c).log = []) ∧
        (ignored ≠ 0 → ∃ record : Record, (s.validate c).log = [record] ∧
          record.TellsOf ignored unknown) := by
  refine ⟨_, _, value_validate s c, rfl, rfl, ?assertions, length_invalid s c, ?known, ?again,
    ?larger, (NameSet.ofNames ((s.invalid c).flatMap (unknownCounters c))).keys, Table.ordered _,
    fun _ => mem_unknown_iff, ?silent, ?record⟩
  case assertions =>
    rw [List.forall₂_map_right_iff]
    exact List.forall₂_same.2 fun a _ => validated_validateOne c a
  case known =>
    intro counter hcounter
    obtain ⟨a, ha, hactive, v, hv, rfl⟩ := contains_referencedCounters.1 hcounter
    obtain ⟨b, -, rfl⟩ := List.mem_map.1 ha
    by_contra hunknown
    exact not_isInvalid_validateOne ⟨hactive, v, hv, by simpa using hunknown⟩
  case again =>
    refine validate_of_valid fun a ha => ?_
    obtain ⟨b, -, rfl⟩ := List.mem_map.1 ha
    exact not_isInvalid_validateOne
  case larger =>
    intro c' hknown i hchanged
    rw [value_validate] at hchanged
    simp only [List.getElem?_map] at hchanged ⊢
    cases hi : s.assertions[i]? with
    | none => simp [hi] at hchanged
    | some a =>
      simp only [hi, Option.map_some, ne_eq, Option.some.injEq, validateOne_eq_self_iff,
        not_not] at hchanged ⊢
      exact hchanged.mono hknown
  case silent =>
    intro hnone
    rw [log_validate, if_pos (List.length_eq_zero_iff.1 hnone)]
  case record =>
    intro hsome
    refine ⟨_, ?_, Record.tellsOf_validationMessage _ _⟩
    rw [log_validate, if_neg (mt List.length_eq_zero_iff.2 hsome)]

/-- A catalog that comes to know one of two counters of a line still ignores it, for the other
one. -/
theorem validation_of_growing_catalogs :
    let s := empty.run [.load "a.assertions" "LAST x > 0\nLAST y > z\n"]
    let c : Catalog := ⟨fun counter => counter = "x"⟩
    let c' : Catalog := ⟨fun counter => counter = "x" ∨ counter = "y"⟩
    (∀ counter, c.knows counter = true → c'.knows counter = true) ∧
      (s.validate c).log =
        [⟨.error, "1 assertion with the following invalid counters are ignored:\n\ty\n\tz"⟩] ∧
      (s.validate c').log =
        [⟨.error, "1 assertion with the following invalid counter is ignored:\n\tz"⟩] ∧
      (s.validate c').value.1.assertions[1]? ≠ s.assertions[1]? ∧
      (s.validate c).value.1.assertions[1]? ≠ s.assertions[1]? := by
  intro s c c'
  have hknown : ∀ counter, c.knows counter = true → c'.knows counter = true := by
    intro counter hcounter
    simp [c, c'] at hcounter ⊢
    exact .inl hcounter
  have hchanged : (s.validate c').value.1.assertions[1]? ≠ s.assertions[1]? := by
    intro heq
    have hstate := congrArg (Option.map (·.state)) heq
    exact absurd hstate (by decide +kernel)
  obtain ⟨valid, ignored, hvalid, -, -, -, -, -, -, hlarger, -⟩ := validation_characterized s c
  refine ⟨hknown, by decide +kernel, by decide +kernel, hchanged, ?_⟩
  rw [hvalid]
  exact hlarger c' hknown 1 hchanged

end AssertionSet

end TrafficCheck

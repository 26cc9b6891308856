import TrafficCheck.AssertionSet
import TrafficCheck.Proofs.Verdict

/-!
# What becomes of a set

Texts are loaded into a set, its assertions are validated, and they are checked, in any order and
any number of times. Loads alone add assertions and file names. A validation or a check changes
nothing of an assertion but its state, also where it ends early. So a set holds at any time what was
loaded into it, in order.

## Main statements

* `AssertionSet.map_asRead_apply`, `AssertionSet.files_apply`: what one operation does.
* `AssertionSet.map_asRead_run`, `AssertionSet.files_run`: what any number of them does.
* `AssertionSet.run_withFailures`: load failures make no difference to what follows.
* `AssertionSet.exists_portions`: the assertions of a set fall into one portion for each load.
-/

namespace TrafficCheck

/-! ## Assertions -/

namespace Assertion

variable {a a' : Assertion} {expression file : String} {line : Nat} {t : Topology} {h : History}

/-- An assertion as it was read, before anything was found out about it. -/
def asRead (a : Assertion) : Assertion := { a with state := .active }

@[simp] theorem asRead_ignore (a : Assertion) (reason : String) :
    (a.ignore reason).asRead = a.asRead := by
  rw [ignore]
  split <;> rfl

@[simp] theorem asRead_fail (a : Assertion) (message : String) :
    (a.fail message).asRead = a.asRead := by
  rw [fail]
  split <;> rfl

@[simp] theorem asRead_settle (a : Assertion) (v : Verdict) :
    (a.settle v).value.asRead = a.asRead := by
  cases v with
  | passed => rfl
  | failed tick elapsed trace => exact asRead_fail a _
  | ignored reason => exact asRead_ignore a reason

theorem asRead_check (hcheck : (a.check t h).outcome = .ok a') : a'.asRead = a.asRead := by
  by_cases ha : a.isActive = true
  · rw [outcome_check ha] at hcheck
    cases hverdict : a.verdict t h with
    | error e => simp [hverdict] at hcheck
    | ok v =>
      simp only [hverdict, Outcome.map_ok, Except.ok.injEq] at hcheck
      rw [← hcheck, asRead_settle]
  · rw [outcome_check_of_not_active ha] at hcheck
    rw [Except.ok.inj hcheck]

theorem file_and_asRead_of_read (hread : read expression file line = .ok a) :
    a.file = file ∧ a.asRead = a := by
  obtain ⟨r, tokens, program, inputs, -, -, -, rfl⟩ := read_eq_ok_iff.1 hread
  exact ⟨rfl, rfl⟩

end Assertion

namespace AssertionSet

variable {s : AssertionSet} {name text : String} {c : Catalog} {t : Topology} {h : History}
  {as : List Assertion} {a : Assertion}

theorem file_and_asRead_of_parse (hparse : parse name text = .ok as) (ha : a ∈ as) :
    a.file = name ∧ a.asRead = a := by
  obtain ⟨l, -, hl⟩ := Outcome.exists_of_mem_mapM hparse ha
  exact Assertion.file_and_asRead_of_read (Outcome.mapError_eq_ok_iff.1 hl)

/-! ## Operations -/

/-- What can be done with a set. -/
inductive Operation where
  | load (name text : String)
  | validate (c : Catalog)
  | check (t : Topology) (h : History)

/-- The set after an operation. -/
def apply (s : AssertionSet) : Operation → AssertionSet
  | .load name text => (s.load name text).value
  | .validate c => (s.validate c).value.1
  | .check t h => (s.check t h).value.1

/-- The set after a sequence of operations. -/
def run (s : AssertionSet) (ops : List Operation) : AssertionSet := ops.foldl apply s

/-- A text that was loaded: the name of its file and its assertions as they were read. -/
structure Load where
  file : String
  assertions : List Assertion

/-- The load of an operation that succeeds in one. -/
def Operation.load? : Operation → Option Load
  | .load name text => (parse name text).toOption.map fun assertions => ⟨name, assertions⟩
  | .validate _ | .check _ _ => none

/-- The loads of a sequence of operations that succeeded, in order. -/
def loads (ops : List Operation) : List Load := ops.filterMap Operation.load?

theorem file_and_asRead_of_mem_loads {ops : List Operation} {l : Load} (hl : l ∈ loads ops)
    (ha : a ∈ l.assertions) : a.file = l.file ∧ a.asRead = a := by
  obtain ⟨op, -, hop⟩ := List.mem_filterMap.1 hl
  cases op with
  | load name text =>
    obtain ⟨as, has, rfl⟩ := Option.map_eq_some_iff.1 hop
    exact file_and_asRead_of_parse (Outcome.toOption_eq_some_iff.1 has) ha
  | validate c | check t h => exact absurd hop (by simp [Operation.load?])

/-! ## One operation -/

theorem apply_load (s : AssertionSet) (name text : String) :
    s.apply (.load name text) = match parse name text with
      | .ok as => { s with assertions := s.assertions ++ as, files := s.files ++ [name] }
      | .error e => { s with failures := s.failures ++ [⟨name, e⟩] } := by
  rw [apply, load]
  cases parse name text <;> rfl

theorem value_validate (s : AssertionSet) (c : Catalog) : (s.validate c).value =
    ({ s with assertions := s.assertions.map (validateOne c) }, (s.invalid c).length) := by
  rw [validate]
  dsimp only
  split <;> rfl

theorem apply_validate (s : AssertionSet) (c : Catalog) :
    s.apply (.validate c) = { s with assertions := s.assertions.map (validateOne c) } := by
  rw [apply, value_validate]

theorem apply_check (s : AssertionSet) (t : Topology) (h : History) :
    s.apply (.check t h) = { s with assertions := (checkEach t h s.assertions).value.1 } := rfl

theorem asRead_validateOne (c : Catalog) (a : Assertion) : (validateOne c a).asRead = a.asRead := by
  rw [validateOne]
  split
  · rfl
  · exact Assertion.asRead_ignore a _

/-- A check keeps the assertions in order, those behind an error as they are. -/
theorem map_asRead_checkEach (t : Topology) (h : History) (as : List Assertion) :
    (checkEach t h as).value.1.map Assertion.asRead = as.map Assertion.asRead := by
  induction as with
  | nil => rfl
  | cons a rest ih =>
    rw [checkEach, Logged.value_bind]
    cases hcheck : (a.check t h).run.value with
    | error e => rfl
    | ok a' =>
      simp only [Logged.value_bind, Logged.value_pure, List.map_cons, ih,
        Assertion.asRead_check hcheck]

/-- An operation adds the assertions that it loads, and changes nothing of the others but their
state. -/
theorem map_asRead_apply (s : AssertionSet) (op : Operation) :
    (s.apply op).assertions.map Assertion.asRead =
      s.assertions.map Assertion.asRead ++ op.load?.toList.flatMap (·.assertions) := by
  cases op with
  | load name text =>
    rw [apply_load, Operation.load?]
    cases hparse : parse name text with
    | error e => simp [Except.toOption]
    | ok as =>
      have has : as.map Assertion.asRead = as.map id :=
        List.map_congr_left fun a ha => (file_and_asRead_of_parse hparse ha).2
      simp [Except.toOption, has]
  | validate c =>
    simp [apply_validate, Operation.load?, Function.comp_def, asRead_validateOne]
  | check t h => simp [apply_check, Operation.load?, map_asRead_checkEach]

theorem files_apply (s : AssertionSet) (op : Operation) :
    (s.apply op).files = s.files ++ op.load?.toList.map (·.file) := by
  cases op with
  | load name text =>
    rw [apply_load, Operation.load?]
    cases parse name text <;> simp [Except.toOption]
  | validate c => simp [apply_validate, Operation.load?]
  | check t h => simp [apply_check, Operation.load?]

/-! ## Sequences of operations -/

theorem loads_cons (op : Operation) (ops : List Operation) :
    loads (op :: ops) = op.load?.toList ++ loads ops := by
  rw [loads, List.filterMap_cons]
  cases op.load? <;> rfl

/-- A set holds the assertions that were loaded into it, in order and up to their states. -/
theorem map_asRead_run (s : AssertionSet) (ops : List Operation) :
    (s.run ops).assertions.map Assertion.asRead =
      s.assertions.map Assertion.asRead ++ (loads ops).flatMap (·.assertions) := by
  induction ops generalizing s with
  | nil => simp [run, loads]
  | cons op ops ih =>
    rw [run, List.foldl_cons, ← run, ih, map_asRead_apply, loads_cons, List.flatMap_append,
      List.append_assoc]

theorem files_run (s : AssertionSet) (ops : List Operation) :
    (s.run ops).files = s.files ++ (loads ops).map (·.file) := by
  induction ops generalizing s with
  | nil => simp [run, loads]
  | cons op ops ih =>
    rw [run, List.foldl_cons, ← run, ih, files_apply, loads_cons, List.map_append,
      List.append_assoc]

/-- The assertions of a set are those that were loaded, up to their states. -/
theorem exists_mem_run_iff {ops : List Operation} :
    (∃ b ∈ (empty.run ops).assertions, b.asRead = a) ↔ ∃ l ∈ loads ops, a ∈ l.assertions := by
  rw [← List.mem_map, map_asRead_run, ← List.mem_flatMap]
  rfl

/-! ## Failures -/

/-- The load failure that an operation adds to a set. -/
def Operation.failure? : Operation → Option LoadFailure
  | .load name text => (Outcome.error? (parse name text)).map fun error => ⟨name, error⟩
  | .validate _ | .check _ _ => none

/-- What an operation does has nothing to do with the load failures before it. -/
theorem apply_withFailures (s : AssertionSet) (failures : List LoadFailure) (op : Operation) :
    { s with failures := failures }.apply op =
      { s.apply op with failures := failures ++ op.failure?.toList } := by
  cases op with
  | load name text =>
    rw [apply_load, apply_load, Operation.failure?]
    cases parse name text <;> simp
  | validate c => simp [apply_validate, Operation.failure?]
  | check t h => simp [apply_check, Operation.failure?]

theorem run_withFailures (s : AssertionSet) (failures : List LoadFailure) (ops : List Operation) :
    { s with failures := failures }.run ops =
      { s.run ops with failures := failures ++ ops.filterMap Operation.failure? } := by
  induction ops generalizing s failures with
  | nil => simp [run]
  | cons op ops ih =>
    rw [run, List.foldl_cons, ← run, apply_withFailures, ih, List.filterMap_cons]
    cases op.failure? <;> simp [run]

theorem failures_run (s : AssertionSet) (ops : List Operation) :
    (s.run ops).failures = s.failures ++ ops.filterMap Operation.failure? :=
  congrArg AssertionSet.failures (run_withFailures s s.failures ops)

/-! ## Portions -/

/-- The assertions of a set in portions, one for each load: those that the load contributed, in the
states that they are in by now. -/
structure Portions (ls : List Load) (s : AssertionSet) (portions : List (List Assertion)) :
    Prop where
  flatten_eq : portions.flatten = s.assertions
  map_asRead_eq : portions.map (·.map Assertion.asRead) = ls.map (·.assertions)

/-- A list whose image is a flattened list falls into portions with the images of its parts. -/
theorem exists_flatten_of_map_eq {α β : Type} {f : α → β} {xs : List α} {parts : List (List β)}
    (h : xs.map f = parts.flatten) :
    ∃ portions : List (List α), portions.flatten = xs ∧ portions.map (·.map f) = parts := by
  induction parts generalizing xs with
  | nil => exact ⟨[], by simpa using h.symm, rfl⟩
  | cons part parts ih =>
    obtain ⟨portion, rest, rfl, hportion, hrest⟩ := List.map_eq_append_iff.1 h
    obtain ⟨portions, rfl, hportions⟩ := ih hrest
    exact ⟨portion :: portions, rfl, by rw [List.map_cons, hportion, hportions]⟩

/-- The assertions of a set fall into one portion for each load. -/
theorem exists_portions (ops : List Operation) :
    ∃ portions, Portions (loads ops) (empty.run ops) portions := by
  have hloaded := map_asRead_run empty ops
  rw [List.flatMap_def] at hloaded
  obtain ⟨portions, hflatten, hmap⟩ := exists_flatten_of_map_eq hloaded
  exact ⟨portions, hflatten, hmap⟩

end AssertionSet

end TrafficCheck

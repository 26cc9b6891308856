import TrafficCheck.Proofs.Lines
import TrafficCheck.Proofs.Loading

/-!
# Assertion files as a whole

A file adds all of its assertions to a set or none of them. Its first bad line decides, and then the
set has one more load failure and is otherwise what it would be without the file, whatever is done
with it before and after.

## Main definitions

* `AssertionSet.assertionLines`: the lines of a text that write assertions.
* `Assertion.WrittenOn`: an assertion is that of a line.

## Main statements

* `AssertionSet.statements_eq`: which lines are read.
* `AssertionSet.parse_eq_ok_iff`, `AssertionSet.parse_eq_error_iff`: when a text is read, and what
  decides otherwise.
* `AssertionSet.run_around_failure`: what a file that cannot be loaded changes.
* `AssertionSet.load_all_or_nothing`: what loading a text does.
-/

namespace TrafficCheck

/-- An assertion is what the line of a file writes, has the name of the file, the number of the line
and its text, and nothing was found out about it. -/
structure Assertion.WrittenOn (name : String) (l : Nat × List Char) (a : Assertion) : Prop where
  read_eq : Assertion.read (String.ofList l.2) name l.1 = .ok a
  file_eq : a.file = name
  line_eq : a.line = l.1
  expression_eq : a.expression = String.ofList l.2
  isActive : a.isActive = true

theorem Assertion.writtenOn_iff {name : String} {l : Nat × List Char} {a : Assertion} :
    a.WrittenOn name l ↔ Assertion.read (String.ofList l.2) name l.1 = .ok a := by
  refine ⟨WrittenOn.read_eq, fun h => ?_⟩
  obtain ⟨r, tokens, program, inputs, -, -, -, rfl⟩ := read_eq_ok_iff.1 h
  exact ⟨h, rfl, rfl, rfl, rfl⟩

namespace AssertionSet

variable {s : AssertionSet} {name text : String} {as : List Assertion} {e : AssertionError}

/-! ## Lines that write assertions -/

/-- The lines of a text that write assertions, numbered from one on: what stands between line feeds
and, without the carriage returns at its end, is neither blank nor starts with a hash. -/
def assertionLines (text : String) : List (Nat × List Char) :=
  ((Text.splitLines text.toList).mapIdx fun i line => (i + 1, line)).filter fun l =>
    ¬l.2.all Text.isBlank ∧ l.2.head? ≠ some '#'

theorem statements_eq (text : String) : statements text = assertionLines text := by
  have hnumbered : (Text.numberedLines text.toList).map (fun l => (l.1, Text.trimEndOf '\r' l.2)) =
      ((Text.lines text.toList).map (Text.trimEndOf '\r')).mapIdx fun i line => (i + 1, line) :=
    List.ext_getElem? fun i => by simp [Text.numberedLines, Function.comp_def]
  obtain ⟨last, hlast, hlines⟩ := Text.exists_splitLines_eq text.toList
  rw [statements, assertionLines, hnumbered, hlines, List.mapIdx_append, List.filter_append]
  have hblank : (last.mapIdx fun i line =>
      (i + ((Text.lines text.toList).map (Text.trimEndOf '\r')).length + 1, line)).filter
        (fun l => ¬l.2.all Text.isBlank ∧ l.2.head? ≠ some '#') = [] := by
    rcases hlast with rfl | rfl <;> rfl
  rw [hblank, List.append_nil]
  refine List.filter_congr fun l _ => ?_
  rw [Bool.eq_iff_iff]
  simp [Text.isBlankText]

-- Lines that are left out keep their numbers.
example : statements "# header\n\nLAST x > 0\r\n   \nLAST y > 0" =
    [(3, "LAST x > 0".toList), (5, "LAST y > 0".toList)] := by
  decide

/-- A carriage return before every line feed makes no difference to the lines that are read. -/
theorem statements_crlf (text : String) :
    statements (String.ofList (Text.crlf text.toList)) = statements text := by
  rw [statements_eq, statements_eq, assertionLines, assertionLines, String.toList_ofList,
    Text.splitLines_crlf]

/-! ## Texts -/

/-- A text is read just if every line that is to write an assertion writes one, and then its
assertions are these in order. -/
theorem parse_eq_ok_iff : parse name text = .ok as ↔
    List.Forall₂ (fun l a => a.WrittenOn name l) (assertionLines text) as := by
  rw [parse, Outcome.mapM_eq_ok_iff, statements_eq]
  simp only [Outcome.mapError_eq_ok_iff, Assertion.writtenOn_iff]

/-- A text is not read just if there is a first line that should write an assertion and does not,
and then the error is that of this line. -/
theorem parse_eq_error_iff : parse name text = .error e ↔
    ∃ before l after cause, assertionLines text = before ++ l :: after ∧
      (∀ b ∈ before, ∃ a : Assertion, a.WrittenOn name b) ∧
      Assertion.read (String.ofList l.2) name l.1 = .error cause ∧ e = .inFile name l.1 cause := by
  rw [parse, Outcome.mapM_eq_error_iff, statements_eq]
  simp only [Outcome.mapError_eq_ok_iff, Outcome.mapError_eq_error_iff, Assertion.writtenOn_iff]
  grind

/-! ## Sets -/

theorem value_load_of_ok (h : parse name text = .ok as) (s : AssertionSet) :
    (s.load name text).value =
      { s with assertions := s.assertions ++ as, files := s.files ++ [name] } := by
  rw [load, h]
  rfl

theorem value_load_of_error (h : parse name text = .error e) (s : AssertionSet) :
    (s.load name text).value = { s with failures := s.failures ++ [⟨name, e⟩] } := by
  rw [load, h]
  rfl

/-- A file that cannot be loaded leaves one load failure. Whatever is done with a set before and
after, it is otherwise what it would be without that file. -/
theorem run_around_failure (h : parse name text = .error e) (s : AssertionSet)
    (before after : List Operation) :
    ∃ later, (s.run (before ++ after)).failures = (s.run before).failures ++ later ∧
      s.run (before ++ .load name text :: after) = { s.run (before ++ after) with
        failures := (s.run before).failures ++ ⟨name, e⟩ :: later } := by
  have happend : ∀ ops, s.run (before ++ ops) = (s.run before).run ops := fun ops =>
    List.foldl_append
  refine ⟨after.filterMap Operation.failure?, ?_, ?_⟩
  · rw [happend, failures_run]
  · have hload : (s.run before).apply (.load name text) = _ := value_load_of_error h (s.run before)
    rw [happend, run, List.foldl_cons, ← run, hload, run_withFailures, happend, List.append_assoc]
    rfl

/-- Loading a text is all or nothing. The text is read just if each of its lines that is neither
blank nor starts with a hash writes an assertion, and else it fails with the error of the first one
that does not, under the name of the file and the number of that line. What is read is added to the
set with the name of the file; otherwise one load failure is added, which is the only trace of the
file among any other loads, validations and checks. With a carriage return before every line feed a
text is read and loaded alike. -/
theorem load_all_or_nothing (s : AssertionSet) (name text : String) :
    (∀ as, parse name text = .ok as ↔
      List.Forall₂ (fun l a => a.WrittenOn name l) (assertionLines text) as) ∧
    (∀ e, parse name text = .error e ↔
      ∃ before l after cause, assertionLines text = before ++ l :: after ∧
        (∀ b ∈ before, ∃ a : Assertion, a.WrittenOn name b) ∧
        Assertion.read (String.ofList l.2) name l.1 = .error cause ∧ e = .inFile name l.1 cause) ∧
    ((∃ as, parse name text = .ok as ∧ (s.load name text).value =
        { s with assertions := s.assertions ++ as, files := s.files ++ [name] }) ∨
      ∃ e, parse name text = .error e ∧
        (s.load name text).value = { s with failures := s.failures ++ [⟨name, e⟩] } ∧
        ∀ before after : List Operation, ∃ later,
          (s.run (before ++ after)).failures = (s.run before).failures ++ later ∧
          s.run (before ++ .load name text :: after) = { s.run (before ++ after) with
            failures := (s.run before).failures ++ ⟨name, e⟩ :: later }) ∧
    parse name (String.ofList (Text.crlf text.toList)) = parse name text ∧
    s.load name (String.ofList (Text.crlf text.toList)) = s.load name text := by
  have hcrlf : parse name (String.ofList (Text.crlf text.toList)) = parse name text := by
    rw [parse, parse, statements_crlf]
  refine ⟨fun _ => parse_eq_ok_iff, fun _ => parse_eq_error_iff, ?loaded, hcrlf, ?lineEnds⟩
  case loaded =>
    cases h : parse name text with
    | ok as => exact .inl ⟨as, rfl, value_load_of_ok h s⟩
    | error e => exact .inr ⟨e, rfl, value_load_of_error h s, run_around_failure h s⟩
  case lineEnds => rw [load, load, hcrlf]

end AssertionSet

end TrafficCheck

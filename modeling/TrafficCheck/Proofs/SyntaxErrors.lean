import TrafficCheck.Proofs.Balance
import TrafficCheck.Proofs.References
import TrafficCheck.Proofs.Render
import TrafficCheck.Proofs.Verdict

/-!
# Errors of lines

A line is refused while its words are classified, while its tokens are compiled, or while the
variables of its program are collected. The first two steps know the line and name it in their
errors. The last one knows the counter references only, and all that is left for it to refuse is a
port number that does not fit into 32 bits: the first reference with one is named in place of the
line.

## Main definitions

* `Variable.OverflowsFirst`: the first reference among tokens whose port number is too large.
* `Assertion.OverflowsAt`: a line that fails for such a reference and for nothing else.

## Main statements

* `Token.expression?_of_ofAssertion`, `Program.expression?_of_compile`: errors that name the line.
* `Variable.collect_eq_error_iff`: in which error collecting variables ends.
* `Assertion.errors_name_line_unless_overflow`: which errors of reading a line name it.
-/

namespace TrafficCheck

/-- An error that names a line does not end a check. -/
theorem AssertionError.isFatal_eq_false_of_expression? {e : AssertionError} {line : String}
    (h : e.expression? = some line) : e.isFatal = false := by
  cases e with
  | divisionByZero trace => exact absurd h (by simp [expression?])
  | noAssertionFiles searched => exact absurd h (by simp [expression?])
  | inFile file line cause => exact absurd h (by simp [expression?])
  | _ => rfl

/-! ## Errors that name the line -/

namespace Token

variable {line : String} {word : List Char} {l : Lexeme} {tokens : List Token} {ls : List Lexeme}
  {e : AssertionError}

theorem expression?_of_ofWord (h : ofWord line word = .error e) : e.expression? = some line := by
  unfold ofWord at h
  split at h
  · exact absurd h (by simp)
  split at h
  · exact absurd h (by simp)
  · obtain rfl := Except.error.inj h
    rfl
  split at h
  · exact absurd h (by simp)
  split at h
  · exact absurd h (by simp)
  · obtain rfl := Except.error.inj h
    rfl

theorem expression?_of_modify (h : modify line l tokens = .error e) :
    e.expression? = some line := by
  simp only [modify] at h
  split at h
  · obtain rfl := Except.error.inj h
    rfl
  split at h
  · exact absurd h (by simp)
  · obtain rfl := Except.error.inj h
    rfl

theorem expression?_of_ofLexemes (h : ofLexemes line tokens ls = .error e) :
    e.expression? = some line := by
  fun_induction ofLexemes line tokens ls with
  | case1 => exact absurd h (by simp)
  | case2 =>
    obtain rfl := Except.error.inj h
    rfl
  | case3 _ _ _ _ _ ih => exact ih h
  | case4 _ _ _ e' hmodify =>
    obtain rfl := Except.error.inj h
    exact expression?_of_modify hmodify
  | case5 _ _ ih => exact ih h
  | case6 _ _ ih => exact ih h
  | case7 _ _ _ ih => exact ih h
  | case8 _ _ _ _ _ ih => exact ih h
  | case9 _ _ _ e' hword =>
    obtain rfl := Except.error.inj h
    exact expression?_of_ofWord hword

/-- A line without a rule at its start, or with words that are no tokens, is named in the error. -/
theorem expression?_of_ofAssertion (h : ofAssertion line = .error e) :
    e.expression? = some line := by
  unfold ofAssertion at h
  split at h
  · next hline =>
    obtain rfl := Except.error.inj h
    exact expression?_of_ofLexemes hline
  · obtain rfl := Except.error.inj h
    rfl
  · split at h
    · obtain rfl := Except.error.inj h
      rfl
    · exact absurd h (by simp)
  · obtain rfl := Except.error.inj h
    rfl

/-- A line that is a single counter word has a single token. -/
theorem length_of_ofLine (hword : isCounterWord line.toList = true) (h : ofLine line = .ok tokens) :
    tokens.length = 1 := by
  obtain ⟨hne, hplain⟩ := isPlain_of_isCounterWord hword
  rw [ofLine, Lexeme.split_of_isPlain hplain hne, ofLexemes] at h
  split at h
  · obtain rfl := Except.ok.inj h
    rfl
  · exact absurd h (by simp)

end Token

/-- A line whose tokens do not compile is named in the error. -/
theorem Program.expression?_of_compile {line : String} {tokens : List Token} {e : AssertionError}
    (h : compile line tokens = .error e) : e.expression? = some line := by
  rcases compile_cases line tokens with
    ⟨r, -, -, hrule⟩ | ⟨-, ⟨-, hparen⟩ | ⟨-, ⟨reason, hreason⟩ | ⟨p, hp⟩⟩⟩
  · obtain rfl := Except.error.inj (hrule.symm.trans h)
    rfl
  · obtain rfl := Except.error.inj (hparen.symm.trans h)
    rfl
  · obtain rfl := Except.error.inj (hreason.symm.trans h)
    rfl
  · exact absurd (hp.symm.trans h) (by simp)

/-! ## Errors of variables -/

namespace Variable

variable {ts : List Token} {t : Token} {known : Table String Variable} {e : AssertionError}

/-- The first reference among some tokens to a port whose number does not fit into 32 bits has this
name. -/
def OverflowsFirst (ts : List Token) (name : String) : Prop :=
  ∃ before m after, ts = before ++ .reference name m :: after ∧ Overflows name ∧
    ∀ other m', .reference other m' ∈ before → ¬Overflows other

/-- The error in which reading the variable of a token ends. -/
def refusal? : Token → Option AssertionError
  | .reference name m => Outcome.error? (read name m)
  | _ => none

theorem refusal?_eq_some_iff (ht : t.WellNamed) : refusal? t = some e ↔
    ∃ name m, t = .reference name m ∧ Overflows name ∧ e = .unknownToken name name := by
  cases t with
  | reference name m =>
    by_cases hoverflow : Overflows name
    · simp [refusal?, hoverflow.read_eq, hoverflow, eq_comm]
    · obtain ⟨v, hv⟩ : ∃ v, read name m = .ok v := (read_of_isCounterWord ht).2 hoverflow
      simp [refusal?, hv, hoverflow]
  | _ => simp [refusal?]

theorem refusal?_eq_none_iff (ht : t.WellNamed) : refusal? t = none ↔
    ∀ name m, t = .reference name m → ¬Overflows name := by
  simp only [Option.eq_none_iff_forall_ne_some, ne_eq, refusal?_eq_some_iff ht]
  constructor
  · exact fun h name m htoken hoverflow => h _ ⟨name, m, htoken, hoverflow, rfl⟩
  · rintro h _ ⟨name, m, htoken, hoverflow, -⟩
    exact h name m htoken hoverflow

/-- Collecting variables ends in the first error of a reference, provided that the known keys are
those of references that were read. -/
theorem error?_collectInto (hts : ∀ t ∈ ts, t.WellNamed)
    (hknown : ∀ name m, Token.isCounterWord name.toList = true →
      known.contains (Token.bindingKey name m) = true → refusal? (.reference name m) = none) :
    Outcome.error? (collectInto known ts) = ts.findSome? refusal? := by
  fun_induction collectInto known ts with
  | case1 => rfl
  | case2 known name m rest key hkey ih =>
    obtain ⟨hname, hrest⟩ := List.forall_mem_cons.1 hts
    rw [ih hrest hknown, List.findSome?_cons, hknown name m hname hkey]
  | case3 known name m rest key hnew v hread ih =>
    obtain ⟨hname, hrest⟩ := List.forall_mem_cons.1 hts
    have hread : refusal? (.reference name m) = none := by simp [refusal?, hread]
    rw [List.findSome?_cons, hread]
    refine ih hrest fun name' m' hname' hkey => ?_
    rcases (Table.contains_insert _ _ _ _).1 hkey with heq | hkey
    · obtain ⟨rfl, rfl⟩ := Token.bindingKey_inj hname' hname heq
      exact hread
    · exact hknown name' m' hname' hkey
  | case4 known name m rest key hnew e hread => simp [refusal?, hread]
  | case5 known t rest hother ih =>
    obtain ⟨-, hrest⟩ := List.forall_mem_cons.1 hts
    have hnone : refusal? t = none := by
      cases t with
      | reference name m => exact absurd rfl (hother name m)
      | _ => rfl
    rw [ih hrest hknown, List.findSome?_cons, hnone]

/-- Collecting variables fails just if some port number is too large, and then the first such
reference is the error. -/
theorem collect_eq_error_iff (hts : ∀ t ∈ ts, t.WellNamed) :
    collect ts = .error e ↔ ∃ name, OverflowsFirst ts name ∧ e = .unknownToken name name := by
  have hempty : ∀ name m, Token.isCounterWord name.toList = true →
      (Table.empty : Table String Variable).contains (Token.bindingKey name m) = true →
      refusal? (.reference name m) = none := fun _ _ _ hkey =>
    absurd hkey (by simp [Table.contains])
  rw [← Outcome.error?_eq_some_iff, collect, error?_collectInto hts hempty,
    List.findSome?_eq_some_iff]
  constructor
  · rintro ⟨before, t, after, rfl, ht, hbefore⟩
    obtain ⟨name, m, rfl, hoverflow, rfl⟩ := (refusal?_eq_some_iff (hts t (by simp))).1 ht
    refine ⟨name, ⟨before, m, after, rfl, hoverflow, fun other m' hother => ?_⟩, rfl⟩
    exact (refusal?_eq_none_iff (hts _ (by simp [hother]))).1 (hbefore _ hother) other m' rfl
  · rintro ⟨name, ⟨before, m, after, rfl, hoverflow, hbefore⟩, rfl⟩
    refine ⟨before, .reference name m, after, rfl, ?_, fun t ht => ?_⟩
    · exact (refusal?_eq_some_iff (hts _ (by simp))).2 ⟨name, m, rfl, hoverflow, rfl⟩
    · refine (refusal?_eq_none_iff (hts t (by simp [ht]))).2 ?_
      rintro other m' rfl
      exact hbefore other m' ht

end Variable

/-! ## Reading lines -/

namespace Assertion

variable {expression file name : String} {line : Nat} {e : AssertionError}

/-- A line is an assertion but for a counter reference of this name, which is the first one in it to
a port whose number does not fit into 32 bits. -/
def OverflowsAt (expression name : String) : Prop :=
  ∃ r tokens p, Token.ofAssertion expression = .ok (r, tokens) ∧
    Program.compile expression tokens = .ok p ∧ Variable.OverflowsFirst tokens name

/-- The tokens behind the rule and the program of a line give the same errors of variables. -/
theorem collect_eq_error_iff_of_compile {r : Rule} {tokens : List Token} {p : Program}
    (htokens : Token.ofAssertion expression = .ok (r, tokens))
    (hp : Program.compile expression tokens = .ok p) :
    Variable.collect p = .error e ↔
      ∃ name, Variable.OverflowsFirst tokens name ∧ e = .unknownToken name name := by
  rw [Program.collect_of_arrange (Program.compile_eq_ok_iff.1 hp).1]
  exact Variable.collect_eq_error_iff (Token.wellNamed_of_ofAssertion htokens)

/-- Reading a line that overflows ends in an error that names the reference. -/
theorem OverflowsAt.read_eq (h : OverflowsAt expression name) (file : String) (line : Nat) :
    read expression file line = .error (.unknownToken name name) := by
  obtain ⟨r, tokens, p, htokens, hp, hfirst⟩ := h
  have hcollect := (collect_eq_error_iff_of_compile htokens hp).2 ⟨name, hfirst, rfl⟩
  simp [read, htokens, hp, hcollect]

/-- The reference is not the whole line, in front of which a rule stands. -/
theorem OverflowsAt.ne_line (h : OverflowsAt expression name) : name ≠ expression := by
  rintro rfl
  obtain ⟨r, tokens, p, htokens, hp, before, m, after, rfl, -⟩ := h
  have hword := Token.wellNamed_of_ofAssertion htokens (.reference name m) (by simp)
  have hlength := Token.length_of_ofLine hword (Token.ofAssertion_eq_ok_iff.1 htokens).1
  simp at hlength

/-- An error of reading a line names that line, or it stems from a port number. -/
theorem read_error_cases (h : read expression file line = .error e) :
    e.expression? = some expression ∨ ∃ name, OverflowsAt expression name := by
  unfold read at h
  cases htokens : Token.ofAssertion expression with
  | error e' =>
    rw [htokens] at h
    obtain rfl := Except.error.inj h
    exact .inl (Token.expression?_of_ofAssertion htokens)
  | ok pair =>
    obtain ⟨r, tokens⟩ := pair
    cases hp : Program.compile expression tokens with
    | error e' =>
      simp only [htokens, hp, Outcome.ok_bind, Outcome.error_bind] at h
      obtain rfl := Except.error.inj h
      exact .inl (Program.expression?_of_compile hp)
    | ok p =>
      cases hcollect : Variable.collect p with
      | error e' =>
        obtain ⟨name, hfirst, -⟩ := (collect_eq_error_iff_of_compile htokens hp).1 hcollect
        exact .inr ⟨name, r, tokens, p, htokens, hp, hfirst⟩
      | ok inputs =>
        simp [htokens, hp, hcollect] at h

/-- Which errors of reading a line name it. Every error is a syntax error and ends no check. It
names the whole line, unless the line is an assertion but for a port number that does not fit into
32 bits; such a line always fails, and the error names the first reference with such a number, which
is not the line. -/
theorem errors_name_line_unless_overflow (expression file : String) (line : Nat) :
    (∀ e, read expression file line = .error e → e.isFatal = false ∧
      ∃ named, e.expression? = some named ∧
        (named = expression ↔ ∀ name, ¬OverflowsAt expression name)) ∧
    ∀ name, OverflowsAt expression name →
      read expression file line = .error (.unknownToken name name) ∧ name ≠ expression := by
  refine ⟨fun e h => ?_, fun name h => ⟨h.read_eq file line, h.ne_line⟩⟩
  by_cases hoverflow : ∃ name, OverflowsAt expression name
  · obtain ⟨name, hname⟩ := hoverflow
    obtain rfl := Except.error.inj (h.symm.trans (hname.read_eq file line))
    exact ⟨rfl, name, rfl, iff_of_false hname.ne_line fun hnone => hnone name hname⟩
  · have hnamed := (read_error_cases h).resolve_right hoverflow
    exact ⟨AssertionError.isFatal_eq_false_of_expression? hnamed, expression, hnamed,
      iff_of_true rfl (not_exists.1 hoverflow)⟩

/-- An open parenthesis is reported with its line, and a port number that is too large with the
counter reference it stands in. -/
theorem line_and_reference_named :
    read "LAST (sport7.x" "a.assertions" 1 = .error (.unbalancedParentheses "LAST (sport7.x") ∧
      (∀ name, ¬OverflowsAt "LAST (sport7.x" name) ∧
      OverflowsAt "LAST x & cport4294967296.y@min" "cport4294967296.y" ∧
      read "LAST x & cport4294967296.y@min" "a.assertions" 2 =
        .error (.unknownToken "cport4294967296.y" "cport4294967296.y") := by
  have hparen : read "LAST (sport7.x" "a.assertions" 1 =
      .error (.unbalancedParentheses "LAST (sport7.x") := rfl
  obtain ⟨-, named, hnamed, hiff⟩ := (errors_name_line_unless_overflow _ _ _).1 _ hparen
  have hoverflow : OverflowsAt "LAST x & cport4294967296.y@min" "cport4294967296.y" := by
    refine ⟨.last, [.reference "x" none, .op .and, .reference "cport4294967296.y" (some .min)], _,
      rfl, rfl, [.reference "x" none, .op .and], some .min, [], rfl, ?_, ?_⟩
    · exact ⟨.client, 4294967296, "y", ⟨by decide, "4294967296".toList, ⟨0, by decide⟩, by decide⟩,
        by decide⟩
    · intro other m' hother
      obtain ⟨rfl, rfl⟩ : other = "x" ∧ m' = none := by simpa using hother
      have hread : ∃ v, Variable.read "x" none = .ok v := ⟨_, rfl⟩
      exact (Variable.read_of_isCounterWord rfl).1 hread
  exact ⟨hparen, hiff.1 (Option.some.inj hnamed).symm, hoverflow,
    ((errors_name_line_unless_overflow _ _ _).2 _ hoverflow).1⟩

/-- An error that does not name the line, but a word of it. -/
theorem overflow_named_as_line :
    read "LAST cport4294967296.x > 0" "a.assertions" 1 =
        .error (.unknownToken "cport4294967296.x" "cport4294967296.x") ∧
      (AssertionError.unknownToken "cport4294967296.x" "cport4294967296.x").expression? ≠
        some "LAST cport4294967296.x > 0" :=
  ⟨rfl, by decide⟩

end Assertion

end TrafficCheck

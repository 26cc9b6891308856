import Mathlib.Data.List.Basic
import TrafficCheck.Proofs.Expression
import TrafficCheck.Proofs.Rules
import TrafficCheck.Proofs.Tables
import TrafficCheck.Variable

/-!
# Collected variables

The tokens of a line name counters by words without an `@`, so that no two counter references share
a binding key. The variables collected from tokens are therefore those that their references mean.

## Main statements

* `Token.wellNamed_of_ofLine`: which names counter references of a line have.
* `Token.bindingKey_inj`: binding keys are unambiguous.
* `Variable.get?_collect`: what is collected under the key of a reference.
* `Expression.mem_values_collect_iff`: which variables are collected.
-/

namespace TrafficCheck

namespace Token

variable {line : String} {t : Token} {ts us : List Token} {n n' : String} {m m' : Option Modifier}

/-! ## Names in a line -/

theorem isCounterChar_of_isDigit {c : Char} (hc : c.isDigit = true) : isCounterChar c = true := by
  simp [isCounterChar, Char.isAlphanum, hc]

/-- A token names a counter by a counter word, if it names any. -/
def WellNamed : Token → Prop
  | .reference name _ => isCounterWord name.toList = true
  | _ => True

theorem wellNamed_of_ofWord {word : List Char} (h : ofWord line word = .ok t) : t.WellNamed := by
  unfold ofWord at h
  split at h
  · obtain rfl := Except.ok.inj h
    trivial
  split at h
  · obtain rfl := Except.ok.inj h
    trivial
  · exact absurd h (by simp)
  split at h
  · obtain rfl := Except.ok.inj h
    trivial
  split at h
  · next hword =>
    obtain rfl := Except.ok.inj h
    simpa [WellNamed] using hword
  · exact absurd h (by simp)

/-- What holds of the tokens that words, operators and parentheses write and stays true behind a
modifier holds of all tokens in a line. -/
theorem forall_of_ofLexemes {P : Token → Prop} (hword : ∀ word t, ofWord line word = .ok t → P t)
    (hmodifier : ∀ name m, P (.reference name none) → P (.reference name (some m)))
    (hleft : P .leftParen) (hright : P .rightParen) (hop : ∀ o, P (.op o)) {lexemes : List Lexeme}
    (h : ofLexemes line ts lexemes = .ok us) (hts : ∀ t ∈ ts, P t) :
    ∀ u ∈ us, P u := by
  fun_induction ofLexemes line ts lexemes with
  | case1 tokens =>
    obtain rfl := Except.ok.inj h
    simpa using hts
  | case2 => exact absurd h (by simp)
  | case3 tokens lexeme rest tokens' hmodify ih =>
    refine ih h ?_
    simp only [modify] at hmodify
    split at hmodify
    · exact absurd hmodify (by simp)
    split at hmodify
    · next name rest =>
      obtain rfl := Except.ok.inj hmodify
      obtain ⟨hname, hrest⟩ := List.forall_mem_cons.1 hts
      exact List.forall_mem_cons.2 ⟨hmodifier name _ hname, hrest⟩
    · exact absurd hmodify (by simp)
  | case4 => exact absurd h (by simp)
  | case5 tokens rest ih => exact ih h (List.forall_mem_cons.2 ⟨hleft, hts⟩)
  | case6 tokens rest ih => exact ih h (List.forall_mem_cons.2 ⟨hright, hts⟩)
  | case7 tokens o rest ih => exact ih h (List.forall_mem_cons.2 ⟨hop o, hts⟩)
  | case8 tokens word rest token htoken ih =>
    exact ih h (List.forall_mem_cons.2 ⟨hword word token htoken, hts⟩)
  | case9 => exact absurd h (by simp)

theorem wellNamed_of_ofLine (h : ofLine line = .ok ts) : ∀ t ∈ ts, t.WellNamed :=
  forall_of_ofLexemes (fun _ _ => wellNamed_of_ofWord) (fun _ _ => id) trivial trivial
    (fun _ => trivial) h (by simp)

theorem wellNamed_of_ofAssertion {r : Rule} (h : ofAssertion line = .ok (r, ts)) :
    ∀ t ∈ ts, t.WellNamed := fun t ht =>
  wellNamed_of_ofLine (ofAssertion_eq_ok_iff.1 h).1 t (List.mem_cons_of_mem _ ht)

/-! ## Binding keys -/

theorem at_notMem_of_isCounterWord {word : List Char} (h : isCounterWord word = true) :
    '@' ∉ word := by
  intro hat
  have hall : ∀ c ∈ word, isCounterChar c = true := by
    simp only [isCounterWord, Bool.and_eq_true, List.all_eq_true] at h
    exact h.2
  exact absurd (hall '@' hat) (by decide)

theorem toList_bindingKey (n : String) (m : Modifier) :
    (bindingKey n (some m)).toList = n.toList ++ '@' :: m.keyword.toList := by
  simp [bindingKey]

/-- Different counter words or modifiers have different binding keys. -/
theorem bindingKey_inj (hn : isCounterWord n.toList = true) (hn' : isCounterWord n'.toList = true)
    (h : bindingKey n m = bindingKey n' m') : n = n' ∧ m = m' := by
  have hat := at_notMem_of_isCounterWord hn
  have hlist := congrArg String.toList h
  match m, m' with
  | none, none => exact ⟨h, rfl⟩
  | none, some k' =>
    rw [toList_bindingKey, bindingKey] at hlist
    exact absurd (by simp [hlist]) hat
  | some k, none =>
    rw [toList_bindingKey, bindingKey] at hlist
    exact absurd (by simp [← hlist]) (at_notMem_of_isCounterWord hn')
  | some k, some k' =>
    have hatKeyword : '@' ∉ k.keyword.toList := by cases k <;> decide
    rw [toList_bindingKey, toList_bindingKey,
      List.append_cons_inj_of_notMem hat hatKeyword] at hlist
    have hkeyword : k.keyword = k'.keyword := String.toList_inj.1 hlist.2.2
    have hmodifier : some k = some k' := by
      rw [← Modifier.ofKeyword?_keyword k, hkeyword, Modifier.ofKeyword?_keyword]
    exact ⟨String.toList_inj.1 hlist.1, hmodifier⟩

end Token

namespace Variable

variable {ts : List Token} {known vs : Table String Variable} {key name : String}
  {m : Option Modifier} {v : Variable}

/-! ## Collecting -/

/-- A key that is known keeps its variable. -/
theorem get?_collectInto_of_known (h : collectInto known ts = .ok vs)
    (hkey : known.get? key = some v) : vs.get? key = some v := by
  fun_induction collectInto known ts with
  | case1 =>
    obtain rfl := Except.ok.inj h
    exact hkey
  | case2 known name modifier rest key' _ ih => exact ih h hkey
  | case3 known name modifier rest key' hnew w _ ih =>
    refine ih h ?_
    rw [Table.get?_insert, if_neg ?_]
    · exact hkey
    · rintro rfl
      exact hnew (by simp [Table.contains, hkey])
  | case4 => exact absurd h (by simp)
  | case5 known t rest _ ih => exact ih h hkey

/-- Every reference among the tokens has a variable under its key. -/
theorem exists_get?_collectInto (h : collectInto known ts = .ok vs)
    (hname : .reference name m ∈ ts) : ∃ v, vs.get? (Token.bindingKey name m) = some v := by
  fun_induction collectInto known ts with
  | case1 => exact absurd hname (by simp)
  | case2 known name' modifier rest key hknown ih =>
    rcases List.mem_cons.1 hname with heq | hname
    · obtain ⟨rfl, rfl⟩ := Token.reference.inj heq
      obtain ⟨v, hv⟩ := Option.isSome_iff_exists.1 hknown
      exact ⟨v, get?_collectInto_of_known h hv⟩
    · exact ih h hname
  | case3 known name' modifier rest key hnew w _ ih =>
    rcases List.mem_cons.1 hname with heq | hname
    · obtain ⟨rfl, rfl⟩ := Token.reference.inj heq
      exact ⟨w, get?_collectInto_of_known h (by simp [Table.get?_insert, key])⟩
    · exact ih h hname
  | case4 => exact absurd h (by simp)
  | case5 known t rest hother ih =>
    rcases List.mem_cons.1 hname with heq | hname
    · exact absurd heq.symm (hother name m)
    · exact ih h hname

/-- Every variable that was not known before is what a reference among the tokens means. -/
theorem reference_of_get?_collectInto (h : collectInto known ts = .ok vs)
    (hkey : vs.get? key = some v) :
    known.get? key = some v ∨ ∃ name m, .reference name m ∈ ts ∧
      Token.bindingKey name m = key ∧ read name m = .ok v := by
  fun_induction collectInto known ts with
  | case1 =>
    obtain rfl := Except.ok.inj h
    exact .inl hkey
  | case2 known name modifier rest key' _ ih =>
    refine (ih h).imp_right ?_
    rintro ⟨name', m', hmem, hrest⟩
    exact ⟨name', m', by simp [hmem], hrest⟩
  | case3 known name modifier rest key' hnew w hread ih =>
    rcases ih h with hknown | ⟨name', m', hmem, hrest⟩
    · rw [Table.get?_insert] at hknown
      split at hknown
      · next heq =>
        obtain rfl := Option.some.inj hknown
        exact .inr ⟨name, modifier, by simp, heq.symm, hread⟩
      · exact .inl hknown
    · exact .inr ⟨name', m', by simp [hmem], hrest⟩
  | case4 => exact absurd h (by simp)
  | case5 known t rest _ ih =>
    refine (ih h).imp_right ?_
    rintro ⟨name', m', hmem, hrest⟩
    exact ⟨name', m', by simp [hmem], hrest⟩

theorem reference_of_get?_collect (h : collect ts = .ok vs) (hkey : vs.get? key = some v) :
    ∃ name m, .reference name m ∈ ts ∧ Token.bindingKey name m = key ∧ read name m = .ok v := by
  rcases reference_of_get?_collectInto h hkey with hempty | hreference
  · exact absurd hempty (by simp)
  · exact hreference

/-- Under the key of a reference stands the variable that it means. -/
theorem get?_collect (h : collect ts = .ok vs) (hts : ∀ t ∈ ts, t.WellNamed)
    (hname : .reference name m ∈ ts) :
    ∃ v, read name m = .ok v ∧ vs.get? (Token.bindingKey name m) = some v := by
  obtain ⟨v, hv⟩ := exists_get?_collectInto h hname
  -- The key may have been filled by another reference, but no other one has the same key.
  obtain ⟨name', m', hname', hkey, hread⟩ := reference_of_get?_collect h hv
  obtain ⟨rfl, rfl⟩ := Token.bindingKey_inj (hts _ hname') (hts _ hname) hkey
  exact ⟨v, hread, hv⟩

theorem isMultiport_iff {vs : List Variable} :
    isMultiport vs = true ↔ (∃ v ∈ vs, v.scope.kind? = some .client) ∧
      ∃ v ∈ vs, v.scope.kind? = some .server := by
  simp [isMultiport]

end Variable

namespace Expression

variable {e : Expression} {vs : Table String Variable} {v : Variable}

/-! ## The variables of an expression -/

/-- The variables that the references of an expression mean, from left to right. -/
def inputs (e : Expression) : List Variable :=
  e.references.filterMap fun c => (Variable.read c.1 c.2).toOption

theorem mem_inputs_iff :
    v ∈ e.inputs ↔ ∃ name m, (name, m) ∈ e.references ∧ Variable.read name m = .ok v := by
  simp [inputs, Outcome.toOption_eq_some_iff]

/-- The variables collected from the postorder of an expression are those of the expression. -/
theorem mem_values_collect_iff (h : Variable.collect e.postorder = .ok vs)
    (he : ∀ t ∈ e.postorder, t.WellNamed) : v ∈ vs.values ↔ v ∈ e.inputs := by
  rw [Table.mem_values_iff, mem_inputs_iff]
  constructor
  · rintro ⟨key, hkey⟩
    obtain ⟨name, m, hname, -, hread⟩ := Variable.reference_of_get?_collect h hkey
    exact ⟨name, m, mem_references_iff.2 hname, hread⟩
  · rintro ⟨name, m, hname, hread⟩
    obtain ⟨w, hw, hkey⟩ := Variable.get?_collect h he (mem_references_iff.1 hname)
    rw [hread] at hw
    obtain rfl := Except.ok.inj hw
    exact ⟨_, hkey⟩

theorem isMultiport_collect (h : Variable.collect e.postorder = .ok vs)
    (he : ∀ t ∈ e.postorder, t.WellNamed) :
    Variable.isMultiport vs.values = Variable.isMultiport e.inputs := by
  rw [Bool.eq_iff_iff, Variable.isMultiport_iff, Variable.isMultiport_iff]
  simp only [mem_values_collect_iff h he]

end Expression

end TrafficCheck

import TrafficCheck.Proofs.Collection
import TrafficCheck.Proofs.Conservation

/-!
# Outcomes of compiling

What compiling says of a list of tokens of any form. A run over tokens goes on as long as every
closing parenthesis finds an open one and no rule is met; whichever of the two comes first is the
error. Where a program results, the operands stand in it as they stood in the list, and so it binds
the same variables.

## Main definitions

* `Token.excess`: how many more parentheses some tokens open than they close.
* `Token.Matched`, `Token.Balanced`: every closing parenthesis has a partner, or every parenthesis
  has.
* `Token.MeetsRule`: the first rule is met before any closing parenthesis without a partner.

## Main statements

* `Arrangement.run_of_matched`, `Arrangement.run_of_not_matched`: how a run over tokens ends.
* `Program.arrange_operands`: rearranging keeps the order of operands.
* `Program.compile_outcomes`: which error compiling ends in, and what it keeps if it ends in none.
-/

namespace TrafficCheck

namespace Token

variable {n : Int} {t : Token} {ts us : List Token}

/-! ## Parentheses -/

/-- How many more parentheses some tokens open than they close. -/
def excess (ts : List Token) : Int := ts.count .leftParen - ts.count .rightParen

/-- Every closing parenthesis has a partner, if `n` parentheses are open in front: no initial part
of the tokens closes more than it finds open. -/
def Matched (n : Int) (ts : List Token) : Prop := ∀ us, us <+: ts → 0 ≤ n + excess us

/-- Every parenthesis has a partner. -/
def Balanced (ts : List Token) : Prop := Matched 0 ts ∧ excess ts = 0

/-- Whether a token has a value of its own. -/
def isOperand : Token → Bool
  | .number _ | .reference _ _ => true
  | _ => false

/-- The first rule among some tokens, where no closing parenthesis before it is without a
partner. -/
def MeetsRule (ts : List Token) (r : Rule) : Prop :=
  ∃ before after, ts = before ++ .rule r :: after ∧ (∀ t ∈ before, t.isRule = false) ∧
    Matched 0 before

@[simp] theorem excess_nil : excess [] = 0 := rfl

theorem excess_cons (t : Token) (ts : List Token) : excess (t :: ts) = excess [t] + excess ts := by
  simp only [excess, List.count_cons, List.count_nil]
  split <;> split <;> omega

theorem Matched.nonneg (h : Matched n ts) : 0 ≤ n := by
  simpa using h [] List.nil_prefix

theorem Matched.initial (h : Matched n ts) (hus : us <+: ts) : Matched n us :=
  fun vs hvs => h vs (hvs.trans hus)

theorem matched_nil_iff : Matched n [] ↔ 0 ≤ n := by
  simp [Matched]

theorem matched_cons_iff : Matched n (t :: ts) ↔ 0 ≤ n ∧ Matched (n + excess [t]) ts := by
  constructor
  · intro h
    refine ⟨h.nonneg, fun us hus => ?_⟩
    have hcons := h (t :: us) (List.cons_prefix_cons.2 ⟨rfl, hus⟩)
    rwa [excess_cons, ← Int.add_assoc] at hcons
  · rintro ⟨hn, h⟩ us hus
    rcases List.prefix_cons_iff.1 hus with rfl | ⟨vs, rfl, hvs⟩
    · simpa using hn
    · rw [excess_cons, ← Int.add_assoc]
      exact h vs hvs

/-- Among some tokens there is no rule, or a first one. -/
theorem exists_first_rule (ts : List Token) : (∀ t ∈ ts, t.isRule = false) ∨
    ∃ before r after, ts = before ++ .rule r :: after ∧ ∀ t ∈ before, t.isRule = false := by
  cases hfind : ts.find? isRule with
  | none => exact .inl fun t ht => by simpa using List.find?_eq_none.1 hfind t ht
  | some t =>
    obtain ⟨ht, before, after, rfl, hbefore⟩ := List.find?_eq_some_iff_append.1 hfind
    obtain ⟨r, rfl⟩ : ∃ r, t = .rule r := by
      cases t with
      | rule r => exact ⟨r, rfl⟩
      | _ => simp [isRule] at ht
    exact .inr ⟨before, r, after, rfl, fun t ht => by simpa using hbefore t ht⟩

/-- The first rule among some tokens stands at one place only. -/
theorem first_rule_unique {before before' after after' : List Token} {r r' : Rule}
    (hbefore : ∀ t ∈ before, t.isRule = false) (hbefore' : ∀ t ∈ before', t.isRule = false)
    (h : before ++ .rule r :: after = before' ++ .rule r' :: after') :
    before = before' ∧ r = r' := by
  induction before generalizing before' with
  | nil =>
    cases before' with
    | nil => exact ⟨rfl, Token.rule.inj (List.cons.inj h).1⟩
    | cons t before' =>
      rw [← (List.cons.inj h).1] at hbefore'
      exact absurd (hbefore' (.rule r) (by simp)) (by simp [isRule])
  | cons t before ih =>
    cases before' with
    | nil =>
      rw [(List.cons.inj h).1] at hbefore
      exact absurd (hbefore (.rule r') (by simp)) (by simp [isRule])
    | cons u before' =>
      obtain ⟨rfl, hrest⟩ := List.cons.inj h
      obtain ⟨rfl, hr⟩ :=
        ih (List.forall_mem_cons.1 hbefore).2 (List.forall_mem_cons.1 hbefore').2 hrest
      exact ⟨rfl, hr⟩

theorem meetsRule_iff {before after : List Token} {r r' : Rule}
    (hbefore : ∀ t ∈ before, t.isRule = false) :
    MeetsRule (before ++ .rule r :: after) r' ↔ r' = r ∧ Matched 0 before := by
  constructor
  · rintro ⟨before', after', h, hbefore', hmatched⟩
    obtain ⟨rfl, rfl⟩ := first_rule_unique hbefore hbefore' h
    exact ⟨rfl, hmatched⟩
  · rintro ⟨rfl, hmatched⟩
    exact ⟨before, after, rfl, hbefore, hmatched⟩

theorem not_meetsRule {r : Rule} (hrules : ∀ t ∈ ts, t.isRule = false) : ¬MeetsRule ts r := by
  rintro ⟨before, after, rfl, -, -⟩
  exact absurd (hrules (.rule r) (by simp)) (by simp [isRule])

end Token

namespace Arrangement

variable {line : String} {out : List Token} {waiting : List Waiting} {a b : Arrangement} {t : Token}
  {ts : List Token}

/-! ## Runs that end early -/

theorem close?_eq_none (out : List Token) (h : opens waiting = 0) : close? out waiting = none := by
  fun_induction close? out waiting with
  | case1 out o rest ih => exact ih (by simpa using h)
  | case2 out rest => simp at h
  | case3 => rfl

theorem exists_close? (out : List Token) (h : 0 < opens waiting) :
    ∃ b, close? out waiting = some b := by
  fun_induction close? out waiting with
  | case1 out o rest ih => exact ih (by simpa using h)
  | case2 out rest => exact ⟨_, rfl⟩
  | case3 => simp at h

theorem exists_drain? (out : List Token) (h : opens waiting = 0) :
    ∃ us, drain? out waiting = some us := by
  fun_induction drain? out waiting with
  | case1 out o rest ih => exact ih (by simpa using h)
  | case2 => simp at h
  | case3 out => exact ⟨_, rfl⟩

/-- A token that is no rule changes the number of open parentheses by its excess. -/
theorem opens_step (h : step line a t = .ok b) :
    (opens b.waiting : Int) = opens a.waiting + Token.excess [t] := by
  have hopens := step_opens h
  cases t with
  | leftParen | rightParen =>
    simp only at hopens
    simp [Token.excess]
    omega
  | _ => simp [Token.excess, hopens]

/-- A step goes on if parentheses stay matched, and errs if they do not. -/
theorem step_of_not_rule (line : String) (a : Arrangement) (ht : t.isRule = false) :
    (0 ≤ opens a.waiting + Token.excess [t] → ∃ b, step line a t = .ok b) ∧
    (opens a.waiting + Token.excess [t] < 0 →
      step line a t = .error (.unbalancedParentheses line)) := by
  cases t with
  | rightParen =>
    have hexcess : Token.excess [.rightParen] = -1 := rfl
    rw [hexcess]
    constructor
    · intro hopens
      have hpos : 0 < opens a.waiting := by omega
      obtain ⟨b, hb⟩ := exists_close? a.out hpos
      exact ⟨b, by simp [step, hb]⟩
    · intro hopens
      have hzero : opens a.waiting = 0 := by omega
      simp [step, close?_eq_none a.out hzero]
  | leftParen =>
    have hexcess : Token.excess [.leftParen] = 1 := rfl
    exact ⟨fun _ => ⟨_, rfl⟩, fun hopens => by omega⟩
  | rule r => simp [Token.isRule] at ht
  | number x | reference name modifier | op o =>
    have hexcess : ∀ t : Token, t ≠ .leftParen → t ≠ .rightParen → Token.excess [t] = 0 := by
      intro t hleft hright
      simp [Token.excess, hleft, hright]
    rw [hexcess _ (by simp) (by simp)]
    exact ⟨fun _ => ⟨_, rfl⟩, fun hopens => by omega⟩

/-- A run over tokens without a rule reads all of them if their closing parentheses have
partners. -/
theorem run_of_matched (line : String) (hrules : ∀ t ∈ ts, t.isRule = false)
    (h : Token.Matched (opens a.waiting) ts) :
    ∃ b, ts.foldlM (step line) a = .ok b ∧
      (opens b.waiting : Int) = opens a.waiting + Token.excess ts := by
  induction ts generalizing a with
  | nil => exact ⟨a, rfl, by simp⟩
  | cons t ts ih =>
    obtain ⟨ht, hts⟩ := List.forall_mem_cons.1 hrules
    obtain ⟨-, h⟩ := Token.matched_cons_iff.1 h
    obtain ⟨b, hb⟩ := (step_of_not_rule line a ht).1 h.nonneg
    rw [← opens_step hb] at h
    obtain ⟨c, hc, hopens⟩ := ih hts h
    refine ⟨c, ?_, ?_⟩
    · rw [List.foldlM_cons, hb, Outcome.ok_bind, hc]
    · rw [hopens, opens_step hb, Token.excess_cons t ts, Int.add_assoc]

/-- A run over tokens without a rule ends at the first closing parenthesis without a partner. -/
theorem run_of_not_matched (line : String) (hrules : ∀ t ∈ ts, t.isRule = false)
    (h : ¬Token.Matched (opens a.waiting) ts) :
    ts.foldlM (step line) a = .error (.unbalancedParentheses line) := by
  induction ts generalizing a with
  | nil => exact absurd (Token.matched_nil_iff.2 (by omega)) h
  | cons t ts ih =>
    obtain ⟨ht, hts⟩ := List.forall_mem_cons.1 hrules
    rw [List.foldlM_cons]
    by_cases hopens : 0 ≤ opens a.waiting + Token.excess [t]
    · obtain ⟨b, hb⟩ := (step_of_not_rule line a ht).1 hopens
      rw [Token.matched_cons_iff, ← opens_step hb] at h
      rw [hb, Outcome.ok_bind]
      exact ih hts fun hmatched => h ⟨by omega, hmatched⟩
    · rw [(step_of_not_rule line a ht).2 (by omega)]
      rfl

/-! ## Operands -/

theorem release_operands (o : Operator) (out : List Token) (waiting : List Waiting) :
    (release o out waiting).out.filter Token.isOperand = out.filter Token.isOperand := by
  fun_induction release o out waiting with
  | case1 out top rest _ ih => simpa [Token.isOperand] using ih
  | case2 => rfl
  | case3 => rfl

theorem close?_operands (h : close? out waiting = some b) :
    b.out.filter Token.isOperand = out.filter Token.isOperand := by
  fun_induction close? out waiting with
  | case1 out o rest ih => simpa [Token.isOperand] using ih h
  | case2 out rest =>
    obtain rfl := Option.some.inj h
    rfl
  | case3 => exact absurd h (by simp)

theorem drain?_operands (h : drain? out waiting = some ts) :
    ts.filter Token.isOperand = out.filter Token.isOperand := by
  fun_induction drain? out waiting with
  | case1 out o rest ih => simpa [Token.isOperand] using ih h
  | case2 => exact absurd h (by simp)
  | case3 out =>
    obtain rfl := Option.some.inj h
    rfl

/-- An operand is put out at once, in front of those that were put out before. -/
theorem step_operands (h : step line a t = .ok b) :
    b.out.filter Token.isOperand = [t].filter Token.isOperand ++ a.out.filter Token.isOperand := by
  cases t with
  | number x | reference name modifier =>
    obtain rfl := Except.ok.inj h
    exact List.filter_append [_] a.out
  | leftParen =>
    obtain rfl := Except.ok.inj h
    rfl
  | op o =>
    obtain rfl := Except.ok.inj h
    simpa [Token.isOperand] using release_operands o a.out a.waiting
  | rightParen =>
    simp only [step] at h
    split at h
    · next c hclose =>
      obtain rfl := Except.ok.inj h
      simpa [Token.isOperand] using close?_operands hclose
    · exact absurd h (by simp)
  | rule r => exact absurd h (by simp [step])

theorem run_operands (h : ts.foldlM (step line) a = .ok b) :
    b.out.filter Token.isOperand =
      (ts.filter Token.isOperand).reverse ++ a.out.filter Token.isOperand := by
  induction ts generalizing a with
  | nil =>
    obtain rfl := Except.ok.inj h
    rfl
  | cons t ts ih =>
    rw [List.foldlM_cons, Outcome.bind_eq_ok] at h
    obtain ⟨c, hstep, hrun⟩ := h
    rw [ih hrun, step_operands hstep, ← List.append_assoc]
    cases ht : t.isOperand <;> simp [ht]

end Arrangement

namespace Variable

variable {ts : List Token} {known vs : Table String Variable} {key : String}

/-! ## Variables -/

/-- Collecting variables looks at operands only. -/
theorem collectInto_filter_isOperand (known : Table String Variable) (ts : List Token) :
    collectInto known (ts.filter Token.isOperand) = collectInto known ts := by
  induction ts generalizing known with
  | nil => rfl
  | cons t ts ih =>
    cases t with
    | reference name modifier =>
      simp only [List.filter_cons, Token.isOperand, if_true, collectInto]
      split
      · exact ih known
      · split
        · exact ih _
        · rfl
    | _ => simp [List.filter_cons, Token.isOperand, collectInto, ih]

/-- If all references can be read, their variables are collected. -/
theorem exists_collectInto
    (h : ∀ name m, .reference name m ∈ ts → ∃ v, read name m = .ok v) :
    ∃ vs, collectInto known ts = .ok vs := by
  fun_induction collectInto known ts with
  | case1 known => exact ⟨known, rfl⟩
  | case2 known name modifier rest key _ ih => exact ih fun n m hm => h n m (by simp [hm])
  | case3 known name modifier rest key _ v _ ih => exact ih fun n m hm => h n m (by simp [hm])
  | case4 known name modifier rest key _ e hread =>
    obtain ⟨v, hv⟩ := h name modifier (by simp)
    exact absurd (hread.symm.trans hv) (by simp)
  | case5 known t rest _ ih => exact ih fun n m hm => h n m (by simp [hm])

/-- The keys of collected variables are the binding keys of the references. -/
theorem mem_keys_collect_iff (h : collect ts = .ok vs) :
    key ∈ vs.keys ↔ ∃ name m, .reference name m ∈ ts ∧ Token.bindingKey name m = key := by
  rw [Table.mem_keys_iff, Table.contains, Option.isSome_iff_exists]
  constructor
  · rintro ⟨v, hv⟩
    obtain ⟨name, m, hname, hkey, -⟩ := reference_of_get?_collect h hv
    exact ⟨name, m, hname, hkey⟩
  · rintro ⟨name, m, hname, rfl⟩
    exact exists_get?_collectInto h hname

end Variable

namespace Program

variable {line : String} {ts before after : List Token} {p : Program} {r : Rule}

/-- Rearranging keeps the operands in order. -/
theorem arrange_operands (h : arrange line ts = .ok p) :
    p.filter Token.isOperand = ts.filter Token.isOperand := by
  obtain ⟨a, hrun, hdrain⟩ := arrange_eq_ok_iff.1 h
  have hoperands := (Arrangement.drain?_operands hdrain).trans (Arrangement.run_operands hrun)
  rw [List.filter_nil, List.append_nil, List.filter_reverse] at hoperands
  exact List.reverse_injective hoperands

theorem collect_of_arrange (h : arrange line ts = .ok p) :
    Variable.collect p = Variable.collect ts := by
  have hoperands := congrArg (Variable.collectInto .empty) (arrange_operands h)
  rwa [Variable.collectInto_filter_isOperand, Variable.collectInto_filter_isOperand] at hoperands

/-! ## Which error -/

theorem arrange_of_balanced (line : String) (hrules : ∀ t ∈ ts, t.isRule = false)
    (h : Token.Balanced ts) : ∃ p, arrange line ts = .ok p := by
  obtain ⟨a, hrun, hopens⟩ := Arrangement.run_of_matched line (a := ⟨[], []⟩) hrules h.1
  rw [h.2] at hopens
  obtain ⟨us, hdrain⟩ := Arrangement.exists_drain? a.out (by simpa using hopens)
  exact ⟨us.reverse, arrange_eq_ok_iff.2 ⟨a, hrun, by simpa using hdrain⟩⟩

theorem arrange_of_not_balanced (line : String) (hrules : ∀ t ∈ ts, t.isRule = false)
    (h : ¬Token.Balanced ts) : arrange line ts = .error (.unbalancedParentheses line) := by
  by_cases hmatched : Token.Matched 0 ts
  · obtain ⟨a, hrun, hopens⟩ := Arrangement.run_of_matched line (a := ⟨[], []⟩) hrules hmatched
    cases hdrain : Arrangement.drain? a.out a.waiting with
    | none => simp [arrange, hrun, hdrain]
    | some us =>
      -- What is drained has no open parenthesis left.
      have hnone := Arrangement.drain?_opens hdrain
      refine absurd ⟨hmatched, ?_⟩ h
      simpa [hnone] using hopens.symm
  · have hrun := Arrangement.run_of_not_matched line (a := ⟨[], []⟩) hrules hmatched
    rw [arrange, hrun]
    rfl

/-- The first rule is the error, unless the error is a closing parenthesis before it. -/
theorem arrange_of_rule (line : String) (r : Rule) (after : List Token)
    (hrules : ∀ t ∈ before, t.isRule = false) :
    (Token.Matched 0 before → arrange line (before ++ .rule r :: after) =
      .error (.misplacedRule r.text line)) ∧
    (¬Token.Matched 0 before → arrange line (before ++ .rule r :: after) =
      .error (.unbalancedParentheses line)) := by
  constructor
  · intro h
    obtain ⟨a, hrun, -⟩ := Arrangement.run_of_matched line (a := ⟨[], []⟩) hrules h
    rw [arrange, List.foldlM_append, hrun]
    rfl
  · intro h
    have hrun := Arrangement.run_of_not_matched line (a := ⟨[], []⟩) hrules h
    rw [arrange, List.foldlM_append, hrun]
    rfl

/-- Compiling ends in the first rule if it is met, or else in parentheses without partners; or else
it ends in a malformation or a program. -/
theorem compile_cases (line : String) (ts : List Token) :
    (∃ r, Token.MeetsRule ts r ∧ (∀ r', Token.MeetsRule ts r' → r' = r) ∧
      compile line ts = .error (.misplacedRule r.text line)) ∨
    (∀ r, ¬Token.MeetsRule ts r) ∧
      (¬Token.Balanced ts ∧ compile line ts = .error (.unbalancedParentheses line) ∨
        Token.Balanced ts ∧ ((∃ reason, compile line ts = .error (.malformed reason line)) ∨
          ∃ p, compile line ts = .ok p)) := by
  rcases Token.exists_first_rule ts with hrules | ⟨before, r, after, rfl, hrules⟩
  · refine .inr ⟨fun r => Token.not_meetsRule hrules, ?_⟩
    by_cases hbalanced : Token.Balanced ts
    · obtain ⟨p, hp⟩ := arrange_of_balanced line hrules hbalanced
      refine .inr ⟨hbalanced, ?_⟩
      rw [compile, hp, Outcome.ok_bind]
      cases p.checkArity with
      | ok _ => exact .inr ⟨p, rfl⟩
      | error reason => exact .inl ⟨reason, rfl⟩
    · refine .inl ⟨hbalanced, ?_⟩
      rw [compile, arrange_of_not_balanced line hrules hbalanced]
      rfl
  · obtain ⟨hrule, hparen⟩ := arrange_of_rule line r after hrules
    simp only [Token.meetsRule_iff hrules]
    by_cases hmatched : Token.Matched 0 before
    · refine .inl ⟨r, ⟨rfl, hmatched⟩, fun r' h => h.1, ?_⟩
      rw [compile, hrule hmatched]
      rfl
    · refine .inr ⟨fun r' h => hmatched h.2, .inl ⟨fun hbalanced => ?_, ?_⟩⟩
      · exact hmatched (hbalanced.1.initial (List.prefix_append _ _))
      · rw [compile, hparen hmatched]
        rfl

/-- What compiling makes of any list of tokens. It ends in a misplaced rule just if a rule is met
and no closing parenthesis before the first one is without a partner; otherwise in unbalanced
parentheses just if some parenthesis has no partner; otherwise in a malformation or a program. A
program consists of the numbers, counter references and operators of the list, has the operands in
the order of the list, and gives the same variables, under the binding keys of the references in the
list. -/
theorem compile_outcomes (line : String) (ts : List Token) :
    (∀ text e, compile line ts = .error (.misplacedRule text e) ↔
      e = line ∧ ∃ r, Token.MeetsRule ts r ∧ text = r.text) ∧
    ((∀ r, ¬Token.MeetsRule ts r) →
      (∀ e, compile line ts = .error (.unbalancedParentheses e) ↔ e = line ∧ ¬Token.Balanced ts) ∧
      (Token.Balanced ts → (∃ reason, compile line ts = .error (.malformed reason line)) ∨
        ∃ p, compile line ts = .ok p)) ∧
    ∀ p, compile line ts = .ok p →
      p.Perm (ts.filter Token.isInstruction) ∧
      p.filter Token.isOperand = ts.filter Token.isOperand ∧
      Variable.collect p = Variable.collect ts ∧
      (∀ vs, Variable.collect p = .ok vs → ∀ key, key ∈ vs.keys ↔
        ∃ name m, .reference name m ∈ ts ∧ Token.bindingKey name m = key) ∧
      ((∀ name m, .reference name m ∈ ts → ∃ v, Variable.read name m = .ok v) →
        ∃ vs, Variable.collect p = .ok vs) := by
  refine ⟨fun text e => ?misplaced, fun hrules => ?other, fun p hp => ?program⟩
  case misplaced =>
    rcases compile_cases line ts with ⟨r, hmeets, hunique, hcompile⟩ | ⟨hnone, hcompile⟩
    · rw [hcompile]
      constructor
      · intro h
        obtain ⟨rfl, rfl⟩ := AssertionError.misplacedRule.inj (Except.error.inj h)
        exact ⟨rfl, r, hmeets, rfl⟩
      · rintro ⟨rfl, r', hmeets', rfl⟩
        rw [hunique r' hmeets']
    · refine iff_of_false ?_ fun h => hnone _ h.2.choose_spec.1
      rcases hcompile with ⟨-, h⟩ | ⟨-, ⟨reason, h⟩ | ⟨p, h⟩⟩ <;> simp [h]
  case other =>
    rcases compile_cases line ts with ⟨r, hmeets, -, -⟩ | ⟨-, hcompile⟩
    · exact absurd hmeets (hrules r)
    · rcases hcompile with ⟨hbalanced, h⟩ | ⟨hbalanced, h⟩
      · exact ⟨fun e => by simp [h, hbalanced, eq_comm], fun hcontra => absurd hcontra hbalanced⟩
      · refine ⟨fun e => iff_of_false ?_ fun hcontra => hcontra.2 hbalanced, fun _ => h⟩
        rcases h with ⟨reason, h⟩ | ⟨p, h⟩ <;> simp [h]
  case program =>
    have harrange := (compile_eq_ok_iff.1 hp).1
    have hcollect := collect_of_arrange harrange
    refine ⟨arrange_perm harrange, arrange_operands harrange, hcollect, ?_, ?_⟩
    · intro vs hvs key
      exact Variable.mem_keys_collect_iff (hcollect ▸ hvs)
    · intro hread
      rw [hcollect]
      exact Variable.exists_collectInto hread

-- A closing parenthesis before the rule is reported, one behind it is not looked at.
example : compile "" [.rightParen, .rule .any] = .error (.unbalancedParentheses "") := rfl

example : compile "" [.leftParen, .rule .any, .rightParen, .rightParen] =
    .error (.misplacedRule "ANY" "") := rfl

end Program

end TrafficCheck

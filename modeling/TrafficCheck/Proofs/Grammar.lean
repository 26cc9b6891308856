import Mathlib
import TrafficCheck.Proofs.Conservation
import TrafficCheck.Proofs.Postorder

/-!
# The grammar of compiled expressions

Compiling judges a list of tokens after rearranging them, by the parentheses that match and the
values that a program leaves. This alone does not see in which order operands and operators stood;
together with the order of an infix expression it gives exactly the grammar.

## Main statements

* `InfixOrder`: every token stands where an expression asks for its kind.
* `LeadsInto.run`: what a run over tokens in infix order has read.
* `isExpression_iff_compile_and_order`: the lists of tokens in the grammar are those that compile
  and stand in infix order.
-/

namespace TrafficCheck

/-! ## Infix order -/

/-- What an infix expression asks for at a place. -/
inductive Slot where
  | operand
  | operator
  deriving DecidableEq, Repr

namespace Slot

/-- What is asked for behind a token, if the token may stand in a slot. -/
def after? : Slot → Token → Option Slot
  | .operand, .number _ | .operand, .reference _ _ => some .operator
  | .operand, .op .not | .operand, .leftParen => some .operand
  | .operator, .op .not => none
  | .operator, .op _ => some .operand
  | .operator, .rightParen => some .operator
  | _, _ => none

theorem after?_binary {o : Operator} (ho : o ≠ .not) :
    after? .operator (.op o) = some .operand := by
  cases o with
  | not => exact absurd rfl ho
  | _ => rfl

end Slot

/-- Tokens in infix order: operands, negations and opening parentheses stand where an operand is
asked for, operators of two operands and closing parentheses where an operator is. -/
def InfixOrder (ts : List Token) : Prop := (ts.foldlM Slot.after? .operand).isSome

instance (ts : List Token) : Decidable (InfixOrder ts) :=
  inferInstanceAs (Decidable ((ts.foldlM Slot.after? .operand).isSome = true))

/-- Behind an expression an operator is asked for. -/
theorem Derives.foldlM_after? {c : Category} {ts : List Token} (h : Derives c ts) :
    ts.foldlM Slot.after? .operand = some .operator := by
  induction h with
  | single _ ih => exact ih
  | chain o _ _ iht ihu =>
    rw [List.foldlM_append, iht]
    simp [List.foldlM_cons, Slot.after?_binary o.2, ihu]
  | number x => rfl
  | reference name modifier => rfl
  | negation _ ih => simpa [List.foldlM_cons, Slot.after?] using ih
  | enclosed _ ih => simp [List.foldlM_cons, Slot.after?, ih]

theorem Derives.infixOrder {c : Category} {ts : List Token} (h : Derives c ts) :
    InfixOrder ts := by
  simp [InfixOrder, h.foldlM_after?]

/-! ## Weights -/

/-- By how much a token changes the number of values. -/
def Token.weight : Token → Int
  | .number _ | .reference _ _ => 1
  | .op o => 1 - o.arity
  | _ => 0

theorem Token.weight_filter (ts : List Token) :
    ((ts.filter isInstruction).map weight).sum = (ts.map weight).sum := by
  induction ts with
  | nil => rfl
  | cons t ts ih =>
    by_cases ht : t.isInstruction = true
    · simp [List.filter_cons_of_pos ht, ih]
    · have hweight : t.weight = 0 := by cases t <;> simp [isInstruction, weight] at ht ⊢
      simp [List.filter_cons_of_neg ht, hweight, ih]

/-- How many values are complete in a slot. -/
def Slot.weight : Slot → Int
  | .operand => 0
  | .operator => 1

theorem Slot.weight_after? {s s' : Slot} {t : Token} (h : s.after? t = some s') :
    s'.weight = s.weight + t.weight := by
  unfold Slot.after? at h
  split at h
  all_goals first
    | obtain rfl := Option.some.inj h
    | exact absurd h (by simp)
  case h_6 o ho =>
    have harity : o.arity = 2 := Operator.arity_of_ne_not fun h => ho h
    simp [Slot.weight, Token.weight, harity]
  all_goals rfl

theorem Slot.weight_foldlM {s s' : Slot} {ts : List Token}
    (h : ts.foldlM Slot.after? s = some s') :
    s'.weight = s.weight + (ts.map Token.weight).sum := by
  induction ts generalizing s with
  | nil =>
    obtain rfl := Option.some.inj h
    simp
  | cons t ts ih =>
    rw [List.foldlM_cons, Option.bind_eq_bind, Option.bind_eq_some_iff] at h
    obtain ⟨mid, hmid, hrest⟩ := h
    rw [ih hrest, Slot.weight_after? hmid, List.map_cons, List.sum_cons, add_assoc]

namespace Program

theorem weight_depthStep {d d' : Nat} {t : Token} (ht : t.isInstruction = true)
    (h : depthStep d t = .ok d') : (d' : Int) = d + t.weight := by
  cases t with
  | number x | reference name modifier =>
    obtain rfl := Except.ok.inj h
    rfl
  | op o =>
    simp only [depthStep] at h
    split at h
    · exact absurd h (by simp)
    · next hlt =>
      obtain rfl := Except.ok.inj h
      have harity : o.arity ≤ d := Nat.not_lt.1 hlt
      simp only [Token.weight]
      omega
  | _ => exact absurd ht (by simp [Token.isInstruction])

theorem weight_depth {p : Program} {d d' : Nat} (hp : ∀ t ∈ p, t.isInstruction = true)
    (h : p.foldlM depthStep d = .ok d') : (d' : Int) = d + (p.map Token.weight).sum := by
  induction p generalizing d with
  | nil =>
    obtain rfl := Except.ok.inj h
    simp
  | cons t p ih =>
    rw [List.foldlM_cons, Outcome.bind_eq_ok] at h
    obtain ⟨mid, hmid, hrest⟩ := h
    have hrest' := ih (fun u hu => hp u (by simp [hu])) hrest
    rw [hrest', weight_depthStep (hp t (by simp)) hmid, List.map_cons, List.sum_cons, add_assoc]

/-- The tokens of a compiled expression weigh one value. -/
theorem weight_of_compile {line : String} {ts : List Token} {p : Program}
    (h : compile line ts = .ok p) : (ts.map Token.weight).sum = 1 := by
  obtain ⟨harrange, harity⟩ := compile_eq_ok_iff.1 h
  have hperm := arrange_perm harrange
  have hdepth := weight_depth (isInstruction_of_compile h) (depth_eq_one_of_checkArity harity)
  rw [← Token.weight_filter, ← (hperm.map Token.weight).sum_eq]
  omega

end Program

/-! ## What a run has read -/

/-- Tokens behind which any unary expression completes an expression. -/
def Awaits (ts : List Token) : Prop := ∀ us, Derives .unary us → IsExpression (ts ++ us)

theorem awaits_nil : Awaits [] := fun _ hu => .single hu

theorem Awaits.negation {ts : List Token} (h : Awaits ts) : Awaits (ts ++ [.op .not]) := by
  intro us hu
  simpa using h _ (.negation hu)

theorem awaits_operator {ts : List Token} (o : BinaryOperator) (h : IsExpression ts) :
    Awaits (ts ++ [.op o.1]) := by
  intro us hu
  simpa using Derives.chain o h hu

/-- Tokens without an open parenthesis that lead to a slot. -/
def LeadsTo : Slot → List Token → Prop
  | .operand, ts => Awaits ts
  | .operator, ts => IsExpression ts

/-- Tokens that lead to a slot inside the given number of open parentheses, in front of each of
which a unary expression is awaited. -/
def LeadsInto : Nat → Slot → List Token → Prop
  | 0, slot, ts => LeadsTo slot ts
  | n + 1, slot, ts => ∃ outer inner, ts = outer ++ .leftParen :: inner ∧
      LeadsInto n .operand outer ∧ LeadsTo slot inner

namespace LeadsInto

variable {n : Nat} {s s' : Slot} {ts us : List Token}

/-- More tokens concern only what stands behind the innermost open parenthesis. -/
theorem append (h : LeadsInto n s ts)
    (hus : ∀ inner, LeadsTo s inner → LeadsTo s' (inner ++ us)) :
    LeadsInto n s' (ts ++ us) := by
  cases n with
  | zero => exact hus ts h
  | succ n =>
    obtain ⟨outer, inner, rfl, houter, hinner⟩ := h
    exact ⟨outer, inner ++ us, by simp, houter, hus inner hinner⟩

theorem unary (h : LeadsInto n .operand ts) (hu : Derives .unary us) :
    LeadsInto n .operator (ts ++ us) :=
  h.append fun _ hinner => hinner us hu

theorem openParen (h : LeadsInto n .operand ts) : LeadsInto (n + 1) .operand (ts ++ [.leftParen]) :=
  ⟨ts, [], rfl, h, awaits_nil⟩

theorem closeParen (h : LeadsInto (n + 1) .operator ts) :
    LeadsInto n .operator (ts ++ [.rightParen]) := by
  obtain ⟨outer, inner, rfl, houter, hinner⟩ := h
  simpa using houter.unary (.enclosed hinner)

/-- One token in its slot, where parentheses match those of a rearrangement. -/
theorem step {line : String} {a b : Arrangement} {t : Token}
    (h : LeadsInto (Arrangement.opens a.waiting) s ts) (hslot : s.after? t = some s')
    (hstep : Arrangement.step line a t = .ok b) :
    LeadsInto (Arrangement.opens b.waiting) s' (ts ++ [t]) := by
  have hopens := Arrangement.step_opens hstep
  unfold Slot.after? at hslot
  split at hslot
  all_goals first
    | obtain rfl := Option.some.inj hslot
    | exact absurd hslot (by simp)
  case h_1 x =>
    rw [hopens]
    exact h.unary (.number x)
  case h_2 name modifier =>
    rw [hopens]
    exact h.unary (.reference name modifier)
  case h_3 =>
    rw [hopens]
    exact h.append fun _ hinner => Awaits.negation hinner
  case h_4 =>
    rw [hopens]
    exact h.openParen
  case h_6 o ho =>
    rw [hopens]
    exact h.append fun _ hinner => awaits_operator ⟨o, fun h => ho h⟩ hinner
  case h_7 =>
    rw [← hopens] at h
    exact h.closeParen

/-- A run over tokens that stand in their slots reads on. -/
theorem run {line : String} {a b : Arrangement} (h : LeadsInto (Arrangement.opens a.waiting) s ts)
    (hslot : us.foldlM Slot.after? s = some s')
    (hrun : us.foldlM (Arrangement.step line) a = .ok b) :
    LeadsInto (Arrangement.opens b.waiting) s' (ts ++ us) := by
  induction us generalizing s ts a with
  | nil =>
    obtain rfl := Option.some.inj hslot
    obtain rfl := Except.ok.inj hrun
    simpa using h
  | cons t us ih =>
    rw [List.foldlM_cons, Option.bind_eq_bind, Option.bind_eq_some_iff] at hslot
    obtain ⟨mid, hmid, hslot⟩ := hslot
    rw [List.foldlM_cons, Outcome.bind_eq_ok] at hrun
    obtain ⟨c, hstep, hrun⟩ := hrun
    simpa using ih (h.step hmid hstep) hslot hrun

end LeadsInto

namespace Program

variable {line : String} {ts : List Token} {p : Program}

/-- Tokens that compile and stand in infix order are in the grammar. -/
theorem isExpression_of_compile (h : compile line ts = .ok p) (horder : InfixOrder ts) :
    IsExpression ts := by
  obtain ⟨s, hs⟩ := Option.isSome_iff_exists.1 horder
  obtain ⟨a, hrun, hdrain⟩ := arrange_eq_ok_iff.1 (compile_eq_ok_iff.1 h).1
  have hreads : LeadsInto 0 s ts := by
    have hstart : LeadsInto (Arrangement.opens []) .operand [] := awaits_nil
    have := LeadsInto.run (a := ⟨[], []⟩) hstart hs hrun
    rwa [Arrangement.drain?_opens hdrain] at this
  -- A list that ends where an operand is asked for weighs nothing, but what compiles weighs one.
  have hweight := Slot.weight_foldlM hs
  rw [weight_of_compile h] at hweight
  cases s with
  | operand => exact absurd hweight (by decide)
  | operator => exact hreads

theorem compile_of_isExpression (h : IsExpression ts) : ∃ p, compile line ts = .ok p := by
  obtain ⟨e, he⟩ := h.exists_writing
  exact ⟨_, compile_eq_ok_iff.2 ⟨arrange_written he, checkArity_postorder e⟩⟩

/-- The lists of tokens in the grammar are those that compile and stand in infix order. Of the lists
that compile, the ones outside the grammar are thus those in another order. -/
theorem isExpression_iff_compile_and_order (line : String) (ts : List Token) :
    IsExpression ts ↔ (∃ p, compile line ts = .ok p) ∧ InfixOrder ts := by
  constructor
  · intro h
    exact ⟨compile_of_isExpression h, h.infixOrder⟩
  · rintro ⟨⟨p, hp⟩, horder⟩
    exact isExpression_of_compile hp horder

/-- An operator behind both of its operands compiles, although this is no expression. -/
theorem compile_accepts_other_order :
    compile "1 2 +" [.number 1, .number 2, .op .add] = .ok [.number 1, .number 2, .op .add] ∧
      ¬IsExpression [.number 1, .number 2, .op .add] := by
  refine ⟨rfl, ?_⟩
  intro h
  exact absurd h.infixOrder (by decide)

end Program

end TrafficCheck

import TrafficCheck.Token

/-!
# Expressions

The trees that tokens write, the ways of writing one, and the grammar of token lists that are
expressions. A writing may carry any number of needless parentheses; it leaves them out only where
the ranks of the operators give the tree back.

## Main statements

* `Expression.exists_written`: every expression can be written.
* `Derives.exists_writing`: every list of tokens in the grammar writes a tree.
-/

namespace TrafficCheck

/-- An operator of two operands. -/
abbrev BinaryOperator := { o : Operator // o ≠ .not }

/-- An expression as a tree. -/
inductive Expression where
  | number (x : Float)
  | reference (name : String) (modifier : Option Modifier)
  | negation (e : Expression)
  | binary (o : BinaryOperator) (left right : Expression)

namespace Operator

/-- The loosest rank of all operators. -/
def loosest : Nat := rank .or

theorem not_rank_le (o : Operator) : rank .not ≤ o.rank := by cases o <;> decide

theorem rank_le_loosest (o : Operator) : o.rank ≤ loosest := by cases o <;> decide

theorem rank_pos (o : Operator) : 0 < o.rank :=
  Nat.lt_of_lt_of_le (by decide) o.not_rank_le

theorem arity_of_ne_not {o : Operator} (h : o ≠ .not) : o.arity = 2 := by
  cases o with
  | not => exact absurd rfl h
  | _ => rfl

end Operator

namespace Expression

/-- The tokens of an expression in postorder: operands first, from left to right. -/
def postorder : Expression → List Token
  | .number x => [.number x]
  | .reference name modifier => [.reference name modifier]
  | .negation e => e.postorder ++ [.op .not]
  | .binary o l r => l.postorder ++ r.postorder ++ [.op o]

/-- The counter references of an expression, from left to right. -/
def references : Expression → List (String × Option Modifier)
  | .number _ => []
  | .reference name modifier => [(name, modifier)]
  | .negation e => e.references
  | .binary _ l r => l.references ++ r.references

theorem mem_references_iff {e : Expression} {name : String} {modifier : Option Modifier} :
    (name, modifier) ∈ e.references ↔ .reference name modifier ∈ e.postorder := by
  induction e with
  | number x => simp [references, postorder]
  | reference other m => simp [references, postorder]
  | negation e ih => simp [references, postorder, ih]
  | binary o l r ihl ihr => simp [references, postorder, ihl, ihr]

end Expression

/-! ## Writings -/

/-- The tokens that write an expression where no operator outside parentheses may bind more loosely
than `limit`. Operators of two operands group to the left, so the right operand admits only tighter
ones, and a negation admits none at all. -/
inductive Written : Nat → Expression → List Token → Prop
  | number (limit : Nat) (x : Float) : Written limit (.number x) [.number x]
  | reference (limit : Nat) (name : String) (modifier : Option Modifier) :
      Written limit (.reference name modifier) [.reference name modifier]
  | negation {e : Expression} {ts : List Token} (limit : Nat) :
      Written 0 e ts → Written limit (.negation e) (.op .not :: ts)
  | binary {l r : Expression} {ls rs : List Token} {limit : Nat} (o : BinaryOperator) :
      o.1.rank ≤ limit → Written o.1.rank l ls → Written (o.1.rank - 1) r rs →
      Written limit (.binary o l r) (ls ++ .op o :: rs)
  | enclosed {e : Expression} {ts : List Token} (limit : Nat) :
      Written Operator.loosest e ts → Written limit e (.leftParen :: (ts ++ [.rightParen]))

/-- Every expression can be written under every limit. -/
theorem Expression.exists_written (e : Expression) (limit : Nat) : ∃ ts, Written limit e ts := by
  induction e generalizing limit with
  | number x => exact ⟨_, .number _ x⟩
  | reference name modifier => exact ⟨_, .reference _ name modifier⟩
  | negation e ih =>
    obtain ⟨ts, hts⟩ := ih 0
    exact ⟨_, .negation _ hts⟩
  | binary o l r ihl ihr =>
    obtain ⟨ls, hls⟩ := ihl o.1.rank
    obtain ⟨rs, hrs⟩ := ihr (o.1.rank - 1)
    exact ⟨_, .enclosed _ (.binary o o.1.rank_le_loosest hls hrs)⟩

namespace Written

variable {e : Expression} {ts us : List Token} {limit limit' : Nat}

/-- What is written under a tight limit is written under a loose one. -/
theorem mono (h : Written limit e ts) (hl : limit ≤ limit') : Written limit' e ts := by
  cases h with
  | number => exact .number ..
  | reference => exact .reference ..
  | negation _ h => exact .negation _ h
  | binary o ho h k => exact .binary o (Nat.le_trans ho hl) h k
  | enclosed _ h => exact .enclosed _ h

/-- One more operator and its right operand behind a writing: the operator takes its place in the
tree among those on the right edge that bind more loosely. -/
theorem extend {u : Expression} (o : BinaryOperator) (h : Written limit e ts)
    (hu : Written 0 u us) :
    ∃ e', Written (max limit o.1.rank) e' (ts ++ .op o :: us) := by
  have hright : Written (o.1.rank - 1) u us := hu.mono (Nat.zero_le _)
  have outermost {l : Expression} {ls : List Token} (hl : Written o.1.rank l ls) :
      ∃ e', Written (max limit o.1.rank) e' (ls ++ .op o :: us) :=
    ⟨_, .binary o (Nat.le_max_right ..) hl hright⟩
  induction h with
  | number => exact outermost (.number ..)
  | reference => exact outermost (.reference ..)
  | negation _ h => exact outermost (.negation _ h)
  | enclosed _ h => exact outermost (.enclosed _ h)
  | @binary l r ls rs limit p hp hl hr _ ih =>
    by_cases hpo : p.1.rank ≤ o.1.rank
    · exact outermost (.binary p hpo hl hr)
    · obtain ⟨r', hr'⟩ := ih fun h => ⟨_, .binary o (Nat.le_max_right ..) h hright⟩
      have hlimit : max (p.1.rank - 1) o.1.rank ≤ p.1.rank - 1 := by omega
      have hp' : p.1.rank ≤ max limit o.1.rank := Nat.le_trans hp (Nat.le_max_left ..)
      have := Written.binary p hp' hl (hr'.mono hlimit)
      exact ⟨_, by simpa using this⟩

end Written

/-! ## The grammar -/

/-- The two categories of the grammar. -/
inductive Category where
  | expression
  | unary

/-- The grammar of expressions: unary expressions with operators of two operands between them, where
a unary expression is a number, a counter reference, an expression in parentheses, or the negation
of a unary expression. -/
inductive Derives : Category → List Token → Prop
  | single {us : List Token} : Derives .unary us → Derives .expression us
  | chain {ts us : List Token} (o : BinaryOperator) :
      Derives .expression ts → Derives .unary us → Derives .expression (ts ++ .op o :: us)
  | number (x : Float) : Derives .unary [.number x]
  | reference (name : String) (modifier : Option Modifier) :
      Derives .unary [.reference name modifier]
  | negation {us : List Token} : Derives .unary us → Derives .unary (.op .not :: us)
  | enclosed {ts : List Token} :
      Derives .expression ts → Derives .unary (.leftParen :: (ts ++ [.rightParen]))

/-- Tokens that form an expression. -/
abbrev IsExpression (ts : List Token) : Prop := Derives .expression ts

/-- The limit under which tokens of a category are written. -/
def Category.limit : Category → Nat
  | .expression => Operator.loosest
  | .unary => 0

/-- Every list of tokens in the grammar writes a tree. -/
theorem Derives.exists_writing {c : Category} {ts : List Token} (h : Derives c ts) :
    ∃ e, Written c.limit e ts := by
  induction h with
  | single _ ih =>
    obtain ⟨e, he⟩ := ih
    exact ⟨e, he.mono (Nat.zero_le _)⟩
  | chain o _ _ iht ihu =>
    obtain ⟨e, he⟩ := iht
    obtain ⟨u, hu⟩ := ihu
    obtain ⟨e', he'⟩ := he.extend o hu
    exact ⟨e', he'.mono (Nat.max_le.2 ⟨Nat.le_refl _, o.1.rank_le_loosest⟩)⟩
  | number x => exact ⟨_, .number _ x⟩
  | reference name modifier => exact ⟨_, .reference _ name modifier⟩
  | negation _ ih =>
    obtain ⟨e, he⟩ := ih
    exact ⟨_, .negation _ he⟩
  | enclosed _ ih =>
    obtain ⟨e, he⟩ := ih
    exact ⟨_, .enclosed _ he⟩

end TrafficCheck

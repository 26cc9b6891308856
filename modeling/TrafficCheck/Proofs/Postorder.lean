import TrafficCheck.Program
import TrafficCheck.Proofs.Expression
import TrafficCheck.Proofs.Outcome

/-!
# Postorder

Compiling any writing of an expression gives the postorder of its tree. While a writing is read, the
operators on the right edge of its tree wait, innermost first; they act before every operator that
the place of the writing admits, so that what waited below is met again untouched.

## Main statements

* `Arrangement.run_written`: how a writing is rearranged on top of anything that waits.
* `Program.depth_postorder`: a postorder leaves one value more.
* `Program.compile_eq_postorder`: every writing compiles to the postorder of its tree.
-/

namespace TrafficCheck

/-! ## Yielding -/

namespace Operator

@[simp] theorem not_yieldsTo (top : Operator) : yieldsTo .not top = false := by
  cases top <;> decide

theorem yieldsTo_iff {o top : Operator} (h : o ≠ .not) :
    o.yieldsTo top = true ↔ top.rank ≤ o.rank := by
  cases o with
  | not => exact absurd rfl h
  | _ => simp [yieldsTo]

end Operator

namespace Arrangement

variable {o : Operator} {os : List Operator} {out : List Token} {waiting : List Waiting}
  {limit : Nat}

/-! ## Putting out operators -/

/-- The tokens put out, latest first, after the given operators, innermost first, followed them. -/
def flush (os : List Operator) (out : List Token) : List Token := (os.map .op).reverse ++ out

@[simp] theorem flush_nil (out : List Token) : flush [] out = out := rfl

@[simp] theorem flush_cons (o : Operator) (os : List Operator) (out : List Token) :
    flush (o :: os) out = flush os (.op o :: out) := by simp [flush]

@[simp] theorem flush_concat (os : List Operator) (o : Operator) (out : List Token) :
    flush (os ++ [o]) out = .op o :: flush os out := by simp [flush]

theorem release_flush (h : ∀ top ∈ os, o.yieldsTo top = true) :
    release o out (os.map .op ++ waiting) = release o (flush os out) waiting := by
  induction os generalizing out with
  | nil => rfl
  | cons top os ih =>
    have htop : o.yieldsTo top = true := h top (by simp)
    have hos : ∀ p ∈ os, o.yieldsTo p = true := fun p hp => h p (by simp [hp])
    simp [release, htop, ih hos]

theorem close?_flush :
    close? out (os.map .op ++ waiting) = close? (flush os out) waiting := by
  induction os generalizing out with
  | nil => rfl
  | cons top os ih => simpa [close?] using ih

theorem drain?_flush :
    drain? out (os.map .op ++ waiting) = drain? (flush os out) waiting := by
  induction os generalizing out with
  | nil => rfl
  | cons top os ih => simpa [drain?] using ih

/-- No operator that binds as tightly as `limit` or tighter makes the innermost waiting operator
act. -/
def Guarded (limit : Nat) : List Waiting → Prop
  | .op top :: _ => limit < top.rank
  | _ => True

theorem Guarded.mono {limit' : Nat} (h : Guarded limit waiting) (hl : limit' ≤ limit) :
    Guarded limit' waiting := by
  match waiting, h with
  | [], _ => trivial
  | .leftParen :: _, _ => trivial
  | .op _ :: _, h => exact Nat.lt_of_le_of_lt hl h

theorem release_guarded (ho : o ≠ .not) (h : Guarded o.rank waiting) :
    release o out waiting = ⟨out, waiting⟩ := by
  match waiting, h with
  | [], _ => rfl
  | .leftParen :: _, _ => rfl
  | .op top :: rest, h =>
    have htop : ¬o.yieldsTo top = true := by
      rw [Operator.yieldsTo_iff ho]
      exact Nat.not_le.2 h
    simp [release, htop]

theorem release_not : release .not out waiting = ⟨out, waiting⟩ := by
  match waiting with
  | [] => rfl
  | .leftParen :: _ => rfl
  | .op top :: rest => simp [release]

/-! ## Reading a writing -/

/-- Reading a writing puts out its postorder but for some operators that still wait. All of these
act before any operator that the place of the writing admits next. -/
theorem run_written (line : String) {e : Expression} {ts : List Token} (h : Written limit e ts)
    (hw : Guarded limit waiting) (out : List Token) :
    ∃ out' os, ts.foldlM (step line) ⟨out, waiting⟩ = .ok ⟨out', os.map .op ++ waiting⟩ ∧
      flush os out' = e.postorder.reverse ++ out ∧
      ∀ top ∈ os, top = .not ∨ top.rank ≤ limit := by
  induction h generalizing out waiting with
  | number _ x => exact ⟨_, [], rfl, rfl, by simp⟩
  | reference _ name modifier => exact ⟨_, [], rfl, rfl, by simp⟩
  | @negation e ts limit _ ih =>
    have hguard : Guarded 0 (.op .not :: waiting) := Operator.rank_pos .not
    obtain ⟨out', os, hrun, hflush, hos⟩ := ih hguard out
    refine ⟨out', os ++ [.not], ?_, ?_, ?_⟩
    · rw [List.foldlM_cons, step, release_not, Outcome.ok_bind]
      simpa using hrun
    · simp [hflush, Expression.postorder]
    · intro top htop
      rcases List.mem_append.1 htop with htop | htop
      · rcases hos top htop with rfl | hrank
        · exact .inl rfl
        · exact absurd hrank (Nat.not_le.2 top.rank_pos)
      · exact .inl (List.mem_singleton.1 htop)
  | @binary l r ls rs limit o ho _ _ ihl ihr =>
    obtain ⟨out₁, os₁, hrun₁, hflush₁, hos₁⟩ := ihl (hw.mono ho) out
    -- The left operand is complete: everything of it that waits acts before `o`.
    have hyield : ∀ top ∈ os₁, o.1.yieldsTo top = true := by
      intro top htop
      rw [Operator.yieldsTo_iff o.2]
      rcases hos₁ top htop with rfl | hrank
      · exact o.1.not_rank_le
      · exact hrank
    have hrelease : release o.1 out₁ (os₁.map .op ++ waiting) =
        ⟨l.postorder.reverse ++ out, waiting⟩ := by
      rw [release_flush hyield, hflush₁, release_guarded o.2 (hw.mono ho)]
    have hguard : Guarded (o.1.rank - 1) (.op o.1 :: waiting) :=
      Nat.sub_lt o.1.rank_pos Nat.one_pos
    obtain ⟨out₂, os₂, hrun₂, hflush₂, hos₂⟩ := ihr hguard (l.postorder.reverse ++ out)
    refine ⟨out₂, os₂ ++ [o.1], ?_, ?_, ?_⟩
    · rw [List.foldlM_append, hrun₁, Outcome.ok_bind, List.foldlM_cons, step, hrelease,
        Outcome.ok_bind]
      simpa using hrun₂
    · simp [hflush₂, Expression.postorder]
    · intro top htop
      rcases List.mem_append.1 htop with htop | htop
      · rcases hos₂ top htop with rfl | hrank
        · exact .inl rfl
        · exact .inr (by omega)
      · rw [List.mem_singleton.1 htop]
        exact .inr ho
  | @enclosed e ts limit _ ih =>
    have hguard : Guarded Operator.loosest (.leftParen :: waiting) := trivial
    obtain ⟨out', os, hrun, hflush, _⟩ := ih hguard out
    refine ⟨e.postorder.reverse ++ out, [], ?_, rfl, by simp⟩
    have hclose : close? out' (os.map .op ++ .leftParen :: waiting) =
        some ⟨e.postorder.reverse ++ out, waiting⟩ := by
      rw [close?_flush, hflush, close?]
    rw [List.foldlM_cons, step, Outcome.ok_bind, List.foldlM_append, hrun]
    simp [step, hclose]

end Arrangement

namespace Program

variable {line : String} {limit : Nat} {e : Expression} {ts : List Token}

theorem arrange_written (h : Written limit e ts) : arrange line ts = .ok e.postorder := by
  obtain ⟨out, os, hrun, hflush, _⟩ :=
    Arrangement.run_written line h (show Arrangement.Guarded limit [] from trivial) []
  have hdrain : Arrangement.drain? out (os.map .op ++ []) = some e.postorder.reverse := by
    rw [Arrangement.drain?_flush, hflush, Arrangement.drain?, List.append_nil]
  simp only [arrange, hrun, Outcome.ok_bind, hdrain]
  simp

theorem depthStep_binary {o : Operator} (ho : o ≠ .not) (n : Nat) :
    depthStep (n + 2) (.op o) = .ok (n + 1) := by
  have hn : ¬n + 2 < o.arity := by rw [Operator.arity_of_ne_not ho]; omega
  rw [depthStep, if_neg hn, Operator.arity_of_ne_not ho]
  rfl

/-- A postorder leaves one value more than there were. -/
theorem depth_postorder (e : Expression) (n : Nat) :
    e.postorder.foldlM depthStep n = .ok (n + 1) := by
  induction e generalizing n with
  | number x => rfl
  | reference name modifier => rfl
  | negation e ih =>
    rw [Expression.postorder, List.foldlM_append, ih]
    simp [depthStep, Operator.arity]
  | binary o l r ihl ihr =>
    rw [Expression.postorder, List.foldlM_append, List.foldlM_append, ihl, Outcome.ok_bind, ihr]
    simp [depthStep_binary o.2]

theorem checkArity_postorder (e : Expression) : checkArity e.postorder = .ok () := by
  simp [checkArity, depth, depth_postorder]

/-- Whatever needless parentheses it carries, a writing compiles to the postorder of its tree. -/
theorem compile_eq_postorder (h : Written limit e ts) : compile line ts = .ok e.postorder := by
  rw [compile, arrange_written h, Outcome.ok_bind, checkArity_postorder]
  rfl

/-- Differences group to the left, and a negation binds more tightly than a comparison. -/
theorem compile_comparison_of_differences :
    compile "!(a@min) == 1 - 2 - ((3))"
        [.op .not, .leftParen, .reference "a" (some .min), .rightParen, .op .equal,
          .number 1, .op .subtract, .number 2, .op .subtract,
          .leftParen, .leftParen, .number 3, .rightParen, .rightParen] =
      .ok [.reference "a" (some .min), .op .not, .number 1, .number 2, .op .subtract, .number 3,
        .op .subtract, .op .equal] := by
  have hleft : Written 9 (.negation (.reference "a" (some .min)))
      [.op .not, .leftParen, .reference "a" (some .min), .rightParen] :=
    .negation _ (.enclosed _ (.reference ..))
  have hinner : Written 6 (.binary ⟨.subtract, by decide⟩ (.number 1) (.number 2))
      [.number 1, .op .subtract, .number 2] :=
    .binary _ (by decide) (.number ..) (.number ..)
  have hthree : Written 5 (.number 3)
      [.leftParen, .leftParen, .number 3, .rightParen, .rightParen] :=
    .enclosed _ (.enclosed _ (.number ..))
  have hright : Written 8 _ _ := .binary ⟨.subtract, by decide⟩ (by decide) hinner hthree
  have hall : Written Operator.loosest _ _ := .binary ⟨.equal, by decide⟩ (by decide) hleft hright
  exact compile_eq_postorder hall

end Program

end TrafficCheck

import TrafficCheck.Program
import TrafficCheck.Proofs.Outcome

/-!
# What rearranging keeps

A rearrangement holds every token it has met, either put out or waiting, except the parentheses; and
as many parentheses wait as are open. Both are kept by every step, for token lists of any form.

## Main statements

* `Program.arrange_perm`: a program consists of the tokens of its expression but the parentheses.
* `Arrangement.step_opens`: how a token changes the number of open parentheses.
-/

namespace TrafficCheck

/-- Whether a token acts in a program. -/
def Token.isInstruction : Token → Bool
  | .number _ | .reference _ _ | .op _ => true
  | _ => false

namespace Arrangement

variable {line : String} {o : Operator} {out : List Token} {waiting : List Waiting}
  {a b : Arrangement} {t : Token} {ts : List Token}

/-! ## Tokens held -/

/-- The token that waits, if it is none of the parentheses. -/
def token? : Waiting → Option Token
  | .op o => some (.op o)
  | .leftParen => none

/-- All tokens put out or waiting. -/
def held (a : Arrangement) : List Token := a.out ++ a.waiting.filterMap token?

theorem held_op (o : Operator) (out : List Token) (waiting : List Waiting) :
    (held ⟨.op o :: out, waiting⟩).Perm (held ⟨out, .op o :: waiting⟩) := by
  simpa [held, token?] using List.perm_middle.symm

@[simp] theorem held_leftParen (out : List Token) (waiting : List Waiting) :
    held ⟨out, .leftParen :: waiting⟩ = held ⟨out, waiting⟩ := rfl

theorem release_held (o : Operator) (out : List Token) (waiting : List Waiting) :
    (release o out waiting).held.Perm (held ⟨out, waiting⟩) := by
  fun_induction release o out waiting with
  | case1 out top rest _ ih => exact ih.trans (held_op top out rest)
  | case2 => exact .refl _
  | case3 => exact .refl _

theorem close?_held (h : close? out waiting = some b) : b.held.Perm (held ⟨out, waiting⟩) := by
  fun_induction close? out waiting with
  | case1 out o rest ih => exact (ih h).trans (held_op o out rest)
  | case2 out rest =>
    obtain rfl := Option.some.inj h
    simp
  | case3 => exact absurd h (by simp)

theorem drain?_held (h : drain? out waiting = some ts) : ts.Perm (held ⟨out, waiting⟩) := by
  fun_induction drain? out waiting with
  | case1 out o rest ih => exact (ih h).trans (held_op o out rest)
  | case2 => exact absurd h (by simp)
  | case3 out =>
    obtain rfl := Option.some.inj h
    simp [held]

/-- A step adds its token to those held, unless it is a parenthesis. -/
theorem step_held (h : step line a t = .ok b) :
    b.held.Perm ((if t.isInstruction then [t] else []) ++ a.held) := by
  cases t with
  | number x | reference name modifier =>
    obtain rfl := Except.ok.inj h
    simp [held, Token.isInstruction]
  | op o =>
    obtain rfl := Except.ok.inj h
    have hrelease := (release_held o a.out a.waiting).cons (.op o)
    refine List.Perm.trans ?_ hrelease
    exact (held_op o _ _).symm
  | leftParen =>
    obtain rfl := Except.ok.inj h
    simp [Token.isInstruction]
  | rightParen =>
    simp only [step] at h
    split at h
    · next c hclose =>
      obtain rfl := Except.ok.inj h
      exact close?_held hclose
    · exact absurd h (by simp)
  | rule r => exact absurd h (by simp [step])

theorem run_held (h : ts.foldlM (step line) a = .ok b) :
    b.held.Perm (ts.filter Token.isInstruction ++ a.held) := by
  induction ts generalizing a with
  | nil =>
    obtain rfl := Except.ok.inj h
    exact .refl _
  | cons t ts ih =>
    rw [List.foldlM_cons, Outcome.bind_eq_ok] at h
    obtain ⟨c, hstep, hrun⟩ := h
    refine (ih hrun).trans ?_
    refine ((step_held hstep).append_left _).trans ?_
    by_cases ht : t.isInstruction = true
    · rw [List.filter_cons_of_pos ht, if_pos ht]
      exact List.perm_middle
    · simp [List.filter_cons_of_neg ht, ht]

/-! ## Open parentheses -/

/-- The number of parentheses that wait to be closed. -/
def opens (waiting : List Waiting) : Nat := waiting.count .leftParen

@[simp] theorem opens_nil : opens [] = 0 := rfl

@[simp] theorem opens_op (o : Operator) (waiting : List Waiting) :
    opens (.op o :: waiting) = opens waiting := by simp [opens]

@[simp] theorem opens_leftParen (waiting : List Waiting) :
    opens (.leftParen :: waiting) = opens waiting + 1 := by simp [opens]

theorem release_opens (o : Operator) (out : List Token) (waiting : List Waiting) :
    opens (release o out waiting).waiting = opens waiting := by
  fun_induction release o out waiting with
  | case1 out top rest _ ih => simpa using ih
  | case2 => rfl
  | case3 => rfl

theorem close?_opens (h : close? out waiting = some b) : opens b.waiting + 1 = opens waiting := by
  fun_induction close? out waiting with
  | case1 out o rest ih => simpa using ih h
  | case2 out rest =>
    obtain rfl := Option.some.inj h
    simp
  | case3 => exact absurd h (by simp)

theorem drain?_opens (h : drain? out waiting = some ts) : opens waiting = 0 := by
  fun_induction drain? out waiting with
  | case1 out o rest ih => simpa using ih h
  | case2 => exact absurd h (by simp)
  | case3 => rfl

/-- A parenthesis opens or closes one, and every other token leaves their number alone. -/
theorem step_opens (h : step line a t = .ok b) :
    match t with
    | .leftParen => opens b.waiting = opens a.waiting + 1
    | .rightParen => opens b.waiting + 1 = opens a.waiting
    | _ => opens b.waiting = opens a.waiting := by
  cases t with
  | number x | reference name modifier | leftParen =>
    obtain rfl := Except.ok.inj h
    simp
  | op o =>
    obtain rfl := Except.ok.inj h
    simpa using release_opens o a.out a.waiting
  | rightParen =>
    simp only [step] at h
    split at h
    · next c hclose =>
      obtain rfl := Except.ok.inj h
      exact close?_opens hclose
    · exact absurd h (by simp)
  | rule r => exact absurd h (by simp [step])

end Arrangement

namespace Program

variable {line : String} {ts : List Token} {p : Program}

/-- A rearrangement that ends well has read all tokens and has drained what waited at their end. -/
theorem arrange_eq_ok_iff :
    arrange line ts = .ok p ↔ ∃ a, ts.foldlM (Arrangement.step line) ⟨[], []⟩ = .ok a ∧
      Arrangement.drain? a.out a.waiting = some p.reverse := by
  simp only [arrange, Outcome.bind_eq_ok]
  constructor
  · rintro ⟨a, hrun, h⟩
    refine ⟨a, hrun, ?_⟩
    split at h
    · next out hdrain =>
      obtain rfl := Except.ok.inj h
      simpa using hdrain
    · exact absurd h (by simp)
  · rintro ⟨a, hrun, hdrain⟩
    exact ⟨a, hrun, by simp [hdrain]⟩

/-- A program compiles if it is the rearrangement of its expression and leaves a single value. -/
theorem compile_eq_ok_iff :
    compile line ts = .ok p ↔ arrange line ts = .ok p ∧ p.checkArity = .ok () := by
  simp only [compile, Outcome.bind_eq_ok]
  constructor
  · rintro ⟨q, hq, h⟩
    split at h
    · next harity =>
      obtain rfl := Except.ok.inj h
      exact ⟨hq, harity⟩
    · exact absurd h (by simp)
  · rintro ⟨hp, harity⟩
    exact ⟨p, hp, by simp [harity]⟩

/-- A program consists of the tokens of its expression but the parentheses. -/
theorem arrange_perm (h : arrange line ts = .ok p) : p.Perm (ts.filter Token.isInstruction) := by
  obtain ⟨a, hrun, hdrain⟩ := arrange_eq_ok_iff.1 h
  have hheld := Arrangement.drain?_held hdrain
  have hall := Arrangement.run_held hrun
  refine p.reverse_perm.symm.trans (hheld.trans ?_)
  simpa [Arrangement.held] using hall

theorem depth_eq_one_of_checkArity (h : p.checkArity = .ok ()) :
    p.depth = .ok 1 := by
  unfold checkArity at h
  split at h
  · exact absurd h (by simp)
  · exact absurd h (by simp)
  · assumption
  · exact absurd h (by simp)

theorem isInstruction_of_compile (h : compile line ts = .ok p) :
    ∀ t ∈ p, t.isInstruction = true := by
  intro t ht
  have hperm := arrange_perm (compile_eq_ok_iff.1 h).1
  exact (List.mem_filter.1 (hperm.mem_iff.1 ht)).2

end Program

end TrafficCheck

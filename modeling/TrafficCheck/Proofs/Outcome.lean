import Mathlib.Data.List.Forall2

/-!
# Outcomes

Laws of computations that end in a value or an error: how a sequence of them goes on, which steps a
run over a list has made, and in which error it ends.
-/

namespace TrafficCheck.Outcome

variable {α β γ ε ε' : Type}

@[simp] theorem pure_eq (a : α) : (pure a : Except ε α) = .ok a := rfl

@[simp] theorem ok_bind (a : α) (f : α → Except ε β) : (Except.ok a >>= f) = f a := rfl

@[simp] theorem error_bind (e : ε) (f : α → Except ε β) :
    ((Except.error e : Except ε α) >>= f) = .error e := rfl

@[simp] theorem throw_eq (e : ε) : (throw e : Except ε α) = .error e := rfl

@[simp] theorem mapError_ok (f : ε → ε') (a : α) : (Except.ok a).mapError f = .ok a := rfl

@[simp] theorem mapError_error (f : ε → ε') (e : ε) :
    (Except.error e : Except ε α).mapError f = .error (f e) := rfl

@[simp] theorem map_ok (f : α → β) (a : α) : (Except.ok a : Except ε α).map f = .ok (f a) := rfl

@[simp] theorem map_error (f : α → β) (e : ε) :
    (Except.error e : Except ε α).map f = .error e := rfl

/-- A sequence ends in a value if both of its parts do. -/
theorem bind_eq_ok {x : Except ε α} {f : α → Except ε β} {b : β} :
    (x >>= f) = .ok b ↔ ∃ a, x = .ok a ∧ f a = .ok b := by
  cases x <;> simp

theorem mapError_eq_ok_iff {f : ε → ε'} {x : Except ε α} {a : α} :
    x.mapError f = .ok a ↔ x = .ok a := by
  cases x <;> simp

theorem mapError_eq_error_iff {f : ε → ε'} {x : Except ε α} {e : ε'} :
    x.mapError f = .error e ↔ ∃ cause, x = .error cause ∧ e = f cause := by
  cases x <;> simp [eq_comm]

theorem toOption_eq_some_iff {x : Except ε α} {a : α} : x.toOption = some a ↔ x = .ok a := by
  cases x <;> simp [Except.toOption]

/-- A run that ends in a value has made every one of its steps. -/
theorem step_of_foldlM {f : β → α → Except ε β} {l : List α} {b b' : β} {a : α}
    (h : l.foldlM f b = .ok b') (ha : a ∈ l) : ∃ c c', f c a = .ok c' := by
  induction l generalizing b with
  | nil => exact absurd ha (by simp)
  | cons x l ih =>
    rw [List.foldlM_cons, bind_eq_ok] at h
    obtain ⟨c, hc, hl⟩ := h
    rcases List.mem_cons.1 ha with rfl | ha
    · exact ⟨b, c, hc⟩
    · exact ih hl ha

/-- A value in the result of a run over a list comes from one of its elements. -/
theorem exists_of_mem_mapM {f : α → Except ε β} {l : List α} {l' : List β} {b : β}
    (h : l.mapM f = .ok l') (hb : b ∈ l') : ∃ a ∈ l, f a = .ok b := by
  induction l generalizing l' with
  | nil =>
    obtain rfl := Except.ok.inj h
    exact absurd hb (by simp)
  | cons a l ih =>
    simp only [List.mapM_cons, bind_eq_ok, pure_eq, Except.ok.injEq] at h
    obtain ⟨c, hc, rest, hrest, rfl⟩ := h
    rcases List.mem_cons.1 hb with rfl | hb
    · exact ⟨a, by simp, hc⟩
    · obtain ⟨a', ha', hb'⟩ := ih hrest hb
      exact ⟨a', by simp [ha'], hb'⟩

/-- A run over a list ends in values just if each of its steps ends in one of them, in order. -/
theorem mapM_eq_ok_iff {f : α → Except ε β} {l : List α} {l' : List β} :
    l.mapM f = .ok l' ↔ List.Forall₂ (fun a b => f a = .ok b) l l' := by
  induction l generalizing l' with
  | nil => simp [eq_comm]
  | cons a l ih =>
    simp only [List.mapM_cons, bind_eq_ok, pure_eq, Except.ok.injEq, List.forall₂_cons_left_iff, ih,
      eq_comm (b := l')]
    grind

/-- A run that replaces the value of every step replaces the values in its result. -/
theorem mapM_map (f : α → Except ε β) (g : β → γ) (l : List α) :
    l.mapM (fun a => (f a).map g) = (l.mapM f).map (List.map g) := by
  induction l with
  | nil => rfl
  | cons a l ih =>
    rw [List.mapM_cons, List.mapM_cons, ih]
    cases f a with
    | error e => rfl
    | ok b => cases l.mapM f <;> rfl

/-- Elements whose value is left out of the result may be left out before the run. -/
theorem map_filter_mapM {f : α → Except ε β} {p : α → Bool} {q : β → Bool} {l : List α}
    (h : ∀ a ∈ l, p a = false → ∃ b, f a = .ok b ∧ q b = false) :
    (l.mapM f).map (List.filter q) = ((l.filter p).mapM f).map (List.filter q) := by
  have hcons : ∀ (b : β) (x : Except ε (List β)),
      (x >>= fun bs => pure (b :: bs)).map (List.filter q) =
        (x.map (List.filter q)).map fun bs => if q b then b :: bs else bs := by
    intro b x
    cases x with
    | error e => rfl
    | ok bs => simp [List.filter_cons]
  induction l with
  | nil => rfl
  | cons a l ih =>
    have hrest := ih fun b hb => h b (by simp [hb])
    cases hp : p a with
    | true =>
      rw [List.filter_cons_of_pos hp, List.mapM_cons, List.mapM_cons]
      cases f a with
      | error e => rfl
      | ok b => rw [ok_bind, ok_bind, hcons, hcons, hrest]
    | false =>
      obtain ⟨b, hb, hq⟩ := h a (by simp) hp
      rw [List.filter_cons_of_neg (by simp [hp]), List.mapM_cons, hb, ok_bind, hcons, hrest]
      cases (l.filter p).mapM f <;> simp [hq]

/-! ## Errors -/

/-- The error that a computation ends in, if it does not end in a value. -/
def error? : Except ε α → Option ε
  | .ok _ => none
  | .error e => some e

@[simp] theorem error?_ok (a : α) : error? (.ok a : Except ε α) = none := rfl

@[simp] theorem error?_error (e : ε) : error? (.error e : Except ε α) = some e := rfl

theorem error?_eq_some_iff {x : Except ε α} {e : ε} : error? x = some e ↔ x = .error e := by
  cases x <;> simp

theorem error?_eq_none_iff {x : Except ε α} : error? x = none ↔ ∃ a, x = .ok a := by
  cases x <;> simp

/-- A sequence ends in the error of its first part, or else in that of its second part. -/
theorem error?_bind {x : Except ε α} {f : α → Except ε β} {r : Option ε}
    (hf : ∀ a, error? (f a) = r) : error? (x >>= f) = (error? x).or r := by
  cases x with
  | ok a => exact hf a
  | error e => rfl

theorem error?_bind_pure (x : Except ε α) (f : α → β) :
    error? (x >>= fun a => pure (f a)) = error? x := by
  cases x <;> rfl

/-- Where the error of a step does not depend on what was done before, a run ends in the first error
of a step. -/
theorem error?_foldlM {f : β → α → Except ε β} {g : α → Option ε} {l : List α}
    (hstep : ∀ b, ∀ a ∈ l, error? (f b a) = g a) (b : β) :
    error? (l.foldlM f b) = l.findSome? g := by
  induction l generalizing b with
  | nil => rfl
  | cons a l ih =>
    have hrest := ih fun b c hc => hstep b c (by simp [hc])
    rw [List.foldlM_cons, error?_bind hrest, hstep b a (by simp), List.findSome?_cons]
    cases g a <;> rfl

theorem error?_mapM (f : α → Except ε β) (l : List α) :
    error? (l.mapM f) = l.findSome? fun a => error? (f a) := by
  induction l with
  | nil => rfl
  | cons a l ih =>
    have hrest : ∀ b, error? (l.mapM f >>= fun bs => pure (b :: bs)) =
        l.findSome? fun a => error? (f a) := by
      intro b
      rw [error?_bind_pure, ih]
    rw [List.mapM_cons, error?_bind hrest, List.findSome?_cons]
    cases error? (f a) <;> rfl

/-- A run over a list ends in an error just if a step does behind steps that end in values. -/
theorem mapM_eq_error_iff {f : α → Except ε β} {l : List α} {e : ε} :
    l.mapM f = .error e ↔ ∃ before a after, l = before ++ a :: after ∧
      (∀ b ∈ before, ∃ c, f b = .ok c) ∧ f a = .error e := by
  rw [← error?_eq_some_iff, error?_mapM, List.findSome?_eq_some_iff]
  simp only [error?_eq_some_iff, error?_eq_none_iff]
  grind

/-! ## Runs that take the same steps -/

section Congruence

variable {m : Type → Type} [Monad m]

/-- Runs over a list agree if their steps do so on its elements. -/
theorem foldlM_congr {f g : β → α → m β} {l : List α} (h : ∀ b, ∀ a ∈ l, f b a = g b a) (b : β) :
    l.foldlM f b = l.foldlM g b := by
  induction l generalizing b with
  | nil => rfl
  | cons a l ih =>
    rw [List.foldlM_cons, List.foldlM_cons, h b a (by simp)]
    exact bind_congr fun c => ih (fun b a ha => h b a (by simp [ha])) c

theorem mapM_congr [LawfulMonad m] {f g : α → m β} {l : List α} (h : ∀ a ∈ l, f a = g a) :
    l.mapM f = l.mapM g := by
  induction l with
  | nil => rfl
  | cons a l ih =>
    rw [List.mapM_cons, List.mapM_cons, h a (by simp), ih fun b hb => h b (by simp [hb])]

end Congruence

end TrafficCheck.Outcome

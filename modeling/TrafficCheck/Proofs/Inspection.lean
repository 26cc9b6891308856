import TrafficCheck.Inspection
import TrafficCheck.Proofs.Outcome

/-!
# Laws of inspections

The disk of a scene may change whenever something is told, be it nothing, so that inspections do not
satisfy all laws of a monad. The laws here are those of replacing the value that an inspection ends
in.

## Main definitions

* `Inspection.resume`: how an inspection goes on behind its first part.

## Main statements

* `Inspection.map_bind`, `Inspection.bind_map_left`: replacing the value at the end of a sequence
  and between its parts.
-/

namespace TrafficCheck.Inspection

variable {ε α β γ : Type}

/-- How an inspection goes on behind its first part, from the scene on which that one started. -/
def resume (start : Scene) (k : α → Inspection ε β) (first : Logged (Except ε α)) :
    Logged (Except ε β) :=
  match first.value with
  | .ok a =>
    let last := (k a).run (start.after first.log)
    ⟨last.value, first.log ++ last.log⟩
  | .error e => ⟨.error e, first.log⟩

theorem run_bind (x : Inspection ε α) (k : α → Inspection ε β) (start : Scene) :
    (x >>= k).run start = resume start k (x.run start) := by
  rw [ExceptT.run_bind, resume]
  change Survey.bind x.run _ start = _
  unfold Survey.bind
  dsimp only [bind, Logged.bind]
  cases (x.run start).value with
  | error e => exact congrArg (Logged.mk _) (List.append_nil _)
  | ok a => rfl

/-- A sequence ends in a value if both of its parts do. -/
theorem value_run_bind_eq_ok {x : Inspection ε α} {k : α → Inspection ε β} {start : Scene} {b : β} :
    ((x >>= k).run start).value = .ok b ↔ ∃ a, (x.run start).value = .ok a ∧
      ((k a).run (start.after (x.run start).log)).value = .ok b := by
  rw [run_bind, resume]
  cases (x.run start).value <;> simp

theorem run_map (f : α → β) (x : Inspection ε α) (start : Scene) :
    (f <$> x).run start = ⟨(x.run start).value.map f, (x.run start).log⟩ := by
  change (x >>= fun a => pure (f a)).run start = _
  rw [run_bind, resume]
  cases (x.run start).value with
  | error e => rfl
  | ok a => exact congrArg (Logged.mk _) (List.append_nil _)

/-- Inspections that run alike on every scene are equal. -/
protected theorem ext {x y : Inspection ε α} (h : ∀ start : Scene, x.run start = y.run start) :
    x = y := funext h

protected theorem map_bind (f : β → γ) (x : Inspection ε α) (k : α → Inspection ε β) :
    f <$> (x >>= k) = x >>= fun a => f <$> k a := by
  refine Inspection.ext fun start => ?_
  rw [run_map, run_bind, run_bind, resume, resume]
  cases (x.run start).value with
  | error e => rfl
  | ok a => simp only [run_map]

protected theorem bind_map_left (f : α → β) (x : Inspection ε α) (k : β → Inspection ε γ) :
    (f <$> x) >>= k = x >>= fun a => k (f a) := by
  refine Inspection.ext fun start => ?_
  rw [run_bind, run_bind, run_map, resume, resume]
  cases (x.run start).value <;> rfl

@[simp] theorem map_pure_eq (f : α → β) (a : α) :
    f <$> (pure a : Inspection ε α) = pure (f a) := rfl

/-- Behind an error nothing is done any more. -/
@[simp] theorem throw_bind (e : ε) (k : α → Inspection ε β) :
    ((throw e : Inspection ε α) >>= k) = throw e :=
  Inspection.ext fun start => run_bind (throw e) k start

theorem map_read (f : α → β) (g : Disk → Except ε α) :
    f <$> read g = read fun d => (g d).map f :=
  Inspection.ext fun start => run_map f (read g) start

end TrafficCheck.Inspection

namespace TrafficCheck.Survey

/-- The value of a sequence is that of its second part on the scene that the first part leaves. -/
@[simp] theorem value_bind {α β : Type} (x : Survey α) (f : α → Survey β) (start : Scene) :
    ((x >>= f) start).value = (f (x start).value (start.after (x start).log)).value := rfl

end TrafficCheck.Survey

/-!
# Log records

What a check has to tell beside its result: records of a level and a message. `Logged` pairs a
value with the records of the computation that gave it, oldest first.

## Main statements

* `value_bind`, `log_bind`: the value of a sequence does not depend on any record, and its records
  are those of its parts in order.
-/

namespace TrafficCheck

/-- How grave a record is. -/
inductive Level where
  | error
  | warn
  | info
  | debug
  deriving DecidableEq, Repr

/-- The name of a level. -/
def Level.name : Level → String
  | .error => "ERROR"
  | .warn => "WARN"
  | .info => "INFO"
  | .debug => "DEBUG"

/-- One message of a check. -/
structure Record where
  level : Level
  message : String
  deriving DecidableEq, Repr

/-- A value and the records written on the way to it. -/
structure Logged (α : Type) where
  value : α
  log : List Record

namespace Logged

variable {α β : Type}

/-- The value without any record. -/
protected def pure (a : α) : Logged α := ⟨a, []⟩

/-- One computation after the other. -/
protected def bind (x : Logged α) (f : α → Logged β) : Logged β :=
  let y := f x.value
  ⟨y.value, x.log ++ y.log⟩

instance : Monad Logged where
  pure := Logged.pure
  bind := Logged.bind

@[simp] theorem value_pure (a : α) : (pure a : Logged α).value = a := rfl

@[simp] theorem log_pure (a : α) : (pure a : Logged α).log = [] := rfl

@[simp] theorem value_bind (x : Logged α) (f : α → Logged β) :
    (x >>= f).value = (f x.value).value := rfl

@[simp] theorem log_bind (x : Logged α) (f : α → Logged β) :
    (x >>= f).log = x.log ++ (f x.value).log := rfl

/-- A single record. -/
def note (level : Level) (message : String) : Logged Unit := ⟨(), [⟨level, message⟩]⟩

@[simp] theorem value_note (level : Level) (message : String) : (note level message).value = () :=
  rfl

@[simp] theorem log_note (level : Level) (message : String) :
    (note level message).log = [⟨level, message⟩] := rfl

/-- The given records in order. -/
def notes (records : List Record) : Logged Unit := ⟨(), records⟩

@[simp] theorem value_notes (records : List Record) : (notes records).value = () := rfl

@[simp] theorem log_notes (records : List Record) : (notes records).log = records := rfl

end Logged

/-- A logged computation that may fail; the records written before the failure are kept. -/
abbrev Attempt (ε α : Type) := ExceptT ε Logged α

namespace Attempt

variable {ε α : Type}

/-- The outcome of an attempt. -/
def outcome (x : Attempt ε α) : Except ε α := x.run.value

/-- The records of an attempt. -/
def log (x : Attempt ε α) : List Record := x.run.log

/-- An attempt with a given outcome and no record. -/
def of (r : Except ε α) : Attempt ε α := ExceptT.mk (pure r)

/-- A single record. -/
def note (level : Level) (message : String) : Attempt ε Unit :=
  ExceptT.lift (Logged.note level message)

/-- An attempt whose error is seen as another one. -/
def mapError {ε' : Type} (f : ε → ε') (x : Attempt ε α) : Attempt ε' α :=
  ExceptT.mk ((fun (r : Except ε α) => r.mapError f) <$> x.run)

end Attempt

end TrafficCheck

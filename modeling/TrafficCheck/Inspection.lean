import TrafficCheck.Disk
import TrafficCheck.Log

/-!
# Inspections

An inspection reads a disk and tells what it does. Its log may go to a file on that very disk, so
that what it reads later can be what it told before. Therefore it stands on a scene: a disk, and
what records do to it when they are told.

## Main definitions

* `Scene`: a disk that changes with the log; `Scene.still` is one that does not.
* `Survey`: a computation on a scene that tells records. `Inspection` is one that may fail.
* `Survey.look`, `Survey.tell`: one look at the disk, and records told without a look.

## Main statements

* `on_pure`, `on_bind`, `on_look`, `on_tell`: on a still scene every look sees the same disk, so
  that a survey is a sequence of logged computations on that disk.
-/

namespace TrafficCheck

/-- A disk, and what some records do to a disk when they are told. -/
structure Scene where
  disk : Disk
  effect : List Record → Disk → Disk

namespace Scene

/-- A disk that no record changes. -/
def still (d : Disk) : Scene := ⟨d, fun _ d => d⟩

/-- The scene behind some records. -/
def after (s : Scene) (told : List Record) : Scene := { s with disk := s.effect told s.disk }

@[simp] theorem disk_still (d : Disk) : (still d).disk = d := rfl

@[simp] theorem after_still (d : Disk) (told : List Record) :
    (still d).after told = still d := rfl

end Scene

/-- A computation that reads a scene and tells records. -/
def Survey (α : Type) := Scene → Logged α

namespace Survey

variable {α β : Type}

/-- The value without a look and without any record. -/
protected def pure (a : α) : Survey α := fun _ => pure a

/-- One survey after the other, which sees what the first one told. -/
protected def bind (x : Survey α) (f : α → Survey β) : Survey β := fun s => do
  let first := x s
  let a ← first
  f a (s.after first.log)

instance : Monad Survey where
  pure := Survey.pure
  bind := Survey.bind

/-- One look at the disk, and what is told of it. -/
def look (f : Disk → Logged α) : Survey α := fun s => f s.disk

/-- Records that are told without a look. -/
def tell (x : Logged α) : Survey α := fun _ => x

/-- A survey of a disk that no record changes. -/
def on (x : Survey α) (d : Disk) : Logged α := x (.still d)

@[simp] theorem on_pure (a : α) (d : Disk) : (pure a : Survey α).on d = pure a := rfl

@[simp] theorem on_bind (x : Survey α) (f : α → Survey β) (d : Disk) :
    (x >>= f).on d = x.on d >>= fun a => (f a).on d := rfl

@[simp] theorem on_look (f : Disk → Logged α) (d : Disk) : (look f).on d = f d := rfl

@[simp] theorem on_tell (x : Logged α) (d : Disk) : (tell x).on d = x := rfl

end Survey

/-- A survey that may fail. -/
abbrev Inspection (ε α : Type) := ExceptT ε Survey α

namespace Inspection

variable {ε α : Type}

/-- One look at the disk, and what is told of it before it may fail. -/
def look (f : Disk → Attempt ε α) : Inspection ε α :=
  ExceptT.mk (Survey.look fun d => (f d).run)

/-- One look at the disk that may fail. -/
def read (f : Disk → Except ε α) : Inspection ε α := look fun d => Attempt.of (f d)

/-- Records that are told without a look. -/
def tell (x : Logged α) : Inspection ε α := ExceptT.lift (Survey.tell x)

/-- A single record. -/
def note (level : Level) (message : String) : Inspection ε Unit := tell (Logged.note level message)

/-- An outcome that needs neither a look nor a record. -/
def of (r : Except ε α) : Inspection ε α := ExceptT.mk (pure r)

/-- An inspection whose error is seen as another one. -/
def mapError {ε' : Type} (f : ε → ε') (x : Inspection ε α) : Inspection ε' α :=
  ExceptT.mk ((fun (r : Except ε α) => r.mapError f) <$> x.run)

/-- An inspection of a disk that no record changes. -/
def on (x : Inspection ε α) (d : Disk) : Attempt ε α := ExceptT.mk (Survey.on x.run d)

@[simp] theorem on_look (f : Disk → Attempt ε α) (d : Disk) : (look f).on d = f d := rfl

end Inspection

end TrafficCheck

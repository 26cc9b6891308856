/-!
# Ports

A logical port is a role in a test: the first client port, say. A physical port is a numbered
socket of an appliance, which plays at most one such role.

## Main definitions

* `LogicalPort.label`, `LogicalPort.description`: the short and the long name of a role.
* `PhysicalPort`: ordered by number first and by appliance among equal numbers.
-/

namespace TrafficCheck

/-- The side of the traffic a port takes. -/
inductive PortKind where
  | client
  | server
  deriving DecidableEq, Repr

namespace PortKind

/-- The name of a kind. -/
def name : PortKind → String
  | .client => "client"
  | .server => "server"

/-- The kind of a given name. -/
def ofName? (name : String) : Option PortKind :=
  if name = "client" then some .client else if name = "server" then some .server else none

/-- The letter of a kind in counter references and labels. -/
def letter : PortKind → Char
  | .client => 'c'
  | .server => 's'

/-- The kind of a given letter. -/
def ofLetter? (c : Char) : Option PortKind :=
  if c = 'c' then some .client else if c = 's' then some .server else none

/-- The label of all ports of a kind. -/
def label : PortKind → String
  | .client => "cport"
  | .server => "sport"

@[simp] theorem ofName?_name (k : PortKind) : ofName? k.name = some k := by cases k <;> decide

@[simp] theorem ofLetter?_letter (k : PortKind) : ofLetter? k.letter = some k := by
  cases k <;> decide

end PortKind

/-- A role in a test; without a number it stands for any port of its kind. -/
structure LogicalPort where
  kind : PortKind
  number : Option UInt32
  deriving DecidableEq, Repr

namespace LogicalPort

/-- The short name, such as `cport1`. -/
def label (p : LogicalPort) : String :=
  match p.number with
  | some n => s!"{p.kind.label}{n.toNat}"
  | none => p.kind.label

/-- The long name, such as `client port 1`. -/
def description (p : LogicalPort) : String :=
  match p.number with
  | some n => s!"{p.kind.name} port {n.toNat}"
  | none => s!"any {p.kind.name} port"

end LogicalPort

/-- A socket of an appliance. -/
structure PhysicalPort where
  appliance : String
  number : UInt32
  deriving DecidableEq, Repr

namespace PhysicalPort

/-- The port as text, such as `10.0.0.1:3`. -/
def text (p : PhysicalPort) : String := s!"{p.appliance}:{p.number.toNat}"

instance : LT PhysicalPort :=
  ⟨fun p q => p.number < q.number ∨ p.number = q.number ∧ p.appliance < q.appliance⟩

theorem lt_iff {p q : PhysicalPort} :
    p < q ↔ p.number < q.number ∨ p.number = q.number ∧ p.appliance < q.appliance := Iff.rfl

instance : DecidableLT PhysicalPort := fun p q =>
  inferInstanceAs
    (Decidable (p.number < q.number ∨ p.number = q.number ∧ p.appliance < q.appliance))

instance : Trans (α := PhysicalPort) (· < ·) (· < ·) (· < ·) where
  trans {p q r} hpq hqr := by
    rw [lt_iff] at hpq hqr ⊢
    rcases hpq with h | ⟨h, h'⟩ <;> rcases hqr with k | ⟨k, k'⟩
    · exact .inl (Std.lt_trans h k)
    · exact .inl (k ▸ h)
    · exact .inl (h ▸ k)
    · exact .inr ⟨h.trans k, Std.lt_trans h' k'⟩

instance : Std.Trichotomous (α := PhysicalPort) (· < ·) where
  trichotomous p q hpq hqp := by
    rw [lt_iff] at hpq hqp
    have hn : p.number = q.number := by
      rcases Std.lt_trichotomy p.number q.number with h | h | h
      · exact absurd (.inl h) hpq
      · exact h
      · exact absurd (.inl h) hqp
    have ha : p.appliance = q.appliance := by
      rcases Std.lt_trichotomy p.appliance q.appliance with h | h | h
      · exact absurd (.inr ⟨hn, h⟩) hpq
      · exact h
      · exact absurd (.inr ⟨hn.symm, h⟩) hqp
    cases p; cases q; simp_all

instance : Std.Irrefl (α := PhysicalPort) (· < ·) where
  irrefl p hp := by
    rcases lt_iff.1 hp with h | ⟨-, h⟩
    · exact absurd h (Std.lt_irrefl)
    · exact absurd h (String.lt_irrefl p.appliance)

end PhysicalPort

end TrafficCheck

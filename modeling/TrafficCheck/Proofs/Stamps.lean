import Mathlib.Data.List.Lex
import Mathlib.Data.Prod.Lex
import TrafficCheck.Stamp

/-!
# The order of time stamps

Moments are ordered by their parts, the weightiest first, and this is a linear order: of two moments
that differ one is later.

## Main statements

* `Stamp.isLater_iff`: a moment is later than another one in this order.
-/

namespace TrafficCheck.Stamp

/-- The parts of a moment, the weightiest first. -/
def weighed (s : Stamp) : ℤ ×ₗ List ℕ := toLex (s.year, s.partsBehindYear)

theorem weighed_injective : Function.Injective weighed := by
  intro s t heq
  obtain ⟨hyear, hparts⟩ := Prod.mk.inj (toLex_inj.1 heq)
  cases s
  cases t
  simp_all [partsBehindYear]

instance : LinearOrder Stamp := LinearOrder.lift' weighed weighed_injective

variable {s t : Stamp}

theorem isLater_iff : s.isLater t = true ↔ t < s := by
  change _ ↔ weighed t < weighed s
  rw [weighed, weighed, Prod.Lex.toLex_lt_toLex, isLater]
  simp

end TrafficCheck.Stamp

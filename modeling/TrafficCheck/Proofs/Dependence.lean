import TrafficCheck.Proofs.Schedule
import TrafficCheck.Proofs.Verdict

/-!
# What a check depends on

A check reads a history through the values of its variables alone, and those only at the ticks that
its rule selects. Two histories that show the same values there are checked alike.

## Main statements

* `Topology.bind_congr`: bindings depend on the values of the variables.
* `Assertion.check_congr`: checks depend on the values at selected ticks.
-/

namespace TrafficCheck

/-! ## Bindings -/

namespace Topology

variable {t t' : Topology} {h h' : History} {tick tick' : Nat} {vs : Table String Variable}
  {v : Variable} {port : PhysicalPort}

theorem bindOn_congr (hv : v.value? h tick port = v.value? h' tick' port) (key : String)
    (bound : Table String Float) :
    v.bindOn h tick port key bound = v.bindOn h' tick' port key bound := by
  rw [Variable.bindOn, Variable.bindOn, hv]

section Mapping

variable (hmapping : t.mapping = t'.mapping)
include hmapping

/-- A shared value is read on the port that plays the role of its variable. -/
theorem bindShared_congr {e : String × Variable}
    (hv : ∀ role port, e.2.scope.role? = some role → t.mapping.physicalFor? role = some port →
      e.2.value? h tick port = e.2.value? h' tick' port) (bound : Table String Float) :
    t.bindShared h tick bound e = t'.bindShared h' tick' bound e := by
  unfold bindShared
  rw [← hmapping]
  split
  · rfl
  · next role hrole =>
    split
    · next port hport => exact bindOn_congr (hv role port hrole hport) e.1 bound
    · rfl

/-- On a port the variables that cover it are read. -/
theorem bindPort_congr (hv : ∀ v ∈ vs.values, v.scope.covers (t.mapping.logicalFor? port) = true →
      v.value? h tick port = v.value? h' tick' port) :
    t.bindPort h tick vs port = t'.bindPort h' tick' vs port := by
  unfold bindPort
  rw [← hmapping]
  refine congrArg (· >>= _) (Outcome.foldlM_congr ?_ _)
  intro bound e he
  split
  · next hcovers => rw [bindOn_congr (hv e.2 (List.mem_map_of_mem he) hcovers)]
  · rfl

end Mapping

/-- What is bound depends on the values of the variables on the ports alone. -/
theorem bind_congr
    (hv : ∀ v ∈ vs.values, ∀ port, v.value? h tick port = v.value? h' tick' port) :
    t.bind h tick vs = t.bind h' tick' vs := by
  have hshared : ∀ bound, ∀ e ∈ vs.entries,
      t.bindShared h tick bound e = t.bindShared h' tick' bound e := fun bound e he =>
    bindShared_congr rfl (fun _ port _ _ => hv e.2 (List.mem_map_of_mem he) port) bound
  have hport : ∀ port ∈ t.ports, t.bindPort h tick vs port = t.bindPort h' tick' vs port :=
    fun port _ => bindPort_congr rfl fun v hmem _ => hv v hmem port
  unfold bind
  rw [Outcome.foldlM_congr hshared, Outcome.mapM_congr hport]

end Topology

/-! ## Scans -/

namespace Window

variable {m : Type → Type} [Monad m] {len : Nat} {observe observe' : Nat → m TickResult}

theorem scan_congr {checkpoints : List (Nat × Bool)}
    (h : ∀ c ∈ checkpoints, observe c.1 = observe' c.1) :
    scan len observe checkpoints = scan len observe' checkpoints := by
  induction checkpoints with
  | nil => rfl
  | cons c rest ih =>
    rw [scan, scan, h c (by simp), ih fun d hd => h d (by simp [hd])]

/-- The verdict of a rule depends on the evaluations at the ticks it selects. -/
theorem run_congr {r : Rule} (h : ∀ tick, r.Selects len tick → observe tick = observe' tick) :
    run r len observe = run r len observe' := by
  rw [run, run, scan_congr fun c hc => h c.1 (Rule.mem_checkpoints_iff.1 hc).1]

end Window

/-! ## Checks -/

namespace Assertion

variable {a : Assertion} {t t' : Topology} {h h' : History}

/-- Runs of one length in which an assertion is evaluated alike at every tick that its rule selects
are checked alike, down to the records and the error. -/
theorem check_congr_of_observe (hsize : h.size = h'.size)
    (hobserve : ∀ tick, a.rule.Selects h.size tick → a.observe t h tick = a.observe t' h' tick) :
    a.check t h = a.check t' h' := by
  rw [check, check, verdict, verdict, ← hsize, Window.run_congr hobserve]

/-- So histories of one length are checked alike that show the variables of an assertion alike at
every tick its rule selects. -/
theorem check_congr (hsize : h.size = h'.size)
    (hv : ∀ tick, a.rule.Selects h.size tick → ∀ v ∈ a.inputs.values, ∀ port,
      v.value? h tick port = v.value? h' tick port) : a.check t h = a.check t h' := by
  refine check_congr_of_observe hsize fun tick htick => ?_
  rw [observe, observe, Topology.bind_congr (hv tick htick)]

end Assertion

end TrafficCheck

import Mathlib.Data.List.Basic
import TrafficCheck.Proofs.Dependence
import TrafficCheck.Proofs.Inspection
import TrafficCheck.Proofs.Loading
import TrafficCheck.Proofs.Tables
import TrafficCheck.Summary.Directory

/-!
# Retained counters

Of the summary files only those counters are retained that active assertions read. Every port and
every tick stays, and so does every counter that an active assertion can ask for, so that neither
the catalog of the history nor a binding misses what was dropped.

## Main definitions

* `History.retain`: a history without the counters that were not asked for.
* `AssertionSet.Covers`: a set of names with all counters that active assertions read.
* `AssertionSet.judge`: an assertion set after it was validated and checked on a history.

## Main statements

* `History.assemble_retain`, `Summary.loadHistory_retain`: the history of what is retained.
* `AssertionSet.Covers.judge_retain`: a history of covered counters judges like the whole one.
* `AssertionSet.retaining_changes_no_verdict`: retaining the referenced counters changes nothing.
-/

namespace TrafficCheck

/-- What follows a computation depends on what it makes of its value alone. -/
theorem Logged.bind_congr_value {α β : Type} {x : Logged α} {f g : α → Logged β}
    (h : f x.value = g x.value) : x >>= f = x >>= g :=
  congrArg (fun y => (⟨y.value, x.log ++ y.log⟩ : Logged β)) h

variable {counters : NameSet} {counter : String}

namespace Summary

@[simp] theorem retain_empty (counters : NameSet) : retain counters .empty = .empty := by
  unfold retain
  split <;> rfl

/-- A counter that is asked for is retained with its value. -/
theorem get?_retain (hcounter : counters.contains counter = true) (snapshot : Counters) :
    (retain counters snapshot).get? counter = snapshot.get? counter := by
  unfold retain
  split
  · rfl
  · rw [Table.get?_restrict, if_pos hcounter]

theorem contains_retain (hcounter : counters.contains counter = true) (snapshot : Counters) :
    (retain counters snapshot).contains counter = snapshot.contains counter := by
  rw [Table.contains, Table.contains, get?_retain hcounter]

end Summary

/-! ## Histories -/

namespace Stream

/-- The stream of a port without the counters that were not asked for. -/
def retain (counters : NameSet) (s : Stream) : Stream :=
  ⟨s.port, s.snapshots.map (Summary.retain counters)⟩

theorem atTick_retain (counters : NameSet) (s : Stream) (tick : Nat) :
    (s.retain counters).atTick tick = Summary.retain counters (s.atTick tick) := by
  simp only [atTick, retain, Array.getElem?_map]
  cases s.snapshots[tick - 1]? <;> simp

theorem final_retain (counters : NameSet) (s : Stream) :
    (s.retain counters).final = Summary.retain counters s.final := by
  simp only [final, retain, Array.back?_map]
  cases s.snapshots.back? <;> simp

end Stream

namespace History

/-- A history without the counters that were not asked for. -/
def retain (counters : NameSet) (h : History) : History :=
  ⟨h.samples.map (Table.mapValues (Summary.retain counters))⟩

@[simp] theorem size_retain (counters : NameSet) (h : History) :
    (h.retain counters).size = h.size := by
  simp [size, retain]

theorem longest_retain (counters : NameSet) (streams : List Stream) :
    longest (streams.map (Stream.retain counters)) = longest streams := by
  simp [longest, List.foldl_map, Stream.retain]

/-- Streams of retained counters make up the history of retained counters. -/
theorem assemble_retain (counters : NameSet) (streams : List Stream) :
    assemble (streams.map (Stream.retain counters)) = (assemble streams).retain counters := by
  -- The final sample and the forward ones differ in the snapshot that they take of each port.
  have hsample : ∀ snapshot : Stream → Counters,
      (∀ s : Stream, snapshot (s.retain counters) = Summary.retain counters (snapshot s)) →
      Table.ofList ((streams.map (Stream.retain counters)).map fun s => (s.port, snapshot s)) =
        (Table.ofList (streams.map fun s => (s.port, snapshot s))).mapValues
          (Summary.retain counters) := by
    intro snapshot hsnapshot
    rw [← Table.ofList_map, List.map_map, List.map_map]
    refine congrArg Table.ofList (List.map_congr_left fun s _ => ?_)
    exact Prod.ext rfl (hsnapshot s)
  have hfinal := hsample Stream.final (Stream.final_retain counters)
  have hforward := fun tick => hsample (·.atTick tick) fun s => Stream.atTick_retain counters s tick
  rw [assemble, assemble, retain, longest_retain, List.map_toArray, List.map_map, History.mk.injEq]
  refine congrArg List.toArray (List.map_congr_left fun tick _ => ?_)
  by_cases htick : tick = 0
  · simpa [htick] using hfinal
  · simpa [htick] using hforward tick

/-! ## What histories show of retained counters -/

/-- The names in a history are those of the counters that some sample shows on some port. -/
theorem contains_counterNames_iff {h : History} : h.counterNames.contains counter = true ↔
    ∃ sample ∈ h.samples, ∃ shown ∈ sample.values, shown.contains counter = true := by
  have hempty : ¬(Table.empty : NameSet).contains counter = true := Bool.false_ne_true
  rw [counterNames, NameSet.contains_foldl_addAll, or_iff_right hempty]
  simp only [List.mem_flatMap, Array.mem_toList_iff, Table.mem_keys_iff]
  constructor
  · rintro ⟨shown, ⟨sample, hsample, hshown⟩, hcounter⟩
    exact ⟨sample, hsample, shown, hshown, hcounter⟩
  · rintro ⟨sample, hsample, shown, hshown, hcounter⟩
    exact ⟨shown, ⟨sample, hsample, hshown⟩, hcounter⟩

section Retained

variable (hcounter : counters.contains counter = true) (h : History)
include hcounter

theorem value?_retain (tick : Nat) (port : PhysicalPort) :
    (h.retain counters).value? tick port counter = h.value? tick port counter := by
  rw [value?, value?, retain, Array.getElem?_map]
  cases h.samples[tick]? with
  | none => rfl
  | some sample => simp [Option.map_map, Function.comp_def, Summary.get?_retain hcounter]

theorem windowed?_retain (tick : Nat) (port : PhysicalPort) (window : Nat) :
    (h.retain counters).windowed? tick port counter window =
      h.windowed? tick port counter window := by
  simp only [windowed?, value?_retain hcounter]

theorem contains_counterNames_retain :
    (h.retain counters).counterNames.contains counter = h.counterNames.contains counter := by
  rw [Bool.eq_iff_iff, contains_counterNames_iff, contains_counterNames_iff]
  simp [retain, Summary.contains_retain hcounter]

end Retained

end History

theorem Variable.value?_retain {v : Variable} (hv : counters.contains v.counter = true)
    (h : History) (tick : Nat) (port : PhysicalPort) :
    v.value? (h.retain counters) tick port = v.value? h tick port := by
  unfold value?
  split
  · exact History.windowed?_retain hv h tick port _
  · exact History.value?_retain hv h tick port

/-! ## Validation and checks -/

theorem Assertion.not_isActive_ignore (a : Assertion) (reason : String) :
    ¬(a.ignore reason).isActive = true := by
  unfold ignore
  split <;> simp_all [isActive]

namespace AssertionSet

variable {s : AssertionSet} {c c' : Catalog} {t : Topology} {h h' : History} {a : Assertion}
  {as : List Assertion}

theorem validateOne_of_not_active (ha : ¬a.isActive = true) (c : Catalog) :
    validateOne c a = a := by
  unfold validateOne Assertion.ignore
  split <;> simp [ha]

/-- An assertion that is active after validation is as it was before. -/
theorem validateOne_of_active (hactive : (validateOne c a).isActive = true) :
    validateOne c a = a := by
  unfold validateOne at hactive ⊢
  split
  · rfl
  · next hunknown =>
    split at hactive
    · contradiction
    · exact absurd hactive (Assertion.not_isActive_ignore a _)

/-- Validation depends on what a catalog knows of the counters of active assertions. -/
theorem validate_congr (hknown : ∀ a ∈ s.assertions, a.isActive = true →
    unknownCounters c a = unknownCounters c' a) : s.validate c = s.validate c' := by
  have hinvalid : s.invalid c = s.invalid c' := by
    refine List.filter_congr fun a ha => ?_
    by_cases hactive : a.isActive = true
    · rw [hknown a ha hactive]
    · simp [hactive]
  have hunknown : (s.invalid c').flatMap (unknownCounters c) =
      (s.invalid c').flatMap (unknownCounters c') := by
    refine List.flatMap_congr fun a ha => ?_
    simp only [invalid, List.mem_filter, Bool.and_eq_true] at ha
    exact hknown a ha.1 ha.2.1
  have hassertions : s.assertions.map (validateOne c) = s.assertions.map (validateOne c') := by
    refine List.map_congr_left fun a ha => ?_
    -- Of other assertions the catalogs may know different counters, but they stay as they are.
    by_cases hactive : a.isActive = true
    · rw [validateOne, validateOne, hknown a ha hactive]
    · rw [validateOne_of_not_active hactive, validateOne_of_not_active hactive]
  rw [validate, validate, hinvalid, hunknown, hassertions]

theorem checkEach_congr (hcheck : ∀ a ∈ as, a.check t h = a.check t h') :
    checkEach t h as = checkEach t h' as := by
  induction as with
  | nil => rfl
  | cons a rest ih =>
    rw [checkEach, checkEach, hcheck a (by simp), ih fun b hb => hcheck b (by simp [hb])]

/-- The set after it was validated against the counters of a history and checked on it, how many
assertions the validation ignored, and the error that ended the check early, if any. -/
def judge (s : AssertionSet) (t : Topology) (h : History) :
    Logged (AssertionSet × Nat × Except AssertionError Unit) := do
  let valid ← s.validate (.ofHistory h)
  let checked ← valid.1.check t h
  return (checked.1, valid.2, checked.2)

/-! ## Covered counters -/

/-- Some names cover a set if all counters that its active assertions read are among them. -/
def Covers (counters : NameSet) (s : AssertionSet) : Prop :=
  ∀ a ∈ s.assertions, a.isActive = true → ∀ v ∈ a.inputs.values,
    counters.contains v.counter = true

/-- The referenced counters are those that active assertions read. -/
theorem contains_referencedCounters : s.referencedCounters.contains counter = true ↔
    ∃ a ∈ s.assertions, a.isActive = true ∧ ∃ v ∈ a.inputs.values, v.counter = counter := by
  rw [referencedCounters, NameSet.contains_foldl_addAll]
  simp [Table.contains, Assertion.counters, NameSet.mem_keys_ofNames, and_assoc]

theorem covers_referencedCounters (s : AssertionSet) : Covers s.referencedCounters s :=
  fun a ha hactive v hv => contains_referencedCounters.2 ⟨a, ha, hactive, v, hv, rfl⟩

namespace Covers

variable (hcovers : Covers counters s)
include hcovers

theorem unknownCounters_eq (h : History) (ha : a ∈ s.assertions) (hactive : a.isActive = true) :
    unknownCounters (.ofHistory (h.retain counters)) a = unknownCounters (.ofHistory h) a := by
  refine List.filter_congr fun counter hcounter => ?_
  rw [Assertion.counters, NameSet.mem_keys_ofNames, List.mem_map] at hcounter
  obtain ⟨v, hv, rfl⟩ := hcounter
  simp [Catalog.ofHistory, Catalog.ofNames,
    History.contains_counterNames_retain (hcovers a ha hactive v hv)]

theorem validate_eq (h : History) :
    s.validate (.ofHistory (h.retain counters)) = s.validate (.ofHistory h) :=
  validate_congr fun _ ha hactive => hcovers.unknownCounters_eq h ha hactive

/-- Validation activates nothing, so that the names cover what it leaves. -/
theorem validate (c : Catalog) : Covers counters (s.validate c).value.1 := by
  intro a ha hactive
  have hvalid : (s.validate c).value.1 = _ := apply_validate s c
  rw [hvalid] at ha
  obtain ⟨b, hb, rfl⟩ := List.mem_map.1 ha
  have heq := validateOne_of_active hactive
  rw [heq] at hactive ⊢
  exact hcovers b hb hactive

theorem check_eq (t : Topology) (h : History) : s.check t (h.retain counters) = s.check t h := by
  have hcheck : ∀ a ∈ s.assertions, a.check t (h.retain counters) = a.check t h := by
    intro a ha
    by_cases hactive : a.isActive = true
    · refine Assertion.check_congr (by simp) fun tick _ v hv port => ?_
      exact Variable.value?_retain (hcovers a ha hactive v hv) h tick port
    · rw [Assertion.check_of_not_active hactive, Assertion.check_of_not_active hactive]
  rw [check, check, checkEach_congr hcheck]

/-- On a history of covered counters a set is judged as on the whole history. -/
theorem judge_retain (t : Topology) (h : History) :
    s.judge t (h.retain counters) = s.judge t h := by
  have hvalid := hcovers.validate (.ofHistory h)
  rw [judge, judge, hcovers.validate_eq h]
  refine Logged.bind_congr_value ?_
  rw [hvalid.check_eq]

end Covers

end AssertionSet

/-! ## Reading summary files -/

namespace Summary

theorem snapshots_retain (file : Path) (counters : NameSet) (text : String) :
    snapshots file counters text =
      (snapshots file .empty text).map (List.map (retain counters)) := by
  rw [snapshots, snapshots, ← Outcome.mapM_map]
  refine Outcome.mapM_congr fun l _ => ?_
  cases snapshot? l.2 <;> rfl

theorem read_retain (d : Disk) (file : Path) (counters : NameSet) :
    read d file counters = (read d file .empty).map (List.map (retain counters)) := by
  rw [read, read]
  cases d.readText file with
  | error failure => rfl
  | ok text => exact snapshots_retain file counters text

theorem streams_retain (counters : NameSet) (seen : List PhysicalPort)
    (files : List (Path × SummaryName)) :
    streams counters seen files =
      List.map (Stream.retain counters) <$> streams .empty seen files := by
  induction files generalizing seen with
  | nil => rfl
  | cons entry rest ih =>
    obtain ⟨file, name⟩ := entry
    rw [streams, streams, Inspection.map_bind]
    refine congrArg _ (funext fun _ => ?_)
    by_cases hseen : seen.contains name.physical = true
    · simp only [if_pos hseen, Inspection.throw_bind]
      rfl
    · have hread : (Inspection.read fun d => read d file counters) =
          List.map (retain counters) <$> Inspection.read fun d => read d file .empty := by
        rw [Inspection.map_read]
        exact congrArg _ (funext fun d => read_retain d file counters)
      simp only [if_neg hseen, ih, hread, Inspection.map_bind, Inspection.bind_map_left,
        Inspection.map_pure_eq, List.map_cons, Stream.retain, List.map_toArray]

/-- What is loaded for some counters is the whole history without the other ones. -/
theorem loadHistory_retain (dir : Path) (counters : NameSet) :
    loadHistory dir counters = History.retain counters <$> loadHistory dir .empty := by
  rw [loadHistory, loadHistory, Inspection.map_bind]
  refine congrArg _ (funext fun found => ?_)
  by_cases hfound : found.isEmpty = true
  · simp only [if_pos hfound, Inspection.throw_bind]
    rfl
  · simp only [if_neg hfound, streams_retain counters, Inspection.map_bind,
      Inspection.bind_map_left, Inspection.map_pure_eq, History.assemble_retain]

end Summary

/-- Retaining the counters that active assertions read changes neither what a set ends in nor what
is told of it: not for snapshots of which the other counters are dropped, and not for summary files
that are read without them. -/
theorem AssertionSet.retaining_changes_no_verdict (s : AssertionSet) (t : Topology) :
    (∀ streams : List Stream,
      s.judge t (.assemble (streams.map (Stream.retain s.referencedCounters))) =
        s.judge t (.assemble streams)) ∧
    ∀ dir : Path,
      (Summary.loadHistory dir s.referencedCounters >>= fun h => Inspection.tell (s.judge t h)) =
        Summary.loadHistory dir .empty >>= fun h => Inspection.tell (s.judge t h) := by
  have hjudge := (covers_referencedCounters s).judge_retain t
  constructor
  · intro streams
    rw [History.assemble_retain, hjudge]
  · intro dir
    rw [Summary.loadHistory_retain, Inspection.bind_map_left]
    simp only [hjudge]

end TrafficCheck

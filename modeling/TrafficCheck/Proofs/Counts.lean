import Mathlib
import TrafficCheck.Proofs.Loading

/-!
# Counts of the statistics

The statistics have an entry for each load and count under it all assertions with the file name of
that load. So an assertion counts as often as its file name was loaded, and the entries count every
assertion once just if each file that gave assertions was loaded under a name of its own.

## Main statements

* `AssertionSet.sum_map_statistics`: the sum of a number over the entries.
* `AssertionSet.map_filter_flatten`: what stands under the names of files that are apart.
* `AssertionSet.statistics_count_once_iff`: when the statistics count every assertion once.
-/

namespace TrafficCheck

/-! ## States -/

namespace Assertion

/-- Whether an assertion has failed. -/
def hasFailed (a : Assertion) : Bool :=
  match a.state with
  | .failed _ => true
  | _ => false

/-- Whether an assertion was ignored. -/
def wasIgnored (a : Assertion) : Bool :=
  match a.state with
  | .ignored _ => true
  | _ => false

/-- An assertion is in one of the three states. -/
theorem one_state (a : Assertion) :
    (if a.isActive = true then 1 else 0) + (if a.hasFailed = true then 1 else 0) +
      (if a.wasIgnored = true then 1 else 0) = 1 := by
  cases h : a.state <;> simp [isActive, hasFailed, wasIgnored, h]

end Assertion

namespace AssertionSet

/-! ## Sums over keys -/

section Sums

variable {α β : Type} [DecidableEq β] {xs : List α}

theorem sum_map_ite (p : α → Bool) (xs : List α) :
    (xs.map fun x => if p x then 1 else 0).sum = xs.countP p := by
  induction xs with
  | nil => rfl
  | cons x xs ih => rw [List.map_cons, List.sum_cons, ih, List.countP_cons, Nat.add_comm]

/-- Elements counted under every key count as often as their own key is among the keys. -/
theorem sum_map_countP_key (key : α → β) (keys : List β) (xs : List α) :
    (keys.map fun k => xs.countP fun x => key x = k).sum =
      (xs.map fun x => keys.count (key x)).sum := by
  induction keys with
  | nil => simp
  | cons k keys ih =>
    simp only [List.map_cons, List.sum_cons, ih, List.count_cons, List.sum_map_add, sum_map_ite]
    rw [Nat.add_comm]
    simp only [beq_eq_decide, eq_comm]

/-- Positive numbers sum to their quantity just if all of them are one. -/
theorem sum_map_eq_length_iff {f : α → Nat} (hf : ∀ x ∈ xs, 1 ≤ f x) :
    (xs.map f).sum = xs.length ↔ ∀ x ∈ xs, f x = 1 := by
  constructor
  · intro hsum x hx
    by_contra hne
    have hlt : (xs.map fun _ => 1).sum < (xs.map f).sum :=
      List.sum_lt_sum _ f hf ⟨x, hx, Nat.lt_of_le_of_ne (hf x hx) (Ne.symm hne)⟩
    simp [hsum] at hlt
  · intro h
    rw [List.map_congr_left h]
    simp

end Sums

/-! ## Entries -/

variable {ops : List Operation} {ls : List Load} {s : AssertionSet} {a : Assertion} {l : Load}
  {portions : List (List Assertion)} {portion : List Assertion}

/-- The entry of a file with the assertions `as`. Those that are still active passed. -/
def entry (file : String) (as : List Assertion) : FileStatistics where
  file := file
  passed := as.countP (·.isActive)
  failed := as.countP (·.hasFailed)
  ignored := as.countP (·.wasIgnored)

theorem tally_eq_entry (file : String) (as : List Assertion) : tally file as = entry file as := by
  rw [tally, entry, FileStatistics.mk.injEq]
  refine ⟨rfl, List.countP_congr fun a _ => ?_, List.countP_congr fun a _ => ?_,
    List.countP_congr fun a _ => ?_⟩
  all_goals
    cases h : a.state <;>
      simp [Assertion.outcome, Assertion.isActive, Assertion.hasFailed, Assertion.wasIgnored, h]

theorem total_entry (file : String) (as : List Assertion) : (entry file as).total = as.length := by
  induction as with
  | nil => rfl
  | cons a as ih =>
    have hone := a.one_state
    simp only [FileStatistics.total, entry, List.countP_cons, List.length_cons] at ih ⊢
    omega

theorem statistics_eq (s : AssertionSet) :
    s.statistics = s.files.map fun file =>
      entry file (s.assertions.filter fun a => a.file = file) := by
  simp only [statistics, tally_eq_entry]

/-- A number that an entry has for each of its assertions with `p` sums over the entries to one for
each such assertion and each load of its file name. -/
theorem sum_map_statistics {number : FileStatistics → Nat} {p : Assertion → Bool}
    (hnumber : ∀ file as, number (entry file as) = as.countP p) (s : AssertionSet) :
    (s.statistics.map number).sum =
      ((s.assertions.filter p).map fun a => s.files.count a.file).sum := by
  rw [← sum_map_countP_key Assertion.file, statistics_eq, List.map_map]
  congr 1
  refine List.map_congr_left fun file _ => ?_
  rw [Function.comp_apply, hnumber, List.countP_filter, List.countP_filter]
  simp only [Bool.and_comm]

/-! ## Loads under names of their own -/

/-- Each load that gave assertions is the only one under its name. -/
def Apart (ls : List Load) : Prop :=
  ∀ l ∈ ls, l.assertions ≠ [] → (ls.map (·.file)).count l.file = 1

theorem Apart.ne_of_mem (h : Apart (l :: ls)) {m : Load} (hm : m ∈ ls)
    (hassertions : l.assertions ≠ [] ∨ m.assertions ≠ []) : l.file ≠ m.file := by
  intro hfile
  have hpos : 0 < (ls.map (·.file)).count m.file :=
    List.count_pos_iff.2 (List.mem_map_of_mem hm)
  have hcount : ((l :: ls).map (·.file)).count m.file = 1 := by
    rcases hassertions with hl | hm'
    · rw [← hfile]
      exact h l (by simp) hl
    · exact h m (by simp [hm]) hm'
  rw [List.map_cons, List.count_cons, hfile] at hcount
  simp at hcount
  omega

theorem Apart.tail (h : Apart (l :: ls)) : Apart ls := by
  intro m hm hassertions
  have hcount := h m (by simp [hm]) hassertions
  have hne := h.ne_of_mem hm (.inr hassertions)
  rwa [List.map_cons, List.count_cons, if_neg (by simpa using hne), Nat.add_zero] at hcount

/-- Portions of loads whose assertions carry the file names of the loads. -/
def Contributed (ls : List Load) (portions : List (List Assertion)) : Prop :=
  List.Forall₂ (fun l portion => ∀ a ∈ portion, a.file = l.file ∧ l.assertions ≠ []) ls portions

theorem Contributed.exists_load (h : Contributed ls portions) (ha : a ∈ portions.flatten) :
    ∃ l ∈ ls, a.file = l.file ∧ l.assertions ≠ [] := by
  induction h with
  | nil => exact absurd ha (by simp)
  | cons hportion _ ih =>
    rcases List.mem_append.1 ha with ha | ha
    · exact ⟨_, by simp, hportion a ha⟩
    · obtain ⟨l, hl, h⟩ := ih ha
      exact ⟨l, by simp [hl], h⟩

/-- The portions of loads that are apart are what stands under their names. -/
theorem map_filter_flatten (h : Contributed ls portions) (hapart : Apart ls) :
    (ls.map fun l => portions.flatten.filter fun a => a.file = l.file) = portions := by
  induction h with
  | nil => rfl
  | @cons l portion ls portions hportion hrest ih =>
    have hown : portion.filter (fun a => a.file = l.file) = portion :=
      List.filter_eq_self.2 fun a ha => by simp [(hportion a ha).1]
    have hothers : portions.flatten.filter (fun a => a.file = l.file) = [] := by
      refine List.filter_eq_nil_iff.2 fun a ha => ?_
      obtain ⟨m, hm, hfile, hassertions⟩ := Contributed.exists_load hrest ha
      simpa [hfile] using (hapart.ne_of_mem hm (.inr hassertions)).symm
    have hforeign : ∀ m ∈ ls, portion.filter (fun a => a.file = m.file) = [] := by
      refine fun m hm => List.filter_eq_nil_iff.2 fun a ha => ?_
      obtain ⟨hfile, hassertions⟩ := hportion a ha
      simpa [hfile] using hapart.ne_of_mem hm (.inl hassertions)
    have htail : (ls.map fun m => (portion ++ portions.flatten).filter fun a => a.file = m.file) =
        portions := by
      rw [← ih hapart.tail]
      refine List.map_congr_left fun m hm => ?_
      rw [List.filter_append, hforeign m hm, List.nil_append, ih hapart.tail]
    rw [List.flatten_cons, List.map_cons, List.filter_append, hown, hothers, List.append_nil, htail]

/-! ## Sets that were loaded, validated and checked -/

theorem Portions.contributed (h : Portions (loads ops) s portions) :
    Contributed (loads ops) portions := by
  have hread : List.Forall₂ (fun l portion => l.assertions = portion.map Assertion.asRead)
      (loads ops) portions := by
    have heq : List.Forall₂ (· = ·) ((loads ops).map (·.assertions))
        (portions.map (·.map Assertion.asRead)) := by
      rw [List.forall₂_eq_eq_eq]
      exact h.map_asRead_eq.symm
    exact List.forall₂_map_right_iff.1 (List.forall₂_map_left_iff.1 heq)
  have hloads := (List.forall₂_and_left _ _).2 ⟨fun l (hl : l ∈ loads ops) => hl, hread⟩
  refine hloads.imp fun l portion ⟨hl, hportion⟩ a ha => ?_
  have hmem : a.asRead ∈ l.assertions := hportion ▸ List.mem_map_of_mem ha
  exact ⟨(file_and_asRead_of_mem_loads hl hmem).1, List.ne_nil_of_mem hmem⟩

theorem exists_load_of_mem_run (ha : a ∈ (empty.run ops).assertions) :
    ∃ l ∈ loads ops, a.file = l.file ∧ l.assertions ≠ [] := by
  obtain ⟨portions, hportions⟩ := exists_portions ops
  rw [← hportions.flatten_eq] at ha
  exact hportions.contributed.exists_load ha

/-- Loads are apart just if the file name of each assertion was loaded once. -/
theorem count_file_eq_one_iff :
    (∀ a ∈ (empty.run ops).assertions, (empty.run ops).files.count a.file = 1) ↔
      Apart (loads ops) := by
  have hfiles : (empty.run ops).files = (loads ops).map (·.file) := files_run empty ops
  rw [hfiles]
  constructor
  · intro h l hl hassertions
    obtain ⟨b, hb⟩ := List.exists_mem_of_ne_nil _ hassertions
    obtain ⟨a, ha, rfl⟩ := exists_mem_run_iff.2 ⟨l, hl, hb⟩
    rw [← (file_and_asRead_of_mem_loads hl hb).1]
    exact h a ha
  · intro h a ha
    obtain ⟨l, hl, hfile, hassertions⟩ := exists_load_of_mem_run ha
    rw [hfile]
    exact h l hl hassertions

theorem one_le_count_file (ha : a ∈ (empty.run ops).assertions) :
    1 ≤ (empty.run ops).files.count a.file := by
  obtain ⟨l, hl, hfile, -⟩ := exists_load_of_mem_run ha
  rw [files_run, hfile]
  exact List.count_pos_iff.2 (List.mem_append_right _ (List.mem_map_of_mem hl))

/-- Where loads are apart, a number sums over the entries to what it is of all assertions. -/
theorem sum_map_statistics_of_apart {number : FileStatistics → Nat} {p : Assertion → Bool}
    (hnumber : ∀ file as, number (entry file as) = as.countP p) (h : Apart (loads ops)) :
    ((empty.run ops).statistics.map number).sum = (empty.run ops).assertions.countP p := by
  rw [sum_map_statistics hnumber, List.countP_eq_length_filter, sum_map_eq_length_iff]
  · exact fun a ha => count_file_eq_one_iff.2 h a (List.mem_of_mem_filter ha)
  · exact fun a ha => one_le_count_file (List.mem_of_mem_filter ha)

/-- The totals sum to the number of assertions just if loads are apart. -/
theorem sum_total_eq_size_iff :
    ((empty.run ops).statistics.map (·.total)).sum = (empty.run ops).size ↔ Apart (loads ops) := by
  have htotal (file : String) (as : List Assertion) :
      (entry file as).total = as.countP fun _ => true := by
    rw [total_entry, List.countP_true]
  rw [sum_map_statistics htotal, List.filter_true, size, ← count_file_eq_one_iff]
  exact sum_map_eq_length_iff fun a ha => one_le_count_file ha

theorem statistics_of_apart (hportions : Portions (loads ops) (empty.run ops) portions)
    (h : Apart (loads ops)) :
    (empty.run ops).statistics =
      List.zipWith (fun l portion => entry l.file portion) (loads ops) portions := by
  have hfilter := map_filter_flatten hportions.contributed h
  rw [hportions.flatten_eq] at hfilter
  have hfiles : (empty.run ops).files = (loads ops).map (·.file) := files_run empty ops
  rw [statistics_eq, hfiles, List.map_map, ← hfilter, List.zipWith_map_right, List.zipWith_self]
  rfl

/-- The statistics of a set count every assertion once: in all, in each state, and under the load
that contributed it. -/
structure CountOnce (s : AssertionSet) (ls : List Load) (portions : List (List Assertion)) :
    Prop where
  total : (s.statistics.map (·.total)).sum = s.size
  passed : (s.statistics.map (·.passed)).sum = s.assertions.countP (·.isActive)
  failed : (s.statistics.map (·.failed)).sum = s.assertions.countP (·.hasFailed)
  ignored : (s.statistics.map (·.ignored)).sum = s.assertions.countP (·.wasIgnored)
  entries : s.statistics = List.zipWith (fun l portion => entry l.file portion) ls portions

/-- However texts are loaded, validated and checked, the statistics count every assertion once just
if each load that gave assertions is the only one under its name. -/
theorem statistics_count_once_iff (ops : List Operation) :
    ∃ portions, Portions (loads ops) (empty.run ops) portions ∧
      (CountOnce (empty.run ops) (loads ops) portions ↔ Apart (loads ops)) := by
  obtain ⟨portions, hportions⟩ := exists_portions ops
  refine ⟨portions, hportions, fun h => sum_total_eq_size_iff.1 h.total, fun h => ?_⟩
  exact
    { total := sum_total_eq_size_iff.2 h
      passed := sum_map_statistics_of_apart (fun _ _ => rfl) h
      failed := sum_map_statistics_of_apart (fun _ _ => rfl) h
      ignored := sum_map_statistics_of_apart (fun _ _ => rfl) h
      entries := statistics_of_apart hportions h }

/-- Two files of one name, each with one assertion, come to two entries with two assertions each. -/
theorem statistics_of_equal_names :
    let s := empty.run [.load "a.assertions" "LAST 1\n", .load "a.assertions" "LAST 2\n"]
    s.size = 2 ∧ s.statistics = [⟨"a.assertions", 2, 0, 0⟩, ⟨"a.assertions", 2, 0, 0⟩] ∧
      (s.statistics.map (·.total)).sum ≠ s.size := by
  decide +kernel

end AssertionSet

end TrafficCheck

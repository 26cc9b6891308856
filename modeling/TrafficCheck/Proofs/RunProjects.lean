import Mathlib.Data.List.Induction
import TrafficCheck.Proofs.Search
import TrafficCheck.Proofs.Verdict
import TrafficCheck.Run

/-!
# Projects of runs

A run checks the outermost projects below its directories, one directory after the other, and leaves
out what it has met before.

## Main statements

* `Run.withoutRepeats_eq`: which paths of a list are kept.
* `Run.outcome_projects`: the projects of a run.
* `Run.projects_outermost`: what a search finds and what a run checks.
-/

namespace TrafficCheck.Run

variable {d : Disk} {c : Config} {r : Run} {roots paths : List Path} {p : Path}

/-! ## Repetitions -/

theorem withoutRepeats_concat (paths : List Path) (p : Path) : withoutRepeats (paths ++ [p]) =
    if (withoutRepeats paths).contains p then withoutRepeats paths
    else withoutRepeats paths ++ [p] := by
  rw [withoutRepeats, List.foldl_append]
  rfl

theorem contains_withoutRepeats (paths : List Path) (p : Path) :
    (withoutRepeats paths).contains p = paths.contains p := by
  induction paths using List.reverseRecOn generalizing p with
  | nil => rfl
  | append_singleton paths q ih =>
    rw [withoutRepeats_concat]
    split
    next hq =>
      rw [ih] at hq
      rw [ih, List.contains_append]
      cases hsame : p == q with
      | true => rw [List.contains_congr hsame, hq, Bool.true_or]
      | false => simp [hsame]
    next => simp [ih]

/-- The paths of a list that are not the same as one before them. -/
def firstOccurrences (paths : List Path) : List Path :=
  (paths.zipIdx.filter fun e => !(paths.take e.2).contains e.1).map (·.1)

theorem withoutRepeats_eq (paths : List Path) : withoutRepeats paths = firstOccurrences paths := by
  unfold firstOccurrences
  induction paths using List.reverseRecOn with
  | nil => rfl
  | append_singleton paths p ih =>
    have hbefore : ∀ e ∈ paths.zipIdx, (!((paths ++ [p]).take e.2).contains e.1) =
        !(paths.take e.2).contains e.1 := by
      intro e he
      rw [List.take_append_of_le_length (Nat.le_of_lt (List.snd_lt_of_mem_zipIdx he))]
    rw [withoutRepeats_concat, contains_withoutRepeats, List.zipIdx_append, List.filter_append,
      List.filter_congr hbefore, List.map_append, ← ih]
    cases hp : paths.contains p <;> simp [hp]

/-- No two paths that are kept are the same. -/
theorem pairwise_withoutRepeats (paths : List Path) :
    (withoutRepeats paths).Pairwise fun p q => (p == q) = false := by
  induction paths using List.reverseRecOn with
  | nil => exact .nil
  | append_singleton paths p ih =>
    rw [withoutRepeats_concat]
    split
    next => exact ih
    next hp =>
      refine List.pairwise_append.2 ⟨ih, List.pairwise_singleton _ _, fun q hq other hother => ?_⟩
      obtain rfl := List.mem_singleton.1 hother
      rw [Bool.eq_false_iff]
      exact fun hsame => hp (List.contains_iff_exists_mem_beq.2 ⟨q, hq, BEq.symm hsame⟩)

theorem withoutRepeats_eq_nil_iff : withoutRepeats paths = [] ↔ paths = [] := by
  refine ⟨fun h => List.eq_nil_iff_forall_not_mem.2 fun p hp => ?_, fun h => by rw [h]; rfl⟩
  have hkept := contains_withoutRepeats paths p
  rw [h, List.contains_iff_exists_mem_beq.2 ⟨p, hp, BEq.rfl⟩] at hkept
  exact Bool.noConfusion hkept

/-! ## Projects -/

/-- Directories that cannot be told are another error than that there are no projects. -/
theorem outcome_roots_ne (d : Disk) (r : Run) : (r.roots d).outcome ≠ .error .noProjects := by
  unfold roots
  cases r.testList with
  | none => simp
  | some list =>
    rw [Attempt.outcome_bind, Project.listed]
    cases d.readText list with
    | error failure => simp [Attempt.outcome]
    | ok text =>
      change (Except.ok (r.folders ++ _) : Except ProjectError (List Path)) ≠ _
      simp

/-- The projects of a run are those below its directories without repetitions, if there are any. -/
theorem outcome_projects (d : Disk) (c : Config) (r : Run) : (r.projects d c).outcome =
    ((r.roots d).outcome >>= fun roots =>
      roots.mapM (Project.search d c (r.depth.getD c.maxDepth)) >>= fun founds =>
        if founds.flatten = [] then .error .noProjects
        else .ok (firstOccurrences founds.flatten)) := by
  rw [projects, Attempt.outcome_bind]
  refine bind_congr fun roots => ?_
  rw [Attempt.outcome_bind, Attempt.outcome_of]
  refine bind_congr fun founds => ?_
  rw [← withoutRepeats_eq]
  by_cases hempty : founds.flatten = []
  · rw [if_pos hempty, hempty]
    rfl
  · rw [if_neg hempty]
    have hkept : (withoutRepeats founds.flatten).isEmpty = false := by
      rw [List.isEmpty_eq_false_iff, Ne, withoutRepeats_eq_nil_iff]
      exact hempty
    dsimp only
    rw [hkept]
    rfl

theorem outcome_projects_eq_ok_iff {projects : List Path} :
    (r.projects d c).outcome = .ok projects ↔ ∃ roots founds,
      (r.roots d).outcome = .ok roots ∧
      List.Forall₂ (fun root found => Project.search d c (r.depth.getD c.maxDepth) root = .ok found)
        roots founds ∧
      founds.flatten ≠ [] ∧ projects = firstOccurrences founds.flatten := by
  rw [outcome_projects]
  simp only [Outcome.bind_eq_ok, Outcome.mapM_eq_ok_iff]
  constructor
  · rintro ⟨roots, hroots, founds, hfounds, hprojects⟩
    split at hprojects
    next => exact absurd hprojects (by simp)
    next hne => exact ⟨roots, founds, hroots, hfounds, hne, (Except.ok.inj hprojects).symm⟩
  · rintro ⟨roots, founds, hroots, hfounds, hne, rfl⟩
    exact ⟨roots, hroots, founds, hfounds, if_neg hne⟩

/-- A search ends in a value. -/
theorem exists_founds (d : Disk) (c : Config) (depth : Nat) (roots : List Path) : ∃ founds,
    roots.mapM (Project.search d c depth) = .ok founds := by
  have hsearch : ∀ root, ∃ found, Project.search d c depth root = .ok found := by
    intro root
    obtain ⟨trails, hfound, -⟩ := Project.exists_trails d c (min depth Project.deepestLevel) root
    exact ⟨_, hfound⟩
  choose found hfound using hsearch
  refine ⟨roots.map found, ?_⟩
  rw [Outcome.mapM_eq_ok_iff, List.forall₂_map_right_iff, List.forall₂_same]
  exact fun root _ => hfound root

theorem outcome_projects_eq_noProjects_iff : (r.projects d c).outcome = .error .noProjects ↔
    ∃ roots, (r.roots d).outcome = .ok roots ∧
      ∀ root ∈ roots, Project.search d c (r.depth.getD c.maxDepth) root = .ok [] := by
  rw [outcome_projects]
  cases hroots : (r.roots d).outcome with
  | error e =>
    have hne := outcome_roots_ne d r
    rw [hroots] at hne
    simpa using hne
  | ok roots =>
    obtain ⟨founds, hfounds⟩ := exists_founds d c (r.depth.getD c.maxDepth) roots
    rw [Outcome.ok_bind, hfounds, Outcome.ok_bind]
    rw [Outcome.mapM_eq_ok_iff] at hfounds
    simp only [Except.ok.injEq, exists_eq_left']
    have hempty : founds.flatten = [] ↔
        ∀ root ∈ roots, Project.search d c (r.depth.getD c.maxDepth) root = .ok [] := by
      clear hroots
      induction hfounds with
      | nil => simp
      | cons hroot hrest ih => simp [ih, hroot]
    rw [← hempty]
    by_cases h : founds.flatten = [] <;> simp [h]

/-- A search finds exactly the outermost projects down to the given number of levels or to level
256: the names that lead down to them ascend as a depth-first search with sorted entries meets them,
all of them are directories, and none of them is another one or lies inside it. A deeper search only
adds projects. A run checks what is found below its directories one after the other, without what is
the same as something before it, and there are no projects just if nothing is found below any of
them. -/
theorem projects_outermost (hd : d.WellNamed) (c : Config) :
    (∀ depth root, ∃ trails : List (List String),
      Project.search d c depth root = .ok (trails.map root.descend) ∧
      trails.Pairwise (· < ·) ∧
      (∀ trail, trail ∈ trails ↔ Project.IsOutermost d c root (min depth 256) trail) ∧
      (trails.map root.descend).Pairwise Path.Apart ∧
      (d.isDirectory root = true → ∀ p ∈ trails.map root.descend, d.isDirectory p = true)) ∧
    (∀ depth depth' root found found', depth ≤ depth' → Project.search d c depth root = .ok found →
      Project.search d c depth' root = .ok found' → found.Sublist found') ∧
    ∀ r : Run,
      (∀ projects, (r.projects d c).outcome = .ok projects ↔ ∃ roots founds,
        (r.roots d).outcome = .ok roots ∧
        List.Forall₂
          (fun root found => Project.search d c (r.depth.getD c.maxDepth) root = .ok found)
          roots founds ∧
        founds.flatten ≠ [] ∧ projects = firstOccurrences founds.flatten) ∧
      (∀ projects, (r.projects d c).outcome = .ok projects →
        projects.Pairwise fun p q => (p == q) = false) ∧
      ((r.projects d c).outcome = .error .noProjects ↔ ∃ roots, (r.roots d).outcome = .ok roots ∧
        ∀ root ∈ roots, Project.search d c (r.depth.getD c.maxDepth) root = .ok []) := by
  refine ⟨fun depth root => ?found, fun _ _ _ _ _ => Project.sublist_search,
    fun r => ⟨?ok, ?apart, ?none⟩⟩
  case found =>
    obtain ⟨trails, hfound, hascend, hmem⟩ := Project.exists_trails d c (min depth 256) root
    refine ⟨trails, hfound, hascend, hmem,
      Project.pairwise_apart hd hascend fun trail htrail => (hmem trail).1 htrail, fun hroot => ?_⟩
    exact List.forall_mem_map.2 fun trail htrail => ((hmem trail).1 htrail).leads.isDirectory hroot
  case ok => exact fun projects => outcome_projects_eq_ok_iff
  case apart =>
    intro projects hprojects
    obtain ⟨roots, founds, -, -, -, rfl⟩ := outcome_projects_eq_ok_iff.1 hprojects
    rw [← withoutRepeats_eq]
    exact pairwise_withoutRepeats _
  case none => exact outcome_projects_eq_noProjects_iff

/-- A tree with a project inside another one and one that lies deeper. -/
def nested : Disk :=
  let project : Entry := .directory [("topology.yaml", .file (.ok "ports: []"))]
  ⟨.directory [("t", .directory [
    ("second", project),
    ("outer", .directory [("inner", project), ("topology.yaml", .file (.ok "ports: []"))]),
    ("a", .directory [("b", .directory [("deep", project)])])])], []⟩

/-- What lies inside a project is not found, and a directory that is named twice adds nothing. -/
theorem projects_outermost_of_nested :
    nested.WellNamed ∧
    Project.search nested .standard 1 ⟨"t"⟩ = .ok [⟨"t/outer"⟩, ⟨"t/second"⟩] ∧
    Project.search nested .standard 3 ⟨"t"⟩ = .ok [⟨"t/a/b/deep"⟩, ⟨"t/outer"⟩, ⟨"t/second"⟩] ∧
    [⟨"t/outer"⟩, ⟨"t/second"⟩].Sublist [⟨"t/a/b/deep"⟩, ⟨"t/outer"⟩, (⟨"t/second"⟩ : Path)] ∧
    [⟨"t/a/b/deep"⟩, ⟨"t/outer"⟩, (⟨"t/second"⟩ : Path)].Pairwise Path.Apart ∧
    (projects nested .standard ⟨[⟨"t/outer"⟩, ⟨"t/outer/inner"⟩, ⟨"t"⟩], none, some 1⟩).outcome =
      .ok [⟨"t/outer"⟩, ⟨"t/outer/inner"⟩, ⟨"t/second"⟩] ∧
    [⟨"t/outer"⟩, ⟨"t/outer/inner"⟩, (⟨"t/second"⟩ : Path)].Pairwise
      fun p q => (p == q) = false := by
  have hnested : nested.WellNamed := by decide
  obtain ⟨hsearch, hdeeper, hrun⟩ := projects_outermost hnested .standard
  have hshallow : Project.search nested .standard 1 ⟨"t"⟩ = .ok [⟨"t/outer"⟩, ⟨"t/second"⟩] := rfl
  have hdeep : Project.search nested .standard 3 ⟨"t"⟩ =
    .ok [⟨"t/a/b/deep"⟩, ⟨"t/outer"⟩, ⟨"t/second"⟩] := rfl
  have hprojects : (projects nested .standard
      ⟨[⟨"t/outer"⟩, ⟨"t/outer/inner"⟩, ⟨"t"⟩], none, some 1⟩).outcome =
    .ok [⟨"t/outer"⟩, ⟨"t/outer/inner"⟩, ⟨"t/second"⟩] := rfl
  obtain ⟨trails, htrails, -, -, hapart, -⟩ := hsearch 3 ⟨"t"⟩
  obtain htrails := Except.ok.inj (hdeep.symm.trans htrails)
  exact ⟨hnested, hshallow, hdeep, hdeeper 1 3 _ _ _ (by decide) hshallow hdeep, htrails ▸ hapart,
    hprojects, (hrun _).2.1 _ hprojects⟩

end TrafficCheck.Run

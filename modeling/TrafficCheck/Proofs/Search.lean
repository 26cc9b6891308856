import Mathlib.Data.List.Sort
import TrafficCheck.Project.Search
import TrafficCheck.Proofs.Disks
import TrafficCheck.Proofs.Tables

/-!
# Outermost projects

Directories below a path are told by the names that lead down to them. In depth-first order, with
the entries of a directory sorted by name, these lists of names ascend as words do in a dictionary.
A search finds the projects that no other project lies above, down to the level where it ends.

## Main definitions

* `Disk.Leads`: some names lead down from a path, each of them to a directory.
* `Project.IsOutermost`: some names lead down to a project, and to none on the way.
* `Project.Finds`: a search finds the projects that some lists of names lead down to.

## Main statements

* `Project.exists_trails`: a search finds the outermost projects in ascending order.
* `Project.pairwise_apart`: none of them lies inside another one.
* `Project.sublist_search`: a deeper search only adds projects.
-/

namespace TrafficCheck

/-- Some names lead down from a path: each one is the name of an entry of the directory before it,
and that entry is a directory. -/
def Disk.Leads (d : Disk) : Path → List String → Prop
  | _, [] => True
  | p, name :: trail =>
    d.Lists p name ∧ d.isDirectory (p.child name) = true ∧ d.Leads (p.child name) trail

theorem Disk.Leads.isName {d : Disk} {p : Path} {trail : List String} (hd : d.WellNamed)
    (h : d.Leads p trail) : ∀ name ∈ trail, Path.IsName name := by
  induction trail generalizing p with
  | nil => simp
  | cons name trail ih =>
    exact List.forall_mem_cons.2 ⟨h.1.isName hd, ih h.2.2⟩

theorem Disk.Leads.isDirectory {d : Disk} {p : Path} {trail : List String}
    (hp : d.isDirectory p = true) (h : d.Leads p trail) :
    d.isDirectory (p.descend trail) = true := by
  induction trail generalizing p with
  | nil => exact hp
  | cons name trail ih => exact ih h.2.1 h.2.2

namespace Project

variable {d : Disk} {c : Config} {p root : Path} {depth depth' : Nat} {name : String}
  {trail : List String} {found found' : List Path}

/-- Some names lead down to a project that is at most `depth` levels deep, and to no project on the
way. -/
structure IsOutermost (d : Disk) (c : Config) (root : Path) (depth : Nat) (trail : List String) :
    Prop where
  leads : d.Leads root trail
  length_le : trail.length ≤ depth
  isProject : isProject d c (root.descend trail) = true
  outermost : ∀ above, above <+: trail → above ≠ trail →
    Project.isProject d c (root.descend above) = false

theorem isOutermost_nil : IsOutermost d c p depth [] ↔ isProject d c p = true := by
  refine ⟨fun h => h.isProject,
    fun h => ⟨trivial, Nat.zero_le depth, h, fun above habove hne => ?_⟩⟩
  exact absurd (List.prefix_nil.1 habove) hne

theorem not_isOutermost_of_isProject (h : isProject d c p = true) :
    ¬IsOutermost d c p depth (name :: trail) := by
  intro houtermost
  have hroot := houtermost.outermost [] List.nil_prefix (List.cons_ne_nil name trail).symm
  rw [Path.descend_nil, h] at hroot
  exact Bool.noConfusion hroot

/-- An outermost project below a path is one below an entry of it, and the path is not a project. -/
theorem isOutermost_cons : IsOutermost d c p (depth + 1) (name :: trail) ↔
    isProject d c p = false ∧ d.Lists p name ∧ d.isDirectory (p.child name) = true ∧
      IsOutermost d c (p.child name) depth trail := by
  constructor
  · rintro ⟨⟨hlisted, hdirectory, hleads⟩, hlength, hproject, houtermost⟩
    refine ⟨houtermost [] List.nil_prefix (by simp), hlisted, hdirectory, hleads,
      Nat.le_of_succ_le_succ hlength, hproject, fun above habove hne => ?_⟩
    exact houtermost (name :: above) (List.cons_prefix_cons.2 ⟨rfl, habove⟩) (by simpa using hne)
  · rintro ⟨hp, hlisted, hdirectory, hleads, hlength, hproject, houtermost⟩
    refine ⟨⟨hlisted, hdirectory, hleads⟩, Nat.succ_le_succ hlength, hproject,
      fun above habove hne => ?_⟩
    rcases List.prefix_cons_iff.1 habove with rfl | ⟨rest, rfl, hrest⟩
    · exact hp
    · exact houtermost rest hrest (by simpa using hne)

/-- The directories in a directory, sorted by name. -/
theorem subdirectories_eq {names : List String} (h : d.names p = .ok names) :
    subdirectories d p = .ok
      (((NameSet.ofNames names).keys.filter fun name => d.isDirectory (p.child name)).map
        p.child) := by
  rw [subdirectories, h]
  exact congrArg Except.ok List.filter_map

/-- The names that lead down to the outermost projects ascend, and a search finds these projects. -/
structure Finds (d : Disk) (c : Config) (depth : Nat) (p : Path) (trails : List (List String)) :
    Prop where
  found : dig d c depth p = .ok (trails.map p.descend)
  ascend : trails.Pairwise (· < ·)
  mem_iff : ∀ trail, trail ∈ trails ↔ IsOutermost d c p depth trail

theorem finds_of_isProject (hp : isProject d c p = true) : Finds d c depth p [[]] where
  found := by cases depth <;> simp [dig, hp]
  ascend := List.pairwise_singleton _ _
  mem_iff trail := by cases trail <;> simp [isOutermost_nil, hp, not_isOutermost_of_isProject hp]

/-- What is found one level further down is what is found below the entries, in ascending order of
their names. -/
theorem finds_of_names {names : List String} {trails : Path → List (List String)}
    (hp : isProject d c p = false) (hnames : d.names p = .ok names)
    (h : ∀ q, Finds d c depth q (trails q)) :
    Finds d c (depth + 1) p
      (((NameSet.ofNames names).keys.filter fun name => d.isDirectory (p.child name)).flatMap
        fun name => (trails (p.child name)).map (name :: ·)) := by
  have hdirectory : d.isDirectory p = true := Disk.isDirectory_iff.2 ⟨names, hnames⟩
  have hkeys : (NameSet.ofNames names).keys.Pairwise (· < ·) := (NameSet.ofNames names).ordered
  refine ⟨?found, ?ascend, fun trail => ?mem⟩
  case found =>
    rw [dig, hp, hdirectory, subdirectories_eq hnames]
    simp only [Bool.false_eq_true, if_false, if_true, Outcome.ok_bind]
    generalize
      (NameSet.ofNames names).keys.filter (fun name => d.isDirectory (p.child name)) = below
    have hrun : (below.map p.child).mapM (dig d c depth) =
        .ok (below.map fun name => (trails (p.child name)).map (p.child name).descend) := by
      rw [Outcome.mapM_eq_ok_iff, List.forall₂_map_left_iff, List.forall₂_map_right_iff,
        List.forall₂_same]
      exact fun name _ => (h (p.child name)).found
    rw [hrun]
    simp [List.flatMap_def, List.map_flatten, Function.comp_def]
  case ascend =>
    rw [List.pairwise_flatMap]
    refine ⟨fun name _ => ?_, (hkeys.filter _).imp fun hlt => ?_⟩
    · exact (h (p.child name)).ascend.map _ fun _ _ hlt => List.cons_lt_cons_iff.2 (.inr ⟨rfl, hlt⟩)
    · simp only [List.forall_mem_map]
      exact fun _ _ _ _ => List.cons_lt_cons_iff.2 (.inl hlt)
  case mem =>
    cases trail with
    | nil => simp [isOutermost_nil, hp]
    | cons name trail =>
      simp only [List.mem_flatMap, List.mem_map, List.cons.injEq, isOutermost_cons, hp,
        Disk.lists_iff hnames, List.mem_filter, NameSet.mem_keys_ofNames, ← (h _).mem_iff]
      grind

/-- A search finds the outermost projects, and the names that lead down to them ascend. -/
theorem exists_trails (d : Disk) (c : Config) (depth : Nat) (p : Path) :
    ∃ trails, Finds d c depth p trails := by
  induction depth generalizing p with
  | zero =>
    cases hp : isProject d c p with
    | true => exact ⟨_, finds_of_isProject hp⟩
    | false =>
      refine ⟨[], by simp [dig, hp], .nil, fun trail => ?_⟩
      cases trail with
      | nil => simp [isOutermost_nil, hp]
      | cons name trail => exact iff_of_false List.not_mem_nil fun h => absurd h.length_le (by simp)
  | succ depth ih =>
    cases hp : isProject d c p with
    | true => exact ⟨_, finds_of_isProject hp⟩
    | false =>
      cases hdirectory : d.isDirectory p with
      | false =>
        refine ⟨[], by simp [dig, hp, hdirectory], .nil, fun trail => ?_⟩
        cases trail with
        | nil => simp [isOutermost_nil, hp]
        | cons name trail =>
          simp only [List.not_mem_nil, isOutermost_cons, false_iff]
          exact fun h => Bool.false_ne_true (hdirectory.symm.trans h.2.1.isDirectory)
      | true =>
        obtain ⟨names, hnames⟩ := Disk.isDirectory_iff.1 hdirectory
        choose trails htrails using ih
        exact ⟨_, finds_of_names hp hnames htrails⟩

theorem IsOutermost.mono (hle : depth ≤ depth') (h : IsOutermost d c root depth trail) :
    IsOutermost d c root depth' trail :=
  { h with length_le := h.length_le.trans hle }

/-- Outermost projects are apart: none of them is another one or lies inside it. -/
theorem pairwise_apart {trails : List (List String)} (hd : d.WellNamed)
    (hascend : trails.Pairwise (· < ·))
    (hmem : ∀ trail ∈ trails, IsOutermost d c root depth trail) :
    (trails.map root.descend).Pairwise Path.Apart := by
  have hinside : ∀ t ∈ trails, ∀ u ∈ trails, t ≠ u →
      ¬(root.descend t).components <+: (root.descend u).components := by
    intro t ht u hu hne h
    rw [Path.components_descend ((hmem t ht).leads.isName hd),
      Path.components_descend ((hmem u hu).leads.isName hd), List.prefix_append_right_inj] at h
    have hfalse := (hmem u hu).outermost t h hne
    rw [(hmem t ht).isProject] at hfalse
    exact Bool.noConfusion hfalse
  rw [List.pairwise_map]
  refine hascend.imp_of_mem fun {t u} ht hu hlt => ?_
  have hne : t ≠ u := fun heq => List.lt_irrefl u (heq ▸ hlt)
  exact ⟨hinside t ht u hu hne, hinside u hu t ht hne.symm⟩

/-- A deeper search only adds projects and keeps the order of those that were found before. -/
theorem sublist_search (hle : depth ≤ depth') (hfound : search d c depth root = .ok found)
    (hfound' : search d c depth' root = .ok found') : found.Sublist found' := by
  obtain ⟨trails, htrails, hascend, hmem⟩ := exists_trails d c (min depth deepestLevel) root
  obtain ⟨trails', htrails', hascend', hmem'⟩ := exists_trails d c (min depth' deepestLevel) root
  obtain rfl := Except.ok.inj (htrails.symm.trans hfound)
  obtain rfl := Except.ok.inj (htrails'.symm.trans hfound')
  have hantisymm : @Std.Antisymm (List String) (· < ·) :=
    ⟨fun t u htu hut => absurd (List.lt_trans htu hut) (List.lt_irrefl t)⟩
  have hirrefl : @Std.Irrefl (List String) (· < ·) := ⟨List.lt_irrefl⟩
  have hdeepest : min depth deepestLevel ≤ min depth' deepestLevel := by omega
  have hsubset : trails ⊆ trails' := fun trail htrail =>
    (hmem' trail).2 (((hmem trail).1 htrail).mono hdeepest)
  have hsubperm : trails.Subperm trails' := List.subperm_of_subset hascend.nodup hsubset
  exact (List.sublist_of_subperm_of_pairwise hsubperm hascend hascend').map _

end Project

end TrafficCheck

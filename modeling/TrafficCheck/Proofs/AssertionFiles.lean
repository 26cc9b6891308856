import Mathlib.Data.List.Sort
import TrafficCheck.AssertionFiles
import TrafficCheck.Proofs.Disks
import TrafficCheck.Proofs.Tables
import TrafficCheck.Proofs.Verdict

/-!
# Listed assertion files

The files that a project is checked by are listed from two places: the integrity file comes first,
then the project's own files or the default file. Each of the two is free of repetitions, so a file
is listed twice just if the integrity file is met again behind itself. It is not left out there, and
every listing of a file loads its assertions once.

## Main definitions

* `AssertionFiles.IsOwn`: an entry of a directory is an assertion file that is not hidden.
* `AssertionFiles.listed`: the files that a project with some files of its own is checked by.
* `AssertionFiles.StandsBehind`: a file is listed behind the integrity file.
* `AssertionSet.portion`: the assertions that a file gives.

## Main statements

* `AssertionFiles.exists_own`: the files that a project has itself.
* `AssertionFiles.outcome_find`: the files that a project is checked by.
* `AssertionFiles.pairwise_listed_iff`: when the listed files are apart.
* `AssertionSet.assertions_ofFiles`: what is loaded from some files.
* `AssertionFiles.find_lists_once_iff`: which files are listed, and when none of them twice.
-/

namespace TrafficCheck

namespace AssertionSet

variable {d : Disk}

/-- The assertions that a file gives, which are none if it cannot be read or has an error. -/
def portion (d : Disk) (file : Path) : List Assertion :=
  match d.readText file with
  | .ok text => (parse file.baseName text).toOption.getD []
  | .error _ => []

theorem assertions_loadFile (s : AssertionSet) (file : Path) (d : Disk) :
    (s.loadFile file d).value.assertions = s.assertions ++ portion d file := by
  rw [loadFile, portion]
  cases d.readText file with
  | error failure => simp [loadFailed]
  | ok text =>
    dsimp only
    rw [load]
    cases parse file.baseName text <;> simp [loadFailed, Except.toOption]

theorem assertions_foldlM (s : AssertionSet) (files : List Path) :
    ((files.foldlM (fun s file => Survey.look (s.loadFile file)) s).on d).value.assertions =
      s.assertions ++ files.flatMap (portion d) := by
  induction files generalizing s with
  | nil => simp
  | cons file files ih =>
    rw [List.foldlM_cons, Survey.on_bind, Logged.value_bind, ih, Survey.on_look,
      assertions_loadFile, List.append_assoc, List.flatMap_cons]

/-- Every listing of a file adds its assertions once. -/
theorem assertions_ofFiles (d : Disk) (files : List Path) :
    ((ofFiles files).on d).value.assertions = files.flatMap (portion d) :=
  assertions_foldlM empty files

end AssertionSet

namespace AssertionFiles

variable {d : Disk} {dir : Path} {c : Config} {names : List String} {own : List Path}

/-! ## Own files -/

/-- An entry of a directory is a file that is not hidden and whose name ends as those of assertion
files do. -/
structure IsOwn (d : Disk) (dir : Path) (name : String) : Prop where
  listed : d.Lists dir name
  visible : name.toList.head? ≠ some '.'
  ending : ".assertions".toList <:+ name.toList
  isFile : d.isFile (dir.child name) = true

/-- The own files of a directory are listed in ascending order of name. -/
theorem exists_own (hd : d.WellNamed) (hdir : d.isDirectory dir = true) :
    ∃ names : List String, AssertionFiles.own d dir = .ok (names.map dir.child) ∧
      names.Pairwise (· < ·) ∧ ∀ name, name ∈ names ↔ IsOwn d dir name := by
  obtain ⟨entries, hentries⟩ := Disk.isDirectory_iff.1 hdir
  let visible := (NameSet.ofNames entries).keys.filter fun name => name.toList.head? != some '.'
  let isOwn : String → Bool := fun name =>
    (dir.child name).extension? = some extension && d.isFile (dir.child name)
  refine ⟨visible.filter isOwn, ?_, ?_, fun name => ?_⟩
  · rw [AssertionFiles.own, hentries]
    exact congrArg Except.ok List.filter_map
  · exact ((NameSet.ofNames entries).ordered.filter _).filter _
  · have hending : ∀ hname : Path.IsName name, ∀ hvisible : name.toList.head? ≠ some '.',
        (dir.child name).extension? = some extension ↔ ".assertions".toList <:+ name.toList :=
      fun hname hvisible => Path.extension?_child_eq_some_iff hname hvisible (by decide)
    simp only [visible, isOwn, List.mem_filter, NameSet.mem_keys_ofNames, bne_iff_ne, ne_eq,
      Bool.and_eq_true, decide_eq_true_eq]
    constructor
    · rintro ⟨⟨hmem, hvisible⟩, hextension, hfile⟩
      have hlisted := (Disk.lists_iff hentries).2 hmem
      exact ⟨hlisted, hvisible, (hending (hlisted.isName hd) hvisible).1 hextension, hfile⟩
    · intro h
      exact ⟨⟨(Disk.lists_iff hentries).1 h.listed, h.visible⟩,
        (hending (h.listed.isName hd) h.visible).2 h.ending, h.isFile⟩

/-- Files with different names in one directory are different paths. -/
theorem pairwise_child (hnames : ∀ name ∈ names, Path.IsName name) (hdistinct : names.Nodup) :
    (names.map dir.child).Pairwise fun p q => (p == q) = false := by
  refine List.pairwise_map.2 (hdistinct.imp_of_mem fun {name other} hname hother hne => ?_)
  rw [Bool.eq_false_iff, Ne, Path.beq_iff, Path.components_child (hnames name hname),
    Path.components_child (hnames other hother), List.append_cancel_left_eq, List.singleton_inj]
  exact hne

/-- Files with different names in one directory lie at different places. -/
theorem pairwise_locate_child (hdir : d.isDirectory dir = true)
    (hnames : ∀ name ∈ names, Path.IsName name ∧ d.isFile (dir.child name) = true)
    (hdistinct : names.Nodup) :
    (names.map dir.child).Pairwise fun p q => d.locate p ≠ d.locate q := by
  obtain ⟨place, hplace⟩ := Disk.exists_locate (.inr hdir)
  have hlocate : ∀ name ∈ names, d.locate (dir.child name) = .ok (place ++ [name]) := by
    intro name hname
    obtain ⟨hproper, hfile⟩ := hnames name hname
    obtain ⟨place', hplace'⟩ := Disk.exists_locate (.inl hfile)
    rw [hplace', Disk.locate_child hproper hplace hplace']
  refine List.pairwise_map.2 (hdistinct.imp_of_mem fun {name other} hname hother hne heq => hne ?_)
  rw [hlocate name hname, hlocate other hother, Except.ok.injEq, List.append_cancel_left_eq,
    List.singleton_inj] at heq
  exact heq

/-! ## Listed files -/

/-- The files behind the integrity file: those of the project, or else the default file. -/
def chosen (d : Disk) (c : Config) (own : List Path) : List Path :=
  if own.isEmpty then present d c.defaultAssertions else own

/-- The files that a project with some files of its own is checked by. -/
def listed (d : Disk) (c : Config) (own : List Path) : List Path :=
  present d c.integrityAssertions ++ chosen d c own

theorem mem_present_iff {file : Option Path} {p : Path} :
    p ∈ present d file ↔ file = some p ∧ d.isFile p = true := by
  rw [present, List.mem_filter, Option.mem_toList]

/-- The files are found unless there are none. -/
theorem outcome_find (d : Disk) (dir : Path) (c : Config) : (find d dir c).outcome =
    (AssertionFiles.own d dir >>= fun own => if listed d c own = [] then
      .error (.noAssertionFiles (searched dir c)) else .ok (listed d c own)) := by
  rw [find, Attempt.outcome_bind, Attempt.outcome_of]
  refine bind_congr fun own => ?_
  unfold listed chosen
  dsimp only
  generalize (present d c.integrityAssertions ++
    if own.isEmpty = true then present d c.defaultAssertions else own) = files
  cases files <;> rfl

theorem pairwise_present (r : Path → Path → Prop) (file : Option Path) :
    (present d file).Pairwise r := by
  cases file with
  | none => exact .nil
  | some p => exact (List.pairwise_singleton r p).sublist List.filter_sublist

/-- A file stands behind the integrity file: it is an own file of the project, or the default file
of a project that has none. -/
def StandsBehind (d : Disk) (dir : Path) (c : Config) (p : Path) : Prop :=
  (∃ name, IsOwn d dir name ∧ dir.child name = p) ∨
    (∀ name, ¬IsOwn d dir name) ∧ c.defaultAssertions = some p ∧ d.isFile p = true

theorem mem_chosen_iff {p : Path} (hmem : ∀ name, name ∈ names ↔ IsOwn d dir name) :
    p ∈ chosen d c (names.map dir.child) ↔ StandsBehind d dir c p := by
  unfold chosen StandsBehind
  simp only [← hmem, ← mem_present_iff, ← List.mem_map, ← List.eq_nil_iff_forall_not_mem]
  cases names <;> simp

/-- The listed files are apart if the integrity file is apart from those behind it, since neither of
the two lists repeats anything. -/
theorem pairwise_listed_iff {r : Path → Path → Prop}
    (hmem : ∀ name, name ∈ names ↔ IsOwn d dir name) (hown : (names.map dir.child).Pairwise r) :
    (listed d c (names.map dir.child)).Pairwise r ↔ ∀ i p, c.integrityAssertions = some i →
      d.isFile i = true → StandsBehind d dir c p → r i p := by
  have hchosen : (chosen d c (names.map dir.child)).Pairwise r := by
    unfold chosen
    split
    · exact pairwise_present r _
    · exact hown
  rw [listed, List.pairwise_append]
  simp only [mem_present_iff, mem_chosen_iff hmem, pairwise_present, hchosen, true_and]
  exact ⟨fun h i p hi hfile hp => h i ⟨hi, hfile⟩ p hp, fun h i hi p hp => h i p hi.1 hi.2 hp⟩

theorem listed_eq_nil_iff : listed d c own = [] ↔ own = [] ∧
    ∀ file, c.integrityAssertions = some file ∨ c.defaultAssertions = some file →
      d.isFile file = false := by
  have hnone : ∀ file : Option Path, present d file = [] ↔
      ∀ p, file = some p → d.isFile p = false := by
    intro file
    simp only [List.eq_nil_iff_forall_not_mem, mem_present_iff, not_and, Bool.not_eq_true]
  rw [listed, List.append_eq_nil_iff, chosen, hnone]
  cases own with
  | nil =>
    rw [List.isEmpty_nil, if_pos rfl, hnone]
    grind
  | cons p own => simp

/-- The integrity file is listed first, if it is there, and then the own files of the project in
ascending order of name, or the default file where it has none. There are no files to be found just
if all of them are missing. No path is listed twice just if the integrity file does not stand behind
itself, and so it is with places on the disk. Every listing of a file loads its assertions once. -/
theorem find_lists_once_iff (hd : d.WellNamed) (hdir : d.isDirectory dir = true) (c : Config) :
    ∃ names : List String, names.Pairwise (· < ·) ∧ (∀ name, name ∈ names ↔ IsOwn d dir name) ∧
      let files := listed d c (names.map dir.child)
      ((find d dir c).outcome =
        if files = [] then .error (.noAssertionFiles (searched dir c)) else .ok files) ∧
      (files = [] ↔ (∀ name, ¬IsOwn d dir name) ∧
        ∀ file, c.integrityAssertions = some file ∨ c.defaultAssertions = some file →
          d.isFile file = false) ∧
      ((files.Pairwise fun p q => (p == q) = false) ↔ ∀ i p, c.integrityAssertions = some i →
        d.isFile i = true → StandsBehind d dir c p → (i == p) = false) ∧
      ((files.Pairwise fun p q => d.locate p ≠ d.locate q) ↔ ∀ i p, c.integrityAssertions = some i →
        d.isFile i = true → StandsBehind d dir c p → d.locate i ≠ d.locate p) ∧
      ((AssertionSet.ofFiles files).on d).value.assertions =
        files.flatMap (AssertionSet.portion d) := by
  obtain ⟨names, hown, hascend, hmem⟩ := exists_own hd hdir
  have hdistinct : names.Nodup := hascend.nodup
  refine ⟨names, hascend, hmem, ?_, ?_, ?_, ?_, AssertionSet.assertions_ofFiles d _⟩
  · rw [outcome_find, hown]
    rfl
  · have hnone : names = [] ↔ ∀ name, ¬IsOwn d dir name := by
      simp only [List.eq_nil_iff_forall_not_mem, hmem]
    rw [← hnone, ← List.map_eq_nil_iff (f := dir.child)]
    exact listed_eq_nil_iff
  · refine pairwise_listed_iff hmem (pairwise_child (fun name hname => ?_) hdistinct)
    exact ((hmem name).1 hname).listed.isName hd
  · refine pairwise_listed_iff hmem (pairwise_locate_child hdir (fun name hname => ?_) hdistinct)
    have hname := (hmem name).1 hname
    exact ⟨hname.listed.isName hd, hname.isFile⟩

/-! ### An integrity file inside a project -/

/-- A project with two assertion files of its own and a hidden one, and a file beside the
project. -/
def sharing : Disk :=
  let checks : Entry := .file (.ok "LAST 1\n")
  ⟨.directory [
    ("p", .directory [("traffic.assertions", checks), (".draft.assertions", checks),
      ("integrity.assertions", checks)]),
    ("shared", .directory [("common.assertions", checks)])], []⟩

/-- The standard configuration with an integrity file. -/
def withIntegrity (file : Path) : Config :=
  { Config.standard with integrityAssertions := some file }

/-- An integrity file beside the project is listed once. -/
theorem find_with_shared_integrity :
    let files : List Path := [⟨"shared/common.assertions"⟩, ⟨"p/integrity.assertions"⟩,
      ⟨"p/traffic.assertions"⟩]
    sharing.WellNamed ∧ sharing.isDirectory ⟨"p"⟩ = true ∧
      (find sharing ⟨"p"⟩ (withIntegrity ⟨"shared/common.assertions"⟩)).outcome = .ok files ∧
      (files.Pairwise fun p q => (p == q) = false) ∧
      ((AssertionSet.ofFiles files).on sharing).value.assertions =
        files.flatMap (AssertionSet.portion sharing) := by
  intro files
  have hsharing : sharing.WellNamed := by decide
  have hdir : sharing.isDirectory ⟨"p"⟩ = true := rfl
  have hfind : (find sharing ⟨"p"⟩ (withIntegrity ⟨"shared/common.assertions"⟩)).outcome =
      .ok files := rfl
  obtain ⟨names, -, -, houtcome, -, hpaths, -, hloaded⟩ :=
    find_lists_once_iff hsharing hdir (withIntegrity ⟨"shared/common.assertions"⟩)
  rw [hfind] at houtcome
  split at houtcome
  next => exact absurd houtcome (by simp)
  next =>
    obtain hfiles := Except.ok.inj houtcome
    refine ⟨hsharing, hdir, hfind, hfiles ▸ hpaths.2 fun i p hi _ hp => ?_, hfiles ▸ hloaded⟩
    obtain rfl := Option.some.inj hi
    rcases hp with ⟨name, hname, rfl⟩ | ⟨-, hdefault, hfile⟩
    · rw [Bool.eq_false_iff, Ne, Path.beq_iff, Path.components_child (hname.listed.isName hsharing)]
      have hcommon : (Path.mk "shared/common.assertions").components =
          ["shared", "common.assertions"] := rfl
      have hproject : (Path.mk "p").components = ["p"] := rfl
      simp [hcommon, hproject]
    · obtain rfl := Option.some.inj hdefault
      exact absurd hfile (by decide)

/-- An integrity file inside the project is listed before the own files and again among them, and
its only assertion is loaded and counted twice. -/
theorem find_lists_integrity_twice :
    let c := withIntegrity ⟨"p/integrity.assertions"⟩
    let files : List Path := [⟨"p/integrity.assertions"⟩, ⟨"p/integrity.assertions"⟩,
      ⟨"p/traffic.assertions"⟩]
    (find sharing ⟨"p"⟩ c).outcome = .ok files ∧
      (¬files.Pairwise fun p q => (p == q) = false) ∧
      ((AssertionSet.ofFiles files).on sharing).value.size = 3 ∧
      ((AssertionSet.ofFiles files).on sharing).value.statistics =
        [⟨"integrity.assertions", 2, 0, 0⟩, ⟨"integrity.assertions", 2, 0, 0⟩,
          ⟨"traffic.assertions", 1, 0, 0⟩] := by
  intro c files
  exact ⟨rfl, by decide, by decide +kernel, by decide +kernel⟩

end AssertionFiles

end TrafficCheck

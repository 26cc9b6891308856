import Mathlib.Data.List.MinMax
import TrafficCheck.Project.Results
import TrafficCheck.Proofs.Disks
import TrafficCheck.Proofs.Stamps
import TrafficCheck.Proofs.Tables

/-!
# The latest results

The results of a project that are checked are the latest ones that can be: one pass over the entries
of their directory keeps the latest of those seen so far. Entries that cannot be checked make no
difference to it, wherever they stand. Where several entries tell the same latest moment the first
one stays, so that the choice hangs on the order of enumeration just in this case.

## Main definitions

* `Project.CanCheck`: an entry is named for a moment and is a directory that holds summary files.
* `Project.IsLatest`: an entry that can be checked, and none of a later moment can.
* `Project.candidates`: the entries that can be checked, in the order of enumeration.

## Main statements

* `Project.latestResults_eq`: the pass finds the first one of the latest candidates.
* `Project.latestResults_characterized`: which results are found, and when none are.
* `Project.latestResults_order_free_iff`: when the order of enumeration makes no difference.
-/

namespace TrafficCheck.Project

variable {d d' : Disk} {c : Config} {project results : Path} {name other : String} {stamp : Stamp}

/-! ## Entries that can be checked -/

/-- An entry of a directory of results can be checked: it is named for a moment and is a directory
with a summary file that is not hidden. -/
structure CanCheck (d : Disk) (results : Path) (name : String) (stamp : Stamp) : Prop where
  listed : d.Lists results name
  parse_eq : Stamp.parse? name.toList = some stamp
  isDirectory : d.isDirectory (results.child name) = true
  summaries : ∃ files, d.names (results.child name) = .ok files ∧
    ∃ file ∈ files, file.toList.head? ≠ some '.' ∧ (SummaryName.parse? file.toList).isSome

/-- An entry of a directory of results is the latest one that can be checked, or one of several. -/
structure IsLatest (d : Disk) (results : Path) (name : String) (stamp : Stamp) : Prop where
  canCheck : CanCheck d results name stamp
  le : ∀ {other stamp'}, CanCheck d results other stamp' → stamp' ≤ stamp

theorem holdsSummaries_iff {p : Path} : holdsSummaries d p = true ↔ d.isDirectory p = true ∧
    ∃ files, d.names p = .ok files ∧
      ∃ file ∈ files, file.toList.head? ≠ some '.' ∧ (SummaryName.parse? file.toList).isSome := by
  rw [holdsSummaries, Bool.and_eq_true, Summary.files]
  refine and_congr_right fun _ => ?_
  cases d.names p with
  | error failure => simp
  | ok files =>
    simp [List.filterMap_eq_nil_iff, NameSet.mem_keys_ofNames, Option.isSome_iff_ne_none]

/-- The moment and the name of an entry that can be checked. -/
def candidate? (d : Disk) (results : Path) (name : String) : Option (Stamp × String) :=
  match Stamp.parse? name.toList with
  | some stamp => if holdsSummaries d (results.child name) then some (stamp, name) else none
  | none => none

/-- The entries of a directory of results that can be checked, in the order of enumeration. -/
def candidates (d : Disk) (results : Path) : List (Stamp × String) :=
  match d.names results with
  | .ok names => names.filterMap (candidate? d results)
  | .error _ => []

theorem candidate?_eq_some_iff : candidate? d results other = some (stamp, name) ↔
    other = name ∧ Stamp.parse? name.toList = some stamp ∧
      holdsSummaries d (results.child name) = true := by
  unfold candidate?
  cases hparse : Stamp.parse? other.toList with
  | none => grind
  | some found => grind

theorem mem_candidates_iff :
    (stamp, name) ∈ candidates d results ↔ CanCheck d results name stamp := by
  unfold candidates
  cases hnames : d.names results with
  | error failure =>
    refine ⟨fun h => absurd h (by simp), fun h => ?_⟩
    obtain ⟨names, hlisted, -⟩ := h.listed
    simp [hnames] at hlisted
  | ok names =>
    simp only [List.mem_filterMap, candidate?_eq_some_iff, holdsSummaries_iff]
    constructor
    · rintro ⟨other, hmem, rfl, hparse, hdirectory, hsummaries⟩
      exact ⟨(Disk.lists_iff hnames).2 hmem, hparse, hdirectory, hsummaries⟩
    · rintro ⟨hlisted, hparse, hdirectory, hsummaries⟩
      exact ⟨name, (Disk.lists_iff hnames).1 hlisted, rfl, hparse, hdirectory, hsummaries⟩

/-- What is latest among the candidates is latest among the entries that can be checked. -/
theorem isLatest_of_argmax (h : (candidates d results).argmax (·.1) = some (stamp, name)) :
    IsLatest d results name stamp where
  canCheck := mem_candidates_iff.1 (List.argmax_mem h)
  le hother := List.le_of_mem_argmax (mem_candidates_iff.2 hother) h

/-! ## One pass over the entries -/

/-- The moment and the path of an entry. -/
def located (results : Path) (found : Stamp × String) : Stamp × Path :=
  (found.1, results.child found.2)

/-- One step of the pass: an entry that cannot be checked is passed over, and of the others a later
one takes the place of the latest so far. -/
theorem later_located (latest : Option (Stamp × String)) (name : String) :
    later d results (latest.map (located results)) name =
      match candidate? d results name with
      | some found => (List.argAux (fun b c => c.1 < b.1) latest found).map (located results)
      | none => latest.map (located results) := by
  unfold later candidate?
  cases Stamp.parse? name.toList with
  | none => rfl
  | some stamp =>
    dsimp only
    cases hholds : holdsSummaries d (results.child name) with
    | false => simp
    | true =>
      cases latest with
      | none => rfl
      | some found =>
        by_cases hlt : found.1 < stamp <;> simp [List.argAux, Stamp.isLater_iff, located, hlt]

/-- The pass keeps the first one of the latest entries that can be checked. -/
theorem foldl_later (names : List String) :
    names.foldl (later d results) none =
      ((names.filterMap (candidate? d results)).argmax (·.1)).map (located results) := by
  have hrun : ∀ latest : Option (Stamp × String),
      names.foldl (later d results) (latest.map (located results)) =
        ((names.filterMap (candidate? d results)).foldl
          (List.argAux fun b c => c.1 < b.1) latest).map (located results) := by
    induction names with
    | nil => exact fun latest => rfl
    | cons name names ih =>
      intro latest
      rw [List.foldl_cons, later_located, List.filterMap_cons]
      cases candidate? d results name with
      | none => exact ih latest
      | some found => exact ih _
  exact hrun none

theorem latestResults_eq (d : Disk) (c : Config) (project : Path) : latestResults d c project =
    match (candidates d (project.child c.resultsDir)).argmax (·.1) with
    | some found => .ok ((project.child c.resultsDir).child found.2)
    | none => .error (.noResults project) := by
  unfold latestResults candidates
  dsimp only
  cases hnames : d.names (project.child c.resultsDir) with
  | error failure =>
    have hdirectory : d.isDirectory (project.child c.resultsDir) = false := by
      rw [Bool.eq_false_iff, Ne, Disk.isDirectory_iff]
      simp [hnames]
    rw [hdirectory]
    rfl
  | ok names =>
    rw [Disk.isDirectory_iff.2 ⟨names, hnames⟩, if_pos rfl]
    dsimp only
    rw [foldl_later]
    cases (names.filterMap (candidate? d (project.child c.resultsDir))).argmax (·.1) <;> rfl

/-- The results that are found are those of an entry that has a moment, is a directory and holds
summary files, and no such entry has a later moment. None are found just if there is no such entry,
so that an entry that cannot be checked never hides one that can. -/
theorem latestResults_characterized (d : Disk) (c : Config) (project : Path) :
    (∀ p, latestResults d c project = .ok p → ∃ name stamp,
      IsLatest d (project.child c.resultsDir) name stamp ∧
      p = (project.child c.resultsDir).child name) ∧
    (∀ e, latestResults d c project = .error e ↔ e = .noResults project ∧
      ¬∃ name stamp, CanCheck d (project.child c.resultsDir) name stamp) ∧
    ∀ name stamp, CanCheck d (project.child c.resultsDir) name stamp → ∃ name' stamp',
      latestResults d c project = .ok ((project.child c.resultsDir).child name') ∧
      CanCheck d (project.child c.resultsDir) name' stamp' ∧ stamp ≤ stamp' := by
  rw [latestResults_eq]
  cases hlatest : (candidates d (project.child c.resultsDir)).argmax (·.1) with
  | none =>
    have hnone : ∀ name stamp, ¬CanCheck d (project.child c.resultsDir) name stamp := by
      intro name stamp hcheck
      rw [List.argmax_eq_none] at hlatest
      exact absurd (mem_candidates_iff.2 hcheck) (by simp [hlatest])
    refine ⟨fun p hp => absurd hp (by simp), fun e => ?_,
      fun name stamp h => absurd h (hnone name stamp)⟩
    simp [hnone, eq_comm]
  | some found =>
    obtain ⟨stamp, name⟩ := found
    have hfound := isLatest_of_argmax hlatest
    refine ⟨fun p hp => ⟨name, stamp, hfound, (Except.ok.inj hp).symm⟩, fun e => ?_, ?_⟩
    · refine ⟨fun h => absurd h (by simp), fun h => absurd ⟨name, stamp, hfound.canCheck⟩ h.2⟩
    · exact fun other stamp' hother => ⟨name, stamp, rfl, hfound.canCheck, hfound.le hother⟩

/-! ## Orders of enumeration -/

theorem candidate?_of_reorders (h : d.Reorders d') :
    candidate? d' results = candidate? d results := by
  have hholds : ∀ p, holdsSummaries d' p = holdsSummaries d p := by
    intro p
    rw [Bool.eq_iff_iff, holdsSummaries_iff, holdsSummaries_iff, h.isDirectory_eq]
    refine and_congr_right fun hdirectory => ?_
    obtain ⟨files, hfiles⟩ := Disk.isDirectory_iff.1 hdirectory
    obtain ⟨files', hfiles', hperm⟩ := h.names_perm hfiles
    simp only [hfiles, hfiles', Except.ok.injEq, exists_eq_left', hperm.mem_iff]
  funext name
  simp only [candidate?, hholds]

theorem candidates_perm (h : d.Reorders d') :
    (candidates d' results).Perm (candidates d results) := by
  unfold candidates
  cases hnames : d.names results with
  | ok names =>
    obtain ⟨names', hnames', hperm⟩ := h.names_perm hnames
    simp only [hnames', candidate?_of_reorders h]
    exact hperm.filterMap _
  | error failure =>
    have hdirectory : ¬∃ names, d'.names results = .ok names := by
      rw [← Disk.isDirectory_iff, h.isDirectory_eq, Disk.isDirectory_iff]
      simp [hnames]
    cases hnames' : d'.names results with
    | ok names' => exact absurd ⟨names', hnames'⟩ hdirectory
    | error failure' => exact .nil

theorem canCheck_of_reorders (h : d.Reorders d') :
    CanCheck d' results name stamp ↔ CanCheck d results name stamp := by
  rw [← mem_candidates_iff, ← mem_candidates_iff, (candidates_perm h).mem_iff]

theorem isLatest_of_reorders (h : d.Reorders d') (hlatest : IsLatest d' results name stamp) :
    IsLatest d results name stamp where
  canCheck := (canCheck_of_reorders h).1 hlatest.canCheck
  le hother := hlatest.le ((canCheck_of_reorders h).2 hother)

theorem exists_filter_eq_cons {names : List String} (h : name ∈ names) :
    ∃ others, names.filter (· = name) = name :: others := by
  cases hfilter : names.filter (· = name) with
  | nil =>
    have hmem : name ∈ names.filter (· = name) := List.mem_filter.2 ⟨h, by simp⟩
    exact absurd hmem (by simp [hfilter])
  | cons first others =>
    have hfirst : first ∈ names.filter (· = name) := by simp [hfilter]
    obtain rfl : first = name := by simpa using (List.mem_filter.1 hfirst).2
    exact ⟨others, rfl⟩

/-- An entry that is enumerated first is found if it is one of the latest. -/
theorem latestResults_advance (hlatest : IsLatest d (project.child c.resultsDir) name stamp) :
    latestResults (d.advance name) c project = .ok ((project.child c.resultsDir).child name) := by
  obtain ⟨names, hnames, hmem⟩ := hlatest.canCheck.listed
  obtain ⟨others, hothers⟩ := exists_filter_eq_cons hmem
  have hreorders := Disk.reorders_advance name d
  have hcandidate : candidate? d (project.child c.resultsDir) name = some (stamp, name) :=
    candidate?_eq_some_iff.2 ⟨rfl, hlatest.canCheck.parse_eq,
      holdsSummaries_iff.2 ⟨hlatest.canCheck.isDirectory, hlatest.canCheck.summaries⟩⟩
  obtain ⟨rest, hrest⟩ : ∃ rest, candidates (d.advance name) (project.child c.resultsDir) =
      (stamp, name) :: rest := by
    rw [candidates, Disk.names_advance, hnames, Outcome.map_ok, hothers,
      candidate?_of_reorders hreorders]
    dsimp only
    rw [List.cons_append, List.filterMap_cons, hcandidate]
    exact ⟨_, rfl⟩
  have hle : ∀ found ∈ rest, found.1 ≤ stamp := by
    intro found hfound
    have hcheck : (found.1, found.2) ∈ candidates d (project.child c.resultsDir) := by
      rw [← (candidates_perm hreorders).mem_iff, hrest]
      exact List.mem_cons_of_mem _ hfound
    exact hlatest.le (mem_candidates_iff.1 hcheck)
  rw [latestResults_eq, hrest, List.argmax_cons]
  cases hargmax : rest.argmax (·.1) with
  | none => rfl
  | some found =>
    have hnot : ¬stamp < found.1 := not_lt.2 (hle found (List.argmax_mem hargmax))
    simp [hnot]

/-- The latest results do not hang on the order of enumeration just if no two entries are the latest
ones that can be checked: where different names tell the same latest moment, the entry that is
enumerated first is found. -/
theorem latestResults_order_free_iff (hd : d.WellNamed) (c : Config) (project : Path) :
    (∀ d', d.Reorders d' → latestResults d' c project = latestResults d c project) ↔
      ∀ name other stamp, IsLatest d (project.child c.resultsDir) name stamp →
        IsLatest d (project.child c.resultsDir) other stamp → name = other := by
  constructor
  · intro hfree name other stamp hname hother
    have hsame : (project.child c.resultsDir).child name =
        (project.child c.resultsDir).child other := by
      have hfirst := hfree _ (Disk.reorders_advance name d)
      have hsecond := hfree _ (Disk.reorders_advance other d)
      rw [latestResults_advance hname] at hfirst
      rw [latestResults_advance hother, ← hfirst] at hsecond
      exact (Except.ok.inj hsecond).symm
    exact Path.child_inj (hname.canCheck.listed.isName hd) (hother.canCheck.listed.isName hd) hsame
  · intro hunique d' hreorders
    have hperm : (candidates d' (project.child c.resultsDir)).Perm
        (candidates d (project.child c.resultsDir)) := candidates_perm hreorders
    rw [latestResults_eq, latestResults_eq]
    suffices hargmax : (candidates d' (project.child c.resultsDir)).argmax (·.1) =
        (candidates d (project.child c.resultsDir)).argmax (·.1) by rw [hargmax]
    cases hlatest : (candidates d (project.child c.resultsDir)).argmax (·.1) with
    | none =>
      rw [List.argmax_eq_none] at hlatest ⊢
      exact List.perm_nil.1 (hlatest ▸ hperm)
    | some found =>
      cases hlatest' : (candidates d' (project.child c.resultsDir)).argmax (·.1) with
      | none =>
        rw [List.argmax_eq_none] at hlatest'
        rw [hlatest'] at hperm
        simp [List.nil_perm.1 hperm] at hlatest
      | some found' =>
        have hfound : IsLatest d (project.child c.resultsDir) found.2 found.1 :=
          isLatest_of_argmax hlatest
        have hfound' := isLatest_of_reorders hreorders (isLatest_of_argmax hlatest')
        have hstamp : found'.1 = found.1 :=
          le_antisymm (hfound.le hfound'.canCheck) (hfound'.le hfound.canCheck)
        have hname : found'.2 = found.2 := hunique _ _ _ (hstamp ▸ hfound') hfound
        exact congrArg some (Prod.ext hstamp hname)

/-! ### Two results directories -/

/-- A project that has results under two names, with one summary file each. -/
def underNames (first second : String) : Disk :=
  let results : Entry := .directory [("Client Port 1 (10.0.0.1 port 3).sum", .file (.ok ""))]
  ⟨.directory [
    ("p", .directory [("Results", .directory [(first, results), (second, results)])])], []⟩

/-- Of a morning and an afternoon the afternoon is found, in any order. -/
theorem latestResults_of_two_moments :
    let d := underNames "03_14_2024 09-05-09 AM" "03_14_2024 02-05-09 PM"
    d.WellNamed ∧ ∀ d', d.Reorders d' →
      latestResults d' .standard ⟨"p"⟩ = .ok ⟨"p/Results/03_14_2024 02-05-09 PM"⟩ := by
  intro d
  have hd : d.WellNamed := by decide
  have hfound : latestResults d .standard ⟨"p"⟩ = .ok ⟨"p/Results/03_14_2024 02-05-09 PM"⟩ := rfl
  have hnames : d.names ((Path.mk "p").child "Results") =
      .ok ["03_14_2024 09-05-09 AM", "03_14_2024 02-05-09 PM"] := rfl
  refine ⟨hd, fun d' hreorders => hfound ▸ (latestResults_order_free_iff hd _ _).2 ?_ d' hreorders⟩
  -- names that tell one moment are one name
  intro name other stamp hname hother
  have hmem := (Disk.lists_iff hnames).1 hname.canCheck.listed
  have hmem' := (Disk.lists_iff hnames).1 hother.canCheck.listed
  have hparse := hname.canCheck.parse_eq.trans hother.canCheck.parse_eq.symm
  simp only [List.mem_cons, List.not_mem_nil, or_false] at hmem hmem'
  rcases hmem with rfl | rfl <;> rcases hmem' with rfl | rfl
  · rfl
  · exact absurd hparse (by decide +kernel)
  · exact absurd hparse (by decide +kernel)
  · rfl

/-- Two names that differ in the case of a letter tell one moment, and the one is found that the
disk enumerates first. -/
theorem latestResults_depends_on_order :
    let d := underNames "03_14_2024 02-05-09 pm" "03_14_2024 02-05-09 PM"
    let d' := d.advance "03_14_2024 02-05-09 PM"
    d.WellNamed ∧ d.Reorders d' ∧
      latestResults d .standard ⟨"p"⟩ = .ok ⟨"p/Results/03_14_2024 02-05-09 pm"⟩ ∧
      latestResults d' .standard ⟨"p"⟩ = .ok ⟨"p/Results/03_14_2024 02-05-09 PM"⟩ ∧
      latestResults d' .standard ⟨"p"⟩ ≠ latestResults d .standard ⟨"p"⟩ := by
  intro d d'
  have hd : latestResults d .standard ⟨"p"⟩ = .ok ⟨"p/Results/03_14_2024 02-05-09 pm"⟩ := rfl
  have hd' : latestResults d' .standard ⟨"p"⟩ = .ok ⟨"p/Results/03_14_2024 02-05-09 PM"⟩ := rfl
  refine ⟨by decide, Disk.reorders_advance _ d, hd, hd', ?_⟩
  rw [hd, hd']
  simp

end TrafficCheck.Project

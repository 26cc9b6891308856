import TrafficCheck.Config
import TrafficCheck.Proofs.Disks

/-!
# Sources of configurations

A configuration comes from the file that was named, or from the first of the homes that has a
configuration file, or else from no file at all. Relative paths in it are seen from the directory of
the source. Only the first home is asked, so the file in the home of the user is overlooked where
the checker has a home of its own without one.

## Main definitions

* `Environment.homes`: the directories where a configuration file is looked for, in order.
* `Config.Source`: a file, or none, with what it writes and the directory it lies in.
* `Config.Source.inOrder`, `Config.Source.used`: the source that comes first in the order, and the
  one that is used.
* `Config.Source.Decides`: an outcome is that of taking the configuration from a source.
* `Config.Overlooks`: the file in the home of the user is not looked at.

## Main statements

* `Config.load_eq`: loading reads the source that is used.
* `Config.Source.gives_place`: the paths in a file are seen from the directory that holds it.
* `Config.load_follows_order_iff`: from which source a configuration is taken, and when that is the
  first one in the order.
-/

namespace TrafficCheck

/-- The directories where a configuration file is looked for, in order: the home of the checker if
one is named, and the hidden directory in the home of the user. -/
def Environment.homes (env : Environment) : List Path :=
  ((env.checkerHome.filter fun home => !home.isEmpty).map Path.mk).toList ++
    (env.userHome.map fun home => (Path.mk home).child ".tac").toList

theorem Environment.home?_eq (env : Environment) : env.home? = env.homes.head? := by
  have huser : home?.userDirectory? env =
      (env.userHome.map fun home => (Path.mk home).child ".tac") := rfl
  rw [home?, homes, huser]
  cases env.checkerHome with
  | none => cases env.userHome <;> rfl
  | some own =>
    by_cases hempty : own.isEmpty = true
    · cases env.userHome <;> simp [Option.filter_some, hempty]
    · simp [Option.filter_some, hempty]

namespace Config

variable {d : Disk} {env : Environment} {p dir dir' : Path} {w c : Config}

/-! ## Paths in configurations -/

/-- The fields that hold paths. -/
def pathFields : List (Config → Option Path) :=
  [defaultAssertions, integrityAssertions, countersFile, logFile]

/-- A configuration is another one with its paths seen from a directory: relative ones are joined to
it, absolute ones are kept, and so is everything else. -/
structure IsSeenFrom (dir : Path) (w c : Config) : Prop where
  relative : ∀ field ∈ pathFields, ∀ p, field w = some p → p.isAbsolute = false →
    ∃ q, field c = some q ∧ (q == dir.join p) = true
  absolute : ∀ field ∈ pathFields, ∀ p, field w = some p → p.isAbsolute = true → field c = some p
  unset : ∀ field ∈ pathFields, field w = none → field c = none
  maxDepth_eq : c.maxDepth = w.maxDepth
  topologyFile_eq : c.topologyFile = w.topologyFile
  resultsDir_eq : c.resultsDir = w.resultsDir

theorem pathField_resolved {field : Config → Option Path} (h : field ∈ pathFields) (c : Config)
    (dir : Path) : field (c.resolved dir) = (field c).map dir.join := by
  simp only [pathFields, List.mem_cons, List.not_mem_nil, or_false] at h
  rcases h with rfl | rfl | rfl | rfl <;> rfl

theorem isSeenFrom_resolved (c : Config) (dir : Path) : IsSeenFrom dir c (c.resolved dir) where
  relative field hfield p hp _ := by
    rw [pathField_resolved hfield, hp]
    exact ⟨dir.join p, rfl, Path.beq_iff.2 rfl⟩
  absolute field hfield p hp habsolute := by
    rw [pathField_resolved hfield, hp, Option.map_some, Path.join_of_isAbsolute habsolute]
  unset field hfield hnone := by
    rw [pathField_resolved hfield, hnone, Option.map_none]
  maxDepth_eq := rfl
  topologyFile_eq := rfl
  resultsDir_eq := rfl

theorem IsSeenFrom.congr (h : IsSeenFrom dir w c) (hdir : dir.components = dir'.components) :
    IsSeenFrom dir' w c where
  relative field hfield p hp hrelative := by
    obtain ⟨q, hq, hjoin⟩ := h.relative field hfield p hp hrelative
    refine ⟨q, hq, Path.beq_iff.2 ((Path.beq_iff.1 hjoin).trans ?_)⟩
    exact Path.components_join_congr hrelative hdir
  absolute := h.absolute
  unset := h.unset
  maxDepth_eq := h.maxDepth_eq
  topologyFile_eq := h.topologyFile_eq
  resultsDir_eq := h.resultsDir_eq

theorem fault?_of_validate (h : w.validate = .ok c) : c.fault? = none := by
  unfold validate at h
  split at h
  next => exact absurd h (by simp)
  next hnone => exact Except.ok.inj h ▸ hnone

/-! ## Sources -/

/-- Where a configuration comes from. -/
inductive Source where
  | file (p : Path)
  /-- The standard configuration, and the home that its paths are seen from if there is one. -/
  | standard (home : Option Path)

namespace Source

/-- The first configuration file in some homes, or no file. -/
def among (d : Disk) (homes : List Path) : Source :=
  match homes.find? fun home => d.isFile (home.child fileName) with
  | some home => .file (home.child fileName)
  | none => .standard homes.head?

/-- The source that comes first: the named file, then the configuration files in the homes, and then
no file. -/
def inOrder (d : Disk) (env : Environment) (file : Option Path) : Source :=
  file.elim (among d env.homes) .file

/-- The source that is used, for which no home is asked behind the first one. -/
def used (d : Disk) (env : Environment) (file : Option Path) : Source :=
  file.elim (among d (env.homes.take 1)) .file

/-- The configuration as it is written in a source. -/
def written (d : Disk) : Source → Except ConfigError Config
  | .file p =>
    match d.readText p with
    | .error failure => .error (.unreadable p failure)
    | .ok yaml => (ofYaml? yaml).elim (.error (.unparsed p)) .ok
  | .standard _ => .ok Config.standard

/-- A source lies in a directory: its file is an entry there, or it is the standard configuration
and the directory is the home. -/
def LiesIn : Source → Path → Prop
  | .file p, dir => p.IsEntryOf dir
  | .standard home, dir => home = some dir

/-- A source that writes `w` gives `c`, with the paths seen from the directory where the source
lies. The standard configuration without a home is given as it is. -/
def Gives (s : Source) (w c : Config) : Prop :=
  (s = .standard none ∧ c = w) ∨ (∃ dir, s.LiesIn dir) ∧ ∀ dir, s.LiesIn dir → IsSeenFrom dir w c

/-- An outcome is that of taking the configuration from a source, and only a configuration that can
be used is an outcome. -/
structure Decides (d : Disk) (s : Source) (outcome : Except ConfigError Config) : Prop where
  unwritten : ∀ e, s.written d = .error e → outcome = .error e
  faulty : ∀ w fault, s.written d = .ok w → w.fault? = some fault →
    outcome = .error (.invalid fault)
  usable : ∀ w, s.written d = .ok w → w.fault? = none → ∃ c, outcome = .ok c ∧ s.Gives w c
  valid : ∀ c, outcome = .ok c → c.fault? = none

/-- A configuration with its paths placed by where a source lies. -/
def place (s : Source) (w : Config) : Config :=
  match s with
  | .file p => w.resolved (p.parent?.getD ⟨"."⟩)
  | .standard home => home.elim w w.resolved

/-- The paths of a configuration do not matter for whether it can be used. -/
theorem fault?_place (s : Source) (w : Config) : (s.place w).fault? = w.fault? := by
  cases s with
  | file p => rfl
  | standard home => cases home <;> rfl

/-- A file that writes a configuration is an entry of its parent. -/
theorem exists_parent?_of_written (h : (Source.file p).written d = .ok w) :
    ∃ dir, p.parent? = some dir ∧ p.IsEntryOf dir := by
  cases hyaml : d.readText p with
  | error failure => simp [written, hyaml] at h
  | ok yaml =>
    obtain ⟨front, name, hpieces, hname⟩ :=
      Disk.exists_pieces_of_isFile (Disk.isFile_of_readText hyaml)
    exact Path.exists_parent? hpieces hname

theorem gives_place {s : Source} (h : s.written d = .ok w) : s.Gives w (s.place w) := by
  cases s with
  | file p =>
    obtain ⟨parent, hparent, hentry⟩ := exists_parent?_of_written h
    rw [place, hparent, Option.getD_some]
    -- The file may be written as an entry of other paths, too, but all of them are the same place.
    refine .inr ⟨⟨parent, hentry⟩, fun dir hdir => ?_⟩
    exact (isSeenFrom_resolved w parent).congr (hentry.components_eq hdir)
  | standard home =>
    cases home with
    | none => exact .inl ⟨rfl, rfl⟩
    | some home =>
      refine .inr ⟨⟨home, rfl⟩, fun dir hdir => ?_⟩
      obtain rfl := Option.some.inj hdir
      exact isSeenFrom_resolved w home

theorem decides_validate (d : Disk) (s : Source) :
    s.Decides d ((s.written d).map s.place >>= validate) where
  unwritten e he := by rw [he, Outcome.map_error, Outcome.error_bind]
  faulty w fault hw hfault := by
    rw [hw, Outcome.map_ok, Outcome.ok_bind, validate, fault?_place, hfault]
  usable w hw hfault := by
    refine ⟨s.place w, ?_, gives_place hw⟩
    rw [hw, Outcome.map_ok, Outcome.ok_bind, validate, fault?_place, hfault]
  valid c hc := by
    obtain ⟨w, -, hvalid⟩ := Outcome.bind_eq_ok.1 hc
    exact fault?_of_validate hvalid

end Source

theorem ofFile_eq (d : Disk) (p : Path) :
    ofFile d p = ((Source.file p).written d).map (Source.file p).place := by
  rw [ofFile, Source.written]
  cases d.readText p with
  | error failure => rfl
  | ok yaml => cases h : ofYaml? yaml <;> simp [h, Source.place]

/-- Without a named file the first home is asked only. -/
theorem found_eq (d : Disk) (env : Environment) :
    let s := Source.among d (env.homes.take 1)
    found d env = (s.written d).map s.place := by
  rw [found, env.home?_eq]
  cases env.homes with
  | nil => rfl
  | cons home rest =>
    simp only [List.head?_cons, List.take_succ_cons, List.take_zero]
    split
    next hfile => simp [Source.among, hfile, ofFile_eq]
    next hfile => simp [Source.among, hfile, Source.written, Source.place]

/-- Loading a configuration takes it from the source that is used. -/
theorem load_eq (d : Disk) (env : Environment) (file : Option Path) :
    let s := Source.used d env file
    load d env file = ((s.written d).map s.place >>= validate) := by
  cases file with
  | none => exact congrArg (· >>= validate) (found_eq d env)
  | some p => exact congrArg (· >>= validate) (ofFile_eq d p)

/-! ## The order of sources -/

/-- The file in the home of the user is not looked at: the checker has a home of its own, which has
no configuration file. -/
def Overlooks (d : Disk) (env : Environment) : Prop :=
  ∃ own user, env.checkerHome = some own ∧ own ≠ "" ∧ env.userHome = some user ∧
    d.isFile ((Path.mk own).child fileName) = false ∧
    d.isFile (((Path.mk user).child ".tac").child fileName) = true

/-- There are two homes, and only the second one has a configuration file. -/
theorem overlooks_iff : Overlooks d env ↔ ∃ own other, env.homes = [own, other] ∧
    d.isFile (own.child fileName) = false ∧ d.isFile (other.child fileName) = true := by
  unfold Overlooks Environment.homes
  cases env.checkerHome with
  | none => cases env.userHome <;> simp
  | some own =>
    by_cases hempty : own = "" <;> cases env.userHome <;> simp [Option.filter_some, hempty]

theorem length_homes_le (env : Environment) : env.homes.length ≤ 2 := by
  rw [Environment.homes, List.length_append]
  exact Nat.add_le_add Option.length_toList_le Option.length_toList_le

/-- Asking the first home only makes a difference if just the second one has a configuration
file. -/
theorem used_eq_inOrder_iff :
    Source.used d env none = Source.inOrder d env none ↔ ¬Overlooks d env := by
  rw [overlooks_iff]
  change Source.among d (env.homes.take 1) = Source.among d env.homes ↔ _
  match env.homes, length_homes_le env with
  | [], _ => simp
  | [own], _ => simp
  | [own, other], _ =>
    cases hown : d.isFile (own.child fileName) <;>
      cases hother : d.isFile (other.child fileName) <;>
        simp [Source.among, hown, hother]
  | _ :: _ :: _ :: _, hlength => simp at hlength

/-- A configuration is taken from the named file, or from the configuration file in the first home,
or else it is the standard one as seen from that home, and one that cannot be used is never the
outcome. That is the first source in the order unless the file in the home of the user is
overlooked: then the standard configuration is used, as seen from the home of the checker. -/
theorem load_follows_order_iff (d : Disk) (env : Environment) (file : Option Path) :
    (Source.used d env file).Decides d (load d env file) ∧
      (Source.used d env file = Source.inOrder d env file ↔ ¬(file = none ∧ Overlooks d env)) ∧
      (Overlooks d env → ∃ own, env.checkerHome = some own ∧
        Source.used d env none = .standard (some ⟨own⟩)) := by
  refine ⟨?_, ?_, fun h => ?_⟩
  · rw [load_eq]
    exact Source.decides_validate d _
  · cases file with
    | none => simpa using used_eq_inOrder_iff
    | some p => simp [Source.used, Source.inOrder]
  · obtain ⟨own, user, hown, hne, -, hfile, -⟩ := h
    refine ⟨own, hown, ?_⟩
    simp [Source.used, Source.among, Environment.homes, hown, hne, hfile, Option.filter_some]

/-! ### A home without a configuration file -/

/-- The checker has a home of its own, which is empty, and the home of the user has a configuration
file. -/
def twoHomes : Disk :=
  ⟨.directory [
    ("own", .directory []),
    ("user", .directory [
      (".tac", .directory [("config.yaml", .file (.ok "max_depth: 4\n"))])])], []⟩

/-- A home of the checker that is left empty is none, and the file in the home of the user is
used. -/
example : (load twoHomes ⟨some "", some "user"⟩ none).toOption.map
    (fun c => (c.maxDepth, c.defaultAssertions.map Path.text)) =
      some (4, some "user/.tac/default.assertions") := by
  decide +kernel

/-- The file in the home of the user comes first in the order, but the standard configuration is
used. -/
theorem load_overlooks_user_home :
    let env : Environment := ⟨some "own", some "user"⟩
    let s := Source.inOrder twoHomes env none
    s = .file ⟨"user/.tac/config.yaml"⟩ ∧
      (s.written twoHomes).toOption.map (fun w => (w.maxDepth, w.fault?)) = some (4, none) ∧
      (load twoHomes env none).toOption.map (fun c => (c.maxDepth, c.defaultAssertions)) =
        some (256, some ⟨"own/default.assertions"⟩) ∧
      ¬s.Decides twoHomes (load twoHomes env none) := by
  intro env s
  have hwritten : (s.written twoHomes).toOption.map (fun w => (w.maxDepth, w.fault?)) =
      some (4, none) := by
    decide +kernel
  have hload : (load twoHomes env none).toOption.map (fun c => (c.maxDepth, c.defaultAssertions)) =
      some (256, some ⟨"own/default.assertions"⟩) := rfl
  refine ⟨rfl, hwritten, hload, fun h => ?_⟩
  obtain ⟨w, hw, hfields⟩ := Option.map_eq_some_iff.1 hwritten
  obtain ⟨hdepth, hfault⟩ := Prod.mk.inj hfields
  obtain ⟨c, hc, hgives⟩ := h.usable w (Outcome.toOption_eq_some_iff.1 hw) hfault
  rw [hc] at hload
  -- Whatever is given keeps the depth that the file writes, and that is not the standard one.
  have hfour : c.maxDepth = 4 := by
    rcases hgives with ⟨-, rfl⟩ | ⟨⟨dir, hdir⟩, hseen⟩
    · exact hdepth
    · exact (hseen dir hdir).maxDepth_eq.trans hdepth
  have hlimit : c.maxDepth = 256 := (Prod.mk.inj (Option.some.inj hload)).1
  exact absurd (hfour.symm.trans hlimit) (by decide)

end Config

end TrafficCheck

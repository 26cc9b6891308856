import TrafficCheck.Disk
import TrafficCheck.Proofs.Outcome
import TrafficCheck.Proofs.Paths
import TrafficCheck.Proofs.Tables

/-!
# Directories

What can be asked of the directories of a disk, and what of that hangs on the order in which they
enumerate their entries.

## Main definitions

* `Disk.Lists`: a directory has an entry of a name.
* `Disk.WellNamed`: every directory names its entries properly and each of them differently.
* `Disk.Reorders`: two disks hold the same, and at most the orders of enumeration differ.
* `Disk.advance`: a disk whose directories enumerate the entry of a given name first.

## Main statements

* `Disk.WellNamed.of_names`: the names in a directory of a well-named disk.
* `Disk.walk_cases`: where a piece of a path leads.
* `Disk.locate_child`: the place of an entry.
* `Disk.exists_pieces_of_isFile`: a path to a file ends in a name.
* `Disk.reorders_advance`: an entry may come first in the order of enumeration.
-/

namespace TrafficCheck

namespace Entry

mutual

/-- Every directory of a tree names its entries properly and each of them differently. -/
def WellNamed : Entry → Prop
  | .file _ => True
  | .directory children => (children.map (·.1)).Nodup ∧ AllWellNamed children

/-- The entries have proper names, and so have all those below them. -/
def AllWellNamed : List (String × Entry) → Prop
  | [] => True
  | (name, e) :: rest => Path.IsName name ∧ e.WellNamed ∧ AllWellNamed rest

end

mutual

/-- Names can be looked through. -/
def decideWellNamed : (e : Entry) → Decidable e.WellNamed
  | .file _ => isTrue trivial
  | .directory children =>
    have := decideAllWellNamed children
    inferInstanceAs (Decidable (_ ∧ _))

/-- The names of some entries and of all those below them can be looked through. -/
def decideAllWellNamed : (children : List (String × Entry)) → Decidable (AllWellNamed children)
  | [] => isTrue trivial
  | (_, e) :: rest =>
    have := e.decideWellNamed
    have := decideAllWellNamed rest
    inferInstanceAs (Decidable (_ ∧ _ ∧ _))

end

instance (e : Entry) : Decidable e.WellNamed := e.decideWellNamed

variable {e e' : Entry} {first name : String} {names : List String}
  {children : List (String × Entry)}

theorem allWellNamed_iff :
    AllWellNamed children ↔ ∀ child ∈ children, Path.IsName child.1 ∧ child.2.WellNamed := by
  induction children with
  | nil => simp [AllWellNamed]
  | cons child rest ih => rw [AllWellNamed, ih, List.forall_mem_cons, and_assoc]

theorem WellNamed.follow (he : e.WellNamed) (hfollow : e.follow names = .ok e') : e'.WellNamed := by
  induction names generalizing e with
  | nil =>
    obtain rfl : e = e' := by
      cases e <;> exact Except.ok.inj hfollow
    exact he
  | cons name names ih =>
    cases e with
    | file content => exact absurd hfollow (by simp [Entry.follow])
    | directory children =>
      rw [Entry.follow] at hfollow
      split at hfollow
      next child hchild =>
        obtain ⟨before, after, rfl, -⟩ := List.lookup_eq_some_iff.1 hchild
        exact ih (allWellNamed_iff.1 he.2 (name, child) (by simp)).2 hfollow
      next => exact absurd hfollow (by simp)

/-- The way to an entry leads through directories. -/
theorem exists_follow_of_concat (h : e.follow (names ++ [name]) = .ok e') :
    ∃ children, e.follow names = .ok (.directory children) := by
  induction names generalizing e with
  | nil =>
    cases e with
    | file content => exact absurd h (by simp [follow])
    | directory children => exact ⟨children, rfl⟩
  | cons first names ih =>
    cases e with
    | file content => exact absurd h (by simp [follow])
    | directory children =>
      rw [List.cons_append, follow] at h
      rw [follow]
      split at h
      next child hchild => exact ih h
      next => exact absurd h (by simp)

/-! ## Orders of enumeration -/

/-- The children of a directory with those of a given name before the others. -/
def toFront (first : String) (children : List (String × Entry)) : List (String × Entry) :=
  (children.filter fun child => child.1 = first) ++ children.filter fun child => ¬child.1 = first

mutual

/-- The tree whose directories all enumerate the entry of a given name first. -/
def advance (first : String) : Entry → Entry
  | .file content => .file content
  | .directory children => .directory (toFront first (advanceAll first children))

/-- The children of a directory with the trees below them so enumerated. -/
def advanceAll (first : String) : List (String × Entry) → List (String × Entry)
  | [] => []
  | (name, e) :: rest => (name, e.advance first) :: advanceAll first rest

end

theorem lookup_toFront (key : String) :
    (toFront first children).lookup key = children.lookup key := by
  rw [toFront, List.lookup_append, Table.lookup_filter (fun name => decide (name = first)),
    Table.lookup_filter (fun name => decide ¬name = first)]
  by_cases hkey : key = first <;> simp [hkey]

theorem lookup_advanceAll (key : String) :
    (advanceAll first children).lookup key = (children.lookup key).map (advance first) := by
  induction children with
  | nil => rfl
  | cons child rest ih =>
    obtain ⟨name, e⟩ := child
    rw [advanceAll, List.lookup_cons, List.lookup_cons, ih]
    cases key == name <;> rfl

theorem map_fst_toFront : (toFront first children).map (·.1) =
    (children.map (·.1)).filter (· = first) ++ (children.map (·.1)).filter (¬· = first) := by
  simp [toFront, List.filter_map, Function.comp_def]

theorem map_fst_advanceAll : (advanceAll first children).map (·.1) = children.map (·.1) := by
  induction children with
  | nil => rfl
  | cons child rest ih => rw [advanceAll, List.map_cons, List.map_cons, ih]

theorem follow_advance (e : Entry) (names : List String) :
    (e.advance first).follow names = (e.follow names).map (advance first) := by
  induction names generalizing e with
  | nil => cases e <;> rfl
  | cons name names ih =>
    cases e with
    | file content => rfl
    | directory children =>
      rw [advance, follow, follow, lookup_toFront, lookup_advanceAll]
      cases children.lookup name with
      | none => rfl
      | some child => exact ih child

end Entry

namespace Disk

variable {d d' : Disk} {p : Path} {name first : String} {names : List String}

theorem isDirectory_iff : d.isDirectory p = true ↔ ∃ names, d.names p = .ok names := by
  rw [isDirectory, Disk.names]
  cases d.entry? p with
  | error failure => simp
  | ok e => cases e <;> simp [Entry.isDirectory]

/-- A path leads to a directory that has an entry of a name. -/
def Lists (d : Disk) (p : Path) (name : String) : Prop :=
  ∃ names, d.names p = .ok names ∧ name ∈ names

theorem lists_iff (hnames : d.names p = .ok names) : d.Lists p name ↔ name ∈ names := by
  simp [Lists, hnames]

theorem Lists.isDirectory (h : d.Lists p name) : d.isDirectory p = true :=
  let ⟨names, hnames, _⟩ := h
  isDirectory_iff.2 ⟨names, hnames⟩

/-- Every directory of the disk names its entries properly and each of them differently. -/
def WellNamed (d : Disk) : Prop := d.root.WellNamed

instance (d : Disk) : Decidable d.WellNamed := inferInstanceAs (Decidable d.root.WellNamed)

/-- The entries of a directory have proper names, each of them a different one. -/
theorem WellNamed.of_names (hd : d.WellNamed) (hnames : d.names p = .ok names) :
    names.Nodup ∧ ∀ name ∈ names, Path.IsName name := by
  unfold Disk.names entry? at hnames
  cases hlocate : d.locate p with
  | error failure => simp [hlocate] at hnames
  | ok place =>
    cases hfollow : d.root.follow place with
    | error failure => simp [hlocate, hfollow] at hnames
    | ok e =>
      have he := Entry.WellNamed.follow hd hfollow
      cases e with
      | file content => simp [hlocate, hfollow] at hnames
      | directory children =>
        simp only [hlocate, hfollow, Except.ok.injEq] at hnames
        refine hnames ▸ ⟨he.1, List.forall_mem_map.2 fun child hchild => ?_⟩
        exact (Entry.allWellNamed_iff.1 he.2 child hchild).1

theorem Lists.isName (hd : d.WellNamed) (h : d.Lists p name) : Path.IsName name :=
  let ⟨_, hnames, hmem⟩ := h
  (hd.of_names hnames).2 name hmem

/-! ## Places -/

theorem locate_eq_ok_iff : d.locate p = .ok names ↔
    vet p = .ok () ∧
      ∃ place, p.pieces.foldlM d.walk (d.start p) = .ok place ∧ names = place.reverse := by
  simp only [locate, Outcome.bind_eq_ok, Outcome.pure_eq, Except.ok.injEq, eq_comm (a := names)]
  exact ⟨fun ⟨_, h⟩ => h, fun h => ⟨(), h⟩⟩

/-- A file or a directory lies somewhere. -/
theorem exists_locate (h : d.isFile p = true ∨ d.isDirectory p = true) :
    ∃ place, d.locate p = .ok place := by
  unfold isFile isDirectory entry? at h
  cases hlocate : d.locate p with
  | error failure => simp [hlocate] at h
  | ok place => exact ⟨place, rfl⟩

/-- A piece is walked from a directory: it stays there, goes up, or leads to an entry. -/
theorem walk_cases {place place' : List String} {piece : String}
    (h : d.walk place piece = .ok place') :
    (∃ children, d.root.follow place.reverse = .ok (.directory children)) ∧
      (Path.isVoid piece = true ∧ place' = place ∨ piece = ".." ∧ place' = place.tail ∨
        Path.isVoid piece = false ∧ piece ≠ ".." ∧ place' = piece :: place) := by
  rw [walk] at h
  split at h
  next => exact absurd h (by simp)
  next => exact absurd h (by simp)
  next children hplace =>
    refine ⟨⟨children, hplace⟩, ?_⟩
    split_ifs at h with hvoid hdots hlong
    · exact .inl ⟨hvoid, (Except.ok.inj h).symm⟩
    · exact .inr (.inl ⟨hdots, (Except.ok.inj h).symm⟩)
    · exact .inr (.inr ⟨Bool.eq_false_iff.2 hvoid, hdots, (Except.ok.inj h).symm⟩)

theorem walk_void {place place' : List String} (h : d.walk place "" = .ok place') :
    place' = place := by
  rcases (walk_cases h).2 with ⟨-, hplace⟩ | ⟨hdots, -⟩ | ⟨hvoid, -⟩
  · exact hplace
  · exact absurd hdots (by decide)
  · exact absurd hvoid (by decide)

theorem walk_name {place place' : List String} (hname : Path.IsName name)
    (h : d.walk place name = .ok place') : place' = name :: place := by
  rcases (walk_cases h).2 with ⟨hvoid, -⟩ | ⟨hdots, -⟩ | ⟨-, -, hplace⟩
  · exact absurd (hname.1.symm.trans hvoid) Bool.false_ne_true
  · exact absurd hdots hname.2.1
  · exact hplace

/-- The place of an entry is that of its directory and then its name. -/
theorem locate_child {place place' : List String} (hname : Path.IsName name)
    (hp : d.locate p = .ok place) (hchild : d.locate (p.child name) = .ok place') :
    place' = place ++ [name] := by
  obtain ⟨-, up, hup, rfl⟩ := locate_eq_ok_iff.1 hp
  obtain ⟨-, down, hdown, rfl⟩ := locate_eq_ok_iff.1 hchild
  have hstart : d.start (p.child name) = d.start p := by
    rw [start, start, Path.child, Path.isAbsolute_join hname.isAbsolute_eq]
  rw [hstart] at hdown
  have hlast : down = name :: up := by
    rcases Path.pieces_child (p := p) hname with ⟨front, hpieces, hpieces'⟩ | hpieces'
    · rw [hpieces, List.foldlM_append, Outcome.bind_eq_ok] at hup
      rw [hpieces', List.foldlM_append, Outcome.bind_eq_ok] at hdown
      obtain ⟨mid, hmid, hup⟩ := hup
      obtain ⟨mid', hmid', hdown⟩ := hdown
      obtain rfl := Except.ok.inj (hmid.symm.trans hmid')
      simp only [List.foldlM_cons, List.foldlM_nil, bind_pure] at hup hdown
      rw [walk_void hup, walk_name hname hdown]
    · rw [hpieces', List.foldlM_append, hup, Outcome.ok_bind] at hdown
      simp only [List.foldlM_cons, List.foldlM_nil, bind_pure] at hdown
      exact walk_name hname hdown
  rw [hlast, List.reverse_cons]

/-! ## Files -/

theorem isFile_iff : d.isFile p = true ↔
    ∃ place content, d.locate p = .ok place ∧ d.root.follow place = .ok (.file content) := by
  rw [isFile, entry?]
  cases d.locate p with
  | error failure => simp
  | ok place =>
    cases hfollow : d.root.follow place with
    | error failure => simp [hfollow]
    | ok e => cases e <;> simp [hfollow, Entry.isFile]

theorem isFile_of_readText {text : String} (h : d.readText p = .ok text) : d.isFile p = true := by
  rw [readText] at h
  rw [isFile]
  split at h
  next hentry => rw [hentry]; rfl
  next => exact absurd h (by simp)
  next => exact absurd h (by simp)

/-- A path to a file ends in a name, since every other piece stays in a directory or goes up to
one. -/
theorem exists_pieces_of_isFile (h : d.isFile p = true) :
    ∃ front name, p.pieces = front ++ [name] ∧ Path.IsName name := by
  obtain ⟨names, content, hlocate, hfile⟩ := isFile_iff.1 h
  obtain ⟨-, place, hplace, rfl⟩ := locate_eq_ok_iff.1 hlocate
  obtain ⟨front, last, hpieces⟩ := List.eq_nil_or_concat p.pieces |>.resolve_left p.pieces_ne_nil
  rw [List.concat_eq_append] at hpieces
  refine ⟨front, last, hpieces, ?_⟩
  rw [hpieces, List.foldlM_append, Outcome.bind_eq_ok] at hplace
  obtain ⟨up, -, hlast⟩ := hplace
  simp only [List.foldlM_cons, List.foldlM_nil, bind_pure] at hlast
  obtain ⟨⟨children, hup⟩, hcases⟩ := walk_cases hlast
  rcases hcases with ⟨-, rfl⟩ | ⟨-, rfl⟩ | ⟨hvoid, hdots, -⟩
  · exact absurd (hup.symm.trans hfile) (by simp)
  · -- The root is above itself, and what is above any other place is a directory on the way to it.
    cases up with
    | nil => exact absurd (hup.symm.trans hfile) (by simp)
    | cons name up =>
      rw [List.reverse_cons] at hup
      obtain ⟨siblings, habove⟩ := Entry.exists_follow_of_concat hup
      exact absurd (habove.symm.trans hfile) (by simp)
  · exact ⟨hvoid, hdots, Path.slash_notMem_of_mem_pieces (p := p) (hpieces ▸ List.mem_concat_self)⟩

/-! ## Orders of enumeration -/

/-- Two disks hold the same entries at all paths, and at most the orders differ in which their
directories enumerate them. -/
structure Reorders (d d' : Disk) : Prop where
  isFile_eq : ∀ p, d'.isFile p = d.isFile p
  isDirectory_eq : ∀ p, d'.isDirectory p = d.isDirectory p
  readText_eq : ∀ p, d'.readText p = d.readText p
  names_perm : ∀ {p names}, d.names p = .ok names →
    ∃ names', d'.names p = .ok names' ∧ names'.Perm names

/-- The disk whose directories all enumerate the entry of a given name first. -/
def advance (first : String) (d : Disk) : Disk := { d with root := d.root.advance first }

theorem entry?_advance (p : Path) :
    Disk.entry? (d.advance first) p = (Disk.entry? d p).map (Entry.advance first) := by
  have hwalk : (d.advance first).walk = d.walk := by
    funext place piece
    unfold walk
    rw [advance, Entry.follow_advance]
    cases d.root.follow place.reverse with
    | error failure => rfl
    | ok e => cases e <;> rfl
  have hlocate : (d.advance first).locate p = d.locate p := by
    rw [locate, locate, hwalk]
    rfl
  unfold entry?
  rw [hlocate]
  cases d.locate p with
  | error failure => rfl
  | ok place => exact Entry.follow_advance d.root place

theorem names_advance (p : Path) : (d.advance first).names p =
    (d.names p).map fun names => names.filter (· = first) ++ names.filter (¬· = first) := by
  rw [Disk.names, Disk.names, entry?_advance]
  cases d.entry? p with
  | error failure => rfl
  | ok e =>
    cases e with
    | file content => rfl
    | directory children =>
      refine congrArg Except.ok ?_
      rw [Entry.map_fst_toFront, Entry.map_fst_advanceAll]

/-- A disk may enumerate an entry first, whatever is at stake. -/
theorem reorders_advance (first : String) (d : Disk) : d.Reorders (d.advance first) where
  isFile_eq p := by
    rw [isFile, isFile, entry?_advance]
    cases d.entry? p with
    | error failure => rfl
    | ok e => cases e <;> rfl
  isDirectory_eq p := by
    rw [isDirectory, isDirectory, entry?_advance]
    cases d.entry? p with
    | error failure => rfl
    | ok e => cases e <;> rfl
  readText_eq p := by
    rw [readText, readText, entry?_advance]
    cases d.entry? p with
    | error failure => rfl
    | ok e => cases e <;> rfl
  names_perm := by
    intro p names hnames
    refine ⟨_, by rw [names_advance, hnames]; rfl, ?_⟩
    simpa using List.filter_append_perm (fun name => decide (name = first)) names

end Disk

end TrafficCheck

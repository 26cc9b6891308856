import Mathlib.Data.List.Basic
import TrafficCheck.Path

/-!
# Paths below a path

A path seen from another one has the components of that one and then the names in its own text,
however both are written. So the names that lead down from a path can be read off its components,
and the parent of a path is what stands before its last name.

## Main definitions

* `Path.names`: the pieces of a path that name places.
* `Path.IsName`: a text that can name an entry of a directory.
* `Path.descend`: the path that some names lead down to.
* `Path.Apart`: neither of two paths is the other one or lies below it.
* `Path.IsEntryOf`: a path names an entry of a directory.

## Main statements

* `Path.components_join`, `Path.components_child`, `Path.components_descend`: the components of what
  lies below a path.
* `Path.exists_parent?`: a path that ends in a name names an entry of its parent.
* `Path.fileName?_child`, `Path.extension?_child_eq_some_iff`: the name and the extension of an
  entry.
-/

namespace TrafficCheck.Path

variable {p q : Path} {name : String} {trail : List String}

/-! ## Same paths -/

theorem beq_iff : (p == q) = true ↔ p.components = q.components := by
  change (p.components == q.components) = true ↔ _
  rw [beq_iff_eq]

instance : EquivBEq Path where
  rfl := beq_iff.2 rfl
  symm h := beq_iff.2 (beq_iff.1 h).symm
  trans h k := beq_iff.2 ((beq_iff.1 h).trans (beq_iff.1 k))

/-! ## Pieces -/

theorem intercalate_pieces (p : Path) : "/".intercalate p.pieces = p.text := by
  rw [← String.toList_inj, String.toList_intercalate, pieces, List.map_map]
  simp [Function.comp_def]

theorem pieces_ne_nil (p : Path) : p.pieces ≠ [] := by
  rw [pieces, Ne, List.map_eq_nil_iff]
  exact List.splitOn_ne_nil _ _

theorem slash_notMem_of_mem_pieces {piece : String} (h : piece ∈ p.pieces) :
    '/' ∉ piece.toList := by
  have hparts : ∀ cs : List Char, ∀ part ∈ cs.splitOn '/', '/' ∉ part := by
    intro cs
    induction cs with
    | nil => simp
    | cons c cs ih =>
      rw [List.splitOn_cons_eq_if_modifyHead]
      split
      next => simpa using ih
      next hc =>
        obtain ⟨first, rest, hsplit⟩ := List.exists_cons_of_ne_nil (List.splitOn_ne_nil '/' cs)
        rw [hsplit, List.forall_mem_cons] at ih
        rw [hsplit, List.modifyHead_cons, List.forall_mem_cons]
        rw [beq_iff_eq] at hc
        exact ⟨List.not_mem_cons_of_ne_of_not_mem (Ne.symm hc) ih.1, ih.2⟩
  obtain ⟨part, hpart, rfl⟩ := List.mem_map.1 h
  simpa using hparts _ part hpart

theorem pieces_append_separator (s : String) (name : String) :
    (Path.mk (s ++ "/" ++ name)).pieces = (Path.mk s).pieces ++ (Path.mk name).pieces := by
  have htext : (s ++ "/" ++ name).toList = s.toList ++ '/' :: name.toList := by simp
  rw [pieces, htext, List.splitOn_append_cons_self, List.map_append]
  rfl

/-- The root has a void piece on both sides of its separator. -/
theorem pieces_ofPieces {parts : List String} (hne : parts ≠ [])
    (h : ∀ part ∈ parts, '/' ∉ part.toList) :
    (ofPieces parts).pieces = if parts = [""] then ["", ""] else parts := by
  unfold ofPieces
  split
  next => rfl
  next hroot =>
    have hsplit : (['/'].intercalate (parts.map String.toList)).splitOn '/' =
        parts.map String.toList :=
      List.splitOn_intercalate '/' (by simpa using h) (by simpa using hne)
    rw [if_neg hroot, pieces, String.toList_intercalate]
    change ((['/'].intercalate (parts.map String.toList)).splitOn '/').map String.ofList = parts
    rw [hsplit, List.map_map]
    simp [Function.comp_def]

/-- The pieces that name a place. -/
def names (p : Path) : List String := p.pieces.filter fun piece => !isVoid piece

theorem isAbsolute_iff : p.isAbsolute = true ↔ ∃ rest, rest ≠ [] ∧ p.pieces = "" :: rest := by
  rw [isAbsolute, decide_eq_true_eq, pieces]
  cases p.text.toList with
  | nil => simp
  | cons c cs =>
    obtain ⟨first, rest, hsplit⟩ := List.exists_cons_of_ne_nil (List.splitOn_ne_nil '/' cs)
    rw [List.splitOn_cons_eq_if_modifyHead, hsplit]
    by_cases hc : c = '/'
    · simp [hc]
    · simp [hc]

/-- The components hang on the pieces alone: the first one may be the root or a dot that stays. -/
theorem components_eq {first : String} {rest : List String} (h : p.pieces = first :: rest) :
    p.components = (if first = "" ∧ rest ≠ [] then ["/"] else if first = "." then ["."] else []) ++
      p.names := by
  have hroot : p.isAbsolute = true ↔ first = "" ∧ rest ≠ [] := by
    rw [isAbsolute_iff, h]
    grind
  rw [components, h, names, h]
  grind

theorem text_eq_empty_iff : p.text = "" ↔ p.pieces = [""] := by
  constructor
  · intro h
    rw [pieces, h]
    rfl
  · intro h
    rw [← intercalate_pieces, h]
    rfl

theorem components_eq_nil_iff : p.components = [] ↔ p.text = "" := by
  obtain ⟨first, rest, h⟩ := List.exists_cons_of_ne_nil p.pieces_ne_nil
  rw [text_eq_empty_iff (p := p), components_eq h, names, h]
  simp only [List.append_eq_nil_iff]
  constructor
  · intro ⟨hroot, hnames⟩
    have hvoid : isVoid first = true := by
      have := List.filter_eq_nil_iff.1 hnames first (by simp)
      simpa using this
    grind [isVoid]
  · intro heq
    obtain ⟨rfl, rfl⟩ := List.cons.inj heq
    decide

/-! ## Names -/

/-- A text can name an entry: it is not void, not the way up, and holds no separator. -/
def IsName (name : String) : Prop := isVoid name = false ∧ name ≠ ".." ∧ '/' ∉ name.toList

instance : Decidable (IsName name) := inferInstanceAs (Decidable (_ ∧ _))

theorem IsName.ne {other : String} (h : IsName name) (hother : ¬IsName other) : name ≠ other :=
  fun heq => hother (heq ▸ h)

theorem IsName.isAbsolute_eq (h : IsName name) : (Path.mk name).isAbsolute = false := by
  rw [isAbsolute, decide_eq_false_iff_not]
  exact fun hhead => h.2.2 (List.mem_of_mem_head? hhead)

theorem IsName.pieces_eq (h : IsName name) : (Path.mk name).pieces = [name] := by
  rw [pieces, List.splitOn_eq_singleton h.2.2]
  simp

theorem IsName.names_eq (h : IsName name) : (Path.mk name).names = [name] := by
  rw [names, h.pieces_eq, List.filter_singleton, h.1]
  rfl

/-! ## Joined paths -/

theorem join_of_isAbsolute (h : q.isAbsolute = true) : p.join q = q := by
  rw [join, if_pos h]

theorem join_of_not_isAbsolute (h : q.isAbsolute = false) : p.join q =
    if p.text.isEmpty || p.text.toList.getLast? = some '/' then ⟨p.text ++ q.text⟩
    else ⟨p.text ++ "/" ++ q.text⟩ := by
  rw [join, h, if_neg Bool.false_ne_true]

theorem join_of_text_eq_empty (hp : p.text = "") : p.join q = q := by
  rw [join, hp]
  split <;> simp

/-- The pieces of a path follow those of another one, or the first of them takes the place of the
void piece that a separator at the end leaves. -/
theorem pieces_join (h : q.isAbsolute = false) :
    (∃ front, p.pieces = front ++ [""] ∧ (p.join q).pieces = front ++ q.pieces) ∨
      (p.join q).pieces = p.pieces ++ q.pieces := by
  rw [join_of_not_isAbsolute h]
  split
  next hend =>
    left
    rw [Bool.or_eq_true, decide_eq_true_eq] at hend
    rcases hend with hempty | hlast
    · refine ⟨[], ?_, ?_⟩
      · exact text_eq_empty_iff.1 (String.isEmpty_iff.1 hempty)
      · rw [String.isEmpty_iff.1 hempty, String.empty_append, List.nil_append]
    · obtain ⟨front, hfront⟩ := List.getLast?_eq_some_iff.1 hlast
      have htext : p.text = String.ofList front ++ "/" := by
        rw [← String.toList_inj, hfront]
        simp
      have hp : p = ⟨String.ofList front ++ "/" ++ ""⟩ := by
        rw [String.append_empty, ← htext]
      refine ⟨(Path.mk (String.ofList front)).pieces, ?_, ?_⟩
      · rw [hp, pieces_append_separator]
        rfl
      · rw [htext, pieces_append_separator]
  next =>
    right
    rw [pieces_append_separator]

theorem names_join (h : q.isAbsolute = false) : (p.join q).names = p.names ++ q.names := by
  have hempty : isVoid "" = true := by decide
  rcases pieces_join (p := p) h with ⟨front, hp, hjoin⟩ | hjoin
  · simp [names, hp, hjoin, hempty]
  · simp [names, hjoin]

/-- A path seen from another one goes on where that one ends. -/
theorem components_join (h : q.isAbsolute = false) (hp : p.text ≠ "") :
    (p.join q).components = p.components ++ q.names := by
  obtain ⟨first, rest, hpieces⟩ := List.exists_cons_of_ne_nil p.pieces_ne_nil
  -- An empty first piece is the root, since something follows it: only the empty path has no more.
  have hrest : first = "" → rest ≠ [] := by
    rintro rfl rfl
    exact hp (text_eq_empty_iff.2 hpieces)
  obtain ⟨rest', hjoin, hrest'⟩ : ∃ rest', (p.join q).pieces = first :: rest' ∧ rest' ≠ [] := by
    rcases pieces_join (p := p) h with ⟨front, hfront, hjoin⟩ | hjoin
    · rw [hpieces] at hfront
      cases front with
      | nil =>
        obtain ⟨rfl, rfl⟩ := List.cons.inj hfront
        exact absurd rfl (hrest rfl)
      | cons first' front =>
        obtain ⟨rfl, -⟩ := List.cons.inj hfront
        exact ⟨front ++ q.pieces, hjoin, by simp [q.pieces_ne_nil]⟩
    · exact ⟨rest ++ q.pieces, by rw [hjoin, hpieces, List.cons_append], by simp [q.pieces_ne_nil]⟩
  rw [components_eq hpieces, components_eq hjoin, names_join h, List.append_assoc]
  by_cases hfirst : first = ""
  · simp [hfirst, hrest', hrest hfirst]
  · simp [hfirst]

theorem components_join_congr {p' : Path} (h : q.isAbsolute = false)
    (hp : p.components = p'.components) : (p.join q).components = (p'.join q).components := by
  by_cases hempty : p.text = ""
  · have hempty' : p'.text = "" := by
      rw [← components_eq_nil_iff, ← hp, components_eq_nil_iff, hempty]
    rw [join_of_text_eq_empty hempty, join_of_text_eq_empty hempty']
  · have hempty' : p'.text ≠ "" := by
      rwa [Ne, ← components_eq_nil_iff, ← hp, components_eq_nil_iff]
    rw [components_join h hempty, components_join h hempty', hp]

theorem isAbsolute_join (h : q.isAbsolute = false) : (p.join q).isAbsolute = p.isAbsolute := by
  by_cases hp : p.text = ""
  · rw [join_of_text_eq_empty hp, h, isAbsolute, hp]
    rfl
  · obtain ⟨c, cs, htext⟩ := List.exists_cons_of_ne_nil (mt String.toList_eq_nil_iff.1 hp)
    rw [join_of_not_isAbsolute h]
    split <;> simp [isAbsolute, htext]

/-! ## Entries -/

/-- A name follows the pieces of a path, or it takes the place of the void piece that a separator at
the end leaves. -/
theorem pieces_child (h : IsName name) :
    (∃ front, p.pieces = front ++ [""] ∧ (p.child name).pieces = front ++ [name]) ∨
      (p.child name).pieces = p.pieces ++ [name] := by
  rw [← h.pieces_eq]
  exact pieces_join h.isAbsolute_eq

theorem components_child (h : IsName name) :
    (p.child name).components = p.components ++ [name] := by
  by_cases hp : p.text = ""
  · have hdot : name ≠ "." := h.ne (by decide)
    rw [child, join_of_text_eq_empty hp, components_eq h.pieces_eq, components_eq_nil_iff.2 hp,
      h.names_eq]
    simp [hdot]
  · rw [child, components_join h.isAbsolute_eq hp, h.names_eq]

theorem fileName?_child (h : IsName name) : (p.child name).fileName? = some name := by
  have hslash : name ≠ "/" := h.ne (by decide)
  have hdot : name ≠ "." := h.ne (by decide)
  rw [fileName?, components_child h, List.getLast?_concat]
  simp [hslash, hdot, h.2.1]

/-- Entries of one directory are the same only if their names are. -/
theorem child_inj {other : String} (h : IsName name) (hother : IsName other)
    (heq : p.child name = p.child other) : name = other := by
  have hnames := congrArg fileName? heq
  rw [fileName?_child h, fileName?_child hother] at hnames
  exact Option.some.inj hnames

/-! ## What lies below a path -/

/-- The path that some names lead down to from a path. -/
def descend (p : Path) (trail : List String) : Path := trail.foldl child p

@[simp] theorem descend_nil (p : Path) : p.descend [] = p := rfl

@[simp] theorem descend_cons (p : Path) (name : String) (trail : List String) :
    p.descend (name :: trail) = (p.child name).descend trail := rfl

theorem components_descend (h : ∀ name ∈ trail, IsName name) :
    (p.descend trail).components = p.components ++ trail := by
  induction trail generalizing p with
  | nil => simp
  | cons name trail ih =>
    rw [List.forall_mem_cons] at h
    rw [descend_cons, ih h.2, components_child h.1, List.append_assoc, List.singleton_append]

/-- Neither of two paths is the other one or lies below it. -/
def Apart (p q : Path) : Prop := ¬p.components <+: q.components ∧ ¬q.components <+: p.components

/-! ## Parents -/

/-- A path names an entry of a directory, which is told by another path. -/
def IsEntryOf (p dir : Path) : Prop := ∃ name, IsName name ∧ (dir.child name == p) = true

theorem isEntryOf_iff {dir : Path} :
    p.IsEntryOf dir ↔ ∃ name, IsName name ∧ p.components = dir.components ++ [name] := by
  refine exists_congr fun name => and_congr_right fun h => ?_
  rw [beq_iff, components_child h, eq_comm]

/-- There is only one directory that a path names an entry of. -/
theorem IsEntryOf.components_eq {dir dir' : Path} (h : p.IsEntryOf dir) (h' : p.IsEntryOf dir') :
    dir.components = dir'.components := by
  obtain ⟨name, -, hp⟩ := isEntryOf_iff.1 h
  obtain ⟨name', -, hp'⟩ := isEntryOf_iff.1 h'
  exact (List.append_inj' (hp.symm.trans hp') rfl).1

theorem filter_dropWhile_isVoid (parts : List String) :
    (parts.dropWhile isVoid).filter (fun part => !isVoid part) =
      parts.filter fun part => !isVoid part := by
  induction parts with
  | nil => rfl
  | cons part parts ih => cases hpart : isVoid part <;> simp [hpart, ih]

theorem withoutVoidEnd_cons (first : String) (rest : List String) : ∃ rest',
    withoutVoidEnd (first :: rest) = first :: rest' ∧ rest' <+: rest ∧
      rest'.filter (fun part => !isVoid part) = rest.filter fun part => !isVoid part := by
  refine ⟨(rest.reverse.dropWhile isVoid).reverse, rfl, ?_, ?_⟩
  · rw [← List.reverse_suffix, List.reverse_reverse]
    exact List.dropWhile_suffix isVoid
  · rw [List.filter_reverse, filter_dropWhile_isVoid, List.filter_reverse, List.reverse_reverse]

theorem withoutVoidEnd_concat (first : String) (rest : List String) (h : IsName name) :
    withoutVoidEnd (first :: (rest ++ [name])) = first :: (rest ++ [name]) := by
  simp [withoutVoidEnd, h.1]

/-- What stands before the last piece names a place of its own: the root if its first piece is
empty. -/
theorem components_ofPieces_withoutVoidEnd {first : String} {rest : List String}
    (h : ∀ part ∈ first :: rest, '/' ∉ part.toList) :
    (ofPieces (withoutVoidEnd (first :: rest))).components =
      (if first = "" then ["/"] else if first = "." then ["."] else []) ++
        (first :: rest).filter fun part => !isVoid part := by
  obtain ⟨rest', heq, hprefix, hfilter⟩ := withoutVoidEnd_cons first rest
  have hparts : ∀ part ∈ first :: rest', '/' ∉ part.toList := fun part hpart =>
    h part (List.cons_subset_cons first hprefix.subset hpart)
  have hnames : (first :: rest').filter (fun part => !isVoid part) =
      (first :: rest).filter fun part => !isVoid part := by
    simp only [List.filter_cons, hfilter]
  have hpieces := pieces_ofPieces (List.cons_ne_nil first rest') hparts
  rw [heq, ← hnames]
  split at hpieces
  next hroot =>
    obtain ⟨rfl, rfl⟩ := List.cons.inj hroot
    rw [components_eq hpieces, names, hpieces]
    simp [isVoid]
  next hroot =>
    have hrest : first = "" → rest' ≠ [] := by
      rintro rfl rfl
      exact hroot rfl
    rw [components_eq hpieces, names, hpieces]
    by_cases hempty : first = ""
    · simp [hempty, hrest hempty]
    · simp [hempty]

theorem parent?_of_pieces {first : String} {front : List String}
    (hp : p.pieces = first :: (front ++ [name])) (h : IsName name) :
    p.parent? = some (ofPieces (withoutVoidEnd (first :: front))) := by
  rw [parent?, hp, withoutVoidEnd_concat first front h]
  split
  next hnil => exact absurd hnil (by simp)
  next hsingle => exact absurd hsingle (by simp)
  next first' rest _ hcons =>
    obtain ⟨rfl, rfl⟩ := List.cons.inj hcons
    rw [List.dropLast_concat]

/-- The parent of a name alone is the empty path. -/
theorem parent?_of_isName (h : IsName name) : (Path.mk name).parent? = some ⟨""⟩ := by
  have hne : name ≠ "" := h.ne (by decide)
  rw [parent?, h.pieces_eq]
  simp [withoutVoidEnd, hne]

/-- A path that ends in a name has a parent, and names an entry of it. -/
theorem exists_parent? {front : List String} (hp : p.pieces = front ++ [name]) (h : IsName name) :
    ∃ dir, p.parent? = some dir ∧ p.IsEntryOf dir := by
  cases front with
  | nil =>
    obtain rfl : p = ⟨name⟩ := by
      have htext := intercalate_pieces p
      rw [hp, List.nil_append, String.intercalate_singleton] at htext
      rw [htext]
    refine ⟨⟨""⟩, parent?_of_isName h, name, h, ?_⟩
    rw [child, join_of_text_eq_empty rfl]
    exact beq_iff.2 rfl
  | cons first front =>
    refine ⟨_, parent?_of_pieces hp h, isEntryOf_iff.2 ⟨name, h, ?_⟩⟩
    have hparts : ∀ part ∈ first :: front, '/' ∉ part.toList := fun part hpart =>
      slash_notMem_of_mem_pieces (p := p) (hp ▸ List.mem_append_left [name] hpart)
    have hnames : p.names = (first :: front).filter (fun part => !isVoid part) ++ [name] := by
      rw [names, hp, List.filter_append, List.filter_singleton, h.1]
      rfl
    rw [components_ofPieces_withoutVoidEnd hparts, components_eq hp, hnames, ← List.append_assoc]
    simp

/-! ## Extensions -/

/-- An entry that is not hidden has an extension just if its name ends in a dot and that
extension. -/
theorem extension?_child_eq_some_iff {ext : String} (h : IsName name)
    (hvisible : name.toList.head? ≠ some '.') (hext : '.' ∉ ext.toList) :
    (p.child name).extension? = some ext ↔ '.' :: ext.toList <:+ name.toList := by
  have hdot : ∀ c ∈ ext.toList.reverse, (c != '.') = true := by
    intro c hc
    rw [bne_iff_ne]
    rintro rfl
    exact hext (List.mem_reverse.1 hc)
  rw [extension?, fileName?_child h]
  dsimp only
  constructor
  · intro hsome
    split at hsome
    next c d front hdrop =>
      obtain rfl : c = '.' := by
        have hhead := List.head?_dropWhile_not (· != '.') name.toList.reverse
        rw [hdrop] at hhead
        simpa using hhead
      have hbehind : ext.toList.reverse = name.toList.reverse.takeWhile (· != '.') := by
        rw [← Option.some.inj hsome]
        simp
      refine List.reverse_prefix.1 ⟨d :: front, ?_⟩
      rw [List.reverse_cons, hbehind, List.append_assoc, List.singleton_append, ← hdrop]
      exact List.takeWhile_append_dropWhile
    next => exact absurd hsome (by simp)
  · rintro ⟨stem, hstem⟩
    have hreverse : name.toList.reverse = ext.toList.reverse ++ '.' :: stem.reverse := by
      rw [← hstem]
      simp
    rw [hreverse, List.dropWhile_append_of_pos hdot, List.takeWhile_append_of_pos hdot]
    cases hrev : stem.reverse with
    | nil =>
      obtain rfl := List.reverse_eq_nil_iff.1 hrev
      exact absurd (by rw [← hstem]; rfl) hvisible
    | cons c front => simp

end TrafficCheck.Path

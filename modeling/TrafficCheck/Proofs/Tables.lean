import TrafficCheck.Proofs.Outcome
import TrafficCheck.Table

/-!
# Entries of tables

A table holds each key once, so that its entries are exactly what looking up finds.

## Main definitions

* `Table.mapValues`: a table with every value replaced by its image.

## Main statements

* `Table.mem_entries_iff`: the entries of a table are the keys with their values.
* `Table.foldlM_get?`: what a run over entries fills into a table, if each step fills in its own
  key.
* `Table.ext_get?`: a table is what looking up finds.
* `Table.get?_ofList`, `Table.contains_ofList`: what a filled table holds.
* `Table.ofList_map`: filling a table commutes with replacing values.
* `NameSet.contains_addAll`, `NameSet.contains_foldl_addAll`: which names a set holds after some
  were added.
-/

namespace TrafficCheck.Table

/-- No text comes before itself. -/
instance irreflText : Std.Irrefl (α := String) (· < ·) := ⟨String.lt_irrefl⟩

variable {κ α β ε : Type}

section Ordered

variable [LT κ] [Std.Irrefl (α := κ) (· < ·)]

theorem keys_nodup (t : Table κ α) : (t.entries.map (·.1)).Nodup := by
  refine t.ordered.imp ?_
  rintro k l hlt rfl
  exact absurd hlt (Std.Irrefl.irrefl k)

end Ordered

variable [DecidableEq κ]

theorem lookup_eq_some_iff {es : List (κ × α)} {key : κ} {a : α} (h : (es.map (·.1)).Nodup) :
    es.lookup key = some a ↔ (key, a) ∈ es := by
  induction es with
  | nil => simp
  | cons e rest ih =>
    obtain ⟨other, b⟩ := e
    rw [List.map_cons, List.nodup_cons] at h
    by_cases hkey : key = other
    · subst hkey
      have habsent : (key, a) ∉ rest := fun ha => h.1 (List.mem_map.2 ⟨_, ha, rfl⟩)
      simp [habsent, eq_comm]
    · simp [lookup_cons, hkey, ih h.2]

theorem lookup_eq_none {es : List (κ × α)} {key : κ} (h : key ∉ es.map (·.1)) :
    es.lookup key = none := by
  rw [List.lookup_eq_none_iff]
  intro e he
  exact bne_iff_ne.2 fun heq => h (heq ▸ List.mem_map_of_mem he)

theorem lookup_filter (p : κ → Bool) (key : κ) (es : List (κ × α)) :
    (es.filter fun e => p e.1).lookup key = if p key then es.lookup key else none := by
  induction es with
  | nil => simp
  | cons e rest ih =>
    obtain ⟨other, b⟩ := e
    by_cases hkey : key = other
    · subst hkey
      cases hp : p key <;> simp [hp, ih]
    · cases hp : p other <;> simp [lookup_cons, hp, hkey, ih]

theorem lookup_map (f : α → β) (key : κ) (es : List (κ × α)) :
    (es.map fun e => (e.1, f e.2)).lookup key = (es.lookup key).map f := by
  induction es with
  | nil => rfl
  | cons e rest ih =>
    rw [List.map_cons, lookup_cons, lookup_cons, ih]
    split <;> rfl

section Entries

variable [LT κ] [Std.Irrefl (α := κ) (· < ·)] {t : Table κ α} {key : κ} {a : α}

theorem mem_entries_iff : (key, a) ∈ t.entries ↔ t.get? key = some a :=
  (lookup_eq_some_iff t.keys_nodup).symm

theorem mem_values_iff : a ∈ t.values ↔ ∃ key, t.get? key = some a := by
  simp [values, ← mem_entries_iff]

/-- Tables that hold the same values under all keys are equal. -/
theorem ext_get? [Trans (α := κ) (· < ·) (· < ·) (· < ·)] {t' : Table κ α}
    (h : ∀ key, t.get? key = t'.get? key) : t = t' := by
  have hmem : ∀ e, e ∈ t.entries ↔ e ∈ t'.entries := by
    rintro ⟨key, a⟩
    rw [mem_entries_iff, mem_entries_iff, h key]
  have hnodup : ∀ t : Table κ α, t.entries.Nodup := fun t =>
    List.Pairwise.of_map _ (fun _ _ hne heq => hne (congrArg _ heq)) t.keys_nodup
  have hperm : t.entries.Perm t'.entries :=
    (List.perm_ext_iff_of_nodup (hnodup t) (hnodup t')).2 hmem
  have hentries : t.entries = t'.entries := by
    refine hperm.eq_of_pairwise ?_ (List.pairwise_map.1 t.ordered) (List.pairwise_map.1 t'.ordered)
    intro e e' _ _ hlt hgt
    exact absurd (Std.lt_trans hlt hgt) (Std.Irrefl.irrefl e.1)
  cases t
  cases t'
  exact (Table.mk.injEq ..).mpr hentries

theorem size_ne_zero_iff : t.size ≠ 0 ↔ ∃ key a, t.get? key = some a := by
  simp only [size, ← mem_entries_iff, ne_eq, List.length_eq_zero_iff]
  constructor
  · intro h
    obtain ⟨⟨k, b⟩, hmem⟩ := List.exists_mem_of_ne_nil _ h
    exact ⟨k, b, hmem⟩
  · rintro ⟨k, b, hmem⟩
    exact List.ne_nil_of_mem hmem

end Entries

/-- A run over entries each of whose steps fills in the value of its own key, if there is one, fills
in the values of all keys. -/
theorem foldlM_get? [LT κ] {f : Table κ β → κ × α → Except ε (Table κ β)}
    {es : List (κ × α)} {bound bound' : Table κ β} (val : α → Option β)
    (hstep : ∀ bound e bound', f bound e = .ok bound' → ∀ key,
      bound'.get? key = if key = e.1 then (val e.2).or (bound.get? key) else bound.get? key)
    (hkeys : (es.map (·.1)).Nodup) (h : es.foldlM f bound = .ok bound') (key : κ) :
    bound'.get? key = ((es.lookup key).bind val).or (bound.get? key) := by
  induction es generalizing bound with
  | nil =>
    obtain rfl := Except.ok.inj h
    simp
  | cons e rest ih =>
    rw [List.foldlM_cons, Outcome.bind_eq_ok] at h
    obtain ⟨mid, hmid, hrest⟩ := h
    rw [List.map_cons, List.nodup_cons] at hkeys
    rw [ih hkeys.2 hrest, hstep bound e mid hmid, lookup_cons]
    by_cases hkey : key = e.1
    · have habsent : rest.lookup e.1 = none := lookup_eq_none hkeys.1
      simp [hkey, habsent]
    · simp [hkey]

/-! ## Parts and images -/

section Images

variable [LT κ]

theorem get?_restrict (p : κ → Bool) (t : Table κ α) (key : κ) :
    (t.restrict p).get? key = if p key then t.get? key else none := lookup_filter p key t.entries

/-- The table with every value replaced by its image. -/
def mapValues (f : α → β) (t : Table κ α) : Table κ β where
  entries := t.entries.map fun e => (e.1, f e.2)
  ordered := by
    rw [List.map_map]
    exact t.ordered

@[simp] theorem get?_mapValues (f : α → β) (t : Table κ α) (key : κ) :
    (t.mapValues f).get? key = (t.get? key).map f := lookup_map f key t.entries

omit [DecidableEq κ] in
@[simp] theorem values_mapValues (f : α → β) (t : Table κ α) :
    (t.mapValues f).values = t.values.map f := by
  simp [values, mapValues]

end Images

/-! ## Filling tables -/

section Insertion

variable [LT κ] [DecidableLT κ]

theorem put_map (f : α → β) (key : κ) (a : α) (es : List (κ × α)) :
    put key (f a) (es.map fun e => (e.1, f e.2)) = (put key a es).map fun e => (e.1, f e.2) := by
  induction es with
  | nil => rfl
  | cons e rest ih =>
    by_cases hkey : key = e.1
    · simp [put, hkey]
    · by_cases hlt : key < e.1
      · simp [put, hkey, hlt]
      · simp [put, hkey, hlt, ih]

variable [Trans (α := κ) (· < ·) (· < ·) (· < ·)] [Std.Trichotomous (α := κ) (· < ·)]

theorem contains_insert (t : Table κ α) (key x : κ) (a : α) :
    (t.insert key a).contains x = true ↔ x = key ∨ t.contains x = true := by
  unfold contains
  rw [get?_insert]
  by_cases hx : x = key <;> simp [hx]

theorem get?_foldl_insert {es : List (κ × α)} (hkeys : (es.map (·.1)).Nodup) (t : Table κ α)
    (key : κ) :
    (es.foldl (fun t e => t.insert e.1 e.2) t).get? key = (es.lookup key).or (t.get? key) := by
  induction es generalizing t with
  | nil => rfl
  | cons e rest ih =>
    rw [List.map_cons, List.nodup_cons] at hkeys
    rw [List.foldl_cons, ih hkeys.2, get?_insert, lookup_cons]
    by_cases hkey : key = e.1
    · have habsent : rest.lookup e.1 = none := lookup_eq_none hkeys.1
      simp [hkey, habsent]
    · simp [hkey]

theorem get?_ofList {es : List (κ × α)} (hkeys : (es.map (·.1)).Nodup) (key : κ) :
    (ofList es).get? key = es.lookup key := by
  rw [ofList, get?_foldl_insert hkeys, get?_empty, Option.or_none]

/-- What a table holds that is filled from a list with different keys. -/
theorem get?_ofList_map {σ : Type} {l : List σ} {f : σ → κ} (hkeys : (l.map f).Nodup) (g : σ → α)
    {x : σ} (hx : x ∈ l) : (ofList (l.map fun y => (f y, g y))).get? (f x) = some (g x) := by
  have hnodup : ((l.map fun y => (f y, g y)).map (·.1)).Nodup := by
    rw [List.map_map]
    exact hkeys
  rw [get?_ofList hnodup, lookup_eq_some_iff hnodup]
  exact List.mem_map.2 ⟨x, hx, rfl⟩

theorem contains_foldl_insert {es : List (κ × α)} (t : Table κ α) (key : κ) :
    (es.foldl (fun t e => t.insert e.1 e.2) t).contains key = true ↔
      key ∈ es.map (·.1) ∨ t.contains key = true := by
  induction es generalizing t with
  | nil => simp
  | cons e rest ih =>
    rw [List.foldl_cons, ih, contains_insert, List.map_cons, List.mem_cons, or_left_comm, or_assoc]

/-- A filled table has the keys of the entries that fill it. -/
theorem contains_ofList {es : List (κ × α)} {key : κ} :
    (ofList es).contains key = true ↔ key ∈ es.map (·.1) := by
  rw [ofList, contains_foldl_insert]
  simp [contains]

theorem contains_ofList_map {σ : Type} {l : List σ} {f : σ → κ} {g : σ → α} {key : κ} :
    (ofList (l.map fun y => (f y, g y))).contains key = true ↔ ∃ x ∈ l, f x = key := by
  rw [contains_ofList, List.map_map, List.mem_map]
  rfl

/-- Entries of different keys all find room in a table. -/
theorem size_ofList [Std.Irrefl (α := κ) (· < ·)] {es : List (κ × α)}
    (hkeys : (es.map (·.1)).Nodup) : (ofList es).size = es.length := by
  have hnodup : (ofList es).keys.Nodup := keys_nodup _
  have hperm : (ofList es).keys.Perm (es.map (·.1)) := by
    refine (List.perm_ext_iff_of_nodup hnodup hkeys).2 fun key => ?_
    rw [mem_keys_iff, contains_ofList]
  have hlength := hperm.length_eq
  rwa [keys, List.length_map, List.length_map] at hlength

theorem insert_mapValues (f : α → β) (t : Table κ α) (key : κ) (a : α) :
    (t.mapValues f).insert key (f a) = (t.insert key a).mapValues f := by
  rw [insert, insert, mapValues, Table.mk.injEq]
  exact put_map f key a t.entries

/-- The table of entries with replaced values is the table of the entries with its values
replaced. -/
theorem ofList_map (f : α → β) (es : List (κ × α)) :
    ofList (es.map fun e => (e.1, f e.2)) = (ofList es).mapValues f := by
  have hfill : ∀ t : Table κ α, es.foldl (fun t e => t.insert e.1 (f e.2)) (t.mapValues f) =
      (es.foldl (fun t e => t.insert e.1 e.2) t).mapValues f := by
    induction es with
    | nil => exact fun t => rfl
    | cons e rest ih =>
      intro t
      rw [List.foldl_cons, List.foldl_cons, insert_mapValues, ih]
  rw [ofList, List.foldl_map]
  exact hfill empty

end Insertion

end TrafficCheck.Table

namespace TrafficCheck.NameSet

/-! ## Sets of names -/

variable {s : NameSet} {names : List String} {name : String}

theorem contains_addAll :
    (s.addAll names).contains name = true ↔ s.contains name = true ∨ name ∈ names := by
  unfold addAll
  induction names generalizing s with
  | nil => simp
  | cons first rest ih =>
    rw [List.foldl_cons, ih, Table.contains_insert, List.mem_cons, or_assoc, or_left_comm]

/-- Names that were added list by list are those of the lists. -/
theorem contains_foldl_addAll {α : Type} {as : List α} (f : α → List String) :
    (as.foldl (fun names a => names.addAll (f a)) s).contains name = true ↔
      s.contains name = true ∨ ∃ a ∈ as, name ∈ f a := by
  induction as generalizing s with
  | nil => simp
  | cons a rest ih =>
    rw [List.foldl_cons, ih, contains_addAll, or_assoc]
    simp

theorem contains_ofNames : (ofNames names).contains name = true ↔ name ∈ names := by
  have haddAll : ofNames names = addAll .empty names := by
    rw [ofNames, Table.ofList, List.foldl_map]
    rfl
  rw [haddAll, contains_addAll]
  simp [Table.contains]

theorem mem_keys_ofNames : name ∈ (ofNames names).keys ↔ name ∈ names := by
  rw [Table.mem_keys_iff, contains_ofNames]

end TrafficCheck.NameSet

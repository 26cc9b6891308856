/-!
# Ordered tables

A finite map as the list of its entries in ascending order of key, each key once. Two tables with
the same entries are equal, so a table does not remember how it was filled.

## Main statements

* `get?_insert`: what a table holds after an insertion.
* `mem_keys_iff`: the keys are those with a value.
-/

namespace TrafficCheck

/-- Texts are ordered by their characters, and that order is transitive. -/
instance transText : Trans (α := String) (· < ·) (· < ·) (· < ·) := ⟨fun h k => String.lt_trans h k⟩

/-- Of two different texts one comes first. -/
instance trichotomousText : Std.Trichotomous (α := String) (· < ·) where
  trichotomous _ _ hst hts :=
    String.le_antisymm (String.not_lt.1 hts) (String.not_lt.1 hst)

/-- Entries in ascending order of key. -/
structure Table (κ α : Type) [LT κ] where
  entries : List (κ × α)
  ordered : (entries.map (·.1)).Pairwise (· < ·)

namespace Table

/-- The first entry has its key, or the value is that of a later one. -/
theorem lookup_cons {κ α : Type} [DecidableEq κ] (key other : κ) (a : α) (es : List (κ × α)) :
    ((other, a) :: es).lookup key = if key = other then some a else es.lookup key := by
  by_cases h : key = other
  · simp [h]
  · simp [List.lookup_cons, h, beq_false_of_ne h]

variable {κ α : Type} [LT κ]

/-- The table without entries. -/
def empty : Table κ α := ⟨[], by simp⟩

instance : Inhabited (Table κ α) := ⟨empty⟩

/-- The keys in ascending order. -/
def keys (t : Table κ α) : List κ := t.entries.map (·.1)

/-- The values in ascending order of key. -/
def values (t : Table κ α) : List α := t.entries.map (·.2)

/-- How many keys have a value. -/
def size (t : Table κ α) : Nat := t.entries.length

/-- The entries whose keys satisfy `p`. -/
def restrict (p : κ → Bool) (t : Table κ α) : Table κ α where
  entries := t.entries.filter fun e => p e.1
  ordered := by
    have h : (t.entries.filter fun e => p e.1).Sublist t.entries := List.filter_sublist
    exact t.ordered.sublist (h.map _)

section Lookup

variable [DecidableEq κ]

/-- The value of a key. -/
def get? (t : Table κ α) (key : κ) : Option α := t.entries.lookup key

/-- Whether a key has a value. -/
def contains (t : Table κ α) (key : κ) : Bool := (t.get? key).isSome

@[simp] theorem get?_empty (key : κ) : (empty : Table κ α).get? key = none := rfl

theorem mem_keys_iff {t : Table κ α} {key : κ} : key ∈ t.keys ↔ t.contains key = true := by
  rw [contains, get?, List.lookup_isSome_iff, keys, List.mem_map]
  simp only [beq_iff_eq, @eq_comm _ key]

end Lookup

section Insertion

variable [DecidableEq κ] [DecidableLT κ]

/-- The entries after `key` was set to `a`. -/
def put (key : κ) (a : α) : List (κ × α) → List (κ × α)
  | [] => [(key, a)]
  | (other, b) :: rest =>
    if key = other then (key, a) :: rest
    else if key < other then (key, a) :: (other, b) :: rest
    else (other, b) :: put key a rest

theorem mem_keys_put {key x : κ} {a : α} {es : List (κ × α)} :
    x ∈ (put key a es).map (·.1) ↔ x = key ∨ x ∈ es.map (·.1) := by
  induction es with
  | nil => simp [put]
  | cons e rest ih =>
    obtain ⟨other, b⟩ := e
    unfold put
    split
    · next h => subst h; simp
    · split
      · simp
      · simp only [List.map_cons, List.mem_cons, ih]
        constructor <;> rintro (h | h | h) <;> simp [h]

theorem lookup_put (key x : κ) (a : α) (es : List (κ × α)) :
    (put key a es).lookup x = if x = key then some a else es.lookup x := by
  induction es with
  | nil => simp [put, lookup_cons]
  | cons e rest ih =>
    obtain ⟨other, b⟩ := e
    unfold put
    split
    · next heq => subst heq; by_cases hx : x = key <;> simp [lookup_cons, hx]
    · next hne =>
      split
      · simp [lookup_cons]
      · simp only [lookup_cons, ih]
        by_cases ho : x = other
        · subst ho; simp [Ne.symm hne]
        · simp [ho]

variable [Trans (α := κ) (· < ·) (· < ·) (· < ·)] [Std.Trichotomous (α := κ) (· < ·)]

theorem ordered_put (key : κ) (a : α) {es : List (κ × α)}
    (h : (es.map (·.1)).Pairwise (· < ·)) : ((put key a es).map (·.1)).Pairwise (· < ·) := by
  induction es with
  | nil => simp [put]
  | cons e rest ih =>
    obtain ⟨other, b⟩ := e
    simp only [List.map_cons, List.pairwise_cons] at h
    unfold put
    split
    · next heq => subst heq; simpa using h
    · next hne =>
      split
      · next hlt =>
        simp only [List.map_cons, List.pairwise_cons]
        refine ⟨?_, h⟩
        intro x hx
        rcases List.mem_cons.1 hx with rfl | hx
        · exact hlt
        · exact Std.lt_trans hlt (h.1 x hx)
      · next hnlt =>
        simp only [List.map_cons, List.pairwise_cons]
        refine ⟨?_, ih h.2⟩
        intro x hx
        rcases mem_keys_put.1 hx with rfl | hx
        · rcases Std.lt_trichotomy x other with hlt | heq | hgt
          · exact absurd hlt hnlt
          · exact absurd heq hne
          · exact hgt
        · exact h.1 x hx

/-- The table after `key` was set to `a`. -/
def insert (t : Table κ α) (key : κ) (a : α) : Table κ α :=
  ⟨put key a t.entries, ordered_put key a t.ordered⟩

/-- The table of a list of entries, where a later entry replaces an earlier one of its key. -/
def ofList (es : List (κ × α)) : Table κ α := es.foldl (fun t e => t.insert e.1 e.2) empty

theorem get?_insert (t : Table κ α) (key x : κ) (a : α) :
    (t.insert key a).get? x = if x = key then some a else t.get? x :=
  lookup_put key x a t.entries

end Insertion

end Table

/-- A set of names in ascending order. -/
abbrev NameSet := Table String Unit

namespace NameSet

/-- The names of a list, each once. -/
def ofNames (names : List String) : NameSet := Table.ofList (names.map fun name => (name, ()))

/-- The names of a set after those of a list were added. -/
def addAll (s : NameSet) (names : List String) : NameSet :=
  names.foldl (fun acc name => acc.insert name ()) s

end NameSet

end TrafficCheck

import Mathlib.Data.List.Nodup
import Std.Data.HashMap
import TrafficCheck.Mapping

/-!
# Indexed mappings

A port mapping is looked up in both directions by an index: beside its pairs it keeps, for every
role and for every port, the place of the pair that holds it. An attempt to enter a pair changes all
three or none of them. However many pairs are entered and refused, the indexes stay in step with the
pairs, and the mapping answers like the list of its pairs.

## Main definitions

* `Indexes`: an index holds exactly the places of the keys in an array.
* `PortMapping.Fits`, `PortMapping.Refuses`: which pairs a mapping takes in, and why it refuses one.
* `IndexedMapping`, `IndexedMapping.insert`: a mapping with its indexes, and an attempt to enter a
  pair.
* `IndexedMapping.InStep`: both indexes are exact.

## Main statements

* `PortMapping.physicalFor?_eq_some_iff`, `PortMapping.logicalFor?_eq_some_iff`: the two directions
  of a mapping are the two readings of its pairs.
* `IndexedMapping.InStep.insert_cases`: what an attempt can do.
* `IndexedMapping.InStep.attempt`, `IndexedMapping.inStep_foldl`: indexes stay in step.
* `IndexedMapping.mirrors_foldl`: a mapping with indexes and one without go through any attempts
  alike.
* `IndexedMapping.inserts_keep_bijection`: what holds of a mapping after any attempts.
-/

namespace TrafficCheck

/-- Where no two elements have one key, the element of a key is found. -/
theorem find?_eq_some_iff_of_nodup {α κ : Type} [DecidableEq κ] {key : α → κ} {l : List α}
    (hkeys : (l.map key).Nodup) {k : κ} {a : α} :
    (l.find? fun a => key a = k) = some a ↔ a ∈ l ∧ key a = k := by
  constructor
  · intro hfind
    exact ⟨List.mem_of_find?_eq_some hfind, by simpa using List.find?_some hfind⟩
  · rintro ⟨ha, rfl⟩
    obtain ⟨b, hb⟩ : ∃ b, (l.find? fun b => key b = key a) = some b := by
      rw [← Option.isSome_iff_exists, List.find?_isSome]
      exact ⟨a, ha, by simp⟩
    have hkey : key b = key a := by simpa using List.find?_some hb
    rw [hb, List.inj_on_of_nodup_map hkeys (List.mem_of_find?_eq_some hb) ha hkey]

namespace PortMapping

variable {m : PortMapping} {logical : LogicalPort} {physical : PhysicalPort}

theorem physicalFor?_eq_some_iff :
    m.physicalFor? logical = some physical ↔ (logical, physical) ∈ m.pairs := by
  simp only [physicalFor?, Option.map_eq_some_iff, find?_eq_some_iff_of_nodup m.logical_nodup]
  constructor
  · rintro ⟨⟨l, p⟩, ⟨hmem, rfl⟩, rfl⟩
    exact hmem
  · exact fun hmem => ⟨(logical, physical), ⟨hmem, rfl⟩, rfl⟩

theorem logicalFor?_eq_some_iff :
    m.logicalFor? physical = some logical ↔ (logical, physical) ∈ m.pairs := by
  simp only [logicalFor?, Option.map_eq_some_iff, find?_eq_some_iff_of_nodup m.physical_nodup]
  constructor
  · rintro ⟨⟨l, p⟩, ⟨hmem, rfl⟩, rfl⟩
    exact hmem
  · exact fun hmem => ⟨(logical, physical), ⟨hmem, rfl⟩, rfl⟩

end PortMapping

/-! ## Indexes -/

section Indexes

variable {α κ : Type} [DecidableEq κ] [Hashable κ]

/-- An index of an array by a key: under every key it holds the place of the element with that key,
and nothing else. -/
def Indexes (index : Std.HashMap κ Nat) (key : α → κ) (xs : Array α) : Prop :=
  ∀ (k : κ) (place : Nat), index[k]? = some place ↔ ∃ a, xs[place]? = some a ∧ key a = k

namespace Indexes

variable {index : Std.HashMap κ Nat} {key : α → κ} {xs : Array α} {k : κ} {place : Nat} {a : α}

theorem empty (key : α → κ) : Indexes ∅ key #[] := by
  intro k place
  simp

theorem lt (h : Indexes index key xs) (hplace : index[k]? = some place) : place < xs.size := by
  obtain ⟨a, ha, -⟩ := (h k place).1 hplace
  exact (Array.getElem?_eq_some_iff.1 ha).1

theorem mem_iff (h : Indexes index key xs) : k ∈ index ↔ ∃ a ∈ xs.toList, key a = k := by
  rw [Std.HashMap.mem_iff_isSome_getElem?, Option.isSome_iff_exists]
  simp only [h k, Array.mem_toList_iff, Array.mem_iff_getElem?]
  constructor
  · rintro ⟨place, a, ha, hk⟩
    exact ⟨a, ⟨place, ha⟩, hk⟩
  · rintro ⟨a, ⟨place, ha⟩, hk⟩
    exact ⟨place, a, ha, hk⟩

/-- An element with a new key is put behind the others, and its place into the index. -/
theorem push (h : Indexes index key xs) (hnew : key a ∉ index) :
    Indexes (index.insert (key a) xs.size) key (xs.push a) := by
  have hplaces : ∀ {k place}, index[k]? = some place → k ≠ key a := by
    rintro k place hplace rfl
    exact hnew (Std.HashMap.mem_iff_isSome_getElem?.2 (by simp [hplace]))
  intro k place
  rw [Std.HashMap.getElem?_insert, Array.getElem?_push]
  by_cases hk : key a = k
  · subst hk
    by_cases hplace : place = xs.size
    · simp [hplace]
    · have hold : ¬∃ b, xs[place]? = some b ∧ key b = key a := fun hb =>
        hplaces ((h _ _).2 hb) rfl
      simpa [hplace, eq_comm] using hold
  · by_cases hplace : place = xs.size
    · have hold : index[k]? ≠ some xs.size := fun hlast => absurd (h.lt hlast) (Nat.lt_irrefl _)
      simp [hplace, hk, hold]
    · simpa [hplace, hk] using h k place

/-- Different places hold different keys. -/
theorem nodup (h : Indexes index key xs) : (xs.toList.map key).Nodup := by
  rw [List.nodup_iff_getElem?_ne_getElem?]
  intro i j hij hj heq
  rw [List.length_map, Array.length_toList] at hj
  have hi : i < xs.size := by omega
  have hkey : key xs[i] = key xs[j] := by simpa [hi, hj] using heq
  have hi' : index[key xs[j]]? = some i := (h _ _).2 ⟨xs[i], by simp [hi], hkey⟩
  have hj' : index[key xs[j]]? = some j := (h _ _).2 ⟨xs[j], by simp [hj], rfl⟩
  have hsame : i = j := Option.some.inj (hi'.symm.trans hj')
  omega

/-- Looking up by the index finds what looking through the array does. -/
theorem lookup (h : Indexes index key xs) (k : κ) :
    (index[k]?.bind fun place => xs[place]?) = xs.toList.find? fun a => key a = k := by
  ext a
  rw [find?_eq_some_iff_of_nodup h.nodup, Array.mem_toList_iff, Array.mem_iff_getElem?]
  simp only [Option.bind_eq_some_iff]
  constructor
  · rintro ⟨place, hplace, ha⟩
    obtain ⟨b, hb, hk⟩ := (h k place).1 hplace
    obtain rfl := Option.some.inj (ha.symm.trans hb)
    exact ⟨⟨place, ha⟩, hk⟩
  · rintro ⟨⟨place, ha⟩, hk⟩
    exact ⟨place, (h k place).2 ⟨a, ha, hk⟩, ha⟩

end Indexes

end Indexes

/-! ## Entering pairs -/

namespace PortMapping

/-- A pair fits behind some pairs: its role has a number, and neither its role nor its port is
taken. -/
structure Fits (pairs : List (LogicalPort × PhysicalPort)) (logical : LogicalPort)
    (physical : PhysicalPort) : Prop where
  numbered : logical.number.isSome
  role_free : ¬∃ other, (logical, other) ∈ pairs
  port_free : ¬∃ other, (other, physical) ∈ pairs

/-- The reason why a pair does not fit behind some pairs; where there are several, the first. -/
inductive Refuses (pairs : List (LogicalPort × PhysicalPort)) (logical : LogicalPort)
    (physical : PhysicalPort) : Conflict → Prop
  | unnumbered (hnumber : logical.number = none) :
    Refuses pairs logical physical (.unnumbered logical)
  | duplicateLogical (hnumber : logical.number.isSome) (hrole : ∃ other, (logical, other) ∈ pairs) :
    Refuses pairs logical physical (.duplicateLogical logical)
  | duplicatePhysical (hnumber : logical.number.isSome)
    (hrole : ¬∃ other, (logical, other) ∈ pairs) (hport : ∃ other, (other, physical) ∈ pairs) :
    Refuses pairs logical physical (.duplicatePhysical physical)

variable {pairs : List (LogicalPort × PhysicalPort)} {m : PortMapping} {logical : LogicalPort}
  {physical : PhysicalPort} {c c' : Conflict}

theorem Refuses.not_fits (hc : Refuses pairs logical physical c) :
    ¬Fits pairs logical physical := by
  intro hfits
  cases hc with
  | unnumbered hnumber => simpa [hnumber] using hfits.numbered
  | duplicateLogical _ hrole => exact hfits.role_free hrole
  | duplicatePhysical _ _ hport => exact hfits.port_free hport

/-- No pair is refused for two reasons. -/
theorem Refuses.unique (hc : Refuses pairs logical physical c)
    (hc' : Refuses pairs logical physical c') : c = c' := by
  cases hc <;> cases hc' <;> simp_all

theorem exists_refuses_iff : (∃ c, Refuses pairs logical physical c) ↔
    logical.number = none ∨ (∃ other, (logical, other) ∈ pairs) ∨
      ∃ other, (other, physical) ∈ pairs := by
  constructor
  · rintro ⟨c, hc⟩
    cases hc with
    | unnumbered hnumber => exact .inl hnumber
    | duplicateLogical _ hrole => exact .inr (.inl hrole)
    | duplicatePhysical _ _ hport => exact .inr (.inr hport)
  · intro h
    by_cases hnumber : logical.number = none
    · exact ⟨_, .unnumbered hnumber⟩
    by_cases hrole : ∃ other, (logical, other) ∈ pairs
    · exact ⟨_, .duplicateLogical (Option.isSome_iff_ne_none.2 hnumber) hrole⟩
    · refine ⟨_, .duplicatePhysical (Option.isSome_iff_ne_none.2 hnumber) hrole ?_⟩
      exact (h.resolve_left hnumber).resolve_left hrole

/-- A mapping takes in every pair that fits, at its end, and refuses every other for its reason. -/
theorem insert_cases (m : PortMapping) (logical : LogicalPort) (physical : PhysicalPort) :
    (∃ c, Refuses m.pairs logical physical c ∧ m.insert logical physical = .error c) ∨
      Fits m.pairs logical physical ∧ ∃ m', m.insert logical physical = .ok m' ∧
        m'.pairs = m.pairs ++ [(logical, physical)] := by
  have hrole_iff : logical ∈ m.pairs.map (·.1) ↔ ∃ other, (logical, other) ∈ m.pairs := by simp
  have hport_iff : physical ∈ m.pairs.map (·.2) ↔ ∃ other, (other, physical) ∈ m.pairs := by simp
  unfold insert
  split
  · next hnumber =>
    split
    · next hrole => exact .inl ⟨_, .duplicateLogical hnumber (hrole_iff.1 hrole), rfl⟩
    · next hrole =>
      split
      · next hport =>
        exact .inl ⟨_, .duplicatePhysical hnumber (hrole_iff.not.1 hrole) (hport_iff.1 hport), rfl⟩
      · next hport =>
        exact .inr ⟨⟨hnumber, hrole_iff.not.1 hrole, hport_iff.not.1 hport⟩, _, rfl, rfl⟩
  · next hnumber => exact .inl ⟨_, .unnumbered (by simpa using hnumber), rfl⟩

/-- The mapping after an attempt to enter a pair: one that is refused is left out. -/
def attempt (m : PortMapping) (call : LogicalPort × PhysicalPort) : PortMapping :=
  match m.insert call.1 call.2 with
  | .ok m' => m'
  | .error _ => m

/-- The mapping after some attempts, from the empty one. -/
def after (calls : List (LogicalPort × PhysicalPort)) : PortMapping := calls.foldl attempt empty

end PortMapping

deriving instance Hashable for PortKind, LogicalPort, PhysicalPort

/-- A mapping with its indexes: the pairs, oldest first, and the places of their roles and ports. -/
structure IndexedMapping where
  pairs : Array (LogicalPort × PhysicalPort)
  roles : Std.HashMap LogicalPort Nat
  ports : Std.HashMap PhysicalPort Nat

namespace IndexedMapping

open PortMapping (Conflict Fits Refuses)

/-- The mapping without pairs. -/
def empty : IndexedMapping := ⟨#[], ∅, ∅⟩

/-- Enters a pair: its place goes into both indexes and the pair behind the others, unless one of
the checks before that fails. -/
def insert (logical : LogicalPort) (physical : PhysicalPort) :
    EStateM Conflict IndexedMapping Unit := do
  if logical.number.isNone then throw (.unnumbered logical)
  if (← get).roles.contains logical then throw (.duplicateLogical logical)
  if (← get).ports.contains physical then throw (.duplicatePhysical physical)
  let place := (← get).pairs.size
  modify fun x => { x with roles := x.roles.insert logical place }
  modify fun x => { x with ports := x.ports.insert physical place }
  modify fun x => { x with pairs := x.pairs.push (logical, physical) }

/-- The port that plays a role, by the place of the role. -/
def physicalFor? (x : IndexedMapping) (logical : LogicalPort) : Option PhysicalPort :=
  (x.roles[logical]?.bind fun place => x.pairs[place]?).map (·.2)

/-- The role that a port plays, by the place of the port. -/
def logicalFor? (x : IndexedMapping) (physical : PhysicalPort) : Option LogicalPort :=
  (x.ports[physical]?.bind fun place => x.pairs[place]?).map (·.1)

/-- The mapping after an attempt to enter a pair, successful or not. -/
def attempt (x : IndexedMapping) (call : LogicalPort × PhysicalPort) : IndexedMapping :=
  match (insert call.1 call.2).run x with
  | .ok _ x' | .error _ x' => x'

/-- The mapping after some attempts, from the empty one. -/
def after (calls : List (LogicalPort × PhysicalPort)) : IndexedMapping := calls.foldl attempt empty

/-- Those of some attempts that are successful, in turn. -/
def accepted (x : IndexedMapping) :
    List (LogicalPort × PhysicalPort) → List (LogicalPort × PhysicalPort)
  | [] => []
  | call :: rest =>
    match (insert call.1 call.2).run x with
    | .ok _ x' => call :: accepted x' rest
    | .error _ x' => accepted x' rest

/-! ### One attempt -/

/-- Both indexes hold the places of the pairs, and every role has a number. -/
structure InStep (x : IndexedMapping) : Prop where
  roles : Indexes x.roles (·.1) x.pairs
  ports : Indexes x.ports (·.2) x.pairs
  numbered : ∀ pair ∈ x.pairs.toList, pair.1.number.isSome

/-- The mapping with a pair and its places at the end. -/
def push (x : IndexedMapping) (logical : LogicalPort) (physical : PhysicalPort) :
    IndexedMapping where
  pairs := x.pairs.push (logical, physical)
  roles := x.roles.insert logical x.pairs.size
  ports := x.ports.insert physical x.pairs.size

variable {x : IndexedMapping} {logical : LogicalPort} {physical : PhysicalPort}

theorem inStep_empty : empty.InStep := ⟨.empty _, .empty _, by simp [empty]⟩

namespace InStep

variable (h : x.InStep)
include h

theorem mem_roles_iff : logical ∈ x.roles ↔ ∃ other, (logical, other) ∈ x.pairs.toList := by
  simp [h.roles.mem_iff]

theorem mem_ports_iff : physical ∈ x.ports ↔ ∃ other, (other, physical) ∈ x.pairs.toList := by
  simp [h.ports.mem_iff]

/-- An attempt to enter a pair that does not fit fails with the reason and changes nothing; one that
fits is pushed. -/
theorem insert_cases (logical : LogicalPort) (physical : PhysicalPort) :
    (∃ c, Refuses x.pairs.toList logical physical c ∧
        (insert logical physical).run x = .error c x) ∨
      Fits x.pairs.toList logical physical ∧
        (insert logical physical).run x = .ok () (x.push logical physical) := by
  by_cases hnumber : logical.number = none
  · refine .inl ⟨_, .unnumbered hnumber, ?_⟩
    simp [insert, EStateM.run_bind, hnumber]
  have hsome := Option.isSome_iff_ne_none.2 hnumber
  by_cases hrole : ∃ other, (logical, other) ∈ x.pairs.toList
  · refine .inl ⟨_, .duplicateLogical hsome hrole, ?_⟩
    simp [insert, EStateM.run_bind, hnumber, h.mem_roles_iff.2 hrole]
  have hrole_new := h.mem_roles_iff.not.2 hrole
  by_cases hport : ∃ other, (other, physical) ∈ x.pairs.toList
  · refine .inl ⟨_, .duplicatePhysical hsome hrole hport, ?_⟩
    simp [insert, EStateM.run_bind, hnumber, hrole_new, h.mem_ports_iff.2 hport]
  · refine .inr ⟨⟨hsome, hrole, hport⟩, ?_⟩
    simp [insert, EStateM.run_bind, hnumber, hrole_new, h.mem_ports_iff.not.2 hport,
      IndexedMapping.push]

theorem push (hfits : Fits x.pairs.toList logical physical) : (x.push logical physical).InStep where
  roles := h.roles.push (a := (logical, physical)) (h.mem_roles_iff.not.2 hfits.role_free)
  ports := h.ports.push (a := (logical, physical)) (h.mem_ports_iff.not.2 hfits.port_free)
  numbered := by
    intro pair hpair
    rw [IndexedMapping.push, Array.toList_push, List.mem_append, List.mem_singleton] at hpair
    rcases hpair with hpair | rfl
    · exact h.numbered pair hpair
    · exact hfits.numbered

theorem attempt (call : LogicalPort × PhysicalPort) : (x.attempt call).InStep := by
  rcases h.insert_cases call.1 call.2 with ⟨c, -, hrun⟩ | ⟨hfits, hrun⟩
  · rw [IndexedMapping.attempt, hrun]
    exact h
  · rw [IndexedMapping.attempt, hrun]
    exact h.push hfits

/-- Attempts fail for the reasons that refuse their pairs, and then leave the mapping as it is. -/
theorem run_insert_eq_error_iff {c : Conflict} {x' : IndexedMapping} :
    (insert logical physical).run x = .error c x' ↔
      Refuses x.pairs.toList logical physical c ∧ x' = x := by
  rcases h.insert_cases logical physical with ⟨d, hd, hrun⟩ | ⟨hfits, hrun⟩
  · rw [hrun, EStateM.Result.error.injEq]
    constructor
    · rintro ⟨rfl, rfl⟩
      exact ⟨hd, rfl⟩
    · rintro ⟨hc, rfl⟩
      exact ⟨hd.unique hc, rfl⟩
  · rw [hrun]
    constructor
    · intro hok
      cases hok
    · exact fun hc => absurd hfits hc.1.not_fits

/-- The indexes find what looking through the pairs does. -/
theorem physicalFor?_eq (logical : LogicalPort) : x.physicalFor? logical =
    (x.pairs.toList.find? fun pair => pair.1 = logical).map (·.2) :=
  congrArg _ (h.roles.lookup logical)

theorem logicalFor?_eq (physical : PhysicalPort) : x.logicalFor? physical =
    (x.pairs.toList.find? fun pair => pair.2 = physical).map (·.1) :=
  congrArg _ (h.ports.lookup physical)

end InStep

/-! ### All attempts -/

theorem inStep_foldl (h : x.InStep) (calls : List (LogicalPort × PhysicalPort)) :
    (calls.foldl attempt x).InStep := by
  induction calls generalizing x with
  | nil => exact h
  | cons call rest ih => exact ih (h.attempt call)

/-- The pairs of the successful attempts stand behind those that were there, in turn. -/
theorem pairs_foldl (h : x.InStep) (calls : List (LogicalPort × PhysicalPort)) :
    (calls.foldl attempt x).pairs.toList = x.pairs.toList ++ x.accepted calls := by
  induction calls generalizing x with
  | nil => simp [accepted]
  | cons call rest ih =>
    rw [List.foldl_cons, ih (h.attempt call), attempt, accepted]
    rcases h.insert_cases call.1 call.2 with ⟨c, -, hrun⟩ | ⟨-, hrun⟩
    · rw [hrun]
    · simp [hrun, push]

/-- A mapping with indexes and one without that hold the same pairs answer alike. -/
structure Mirrors (x : IndexedMapping) (m : PortMapping) : Prop where
  pairs : x.pairs.toList = m.pairs
  physicalFor? : ∀ logical, x.physicalFor? logical = m.physicalFor? logical
  logicalFor? : ∀ physical, x.logicalFor? physical = m.logicalFor? physical
  insert : ∀ logical physical c,
    (∃ x', (insert logical physical).run x = .error c x') ↔ m.insert logical physical = .error c

variable {m : PortMapping}

theorem InStep.mirrors (h : x.InStep) (hpairs : x.pairs.toList = m.pairs) : x.Mirrors m where
  pairs := hpairs
  physicalFor? logical := by rw [h.physicalFor?_eq, hpairs, PortMapping.physicalFor?]
  logicalFor? physical := by rw [h.logicalFor?_eq, hpairs, PortMapping.logicalFor?]
  insert logical physical c := by
    simp only [h.run_insert_eq_error_iff, exists_and_left, exists_eq, and_true, hpairs]
    rcases m.insert_cases logical physical with ⟨d, hd, hrun⟩ | ⟨hfits, m', hrun, -⟩
    · rw [hrun, Except.error.injEq]
      exact ⟨hd.unique, fun heq => heq ▸ hd⟩
    · rw [hrun]
      exact ⟨fun hc => absurd hfits hc.not_fits, fun herror => by cases herror⟩

theorem mirrors_attempt (h : x.InStep) (hm : x.Mirrors m) (call : LogicalPort × PhysicalPort) :
    (x.attempt call).Mirrors (m.attempt call) := by
  refine (h.attempt call).mirrors ?_
  rw [attempt, PortMapping.attempt]
  rcases m.insert_cases call.1 call.2 with ⟨c, hc, hrun⟩ | ⟨hfits, m', hrun, hpairs⟩
  · have hx := h.run_insert_eq_error_iff.2 ⟨hm.pairs ▸ hc, rfl⟩
    rw [hrun, hx]
    exact hm.pairs
  · rcases h.insert_cases call.1 call.2 with ⟨c, hc, -⟩ | ⟨-, hx⟩
    · exact absurd (hm.pairs ▸ hfits) hc.not_fits
    · rw [hrun, hx]
      simp [push, hpairs, hm.pairs]

theorem mirrors_foldl (h : x.InStep) (hm : x.Mirrors m)
    (calls : List (LogicalPort × PhysicalPort)) :
    (calls.foldl attempt x).Mirrors (calls.foldl PortMapping.attempt m) := by
  induction calls generalizing x m with
  | nil => exact hm
  | cons call rest ih => exact ih (h.attempt call) (mirrors_attempt h hm call)

/-- A mapping is a bijection between the roles and the ports of its pairs, and its indexes point at
them. -/
structure IsBijection (x : IndexedMapping) : Prop where
  inverse : ∀ logical physical,
    x.physicalFor? logical = some physical ↔ x.logicalFor? physical = some logical
  defined : ∀ logical physical,
    x.physicalFor? logical = some physical ↔ (logical, physical) ∈ x.pairs.toList
  numbered : ∀ pair ∈ x.pairs.toList, pair.1.number.isSome
  role_once : (x.pairs.toList.map (·.1)).Nodup
  port_once : (x.pairs.toList.map (·.2)).Nodup
  roles_inRange : ∀ (logical : LogicalPort) (place : Nat),
    x.roles[logical]? = some place → place < x.pairs.size
  ports_inRange : ∀ (physical : PhysicalPort) (place : Nat),
    x.ports[physical]? = some place → place < x.pairs.size

theorem InStep.isBijection (h : x.InStep) : x.IsBijection := by
  -- The pairs are those of a mapping without indexes, whose lookups read them both ways.
  let m : PortMapping := ⟨x.pairs.toList, h.numbered, h.roles.nodup, h.ports.nodup⟩
  have hm : x.Mirrors m := h.mirrors rfl
  exact {
    inverse := fun logical physical => by
      rw [hm.physicalFor?, hm.logicalFor?, PortMapping.physicalFor?_eq_some_iff,
        PortMapping.logicalFor?_eq_some_iff]
    defined := fun logical physical => by
      rw [hm.physicalFor?, PortMapping.physicalFor?_eq_some_iff]
    numbered := h.numbered
    role_once := h.roles.nodup
    port_once := h.ports.nodup
    roles_inRange := fun _ _ => h.roles.lt
    ports_inRange := fun _ _ => h.ports.lt }

/-- After any attempts from the empty mapping, a mapping is a bijection whose indexes are in range,
its pairs are those of the successful attempts in turn, and it agrees with the mapping that has no
indexes. One more attempt fails for the first reason against its pair, if there is one, and then
changes nothing. -/
theorem inserts_keep_bijection (calls : List (LogicalPort × PhysicalPort)) :
    (after calls).IsBijection ∧
      (after calls).pairs.toList = empty.accepted calls ∧
      (after calls).Mirrors (.after calls) ∧
      (∀ logical physical c x', (insert logical physical).run (after calls) = .error c x' ↔
        Refuses (after calls).pairs.toList logical physical c ∧ x' = after calls) ∧
      ∀ logical physical, (∃ c x', (insert logical physical).run (after calls) = .error c x') ↔
        logical.number = none ∨ (∃ other, (logical, other) ∈ (after calls).pairs.toList) ∨
          ∃ other, (other, physical) ∈ (after calls).pairs.toList := by
  have h : (after calls).InStep := inStep_foldl inStep_empty calls
  refine ⟨h.isBijection, ?_, ?_, fun _ _ _ _ => h.run_insert_eq_error_iff, ?_⟩
  · simpa [empty, after] using pairs_foldl inStep_empty calls
  · exact mirrors_foldl inStep_empty (inStep_empty.mirrors (m := .empty) rfl) calls
  · intro logical physical
    simp only [h.run_insert_eq_error_iff, exists_and_left, exists_eq, and_true]
    exact PortMapping.exists_refuses_iff

/-- A second port for a role is refused, and a later attempt may still enter it. -/
example : (PortMapping.after [(⟨.client, some 1⟩, ⟨"10.0.0.1", 3⟩),
    (⟨.client, some 1⟩, ⟨"10.0.0.1", 4⟩), (⟨.server, some 1⟩, ⟨"10.0.0.1", 4⟩)]).pairs =
    [(⟨.client, some 1⟩, ⟨"10.0.0.1", 3⟩), (⟨.server, some 1⟩, ⟨"10.0.0.1", 4⟩)] := by
  decide

end IndexedMapping

end TrafficCheck

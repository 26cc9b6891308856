import TrafficCheck.Proofs.Bound
import TrafficCheck.Proofs.Isolation

/-!
# What is bound at a tick

A binding holds one value for every variable of a single port, and on every port of the run to which
some other variable applies one value for each variable that applies to it; nothing else is in it.
It fails for a role that no port plays and for a port that is read without a snapshot. No other port
of the history is looked at.

## Main definitions

* `Variable.Names`, `Variable.Applies`: the port that a variable names, and those to which it
  applies.
* `Variable.ReadOn`: the ports on which a variable is read.
* `TickBinding.Describes`: a binding holds what the variables ask for, and nothing else.

## Main statements

* `Topology.error?_bind`: the first obstacle decides, shared variables before ports.
* `Topology.bind_of_same_reads`: ports that are not read make no difference.
* `Topology.binding_characterized`: what is bound, when nothing is, and what is read for it.
-/

namespace TrafficCheck

/-- The first value of elements that all have the same value or none. -/
theorem findSome?_ite {α β : Type} (p : α → Bool) (b : β) (l : List α) :
    (l.findSome? fun a => if p a then some b else none) = if l.any p then some b else none := by
  induction l with
  | nil => rfl
  | cons a l ih => cases hp : p a <;> simp [hp, ih]

theorem Scope.role?_eq_some_iff {s : Scope} {role : LogicalPort} :
    s.role? = some role ↔ ∃ k number, s = .exact k number ∧ role = ⟨k, some number⟩ := by
  cases s <;> simp [Scope.role?, eq_comm]

theorem exists_of_forall₂ {α β : Type} {r : α → β → Prop} {l : List α} {l' : List β} {a : α}
    (h : List.Forall₂ r l l') (ha : a ∈ l) : ∃ b, r a b := by
  induction h with
  | nil => exact absurd ha (by simp)
  | cons hr _ ih =>
    rcases List.mem_cons.1 ha with rfl | ha
    · exact ⟨_, hr⟩
    · exact ih ha

namespace Variable

/-! ## The ports of a variable -/

/-- The variable is tied to a single port, and `port` plays the role that it names. -/
def Names (m : PortMapping) (v : Variable) (port : PhysicalPort) : Prop :=
  ∃ k number, v.scope = .exact k number ∧ (⟨k, some number⟩, port) ∈ m.pairs

/-- The variable leaves its port open and applies to `port`: every port will do for a variable of
any kind, and only ports with a role of the kind for one of a kind. -/
def Applies (m : PortMapping) (v : Variable) (port : PhysicalPort) : Prop :=
  match v.scope with
  | .any => True
  | .kind k => ∃ role, (role, port) ∈ m.pairs ∧ role.kind = k
  | .exact _ _ => False

variable {m : PortMapping} {v : Variable} {h h' : History} {tick : Nat} {port port' : PhysicalPort}

theorem names_iff :
    v.Names m port ↔ ∃ role, v.scope.role? = some role ∧ m.physicalFor? role = some port := by
  simp only [PortMapping.physicalFor?_eq_some_iff, Scope.role?_eq_some_iff, Names]
  constructor
  · rintro ⟨k, number, hscope, hpair⟩
    exact ⟨_, ⟨k, number, hscope, rfl⟩, hpair⟩
  · rintro ⟨_, ⟨k, number, hscope, rfl⟩, hpair⟩
    exact ⟨k, number, hscope, hpair⟩

theorem Names.unique (hport : v.Names m port) (hport' : v.Names m port') : port = port' := by
  obtain ⟨role, hrole, hport⟩ := names_iff.1 hport
  obtain ⟨role', hrole', hport'⟩ := names_iff.1 hport'
  rw [hrole] at hrole'
  obtain rfl := Option.some.inj hrole'
  exact Option.some.inj (hport.symm.trans hport')

theorem applies_iff : v.Applies m port ↔ v.scope.covers (m.logicalFor? port) = true := by
  cases hscope : v.scope with
  | any => simp [Applies, hscope, Scope.covers]
  | kind k =>
    have hplays : m.plays k port = true ↔ ∃ role, (role, port) ∈ m.pairs ∧ role.kind = k :=
      PortMapping.plays_iff
    simpa [Applies, hscope, Scope.covers, PortMapping.plays] using hplays.symm
  | exact k number => simp [Applies, hscope, Scope.covers]

instance : Decidable (v.Applies m port) := decidable_of_iff _ applies_iff.symm

/-- The ports on which a variable is read: the one that it names, and those of the run to which it
applies. -/
def ReadOn (t : Topology) (v : Variable) (port : PhysicalPort) : Prop :=
  v.Names t.mapping port ∨ port ∈ t.ports ∧ v.Applies t.mapping port

/-- Why a variable has no value: no port plays the role that it names, or a port on which it is read
has no snapshot. -/
def Lacks (t : Topology) (h : History) (tick : Nat) (v : Variable) (reason : Unresolved) : Prop :=
  (∃ k number, v.scope = .exact k number ∧ (∀ port, (⟨k, some number⟩, port) ∉ t.mapping.pairs) ∧
      reason = .unmapped ⟨k, some number⟩) ∨
    ∃ port, v.ReadOn t port ∧ h.snapshot? tick port = none ∧ reason = .noSamples port

theorem exists_value?_iff :
    (∃ x, v.value? h tick port = some x) ↔ (h.snapshot? tick port).isSome = true := by
  rw [← Option.isSome_iff_exists, isSome_value?]

/-- A variable of a single port that lacks nothing names a port with a snapshot. -/
theorem exists_names_of_not_lacks {t : Topology} {k : PortKind} {number : UInt32}
    (hscope : v.scope = .exact k number) (hlacks : ∀ reason, ¬v.Lacks t h tick reason) :
    ∃ port, v.Names t.mapping port ∧ (h.snapshot? tick port).isSome = true := by
  by_cases hmapped : ∃ port, (⟨k, some number⟩, port) ∈ t.mapping.pairs
  · obtain ⟨port, hpair⟩ := hmapped
    have hnames : v.Names t.mapping port := ⟨k, number, hscope, hpair⟩
    refine ⟨port, hnames, ?_⟩
    rw [Option.isSome_iff_ne_none]
    exact fun hnone => hlacks _ (.inr ⟨port, .inl hnames, hnone, rfl⟩)
  · exact absurd (.inl ⟨k, number, hscope, not_exists.1 hmapped, rfl⟩) (hlacks _)

theorem error?_bindOn (key : String) (bound : Table String Float) :
    Outcome.error? (v.bindOn h tick port key bound) =
      if (h.snapshot? tick port).isSome then none else some (.noSamples port) := by
  rw [← v.isSome_value?, bindOn]
  cases v.value? h tick port <;> rfl

end Variable

/-! ## What a binding holds -/

section Describes

variable (t : Topology) (h : History) (tick : Nat) (vs : Table String Variable)

/-- On a port stand, under its label, the values of the variables that apply to it. -/
structure PortBinding.Describes (pb : PortBinding) (port : PhysicalPort) : Prop where
  label_of_role : ∀ role, (role, port) ∈ t.mapping.pairs → pb.label = role.label
  label_of_no_role : (∀ role, (role, port) ∉ t.mapping.pairs) → pb.label = port.text
  contains_iff : ∀ key, pb.values.contains key = true ↔
    ∃ v, vs.get? key = some v ∧ v.Applies t.mapping port
  value_eq : ∀ key v x, vs.get? key = some v → pb.values.get? key = some x →
    v.value? h tick port = some x

/-- The shared values are those of the variables of a single port, and the ports are those of the
run, in their order, to which some variable applies. -/
structure TickBinding.Describes (b : TickBinding) : Prop where
  contains_shared_iff : ∀ key, b.shared.contains key = true ↔
    ∃ v k number, vs.get? key = some v ∧ v.scope = .exact k number
  shared_eq : ∀ key v x, vs.get? key = some v → b.shared.get? key = some x →
    ∃ port, v.Names t.mapping port ∧ v.value? h tick port = some x
  ports : List.Forall₂ (fun port pb => PortBinding.Describes t h tick vs pb port)
    (t.ports.filter fun port => ∃ v ∈ vs.values, v.Applies t.mapping port) b.ports

end Describes

namespace Topology

variable {t : Topology} {h h' : History} {tick : Nat} {vs : Table String Variable} {v : Variable}
  {port : PhysicalPort} {pb pb' : PortBinding} {b b' : TickBinding}

/-! ## Failing -/

/-- Variables of single ports fail independently of what was bound before. -/
theorem error?_bindShared (bound : Table String Float) (e : String × Variable) :
    Outcome.error? (t.bindShared h tick bound e) = e.2.scope.role?.bind fun role =>
      match t.mapping.physicalFor? role with
      | none => some (.unmapped role)
      | some port => if (h.snapshot? tick port).isSome then none else some (.noSamples port) := by
  unfold bindShared
  cases e.2.scope.role? with
  | none => rfl
  | some role =>
    dsimp only [Option.bind_some]
    cases t.mapping.physicalFor? role with
    | none => rfl
    | some port => exact Variable.error?_bindOn e.1 bound

theorem isCovered_iff :
    t.isCovered vs.values port = true ↔ ∃ v ∈ vs.values, v.Applies t.mapping port := by
  simp [isCovered, Variable.applies_iff]

/-- A port fails if some variable covers it and it has no snapshot. -/
theorem error?_bindPort : Outcome.error? (t.bindPort h tick vs port) =
    if t.isCovered vs.values port && (h.snapshot? tick port).isNone then some (.noSamples port)
    else none := by
  have hstep : ∀ (bound : Table String Float) (e : String × Variable), e ∈ vs.entries →
      Outcome.error? (if e.2.scope.covers (t.mapping.logicalFor? port) then
        e.2.bindOn h tick port e.1 bound else .ok bound) =
      if e.2.scope.covers (t.mapping.logicalFor? port) && (h.snapshot? tick port).isNone then
        some (.noSamples port) else none := by
    intro bound e _
    cases hcovers : e.2.scope.covers (t.mapping.logicalFor? port) with
    | false => rfl
    | true =>
      rw [if_pos rfl, Variable.error?_bindOn]
      cases h.snapshot? tick port <;> rfl
  rw [bindPort, Outcome.error?_bind_pure, Outcome.error?_foldlM hstep]
  have hany : (vs.entries.any fun e => e.2.scope.covers (t.mapping.logicalFor? port) &&
      (h.snapshot? tick port).isNone) =
      (t.isCovered vs.values port && (h.snapshot? tick port).isNone) := by
    rw [isCovered, Table.values, List.any_map]
    cases (h.snapshot? tick port).isNone <;> simp [Function.comp_def]
  rw [findSome?_ite, hany]

/-- Binding ends in the first obstacle: that of a variable of a single port in the order of keys,
else that of a port in the order of the topology. -/
theorem error?_bind (t : Topology) (h : History) (tick : Nat) (vs : Table String Variable) :
    Outcome.error? (t.bind h tick vs) =
      (vs.entries.findSome? fun e => Outcome.error? (t.bindShared h tick .empty e)).or
        (t.ports.findSome? fun port => Outcome.error? (t.bindPort h tick vs port)) := by
  have hrest : ∀ shared, Outcome.error? (t.ports.mapM (t.bindPort h tick vs) >>= fun ports =>
      pure (TickBinding.mk shared (ports.filter fun port => port.values.size != 0))) =
      t.ports.findSome? fun port => Outcome.error? (t.bindPort h tick vs port) := by
    intro shared
    rw [Outcome.error?_bind_pure, Outcome.error?_mapM]
  rw [bind, Outcome.error?_bind hrest, Outcome.error?_foldlM]
  intro bound e _
  rw [error?_bindShared, error?_bindShared]

/-- Where nothing is bound, the reason is that of a variable without a value. -/
theorem exists_lacks_of_bind_eq_error {reason : Unresolved}
    (hbind : t.bind h tick vs = .error reason) :
    ∃ v ∈ vs.values, v.Lacks t h tick reason := by
  have herror := error?_bind t h tick vs
  rw [hbind, Outcome.error?_error, eq_comm, Option.or_eq_some_iff] at herror
  rcases herror with hshared | ⟨-, hports⟩
  · obtain ⟨e, he, hstep⟩ := List.exists_of_findSome?_eq_some hshared
    refine ⟨e.2, List.mem_map_of_mem he, ?_⟩
    rw [error?_bindShared, Option.bind_eq_some_iff] at hstep
    obtain ⟨role, hrole, hstep⟩ := hstep
    obtain ⟨k, number, hscope, rfl⟩ := Scope.role?_eq_some_iff.1 hrole
    split at hstep
    · next hunmapped =>
      refine .inl ⟨k, number, hscope, fun port hpair => ?_, (Option.some.inj hstep).symm⟩
      rw [PortMapping.physicalFor?_eq_some_iff.2 hpair] at hunmapped
      exact absurd hunmapped (by simp)
    · next port hport =>
      have hnames : e.2.Names t.mapping port := Variable.names_iff.2 ⟨_, hrole, hport⟩
      split at hstep
      · exact absurd hstep (by simp)
      · next hsnapshot =>
        exact .inr ⟨port, .inl hnames, by simpa using hsnapshot, (Option.some.inj hstep).symm⟩
  · obtain ⟨port, hport, hstep⟩ := List.exists_of_findSome?_eq_some hports
    rw [error?_bindPort] at hstep
    split at hstep
    · next hmissing =>
      rw [Bool.and_eq_true, isCovered_iff, Option.isNone_iff_eq_none] at hmissing
      obtain ⟨⟨v, hv, happlies⟩, hsnapshot⟩ := hmissing
      exact ⟨v, hv, .inr ⟨port, .inr ⟨hport, happlies⟩, hsnapshot, (Option.some.inj hstep).symm⟩⟩
    · exact absurd hstep (by simp)

/-- Where something is bound, no variable lacks a value. -/
theorem not_lacks_of_bind (hbind : t.bind h tick vs = .ok b) (hv : v ∈ vs.values)
    (reason : Unresolved) : ¬v.Lacks t h tick reason := by
  have hnone : Outcome.error? (t.bind h tick vs) = none := by rw [hbind, Outcome.error?_ok]
  rw [error?_bind, Option.or_eq_none_iff, List.findSome?_eq_none_iff,
    List.findSome?_eq_none_iff] at hnone
  obtain ⟨hshared, hports⟩ := hnone
  obtain ⟨e, he, rfl⟩ := List.mem_map.1 hv
  have hstep := hshared e he
  rw [error?_bindShared] at hstep
  rintro (⟨k, number, hscope, hunmapped, -⟩ | ⟨port, hnames | ⟨hport, happlies⟩, hsnapshot, -⟩)
  · have hnone : t.mapping.physicalFor? ⟨k, some number⟩ = none := by
      rw [Option.eq_none_iff_forall_ne_some]
      exact fun port hport => hunmapped port (PortMapping.physicalFor?_eq_some_iff.1 hport)
    simp [hscope, Scope.role?, hnone] at hstep
  · obtain ⟨role, hrole, hport⟩ := Variable.names_iff.1 hnames
    simp [hrole, hport, hsnapshot] at hstep
  · have hport := hports port hport
    rw [error?_bindPort, isCovered_iff.2 ⟨_, hv, happlies⟩] at hport
    simp [hsnapshot] at hport

/-! ## Reading -/

/-- Ports on which no variable is read make no difference, whatever a history shows of them. -/
theorem bind_of_same_reads
    (hread : ∀ port, (∃ v ∈ vs.values, v.ReadOn t port) →
      ∀ tick, h.snapshot? tick port = h'.snapshot? tick port) :
    t.bind h tick vs = t.bind h' tick vs := by
  have hshared : ∀ bound, ∀ e ∈ vs.entries,
      t.bindShared h tick bound e = t.bindShared h' tick bound e := by
    intro bound e he
    refine bindShared_congr rfl (fun role port hrole hport => ?_) bound
    refine e.2.value?_congr (hread port ⟨e.2, List.mem_map_of_mem he, .inl ?_⟩) tick
    exact Variable.names_iff.2 ⟨role, hrole, hport⟩
  have hports : ∀ port ∈ t.ports, t.bindPort h tick vs port = t.bindPort h' tick vs port := by
    intro port hport
    refine bindPort_congr rfl fun v hv hcovers => ?_
    refine v.value?_congr (hread port ⟨v, hv, .inr ⟨hport, ?_⟩⟩) tick
    exact Variable.applies_iff.2 hcovers
  unfold bind
  rw [Outcome.foldlM_congr hshared, Outcome.mapM_congr hports]

/-! ## Holding -/

theorem label_bindPort (hport : t.bindPort h tick vs port = .ok pb) :
    pb.label = ((t.mapping.logicalFor? port).map (·.label)).getD port.text := by
  simp only [bindPort, Outcome.bind_eq_ok, Outcome.pure_eq, Except.ok.injEq] at hport
  obtain ⟨values, -, rfl⟩ := hport
  rfl

/-- What is bound on a port describes it. -/
theorem describes_bindPort (hport : t.bindPort h tick vs port = .ok pb) :
    pb.Describes t h tick vs port where
  label_of_role role hrole := by
    rw [label_bindPort hport, PortMapping.logicalFor?_eq_some_iff.2 hrole]
    rfl
  label_of_no_role hnone := by
    have hlogical : t.mapping.logicalFor? port = none := by
      rw [Option.eq_none_iff_forall_ne_some]
      exact fun role hrole => hnone role (PortMapping.logicalFor?_eq_some_iff.1 hrole)
    rw [label_bindPort hport, hlogical]
    rfl
  contains_iff key := by
    rw [Table.contains, get?_port hport]
    cases hkey : vs.get? key with
    | none => simp
    | some v =>
      by_cases happlies : v.Applies t.mapping port
      · obtain ⟨x, hx⟩ := exists_portValue? hport hkey (Variable.applies_iff.1 happlies)
        simp [hx, happlies]
      · simp [Variable.portValue?, happlies, mt Variable.applies_iff.2 happlies]
  value_eq key v x hkey hx := by
    rw [get?_port hport, hkey, Option.bind_some, Variable.portValue?] at hx
    split at hx
    · exact hx
    · exact absurd hx (by simp)

/-- What is bound describes the variables at the tick. -/
theorem describes_bind (hbind : t.bind h tick vs = .ok b) : b.Describes t h tick vs where
  contains_shared_iff key := by
    rw [Table.contains, get?_shared hbind]
    cases hkey : vs.get? key with
    | none => simp
    | some v =>
      have hv : v ∈ vs.values := Table.mem_values_iff.2 ⟨key, hkey⟩
      constructor
      · intro hsome
        cases hscope : v.scope with
        | any | kind k => simp [Variable.sharedValue?, hscope, Scope.role?] at hsome
        | exact k number => exact ⟨v, k, number, rfl, hscope⟩
      · rintro ⟨w, k, number, hw, hscope⟩
        obtain rfl := Option.some.inj hw
        obtain ⟨port, hnames, hsnapshot⟩ :=
          Variable.exists_names_of_not_lacks hscope (not_lacks_of_bind hbind hv)
        obtain ⟨role, hrole, hport⟩ := Variable.names_iff.1 hnames
        simpa [Variable.sharedValue?, hrole, hport, Variable.isSome_value?] using hsnapshot
  shared_eq key v x hkey hx := by
    rw [get?_shared hbind, hkey, Option.bind_some, Variable.sharedValue?, Option.bind_eq_some_iff]
      at hx
    obtain ⟨role, hrole, hx⟩ := hx
    obtain ⟨port, hport, hx⟩ := Option.bind_eq_some_iff.1 hx
    exact ⟨port, Variable.names_iff.2 ⟨role, hrole, hport⟩, hx⟩
  ports := by
    have hfilter : (t.ports.filter fun port => ∃ v ∈ vs.values, v.Applies t.mapping port) =
        t.ports.filter (t.isCovered vs.values) :=
      List.filter_congr fun port _ => by rw [Bool.eq_iff_iff, isCovered_iff, decide_eq_true_iff]
    rw [hfilter]
    exact (forall₂_ports hbind).imp fun _ _ => describes_bindPort

end Topology

/-! ## A description determines the binding -/

section Unique

variable {t : Topology} {h : History} {tick : Nat} {vs : Table String Variable}
  {port : PhysicalPort} {pb pb' : PortBinding} {b b' : TickBinding}

/-- Tables of values are equal if they have values for the same keys and at most one value for each
variable. -/
theorem eq_of_same_keys {s s' : Table String Float} {q : String → Variable → Prop}
    {r : Variable → Float → Prop} (hunique : ∀ v x y, r v x → r v y → x = y)
    (hkeys : ∀ key, s.contains key = true ↔ ∃ v, vs.get? key = some v ∧ q key v)
    (hkeys' : ∀ key, s'.contains key = true ↔ ∃ v, vs.get? key = some v ∧ q key v)
    (hvalues : ∀ key v x, vs.get? key = some v → s.get? key = some x → r v x)
    (hvalues' : ∀ key v x, vs.get? key = some v → s'.get? key = some x → r v x) : s = s' := by
  refine Table.ext_get? fun key => ?_
  have hsame : (s.get? key).isSome = true ↔ (s'.get? key).isSome = true :=
    (hkeys key).trans (hkeys' key).symm
  cases hx : s.get? key with
  | none =>
    rw [hx] at hsame
    exact (Option.not_isSome_iff_eq_none.1 fun hsome => absurd (hsame.2 hsome) (by simp)).symm
  | some x =>
    obtain ⟨v, hv, -⟩ := (hkeys key).1 (by simp [Table.contains, hx])
    obtain ⟨y, hy⟩ := Option.isSome_iff_exists.1 (hsame.1 (by simp [hx]))
    rw [hy, hunique v x y (hvalues key v x hv hx) (hvalues' key v y hv hy)]

theorem PortBinding.Describes.unique (hpb : pb.Describes t h tick vs port)
    (hpb' : pb'.Describes t h tick vs port) : pb = pb' := by
  have hlabel : pb.label = pb'.label := by
    by_cases hrole : ∃ role, (role, port) ∈ t.mapping.pairs
    · obtain ⟨role, hrole⟩ := hrole
      rw [hpb.label_of_role role hrole, hpb'.label_of_role role hrole]
    · have hnone := not_exists.1 hrole
      rw [hpb.label_of_no_role hnone, hpb'.label_of_no_role hnone]
  have hvalues : pb.values = pb'.values :=
    eq_of_same_keys (fun v x y hx hy => Option.some.inj (hx.symm.trans hy)) hpb.contains_iff
      hpb'.contains_iff hpb.value_eq hpb'.value_eq
  cases pb
  cases pb'
  rw [PortBinding.mk.injEq]
  exact ⟨hlabel, hvalues⟩

theorem TickBinding.Describes.unique (hb : b.Describes t h tick vs)
    (hb' : b'.Describes t h tick vs) : b = b' := by
  have hvalue : ∀ v x y, (∃ port, Variable.Names t.mapping v port ∧ v.value? h tick port = some x) →
      (∃ port, Variable.Names t.mapping v port ∧ v.value? h tick port = some y) → x = y := by
    rintro v x y ⟨port, hport, hx⟩ ⟨port', hport', hy⟩
    obtain rfl := hport.unique hport'
    exact Option.some.inj (hx.symm.trans hy)
  have hkeys : ∀ {b : TickBinding}, b.Describes t h tick vs → ∀ key, b.shared.contains key = true ↔
      ∃ v, vs.get? key = some v ∧ ∃ k number, v.scope = .exact k number := by
    intro b hb key
    rw [hb.contains_shared_iff]
    simp
  have hshared : b.shared = b'.shared :=
    eq_of_same_keys hvalue (hkeys hb) (hkeys hb') hb.shared_eq hb'.shared_eq
  have hports : b.ports = b'.ports :=
    List.right_unique_forall₂' (fun _ _ _ hpb hpb' => hpb.unique hpb') hb.ports hb'.ports
  cases b
  cases b'
  rw [TickBinding.mk.injEq]
  exact ⟨hshared, hports⟩

/-- Where a binding can be described, no variable lacks a value. -/
theorem TickBinding.Describes.not_lacks (hb : b.Describes t h tick vs) {v : Variable}
    (hv : v ∈ vs.values) (reason : Unresolved) : ¬v.Lacks t h tick reason := by
  obtain ⟨key, hkey⟩ := Table.mem_values_iff.1 hv
  have hnamed : ∀ k number, v.scope = .exact k number →
      ∃ port, v.Names t.mapping port ∧ (h.snapshot? tick port).isSome = true := by
    intro k number hscope
    obtain ⟨x, hx⟩ :=
      Option.isSome_iff_exists.1 ((hb.contains_shared_iff key).2 ⟨v, k, number, hkey, hscope⟩)
    obtain ⟨port, hnames, hvalue⟩ := hb.shared_eq key v x hkey hx
    exact ⟨port, hnames, Variable.exists_value?_iff.1 ⟨x, hvalue⟩⟩
  rintro (⟨k, number, hscope, hnone, -⟩ | ⟨port, hnames | ⟨hport, happlies⟩, hnone, -⟩)
  · obtain ⟨port, ⟨k', number', hscope', hpair⟩, -⟩ := hnamed k number hscope
    obtain ⟨rfl, rfl⟩ := Scope.exact.inj (hscope.symm.trans hscope')
    exact hnone port hpair
  · obtain ⟨k, number, hscope, -⟩ := id hnames
    obtain ⟨port', hnames', hsnapshot⟩ := hnamed k number hscope
    obtain rfl := Variable.Names.unique hnames hnames'
    exact absurd hsnapshot (by simp [hnone])
  · have hmem : port ∈ t.ports.filter fun port => ∃ v ∈ vs.values, v.Applies t.mapping port :=
      List.mem_filter.2 ⟨hport, decide_eq_true ⟨v, hv, happlies⟩⟩
    obtain ⟨pb, hpb⟩ := exists_of_forall₂ hb.ports hmem
    obtain ⟨x, hx⟩ := Option.isSome_iff_exists.1 ((hpb.contains_iff key).2 ⟨v, hkey, happlies⟩)
    have hsnapshot := Variable.exists_value?_iff.1 ⟨x, hpb.value_eq key v x hkey hx⟩
    exact absurd hsnapshot (by simp [hnone])

end Unique

namespace Topology

variable {t : Topology} {h : History} {tick : Nat} {vs : Table String Variable} {b : TickBinding}

theorem bind_eq_ok_iff_describes : t.bind h tick vs = .ok b ↔ b.Describes t h tick vs := by
  refine ⟨describes_bind, fun hb => ?_⟩
  cases hbind : t.bind h tick vs with
  | ok b' => rw [(describes_bind hbind).unique hb]
  | error reason =>
    obtain ⟨v, hv, hlacks⟩ := exists_lacks_of_bind_eq_error hbind
    exact absurd hlacks (hb.not_lacks hv reason)

/-- The binding of variables at a tick, for all variables, topologies, histories and ticks. What is
bound is exactly what describes the variables: the shared values of those of a single port, and on
each port of the run to which other variables apply, in the order of the ports, the values of these.
Nothing is bound just if some variable lacks a value, and then the reason is that of such a
variable. Histories that differ on other ports than those on which variables are read are bound
alike. -/
theorem binding_characterized (t : Topology) (h : History) (tick : Nat)
    (vs : Table String Variable) :
    (∀ b, t.bind h tick vs = .ok b ↔ b.Describes t h tick vs) ∧
    ((∃ reason, t.bind h tick vs = .error reason) ↔
      ∃ v ∈ vs.values, ∃ reason, v.Lacks t h tick reason) ∧
    (∀ reason, t.bind h tick vs = .error reason → ∃ v ∈ vs.values, v.Lacks t h tick reason) ∧
    ∀ h', (∀ port, (∃ v ∈ vs.values, v.ReadOn t port) →
        ∀ tick, h.snapshot? tick port = h'.snapshot? tick port) →
      t.bind h tick vs = t.bind h' tick vs := by
  refine ⟨fun b => bind_eq_ok_iff_describes, ⟨?fails, ?lacks⟩,
    fun reason => exists_lacks_of_bind_eq_error, fun h' => bind_of_same_reads⟩
  case fails =>
    rintro ⟨reason, hbind⟩
    obtain ⟨v, hv, hlacks⟩ := exists_lacks_of_bind_eq_error hbind
    exact ⟨v, hv, reason, hlacks⟩
  case lacks =>
    rintro ⟨v, hv, reason, hlacks⟩
    cases hbind : t.bind h tick vs with
    | error reason => exact ⟨reason, rfl⟩
    | ok b => exact absurd hlacks (not_lacks_of_bind hbind hv reason)

-- A port without a role is bound under its address, and the variable of client ports is not on it.
example :
    let client : PhysicalPort := ⟨"10.0.0.1", 1⟩
    let stranger : PhysicalPort := ⟨"10.0.0.2", 1⟩
    let m : PortMapping := ⟨[(⟨.client, some 1⟩, client)], by decide, by decide, by decide⟩
    let h : History := ⟨#[Table.ofList [(client, .empty), (stranger, .empty)]]⟩
    let vs : Table String Variable := Table.ofList [("cport.x", ⟨.kind .client, "x", none⟩),
      ("cport1.y", ⟨.exact .client 1, "y", some .sec⟩), ("z", ⟨.any, "z", none⟩)]
    ((ofRun m [stranger, client]).bind h 0 vs).map (fun b =>
      (b.shared.keys, b.ports.map fun pb => (pb.label, pb.values.keys))) =
        .ok (["cport1.y"], [("cport1", ["cport.x", "z"]), ("10.0.0.2:1", ["z"])]) := by
  rfl

end Topology

end TrafficCheck

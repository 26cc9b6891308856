import Mathlib.Data.List.TakeWhile
import TrafficCheck.Proofs.Numerals
import TrafficCheck.Summary.Name

/-!
# Forms of summary file names

The name of a summary file has a fixed form: the word for a kind, the word for ports, the number of
the role, and in parentheses the appliance, the word for ports and the number of the physical port.
Each part ends before a character that cannot belong to it. So the parts of a name can be taken off
one after the other, and a name is read just if it has the form and both of its numbers fit into 32
bits.

## Main definitions

* `SummaryName.Spells`: a name has the form, with given texts for its numbers and its appliance.
* `SummaryName.text`: the usual name for some ports.

## Main statements

* `SummaryName.Spells.parse?_eq`: what is read of a name that has the form.
* `SummaryName.exists_spells_of_parse?`: a name that is read has the form.
* `SummaryName.names_parse_exactly`: which names are read, and when they tell of the same physical
  port.
-/

namespace TrafficCheck.SummaryName

variable {name cs rest number appliance physical : List Char} {k : PortKind} {r : SummaryName}

/-! ## Forms -/

/-- The usual word for a kind of port. -/
def title : PortKind → List Char
  | .client => "Client".toList
  | .server => "Server".toList

/-- The words for a kind of port. -/
def kindWords (k : PortKind) : List (List Char) := [title k, k.name.toList]

/-- The words for ports. -/
def portWords : List (List Char) := ["Port".toList, "port".toList]

/-- What the names of summary files end in. -/
def endings : List (List Char) := [".sum".toList, ".summary".toList]

/-- A text has one character or more, all of a class. -/
def IsRun (p : Char → Bool) (cs : List Char) : Prop := cs ≠ [] ∧ ∀ c ∈ cs, p c = true

instance {p : Char → Bool} : Decidable (IsRun p cs) :=
  decidable_of_iff (cs ≠ [] ∧ cs.all p = true) (by simp [IsRun])

/-- A name has the form of the name of a summary file. The number of the role, the appliance and the
number of the physical port are written in it as given. -/
def Spells (name : List Char) (k : PortKind) (number appliance physical : List Char) : Prop :=
  IsRun Char.isDigit number ∧ IsRun isAddressChar appliance ∧ IsRun Char.isDigit physical ∧
    ∃ word ∈ kindWords k, ∃ gap, IsRun Text.isBlank gap ∧ ∃ port ∈ portWords,
      ∃ gap', IsRun Text.isBlank gap' ∧ ∃ gap'', (∀ c ∈ gap'', Text.isBlank c = true) ∧
      ∃ port' ∈ portWords, ∃ ending ∈ endings,
        name = word ++ (gap ++ (port ++ (gap' ++ (number ++ (gap'' ++ '(' ::
          (appliance ++ ' ' :: (port' ++ ' ' :: (physical ++ ')' :: ending))))))))

/-- The usual name of the file for some ports, such as `Client Port 1 (10.0.0.1 port 3).sum`. -/
def text (r : SummaryName) : List Char :=
  title r.kind ++ (" ".toList ++ ("Port".toList ++ (" ".toList ++ (Decimal.digits r.number.toNat ++
    (" ".toList ++ '(' :: (r.physical.appliance.toList ++ ' ' :: ("port".toList ++ ' ' ::
      (Decimal.digits r.physical.number.toNat ++ ')' :: ".sum".toList))))))))

theorem spells_text (happliance : IsRun isAddressChar r.physical.appliance.toList) :
    Spells r.text r.kind (Decimal.digits r.number.toNat) r.physical.appliance.toList
      (Decimal.digits r.physical.number.toNat) := by
  have hblank : IsRun Text.isBlank " ".toList := by decide
  exact ⟨⟨Decimal.digits_ne_nil _, fun _ => Decimal.isDigit_of_mem_digits⟩, happliance,
    ⟨Decimal.digits_ne_nil _, fun _ => Decimal.isDigit_of_mem_digits⟩, title r.kind,
    by simp [kindWords], _, hblank, "Port".toList, by simp [portWords], _, hblank, _, hblank.2,
    "port".toList, by simp [portWords], ".sum".toList, by simp [endings], rfl⟩

/-! ## Words -/

theorem behind?_eq_some_iff {upper lower : Char} {word : List Char} :
    behind? upper lower word cs = some rest ↔
      cs = upper :: word ++ rest ∨ cs = lower :: word ++ rest := by
  cases cs with
  | nil => simp [behind?]
  | cons c cs =>
    have hword : word.isPrefixOf cs = true ∧ cs.drop word.length = rest ↔ cs = word ++ rest := by
      rw [List.isPrefixOf_iff_prefix]
      constructor
      · rintro ⟨⟨tail, rfl⟩, rfl⟩
        simp
      · rintro rfl
        simp
    simp only [behind?, Option.ite_none_right_eq_some, Bool.and_eq_true, Bool.or_eq_true,
      decide_eq_true_eq, Option.some.injEq, and_assoc, hword, List.cons_append, List.cons.injEq]
    tauto

theorem kind?_eq_some_iff :
    kind? cs = some (k, rest) ↔ ∃ word ∈ kindWords k, cs = word ++ rest := by
  have hclient : ∀ rest, behind? 'C' 'c' "lient".toList cs = some rest ↔
      ∃ word ∈ kindWords .client, cs = word ++ rest := fun rest => by
    rw [behind?_eq_some_iff]
    simp [kindWords, title, PortKind.name]
  have hserver : ∀ rest, behind? 'S' 's' "erver".toList cs = some rest ↔
      ∃ word ∈ kindWords .server, cs = word ++ rest := fun rest => by
    rw [behind?_eq_some_iff]
    simp [kindWords, title, PortKind.name]
  unfold kind?
  cases k with
  | client =>
    rw [← hclient]
    split
    · next tail htail =>
      rw [htail]
      simp
    · next hnone =>
      rw [hnone]
      simp
  | server =>
    rw [← hserver]
    split
    · next tail htail =>
      -- A text that starts with the word for clients does not start with that for servers.
      have hnone : behind? 'S' 's' "erver".toList cs = none := by
        rcases behind?_eq_some_iff.1 htail with rfl | rfl <;> rfl
      rw [hnone]
      simp
    · simp

theorem behindPort?_eq_some_iff :
    behindPort? cs = some rest ↔ ∃ port ∈ portWords, cs = port ++ rest := by
  rw [behindPort?, behind?_eq_some_iff]
  simp [portWords]

/-! ## Runs -/

theorem isRun_isDigit_of_word? {n : UInt32} (h : Decimal.word? cs = some n) :
    IsRun Char.isDigit cs :=
  have hwrites := Decimal.word?_eq_some_iff.1 h
  ⟨hwrites.ne_nil, hwrites.isDigit⟩

theorem isRun_takeWhile {p : Char → Bool} (h : cs.takeWhile p ≠ []) : IsRun p (cs.takeWhile p) :=
  ⟨h, fun _ => List.mem_takeWhile_imp⟩

/-- A text starts with no character of a class when neither of its parts does. The second part only
matters behind an empty first one. -/
theorem head?_append {p : Char → Bool} {run : List Char} (hrun : ∀ c ∈ run, p c = false)
    (hrest : run = [] → ∀ c ∈ rest.head?, p c = false) :
    ∀ c ∈ (run ++ rest).head?, p c = false := by
  cases run with
  | nil => exact hrest rfl
  | cons c run => simpa using hrun c (by simp)

theorem head?_cons {p : Char → Bool} {c : Char} (hc : p c = false) :
    ∀ d ∈ (c :: rest).head?, p d = false := by
  simpa using hc

theorem head?_port {port : List Char} (hport : port ∈ portWords) :
    ∀ c ∈ (port ++ rest).head?, Text.isBlank c = false := by
  simp only [portWords, List.mem_cons, List.not_mem_nil, or_false] at hport
  rcases hport with rfl | rfl <;> exact head?_cons (by decide)

theorem isDigit_eq_false_of_isBlank {c : Char} (hc : Text.isBlank c = true) :
    c.isDigit = false := by
  by_contra hdigit
  exact absurd (Decimal.isBlank_eq_false_of_isDigit (by simpa using hdigit)) (by simp [hc])

theorem exists_gap_of_behindBlanks? (h : behindBlanks? cs = some rest) :
    ∃ gap, IsRun Text.isBlank gap ∧ cs = gap ++ rest := by
  unfold behindBlanks? at h
  split at h
  case isFalse => exact nomatch h
  next hhead =>
  obtain rfl := Option.some.inj h
  refine ⟨cs.takeWhile Text.isBlank, isRun_takeWhile ?_, List.takeWhile_append_dropWhile.symm⟩
  cases cs with
  | nil => exact absurd hhead (by simp)
  | cons c cs => simp_all

theorem behindBlanks?_append {gap : List Char} (hgap : IsRun Text.isBlank gap)
    (hrest : ∀ c ∈ rest.head?, Text.isBlank c = false) :
    behindBlanks? (gap ++ rest) = some rest := by
  obtain ⟨-, hdrop⟩ := Text.takeWhile_append_of_head hgap.2 hrest
  obtain ⟨c, gap, rfl⟩ := List.exists_cons_of_ne_nil hgap.1
  rw [behindBlanks?, if_pos (by simpa using hgap.2 c (by simp)), hdrop]

/-! ## Names -/

theorem span_number {gap : List Char} (hnumber : IsRun Char.isDigit number)
    (hgap : ∀ c ∈ gap, Text.isBlank c = true) :
    (number ++ (gap ++ '(' :: rest)).takeWhile Char.isDigit = number ∧
      ((number ++ (gap ++ '(' :: rest)).dropWhile Char.isDigit).dropWhile Text.isBlank =
        '(' :: rest := by
  have hhead : ∀ c ∈ (gap ++ '(' :: rest).head?, c.isDigit = false :=
    head?_append (fun c hc => isDigit_eq_false_of_isBlank (hgap c hc)) fun _ => head?_cons rfl
  obtain ⟨htake, hdrop⟩ := Text.takeWhile_append_of_head hnumber.2 hhead
  refine ⟨htake, ?_⟩
  rw [hdrop]
  exact (Text.takeWhile_append_of_head hgap (head?_cons (by decide))).2

theorem span_appliance (happliance : IsRun isAddressChar appliance) :
    (appliance ++ ' ' :: rest).takeWhile isAddressChar = appliance ∧
      (appliance ++ ' ' :: rest).dropWhile isAddressChar = ' ' :: rest :=
  Text.takeWhile_append_of_head happliance.2 (head?_cons (by decide))

theorem span_physical (hphysical : IsRun Char.isDigit physical) :
    (physical ++ ')' :: rest).takeWhile Char.isDigit = physical ∧
      (physical ++ ')' :: rest).dropWhile Char.isDigit = ')' :: rest :=
  Text.takeWhile_append_of_head hphysical.2 (head?_cons rfl)

/-- What is read of a name that has the form: the ports that it spells, if their numbers fit. -/
theorem Spells.parse?_eq (h : Spells name k number appliance physical) : parse? name =
    (Decimal.word? number).bind fun n => (Decimal.word? physical).bind fun m =>
      some ⟨k, n, ⟨String.ofList appliance, m⟩⟩ := by
  obtain ⟨hnumber, happliance, hphysical, word, hword, gap, hgap, port, hport, gap', hgap', gap'',
    hgap'', port', hport', ending, hending, rfl⟩ := h
  have hkind : ∀ rest, kind? (word ++ rest) = some (k, rest) := fun rest =>
    kind?_eq_some_iff.2 ⟨word, hword, rfl⟩
  have hgapRest : ∀ rest, behindBlanks? (gap ++ (port ++ rest)) = some (port ++ rest) := fun _ =>
    behindBlanks?_append hgap (head?_port hport)
  have hportRest : ∀ port ∈ portWords, ∀ rest, behindPort? (port ++ rest) = some rest :=
    fun port hport rest => behindPort?_eq_some_iff.2 ⟨port, hport, rfl⟩
  have hgapRest' : ∀ rest, behindBlanks? (gap' ++ (number ++ rest)) = some (number ++ rest) :=
    fun rest => behindBlanks?_append hgap' (head?_append
      (fun c hc => Decimal.isBlank_eq_false_of_isDigit (hnumber.2 c hc))
      fun hnil => absurd hnil hnumber.1)
  have hending' : ')' :: ending = ").sum".toList ∨ ')' :: ending = ").summary".toList := by
    simpa [endings] using hending
  unfold parse?
  simp only [Option.bind_eq_bind, hkind, hgapRest, hportRest port hport, hgapRest',
    span_number hnumber hgap'', span_appliance happliance, hportRest port' hport',
    span_physical hphysical, Option.bind_some, if_pos hending', List.isEmpty_iff,
    if_neg happliance.1]
  rfl

/-- The steps in which a name is read, with what is left of it behind each of them. -/
theorem exists_steps_of_parse? (h : parse? name = some r) :
    ∃ cs₁ cs₂ cs₃ cs₄ cs₅ cs₆ cs₇, kind? name = some (r.kind, cs₁) ∧ behindBlanks? cs₁ = some cs₂ ∧
      behindPort? cs₂ = some cs₃ ∧ behindBlanks? cs₃ = some cs₄ ∧
      Decimal.word? (cs₄.takeWhile Char.isDigit) = some r.number ∧
      (cs₄.dropWhile Char.isDigit).dropWhile Text.isBlank = '(' :: cs₅ ∧
      cs₅.takeWhile isAddressChar ≠ [] ∧ cs₅.dropWhile isAddressChar = ' ' :: cs₆ ∧
      behindPort? cs₆ = some (' ' :: cs₇) ∧
      Decimal.word? (cs₇.takeWhile Char.isDigit) = some r.physical.number ∧
      ∃ ending ∈ endings, cs₇.dropWhile Char.isDigit = ')' :: ending := by
  unfold parse? at h
  simp only [Option.bind_eq_bind, Option.bind_eq_some_iff] at h
  obtain ⟨⟨k, cs₁⟩, hkind, cs₂, hgap, cs₃, hport, cs₄, hgap', number, hnumber, h⟩ := h
  split at h
  case h_2 => exact nomatch h
  next cs₅ hparen =>
  split at h
  case isTrue => exact nomatch h
  next hne =>
  split at h
  case h_2 => exact nomatch h
  next cs₆ hspace =>
  simp only [Option.bind_eq_some_iff] at h
  obtain ⟨behind, hport', h⟩ := h
  split at h
  case h_2 => exact nomatch h
  next cs₇ =>
  simp only [Option.bind_eq_some_iff] at h
  obtain ⟨physical, hphysical, h⟩ := h
  split at h
  case isFalse => exact nomatch h
  next hending =>
  obtain rfl := Option.some.inj h
  exact ⟨cs₁, cs₂, cs₃, cs₄, cs₅, cs₆, cs₇, hkind, hgap, hport, hgap', hnumber, hparen,
    by simpa using hne, hspace, hport', hphysical, by simpa [endings] using hending⟩

/-- A name that is read has the form. -/
theorem exists_spells_of_parse? (h : parse? name = some r) :
    ∃ number appliance physical, Spells name r.kind number appliance physical := by
  obtain ⟨cs₁, cs₂, cs₃, cs₄, cs₅, cs₆, cs₇, hkind, hgap, hport, hgap', hnumber, hparen, hne,
    hspace, hport', hphysical, ending, hending, hrest⟩ := exists_steps_of_parse? h
  obtain ⟨word, hword, rfl⟩ := kind?_eq_some_iff.1 hkind
  obtain ⟨gap, hblanks, rfl⟩ := exists_gap_of_behindBlanks? hgap
  obtain ⟨port, hword₁, rfl⟩ := behindPort?_eq_some_iff.1 hport
  obtain ⟨gap', hblanks', rfl⟩ := exists_gap_of_behindBlanks? hgap'
  obtain ⟨port', hword₂, rfl⟩ := behindPort?_eq_some_iff.1 hport'
  refine ⟨_, _, _, isRun_isDigit_of_word? hnumber, isRun_takeWhile hne,
    isRun_isDigit_of_word? hphysical, word, hword, gap, hblanks, port, hword₁, gap', hblanks',
    (cs₄.dropWhile Char.isDigit).takeWhile Text.isBlank, fun _ => List.mem_takeWhile_imp, port',
    hword₂, ending, hending, ?_⟩
  -- Each text that was taken off goes back in front of what was left behind it, from the last on.
  rw [← hrest, List.takeWhile_append_dropWhile, ← hspace, List.takeWhile_append_dropWhile, ← hparen,
    List.takeWhile_append_dropWhile, List.takeWhile_append_dropWhile]

/-! ## Reading -/

/-- A name that has the form tells the ports that its parts write. -/
theorem Spells.parse?_eq_some_iff (h : Spells name k number appliance physical) :
    parse? name = some r ↔ r.kind = k ∧ Decimal.Writes number r.number.toNat ∧
      Decimal.Writes physical r.physical.number.toNat ∧
      r.physical.appliance = String.ofList appliance := by
  simp only [h.parse?_eq, Option.bind_eq_some_iff, Decimal.word?_eq_some_iff, Option.some.injEq]
  constructor
  · rintro ⟨n, hn, m, hm, rfl⟩
    exact ⟨rfl, hn, hm, rfl⟩
  · obtain ⟨k', n, appliance', m⟩ := r
    rintro ⟨rfl, hn, hm, rfl⟩
    exact ⟨n, hn, m, hm, rfl⟩

-- The numbers of a name have to fit into 32 bits.
example : parse? "Client Port 4294967295 (10.0.0.1 port 3).sum".toList =
      some ⟨.client, 4294967295, ⟨"10.0.0.1", 3⟩⟩ ∧
    parse? "Client Port 4294967296 (10.0.0.1 port 3).sum".toList = none := by
  decide

/-- Numerals write the same word just if they are numerals of one number. -/
theorem eq_iff_exists_writes {n m : UInt32} {ds ds' : List Char} (hn : Decimal.Writes ds n.toNat)
    (hm : Decimal.Writes ds' m.toNat) :
    n = m ↔ ∃ v, Decimal.Writes ds v ∧ Decimal.Writes ds' v := by
  constructor
  · rintro rfl
    exact ⟨n.toNat, hn, hm⟩
  · rintro ⟨v, hv, hv'⟩
    rw [← UInt32.toNat_inj, ← hn.value_eq, hv.value_eq, ← hm.value_eq, hv'.value_eq]

/-- Summary file names are read exactly. A name is read just if it has the form and its numbers fit
into 32 bits, and then its parts are what is read. So the usual name for some ports gives them back,
and two names tell of the same physical port just if they have the same appliance and write the same
number for the port, possibly behind different zeros. -/
theorem names_parse_exactly (name : List Char) :
    (∀ r, parse? name = some r ↔ ∃ k number appliance physical n m,
      Spells name k number appliance physical ∧
      Decimal.Writes number n ∧ Decimal.Writes physical m ∧
      n < UInt32.size ∧ m < UInt32.size ∧ r = ⟨k, .ofNat n, ⟨String.ofList appliance, .ofNat m⟩⟩) ∧
    (∀ r : SummaryName, IsRun isAddressChar r.physical.appliance.toList → parse? r.text = some r) ∧
    ∀ name' r r', parse? name = some r → parse? name' = some r' →
      ∀ k number appliance physical k' number' appliance' physical',
        Spells name k number appliance physical → Spells name' k' number' appliance' physical' →
        (r.physical = r'.physical ↔
          appliance = appliance' ∧
            ∃ m, Decimal.Writes physical m ∧ Decimal.Writes physical' m) := by
  refine ⟨fun r => ⟨?read, ?form⟩, fun r happliance => ?text, ?ports⟩
  case read =>
    intro hread
    obtain ⟨number, appliance, physical, hspells⟩ := exists_spells_of_parse? hread
    obtain ⟨-, hnumber, hphysical, happliance⟩ := hspells.parse?_eq_some_iff.1 hread
    refine ⟨r.kind, number, appliance, physical, r.number.toNat, r.physical.number.toNat, hspells,
      hnumber, hphysical, r.number.toNat_lt, r.physical.number.toNat_lt, ?_⟩
    rw [UInt32.ofNat_toNat, UInt32.ofNat_toNat, ← happliance]
  case form =>
    rintro ⟨k, number, appliance, physical, n, m, hspells, hnumber, hphysical, hn, hm, rfl⟩
    refine hspells.parse?_eq_some_iff.2 ⟨rfl, ?_, ?_, rfl⟩
    · rwa [UInt32.toNat_ofNat_of_lt' hn]
    · rwa [UInt32.toNat_ofNat_of_lt' hm]
  case text =>
    exact (spells_text happliance).parse?_eq_some_iff.2
      ⟨rfl, Decimal.writes_digits _, Decimal.writes_digits _, by simp⟩
  case ports =>
    intro name' r r' hread hread' k number appliance physical k' number' appliance' physical'
      hspells hspells'
    obtain ⟨-, -, hphysical, happliance⟩ := hspells.parse?_eq_some_iff.1 hread
    obtain ⟨-, -, hphysical', happliance'⟩ := hspells'.parse?_eq_some_iff.1 hread'
    rw [PhysicalPort.mk.injEq, happliance, happliance', String.ofList_inj,
      eq_iff_exists_writes hphysical hphysical']

/-- A client port and a server port, whose names differ in every word, in their blanks and in the
zeros before the number of the physical port, are played by the same physical port. -/
theorem names_of_one_port :
    let r : SummaryName := ⟨.client, 1, ⟨"10.0.0.1", 3⟩⟩
    let r' : SummaryName := ⟨.server, 2, ⟨"10.0.0.1", 3⟩⟩
    let name' := "server  port 02(10.0.0.1 Port 003).summary".toList
    r.text = "Client Port 1 (10.0.0.1 port 3).sum".toList ∧
      Spells r.text .client "1".toList "10.0.0.1".toList "3".toList ∧
      Spells name' .server "02".toList "10.0.0.1".toList "003".toList ∧
      parse? r.text = some r ∧ parse? name' = some r' ∧ r.physical = r'.physical := by
  intro r r' name'
  have hone : Decimal.digits r.number.toNat = "1".toList := by decide
  have hthree : Decimal.digits r.physical.number.toNat = "3".toList := by decide
  have hspells : Spells r.text .client "1".toList "10.0.0.1".toList "3".toList := by
    rw [← hone, ← hthree]
    exact spells_text (by decide)
  have hspells' : Spells name' .server "02".toList "10.0.0.1".toList "003".toList :=
    ⟨by decide, by decide, by decide, "server".toList, by decide, "  ".toList, by decide,
      "port".toList, by decide, " ".toList, by decide, [], by simp, "Port".toList, by decide,
      ".summary".toList, by decide, rfl⟩
  obtain ⟨-, htext, hports⟩ := names_parse_exactly r.text
  have hread : parse? r.text = some r := htext r (by decide)
  have hread' : parse? name' = some r' := ((names_parse_exactly name').1 r').2
    ⟨_, _, _, _, 2, 3, hspells', ⟨1, by decide⟩, ⟨2, by decide⟩, by decide, by decide, by decide⟩
  refine ⟨by decide, hspells, hspells', hread, hread', ?_⟩
  exact (hports name' r r' hread hread' _ _ _ _ _ _ _ _ hspells hspells').2
    ⟨rfl, 3, ⟨0, by decide⟩, ⟨2, by decide⟩⟩

end TrafficCheck.SummaryName

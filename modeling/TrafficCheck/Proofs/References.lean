import Mathlib.Data.List.TakeWhile
import TrafficCheck.Proofs.Collection
import TrafficCheck.Proofs.Numerals

/-!
# Counter references

A word of counter characters refers to a counter on one port, on all ports of a kind, or on all
ports. The leading part of a word consists of characters that counters may have, too, so that a word
is read by its form: the label of a kind, a port number or none, a dot, and a counter that is not
empty. A word without this form is the name of a counter as a whole.

## Main definitions

* `Variable.NamesPort`, `Variable.NamesKind`: the forms of references with a leading part.
* `Variable.Overflows`: references to a port whose number is too large.

## Main statements

* `Variable.scopeFields?_eq_some_iff`: which words have a leading part, and what it consists of.
* `Variable.references_classified`: what every word refers to.
-/

namespace TrafficCheck

/-! ## Labels -/

namespace PortKind

variable {c : Char} {k : PortKind}

theorem ofLetter?_eq_some_iff : ofLetter? c = some k ↔ c = k.letter := by
  constructor
  · intro h
    unfold ofLetter? at h
    split at h
    · next hc =>
      obtain rfl := Option.some.inj h
      exact hc
    · split at h
      · next hc =>
        obtain rfl := Option.some.inj h
        exact hc
      · exact absurd h (by simp)
  · rintro rfl
    exact ofLetter?_letter k

theorem toList_label (k : PortKind) : k.label.toList = k.letter :: "port".toList := by
  cases k <;> rfl

end PortKind

namespace Variable

variable {name counter : String} {word number : List Char} {k : PortKind} {n : Nat}
  {m : Option Modifier}

/-! ## Forms -/

/-- A name refers to a counter on one port of a kind, whose number is written in decimal behind any
zeros. -/
def NamesPort (name : String) (k : PortKind) (n : Nat) (counter : String) : Prop :=
  Token.isCounterWord counter.toList = true ∧ ∃ number, Decimal.Writes number n ∧
    name.toList = k.label.toList ++ number ++ '.' :: counter.toList

/-- A name refers to a counter on all ports of a kind. -/
def NamesKind (name : String) (k : PortKind) (counter : String) : Prop :=
  Token.isCounterWord counter.toList = true ∧ name.toList = k.label.toList ++ '.' :: counter.toList

/-- A name refers to a counter on a port whose number does not fit into 32 bits. -/
def Overflows (name : String) : Prop :=
  ∃ k n counter, NamesPort name k n counter ∧ UInt32.size ≤ n

/-! ## Leading parts -/

/-- A word has a leading part just if it falls into a label, digits, a dot and more; and it does so
in one way. -/
theorem scopeFields?_eq_some_iff {rest : List Char} :
    scopeFields? word = some (k, number, rest) ↔
      word = k.label.toList ++ number ++ '.' :: rest ∧ (∀ c ∈ number, c.isDigit = true) ∧
        rest ≠ [] := by
  constructor
  · intro h
    unfold scopeFields? at h
    split at h
    · next c tail =>
      split at h
      · next k' rest' hletter hdrop =>
        split at h
        · exact absurd h (by simp)
        · next hne =>
          obtain ⟨rfl, rfl, rfl⟩ : k' = k ∧ _ ∧ rest' = rest := by simpa using h
          refine ⟨?_, fun c => List.mem_takeWhile_imp, by simpa using hne⟩
          rw [PortKind.toList_label, ← PortKind.ofLetter?_eq_some_iff.1 hletter, ← hdrop,
            List.append_assoc, List.takeWhile_append_dropWhile]
          rfl
      · exact absurd h (by simp)
    · exact absurd h (by simp)
  · rintro ⟨rfl, hnumber, hne⟩
    have hsplit := Decimal.takeWhile_isDigit hnumber
      (show ∀ c ∈ ('.' :: rest).head?, c.isDigit = false by simp)
    rw [PortKind.toList_label]
    simp [scopeFields?, hsplit, hne]

/-- A leading part consists of characters that counters may have. -/
theorem isCounterWord_leading (hnumber : ∀ c ∈ number, c.isDigit = true) {rest : List Char} :
    Token.isCounterWord (k.label.toList ++ number ++ '.' :: rest) = true ↔
      ∀ c ∈ rest, Token.isCounterChar c = true := by
  have hlabel : ∀ c ∈ k.label.toList, Token.isCounterChar c = true :=
    List.all_eq_true.1 (by cases k <;> rfl)
  have hdigits : ∀ c ∈ number, Token.isCounterChar c = true := fun c hc =>
    Token.isCounterChar_of_isDigit (hnumber c hc)
  simp only [Token.isCounterWord, Bool.and_eq_true, List.all_eq_true]
  constructor
  · intro h c hc
    exact h.2 c (by simp [hc])
  · intro hrest
    refine ⟨by simp, fun c hc => ?_⟩
    simp only [List.mem_append, List.mem_cons] at hc
    rcases hc with (hc | hc) | rfl | hc
    · exact hlabel c hc
    · exact hdigits c hc
    · rfl
    · exact hrest c hc

/-! ## Readings -/

theorem read_of_not_isCounterWord (h : Token.isCounterWord name.toList = false) :
    read name m = .error (.unknownToken name name) := by
  simp [read, h]

/-- The leading part of a name that has one, with the counter behind it. -/
theorem fields_of_leading (hcounter : Token.isCounterWord counter.toList = true)
    (hnumber : ∀ c ∈ number, c.isDigit = true)
    (hname : name.toList = k.label.toList ++ number ++ '.' :: counter.toList) :
    Token.isCounterWord name.toList = true ∧
      scopeFields? name.toList = some (k, number, counter.toList) := by
  obtain ⟨hne, hall⟩ : counter.toList ≠ [] ∧
      ∀ c ∈ counter.toList, Token.isCounterChar c = true := by
    simpa [Token.isCounterWord] using hcounter
  refine ⟨?_, scopeFields?_eq_some_iff.2 ⟨hname, hnumber, hne⟩⟩
  rw [hname]
  exact (isCounterWord_leading hnumber).2 hall

theorem NamesKind.read_eq (h : NamesKind name k counter) :
    read name m = .ok ⟨.kind k, counter, m⟩ := by
  have hname : name.toList = k.label.toList ++ [] ++ '.' :: counter.toList := by simpa using h.2
  obtain ⟨hword, hfields⟩ := fields_of_leading h.1 (by simp) hname
  simp [read, hword, hfields]

theorem NamesPort.read_eq {n : UInt32} (h : NamesPort name k n.toNat counter) :
    read name m = .ok ⟨.exact k n, counter, m⟩ := by
  obtain ⟨hcounter, number, hn, hname⟩ := h
  obtain ⟨hword, hfields⟩ := fields_of_leading hcounter hn.isDigit hname
  obtain ⟨d, ds, rfl⟩ := List.exists_cons_of_ne_nil hn.ne_nil
  simp [read, hword, hfields, Decimal.word?_eq_some_iff.2 hn]

theorem NamesPort.read_of_size_le (h : NamesPort name k n counter) (hn : UInt32.size ≤ n) :
    read name m = .error (.unknownToken name name) := by
  obtain ⟨hcounter, number, hnumber, hname⟩ := h
  obtain ⟨hword, hfields⟩ := fields_of_leading hcounter hnumber.isDigit hname
  obtain ⟨d, ds, rfl⟩ := List.exists_cons_of_ne_nil hnumber.ne_nil
  simp [read, hword, hfields, Decimal.word?_eq_none hnumber hn]

theorem Overflows.read_eq (h : Overflows name) :
    read name m = .error (.unknownToken name name) := by
  obtain ⟨k, n, counter, hname, hn⟩ := h
  exact hname.read_of_size_le hn

/-- A name of counter characters without a leading part is that of a counter on all ports. -/
theorem read_of_plain (hword : Token.isCounterWord name.toList = true)
    (hport : ∀ k n counter, ¬NamesPort name k n counter)
    (hkind : ∀ k counter, ¬NamesKind name k counter) : read name m = .ok ⟨.any, name, m⟩ := by
  have hnone : scopeFields? name.toList = none := by
    refine Option.eq_none_iff_forall_ne_some.2 fun fields hfields => ?_
    obtain ⟨k, number, rest⟩ := fields
    obtain ⟨hname, hnumber, hne⟩ := scopeFields?_eq_some_iff.1 hfields
    have hcounter : Token.isCounterWord (String.ofList rest).toList = true := by
      rw [hname, isCounterWord_leading hnumber] at hword
      simpa [Token.isCounterWord, hne] using hword
    by_cases hnil : number = []
    · exact hkind k (String.ofList rest) ⟨hcounter, by simpa [hnil] using hname⟩
    · exact hport k _ (String.ofList rest)
        ⟨hcounter, number, Decimal.writes_value hnumber hnil, by simpa using hname⟩
  simp [read, hword, hnone]

/-- A name of counter characters means a variable, unless its port number is too large. -/
theorem read_of_isCounterWord (hword : Token.isCounterWord name.toList = true) :
    (∃ v, read name m = .ok v) ↔ ¬Overflows name := by
  constructor
  · rintro ⟨v, hv⟩ hoverflow
    exact absurd (hoverflow.read_eq.symm.trans hv) (by simp)
  · intro hfits
    by_cases hport : ∃ k n counter, NamesPort name k n counter
    · obtain ⟨k, n, counter, hname⟩ := hport
      have hlt : n < UInt32.size := Nat.lt_of_not_le fun hn => hfits ⟨k, n, counter, hname, hn⟩
      rw [← UInt32.toNat_ofNat_of_lt' hlt] at hname
      exact ⟨_, hname.read_eq⟩
    · by_cases hkind : ∃ k counter, NamesKind name k counter
      · obtain ⟨k, counter, hname⟩ := hkind
        exact ⟨_, hname.read_eq⟩
      · exact ⟨_, read_of_plain hword (fun k n counter h => hport ⟨k, n, counter, h⟩)
          fun k counter h => hkind ⟨k, counter, h⟩⟩

/-- What every name refers to. With a leading part it refers to a counter on the port of its number,
or on all ports of its kind if there is no number; a number that does not fit into 32 bits is
refused. Every other name of counter characters is that of a counter on all ports, and a name with
other characters or none is refused. Names in a line mean a variable, unless their port number is
too large. -/
theorem references_classified (name : String) (m : Option Modifier) :
    (∀ k (n : UInt32) counter, NamesPort name k n.toNat counter →
      read name m = .ok ⟨.exact k n, counter, m⟩) ∧
    (∀ k counter, NamesKind name k counter → read name m = .ok ⟨.kind k, counter, m⟩) ∧
    (∀ k n counter, NamesPort name k n counter → UInt32.size ≤ n →
      read name m = .error (.unknownToken name name)) ∧
    (Token.isCounterWord name.toList = true → (∀ k n counter, ¬NamesPort name k n counter) →
      (∀ k counter, ¬NamesKind name k counter) → read name m = .ok ⟨.any, name, m⟩) ∧
    (Token.isCounterWord name.toList = false → read name m = .error (.unknownToken name name)) ∧
    ∀ line tokens, Token.ofLine line = .ok tokens → .reference name m ∈ tokens →
      ((∃ v, read name m = .ok v) ↔ ¬Overflows name) := by
  refine ⟨fun k n counter h => h.read_eq, fun k counter h => h.read_eq,
    fun k n counter h hn => h.read_of_size_le hn, read_of_plain, read_of_not_isCounterWord, ?tokens⟩
  intro line tokens hline hname
  exact read_of_isCounterWord (Token.wellNamed_of_ofLine hline _ hname)

/-- The number of a port stands behind zeros, and the counter looks like a reference itself. -/
theorem reference_behind_zeros :
    NamesPort "sport0012.cport.x" .server 12 "cport.x" ∧
      read "sport0012.cport.x" (some .min) = .ok ⟨.exact .server 12, "cport.x", some .min⟩ := by
  have hname : NamesPort "sport0012.cport.x" .server 12 "cport.x" :=
    ⟨by decide, "0012".toList, ⟨2, by decide⟩, by decide⟩
  exact ⟨hname, (references_classified _ _).1 .server 12 _ hname⟩

-- Where no counter is left behind the dot there is no leading part.
example : read "cport1." none = .ok ⟨.any, "cport1.", none⟩ := rfl

example : read "cport1..x" none = .ok ⟨.exact .client 1, ".x", none⟩ := rfl

end Variable

end TrafficCheck

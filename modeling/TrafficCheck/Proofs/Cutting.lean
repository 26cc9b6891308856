import TrafficCheck.Proofs.Render

/-!
# How a text is cut

The rules by which a text falls into symbols and words, said of each place alone: a symbol is the
longest one that begins there, and a word goes on up to the next blank or symbol. They leave no
choice, and splitting follows them. Since a space ends every lexeme, lexemes with single spaces
between them are split into the same lexemes again, and so a line is read like its spaced form.

## Main definitions

* `Lexeme.Stands`: a lexeme stands in front of the rest of a text.
* `Lexeme.Cut`: the lexemes of a text.
* `Token.respaced`: a line with single spaces between its lexemes.

## Main statements

* `Lexeme.cut_split`, `Lexeme.Cut.unique`: splitting gives the only cut.
* `Lexeme.Cut.locate`: where a lexeme stands in a text.
* `Token.split_lossless_and_stable`: what splitting keeps, and that spacing makes no difference.
-/

namespace TrafficCheck

namespace Symbol

variable {s s' : Symbol} {c d : Char} {cs : List Char}

/-! ## Symbols -/

theorem ofChar?_eq_some_iff : ofChar? c = some s ↔ s.text = [c] := by
  constructor
  · intro h
    unfold ofChar? at h
    split at h
    · obtain rfl := Option.some.inj h
      rfl
    · obtain rfl := Option.some.inj h
      rfl
    · obtain rfl := Option.some.inj h
      rfl
    · obtain ⟨o, ho, rfl⟩ := Option.map_eq_some_iff.1 h
      unfold Operator.ofChar? at ho
      split at ho
      all_goals first
        | obtain rfl := Option.some.inj ho; rfl
        | exact absurd ho (by simp)
  · intro h
    cases s with
    | op o =>
      have ho := Operator.ofSymbol?_symbol o
      rw [text] at h
      rw [Operator.ofSymbol?, h] at ho
      have hc : c ≠ '(' ∧ c ≠ ')' ∧ c ≠ '@' := by
        refine ⟨?_, ?_, ?_⟩ <;> rintro rfl <;> exact absurd ho (by simp [Operator.ofChar?])
      simp [ofChar?, ho, hc]
    | leftParen | rightParen | «at» =>
      obtain rfl := (List.cons.inj h).1
      rfl

theorem ofChars?_eq_some_iff : ofChars? c d = some s ↔ s.text = [c, d] := by
  constructor
  · intro h
    obtain ⟨o, ho, rfl⟩ := Option.map_eq_some_iff.1 h
    unfold Operator.ofChars? at ho
    split at ho
    · next hd =>
      subst hd
      split at ho
      all_goals first
        | obtain rfl := Option.some.inj ho; rfl
        | exact absurd ho (by simp)
    · exact absurd ho (by simp)
  · intro h
    cases s with
    | op o =>
      have ho := Operator.ofSymbol?_symbol o
      rw [text] at h
      rw [Operator.ofSymbol?, h] at ho
      simp [ofChars?, ho]
    | leftParen | rightParen | «at» => simp [text] at h

/-- A symbol has one character or two. -/
theorem text_cases (s : Symbol) : (∃ c, s.text = [c]) ∨ ∃ c d, s.text = [c, d] := by
  cases s with
  | op o =>
    cases o with
    | lessOrEqual | greaterOrEqual | equal | notEqual => exact .inr ⟨_, _, rfl⟩
    | _ => exact .inl ⟨_, rfl⟩
  | _ => exact .inl ⟨_, rfl⟩

theorem length_text_le (s : Symbol) : s.text.length ≤ 2 := by
  rcases s.text_cases with ⟨c, h⟩ | ⟨c, d, h⟩ <;> simp [h]

theorem text_ne_nil (s : Symbol) : s.text ≠ [] := by
  rcases s.text_cases with ⟨c, h⟩ | ⟨c, d, h⟩ <;> simp [h]

theorem text_inj (h : s.text = s'.text) : s = s' := by
  rcases s.text_cases with ⟨c, hc⟩ | ⟨c, d, hcd⟩
  · exact Option.some.inj ((ofChar?_eq_some_iff.2 hc).symm.trans (ofChar?_eq_some_iff.2 (h ▸ hc)))
  · exact Option.some.inj ((ofChars?_eq_some_iff.2 hcd).symm.trans
      (ofChars?_eq_some_iff.2 (h ▸ hcd)))

/-- A symbol that begins a text is one of its first character, or one of its first two. -/
theorem prefix_cons_iff : s.text <+: c :: cs ↔
    ofChar? c = some s ∨ ∃ d ∈ cs.head?, ofChars? c d = some s := by
  rw [ofChar?_eq_some_iff]
  simp only [ofChars?_eq_some_iff]
  constructor
  · rintro ⟨rest, hrest⟩
    rcases s.text_cases with ⟨c', h⟩ | ⟨c', d, h⟩
    · rw [h] at hrest
      obtain ⟨rfl, -⟩ := List.cons.inj hrest
      exact .inl h
    · rw [h] at hrest
      obtain ⟨rfl, rfl⟩ := List.cons.inj hrest
      exact .inr ⟨d, by simp, h⟩
  · rintro (h | ⟨d, hd, h⟩)
    · exact ⟨cs, by simp [h]⟩
    · cases cs with
      | nil => simp at hd
      | cons d' cs =>
        obtain rfl : d' = d := by simpa using hd
        exact ⟨cs, by simp [h]⟩

theorem isBlank_of_mem_text (s : Symbol) : ∀ c ∈ s.text, Text.isBlank c = false := by
  have hall : s.text.all (!Text.isBlank ·) = true := by
    cases s with
    | op o => cases o <;> rfl
    | leftParen | rightParen | «at» => rfl
  simpa using hall

end Symbol

namespace Lexeme

/-! ## Cuts -/

/-- A word in front of this text is at its end: the text is empty or begins with a blank or a
symbol. -/
def Ends (cs : List Char) : Prop :=
  cs = [] ∨ (∃ c ∈ cs.head?, Text.isBlank c = true) ∨ ∃ s : Symbol, s.text <+: cs

/-- Characters that belong to a word in front of the rest of a text. -/
structure IsWordPart (w rest : List Char) : Prop where
  not_blank : ∀ c ∈ w, Text.isBlank c = false
  /-- No symbol begins within the word, not even one that would reach into the rest. -/
  no_symbol : ∀ vs, vs <:+ w → vs ≠ [] → ∀ s : Symbol, ¬s.text <+: vs ++ rest

/-- A whole word in front of the rest of a text. -/
structure IsWord (w rest : List Char) : Prop extends IsWordPart w rest where
  ne_nil : w ≠ []
  ends : Ends rest

/-- A lexeme stands in front of the rest of a text: a symbol if no longer one begins at its
place. -/
def Stands : Lexeme → List Char → Prop
  | .symbol s, rest => ∀ s' : Symbol, s'.text <+: s.text ++ rest → s'.text.length ≤ s.text.length
  | .word w, rest => IsWord w rest

/-- The lexemes of a text: blanks are left out, and each lexeme stands in front of what follows
it. -/
inductive Cut : List Char → List Lexeme → Prop
  | nil : Cut [] []
  | blank {c : Char} {cs : List Char} {ls : List Lexeme} (hc : Text.isBlank c = true)
      (h : Cut cs ls) : Cut (c :: cs) ls
  | lexeme {l : Lexeme} {cs : List Char} {ls : List Lexeme} (hl : l.Stands cs) (h : Cut cs ls) :
      Cut (l.text ++ cs) (l :: ls)

variable {l l' : Lexeme} {ls ls' before after : List Lexeme} {w cs xs ys : List Char}

theorem IsWordPart.nil (rest : List Char) : IsWordPart [] rest :=
  ⟨by simp, fun _ hvs hne => absurd (List.suffix_nil.1 hvs) hne⟩

theorem IsWordPart.of_suffix {vs : List Char} (h : IsWordPart w xs) (hvs : vs <:+ w) :
    IsWordPart vs xs :=
  ⟨fun c hc => h.not_blank c (hvs.subset hc), fun us hus => h.no_symbol us (hus.trans hvs)⟩

/-- No word ends within a word. -/
theorem IsWordPart.not_ends (h : IsWordPart w xs) (hw : w ≠ []) : ¬Ends (w ++ xs) := by
  rintro (hnil | ⟨c, hc, hblank⟩ | ⟨s, hs⟩)
  · exact hw (List.append_eq_nil_iff.1 hnil).1
  · obtain ⟨d, w, rfl⟩ := List.exists_cons_of_ne_nil hw
    obtain rfl : d = c := by simpa using hc
    exact absurd hblank (by simp [h.not_blank d (by simp)])
  · exact h.no_symbol w (List.suffix_refl w) hw s hs

theorem IsWord.not_ends (h : IsWord w xs) : ¬Ends (w ++ xs) := h.toIsWordPart.not_ends h.ne_nil

/-- A character that is no blank and at which no symbol begins belongs to the word before it. -/
theorem IsWordPart.snoc {c : Char} (h : IsWordPart w (c :: cs)) (hblank : Text.isBlank c = false)
    (hsymbol : ∀ s : Symbol, ¬s.text <+: c :: cs) : IsWordPart (w ++ [c]) cs := by
  constructor
  · intro d hd
    rcases List.mem_append.1 hd with hd | hd
    · exact h.not_blank d hd
    · rwa [List.mem_singleton.1 hd]
  · intro vs hvs hne s
    obtain rfl | ⟨us, rfl, hus⟩ := List.suffix_concat_iff.1 hvs
    · exact absurd rfl hne
    rw [List.append_assoc, List.singleton_append]
    by_cases hnil : us = []
    · rw [hnil, List.nil_append]
      exact hsymbol s
    · exact h.no_symbol us hus hnil s

theorem Stands.text_ne_nil (h : l.Stands xs) : l.text ≠ [] := by
  cases l with
  | symbol s => exact s.text_ne_nil
  | word w => exact h.ne_nil

theorem Stands.not_blank (h : l.Stands xs) : ∀ c ∈ l.text, Text.isBlank c = false := by
  cases l with
  | symbol s => exact s.isBlank_of_mem_text
  | word w => exact h.not_blank

/-- No lexeme begins with a blank. -/
theorem Stands.append_ne_blank {c : Char} (h : l.Stands xs) (hc : Text.isBlank c = true) :
    l.text ++ xs ≠ c :: cs := by
  obtain ⟨d, text, htext⟩ := List.exists_cons_of_ne_nil h.text_ne_nil
  rw [htext]
  intro heq
  obtain ⟨rfl, -⟩ := List.cons.inj heq
  exact absurd hc (by simp [h.not_blank d (by simp [htext])])

/-- No word goes on where one at its place ends. -/
theorem IsWord.eq_nil_of_longer {vs : List Char} (h : IsWord w (vs ++ ys))
    (h' : IsWord (w ++ vs) ys) : vs = [] := by
  by_contra hne
  exact (h'.toIsWordPart.of_suffix (List.suffix_append w vs)).not_ends hne h.ends

theorem IsWord.eq_of_append_eq {w' : List Char} (h : IsWord w xs) (h' : IsWord w' ys)
    (heq : w ++ xs = w' ++ ys) : w = w' := by
  rcases List.append_eq_append_iff.1 heq with ⟨vs, rfl, rfl⟩ | ⟨vs, rfl, rfl⟩
  · rw [h.eq_nil_of_longer h', List.append_nil]
  · rw [h'.eq_nil_of_longer h, List.append_nil]

/-- At most one lexeme stands at a place. -/
theorem Stands.eq_of_append_eq (h : l.Stands xs) (h' : l'.Stands ys)
    (heq : l.text ++ xs = l'.text ++ ys) : l = l' := by
  cases l with
  | symbol s =>
    cases l' with
    | symbol s' =>
      have hle := h s' ⟨ys, heq.symm⟩
      have hge := h' s ⟨xs, heq⟩
      exact congrArg symbol (Symbol.text_inj (List.append_inj heq (le_antisymm hge hle)).1)
    | word w' => exact absurd (.inr (.inr ⟨s, xs, heq⟩)) h'.not_ends
  | word w =>
    cases l' with
    | symbol s' => exact absurd (.inr (.inr ⟨s', ys, heq.symm⟩)) h.not_ends
    | word w' => exact congrArg word (h.eq_of_append_eq h' heq)

theorem cut_nil_iff : Cut [] ls ↔ ls = [] := by
  constructor
  · intro h
    generalize hcs : ([] : List Char) = cs at h
    cases h with
    | nil => rfl
    | blank => exact absurd hcs (by simp)
    | lexeme hl => exact absurd (List.append_eq_nil_iff.1 hcs.symm).1 hl.text_ne_nil
  · rintro rfl
    exact .nil

theorem Cut.of_blank {c : Char} (hc : Text.isBlank c = true) (h : Cut (c :: cs) ls) :
    Cut cs ls := by
  generalize hds : c :: cs = ds at h
  cases h with
  | nil => exact absurd hds (by simp)
  | blank _ h => rwa [(List.cons.inj hds).2]
  | lexeme hl => exact absurd hds.symm (hl.append_ne_blank hc)

theorem Cut.of_stands (hl : l.Stands cs) (h : Cut (l.text ++ cs) ls) :
    ∃ rest, ls = l :: rest ∧ Cut cs rest := by
  generalize hds : l.text ++ cs = ds at h
  cases h with
  | nil => exact absurd (List.append_eq_nil_iff.1 hds).1 hl.text_ne_nil
  | blank hc => exact absurd hds (hl.append_ne_blank hc)
  | lexeme hl' h =>
    obtain rfl := hl.eq_of_append_eq hl' hds
    obtain rfl := List.append_cancel_left hds
    exact ⟨_, rfl, h⟩

theorem Cut.unique (h : Cut cs ls) (h' : Cut cs ls') : ls = ls' := by
  induction h generalizing ls' with
  | nil => exact (cut_nil_iff.1 h').symm
  | blank hc _ ih => exact ih (h'.of_blank hc)
  | lexeme hl _ ih =>
    obtain ⟨rest, rfl, hrest⟩ := h'.of_stands hl
    rw [ih hrest]

/-! ## Splitting gives the cut -/

theorem cut_close {word : List Char} (hword : IsWordPart word.reverse cs) (hends : Ends cs)
    (h : Cut cs ls) : Cut (word.reverse ++ cs) (close word ls) := by
  unfold close
  split
  · next hempty =>
    obtain rfl := List.isEmpty_iff.1 hempty
    exact h
  · next hempty => exact .lexeme (l := .word word.reverse) ⟨hword, by simpa using hempty, hends⟩ h

/-- A character at which no symbol of two characters begins, if what follows it is cut whatever word
is open there. -/
theorem cut_single {word : List Char} {c : Char} {rest : List Char → List Lexeme}
    (hone : ∀ s : Symbol, s.text <+: c :: cs → Symbol.ofChar? c = some s)
    (hword : IsWordPart word.reverse (c :: cs))
    (hrest : ∀ word, IsWordPart word.reverse cs → Cut (word.reverse ++ cs) (rest word)) :
    Cut (word.reverse ++ c :: cs) (single word c rest) := by
  have hnil : Cut cs (rest []) := hrest [] (.nil cs)
  unfold single
  split
  · next s hs =>
    have htext : s.text ++ cs = c :: cs := by
      rw [Symbol.ofChar?_eq_some_iff.1 hs, List.singleton_append]
    refine cut_close hword (.inr (.inr ⟨s, cs, htext⟩)) ?_
    rw [← htext]
    refine .lexeme (l := .symbol s) (fun s' hs' => ?_) hnil
    rw [htext] at hs'
    rw [Option.some.inj (hs.symm.trans (hone s' hs'))]
  · next hs =>
    split
    · next hc => exact cut_close hword (.inr (.inl ⟨c, rfl, hc⟩)) (.blank hc hnil)
    · next hc =>
      have hsymbol : ∀ s : Symbol, ¬s.text <+: c :: cs := fun s hprefix =>
        absurd (hs.symm.trans (hone s hprefix)) (by simp)
      have hsnoc := hrest (c :: word)
      rw [List.reverse_cons, List.append_assoc, List.singleton_append] at hsnoc
      exact hsnoc (hword.snoc (by simpa using hc) hsymbol)

theorem cut_splitFrom (word cs : List Char) (hword : IsWordPart word.reverse cs) :
    Cut (word.reverse ++ cs) (splitFrom word cs) := by
  -- What carries the induction: the open word stays part of a word in front of the text still to
  -- split.
  fun_induction splitFrom word cs with
  | case1 word => exact cut_close hword (.inl rfl) .nil
  | case2 word c =>
    refine cut_single (fun s hs => ?_) hword fun word hword => cut_close hword (.inl rfl) .nil
    rcases Symbol.prefix_cons_iff.1 hs with hs | ⟨d, hd, -⟩
    · exact hs
    · exact absurd hd (by simp)
  | case3 word c d cs s hs ih =>
    have htext : s.text ++ cs = c :: d :: cs := by rw [Symbol.ofChars?_eq_some_iff.1 hs]; rfl
    refine cut_close hword (.inr (.inr ⟨s, cs, htext⟩)) ?_
    rw [← htext]
    refine .lexeme (l := .symbol s) (fun s' _ => ?_) (ih (.nil cs))
    rw [Symbol.ofChars?_eq_some_iff.1 hs]
    exact s'.length_text_le
  | case4 word c d cs hs ih =>
    refine cut_single (fun s hprefix => ?_) hword ih
    rcases Symbol.prefix_cons_iff.1 hprefix with hs' | ⟨d', hd, hs'⟩
    · exact hs'
    · obtain rfl : d = d' := by simpa using hd
      exact absurd (hs.symm.trans hs') (by simp)

theorem cut_split (cs : List Char) : Cut cs (split cs) := cut_splitFrom [] cs (.nil cs)

theorem split_eq_iff : split cs = ls ↔ Cut cs ls := by
  constructor
  · rintro rfl
    exact cut_split cs
  · exact (cut_split cs).unique

/-! ## Where lexemes stand -/

theorem Stands.ends_append (h : l.Stands xs) (hends : Ends (l.text ++ xs)) (ys : List Char) :
    Ends (l.text ++ ys) := by
  cases l with
  | symbol s => exact .inr (.inr ⟨s, List.prefix_append _ _⟩)
  | word w => exact absurd hends h.not_ends

/-- A lexeme that stands in front of a text stands in front of a part of it, unless it is a word and
goes on where the part ends. -/
theorem Stands.of_append (h : l.Stands (xs ++ ys)) (hends : Ends (xs ++ ys) → Ends xs) :
    l.Stands xs := by
  have hlonger : ∀ (s : Symbol) us, s.text <+: us ++ xs →
      s.text <+: us ++ (xs ++ ys) := fun s us hs => by
    simpa using hs.trans (List.prefix_append _ ys)
  cases l with
  | symbol s => exact fun s' hs' => h s' (hlonger s' _ hs')
  | word w =>
    have hpart : IsWordPart w xs :=
      ⟨h.not_blank, fun vs hvs hne s => mt (hlonger s vs) (h.no_symbol vs hvs hne s)⟩
    exact ⟨hpart, h.ne_nil, hends h.ends⟩

/-- A lexeme stands by itself. -/
theorem Stands.alone (h : l.Stands xs) : split l.text = [l] := by
  have halone : l.Stands [] := Stands.of_append (List.nil_append xs ▸ h) fun _ => .inl rfl
  have hcut := Cut.lexeme halone .nil
  rw [List.append_nil] at hcut
  exact split_eq_iff.2 hcut

/-- Where a lexeme stands in a text. -/
theorem Cut.locate (h : Cut cs (before ++ l :: after)) : ∃ xs ys, cs = xs ++ l.text ++ ys ∧
    Cut xs before ∧ l.Stands ys ∧ Cut ys after ∧ (Ends cs → Ends xs) := by
  generalize hls : before ++ l :: after = ls at h
  induction h generalizing before with
  | nil => exact absurd hls (by simp)
  | @blank c cs ls hc _ ih =>
    obtain ⟨xs, ys, rfl, hxs, hl, hys, -⟩ := ih hls
    exact ⟨c :: xs, ys, rfl, hxs.blank hc, hl, hys, fun _ => .inr (.inl ⟨c, rfl, hc⟩)⟩
  | @lexeme first cs ls hfirst h ih =>
    cases before with
    | nil =>
      obtain ⟨rfl, rfl⟩ := List.cons.inj hls
      exact ⟨[], cs, rfl, .nil, hfirst, h, fun _ => .inl rfl⟩
    | cons b before =>
      obtain ⟨rfl, htail⟩ := List.cons.inj hls
      obtain ⟨xs, ys, rfl, hxs, hl, hys, hends⟩ := ih htail
      rw [List.append_assoc] at hfirst hends
      refine ⟨b.text ++ xs, ys, by simp, .lexeme (hfirst.of_append hends) hxs, hl, hys, ?_⟩
      rw [List.append_assoc xs]
      exact fun h => hfirst.ends_append h xs

theorem Cut.stands_of_mem (h : Cut cs ls) (hl : l ∈ ls) : ∃ xs, l.Stands xs := by
  obtain ⟨before, after, rfl⟩ := List.append_of_mem hl
  obtain ⟨_, ys, -, -, hstands, -⟩ := h.locate
  exact ⟨ys, hstands⟩

/-- Behind the end of a word comes a blank or a symbol. -/
theorem Cut.blank_or_symbol (h : Cut cs ls) (hends : Ends cs) (hne : cs ≠ []) :
    (∃ c ∈ cs.head?, Text.isBlank c = true) ∨ ∃ s, ls.head? = some (.symbol s) := by
  cases h with
  | nil => exact absurd rfl hne
  | blank hc => exact .inl ⟨_, rfl, hc⟩
  | @lexeme l cs ls hl =>
    cases l with
    | symbol s => exact .inr ⟨s, rfl⟩
    | word w => exact absurd hends hl.not_ends

/-- Where two words stand in a text, and what separates them. -/
theorem Cut.locate_words {u v : List Char} {between : List Lexeme}
    (h : Cut cs (before ++ .word u :: (between ++ .word v :: after))) :
    ∃ xs gap ys, cs = xs ++ u ++ gap ++ v ++ ys ∧ Cut xs before ∧ Cut gap between ∧ Cut ys after ∧
      ((∃ c ∈ gap.head?, Text.isBlank c = true) ∨ ∃ s, between.head? = some (.symbol s)) := by
  obtain ⟨xs, rest, rfl, hxs, hu, hrest, -⟩ := h.locate
  obtain ⟨gap, ys, rfl, hgap, hv, hys, hends⟩ := hrest.locate
  have hne : gap ≠ [] := by
    rintro rfl
    exact hv.not_ends hu.ends
  exact ⟨xs, gap, ys, by simp [text], hxs, hgap, hys, hgap.blank_or_symbol (hends hu.ends) hne⟩

/-! ## What lexemes consist of -/

theorem Cut.flatMap_text (h : Cut cs ls) : ls.flatMap text = cs.filter (!Text.isBlank ·) := by
  induction h with
  | nil => rfl
  | blank hc _ ih => simpa [hc] using ih
  | @lexeme l cs ls hl _ ih =>
    have hkept : l.text.filter (!Text.isBlank ·) = l.text :=
      List.filter_eq_self.2 fun c hc => by simp [hl.not_blank c hc]
    rw [List.flatMap_cons, ih, List.filter_append, hkept]

theorem IsWord.not_infix (h : IsWord w xs) (s : Symbol) : ¬s.text <:+: w := by
  rintro ⟨us, vs, rfl⟩
  exact h.no_symbol (s.text ++ vs) ⟨us, by simp⟩ (by simp [s.text_ne_nil]) s ⟨vs ++ xs, by simp⟩

theorem split_text_of_mem (hl : l ∈ split cs) : split l.text = [l] := by
  obtain ⟨xs, hstands⟩ := (cut_split cs).stands_of_mem hl
  exact hstands.alone

end Lexeme

namespace Token

/-! ## Spaced lines -/

/-- A line with single spaces between its lexemes and no other blanks. -/
def respaced (line : String) : String :=
  " ".intercalate ((Lexeme.split line.toList).map fun l => String.ofList l.text)

theorem split_respaced (line : String) :
    Lexeme.split (respaced line).toList = Lexeme.split line.toList := by
  rw [respaced, Lexeme.split_intercalate, List.flatMap_map]
  calc (Lexeme.split line.toList).flatMap (fun l => Lexeme.split (String.ofList l.text).toList)
      = (Lexeme.split line.toList).flatMap fun l => [l] :=
        List.flatMap_congr fun l hl => by rw [String.toList_ofList, Lexeme.split_text_of_mem hl]
    _ = Lexeme.split line.toList := List.flatMap_singleton' _

theorem ofLine_respaced (line : String) :
    ofLine (respaced line) = (ofLine line).mapError (·.onLine (respaced line)) := by
  rw [ofLine, split_respaced]
  exact ofLexemes_onLine line (respaced line) [] _

/-- The lexemes of a line are its only cut, and together they are the line without its blanks. A
word is not empty, has no blank and contains no symbol, and what comes first behind it is a blank or
a symbol if another word follows. No symbol is cut where a longer one begins. Spacing makes no
difference: a line with single spaces between its lexemes has the same lexemes, and so the same
tokens or the same error, which names the spaced line. -/
theorem split_lossless_and_stable (line : String) :
    (∀ ls, Lexeme.split line.toList = ls ↔ Lexeme.Cut line.toList ls) ∧
    (Lexeme.split line.toList).flatMap Lexeme.text = line.toList.filter (!Text.isBlank ·) ∧
    (∀ w, Lexeme.word w ∈ Lexeme.split line.toList →
      w ≠ [] ∧ (∀ c ∈ w, Text.isBlank c = false) ∧ ∀ s : Symbol, ¬s.text <:+: w) ∧
    (∀ before u between v after,
      Lexeme.split line.toList = before ++ .word u :: (between ++ .word v :: after) →
      ∃ xs gap ys, line.toList = xs ++ u ++ gap ++ v ++ ys ∧ Lexeme.split xs = before ∧
        Lexeme.split gap = between ∧ Lexeme.split ys = after ∧
        ((∃ c ∈ gap.head?, Text.isBlank c = true) ∨ ∃ s, between.head? = some (.symbol s))) ∧
    (∀ before s after, Lexeme.split line.toList = before ++ .symbol s :: after →
      ∃ xs ys, line.toList = xs ++ s.text ++ ys ∧ Lexeme.split xs = before ∧
        Lexeme.split ys = after ∧
        ∀ s' : Symbol, s'.text <+: s.text ++ ys → s'.text.length ≤ s.text.length) ∧
    Lexeme.split (respaced line).toList = Lexeme.split line.toList ∧
    ofLine (respaced line) = (ofLine line).mapError (·.onLine (respaced line)) := by
  have hcut := Lexeme.cut_split line.toList
  refine ⟨fun ls => Lexeme.split_eq_iff, hcut.flatMap_text, ?words, ?apart, ?symbols,
    split_respaced line, ofLine_respaced line⟩
  case words =>
    intro w hw
    obtain ⟨xs, hword⟩ := hcut.stands_of_mem hw
    exact ⟨hword.ne_nil, hword.not_blank, hword.not_infix⟩
  case apart =>
    intro before u between v after hls
    rw [hls] at hcut
    obtain ⟨xs, gap, ys, hline, hxs, hgap, hys, hseparated⟩ := hcut.locate_words
    exact ⟨xs, gap, ys, hline, Lexeme.split_eq_iff.2 hxs, Lexeme.split_eq_iff.2 hgap,
      Lexeme.split_eq_iff.2 hys, hseparated⟩
  case symbols =>
    intro before s after hls
    rw [hls] at hcut
    obtain ⟨xs, ys, hline, hxs, hlongest, hys, -⟩ := hcut.locate
    exact ⟨xs, ys, hline, Lexeme.split_eq_iff.2 hxs, Lexeme.split_eq_iff.2 hys, hlongest⟩

/-- A single `=` is no symbol and belongs to words. -/
example : Lexeme.split "a= ===b".toList =
    [.word "a=".toList, .symbol (.op .equal), .word "=b".toList] := by decide

end Token

end TrafficCheck

import Mathlib
import TrafficCheck.Proofs.Collection
import TrafficCheck.Proofs.Conservation
import TrafficCheck.Proofs.Decimal
import TrafficCheck.Proofs.Rules

/-!
# Rendered tokens are read back

The texts of tokens are cut into the lexemes they consist of, since a space separates what stands
before it from what follows. Each text falls back into the class its token is of: rules, numbers and
counter names are tried in this order, and no text of a later class is one of an earlier class. The
exception is a number too large for its format: it is written as the word of a counter name.

## Main definitions

* `Token.Written`: a token as it stands in a line.
* `Token.asPrinted`: what the text of a token is read as.
* `AssertionError.onLine`: an error that names another line.
* `Program.IsCompiled`: a program of tokens that stand in a line.

## Main results

* `Token.split_render`, `Token.ofLexemes_split_text`: rendered tokens are read one by one.
* `Token.ofLexemes_onLine`: what is read depends on the line in errors only, which name it.
* `Token.render_reads_back_iff`: rendered tokens are read back exactly if their numbers are finite.
-/

namespace TrafficCheck

namespace Lexeme

/-! ## Splitting -/

/-- A character that belongs to words and begins no symbol. -/
def IsPlain (c : Char) : Prop := Symbol.ofChar? c = none ∧ Text.isBlank c = false ∧ c ≠ '='

theorem ofChars?_eq_none_of_ne {c d : Char} (hd : d ≠ '=') : Symbol.ofChars? c d = none := by
  simp [Symbol.ofChars?, Operator.ofChars?, hd]

theorem IsPlain.ofChars? {c : Char} (hc : IsPlain c) (d : Char) : Symbol.ofChars? c d = none := by
  obtain ⟨hsymbol, -, hequals⟩ := hc
  unfold Symbol.ofChars? Operator.ofChars?
  split
  · split <;> first | rfl | exact absurd hsymbol (by decide) | exact absurd rfl hequals
  · rfl

theorem close_append (word : List Char) (ls ls' : List Lexeme) :
    close word ls ++ ls' = close word (ls ++ ls') := by
  unfold close
  split <;> rfl

theorem single_append (word : List Char) (c : Char) (rest : List Char → List Lexeme)
    (ls : List Lexeme) :
    single word c rest ++ ls = single word c fun word => rest word ++ ls := by
  unfold single
  split
  · rw [close_append, List.cons_append]
  · split
    · rw [close_append]
    · rfl

theorem IsPlain.single {c : Char} (hc : IsPlain c) (word : List Char)
    (rest : List Char → List Lexeme) : single word c rest = rest (c :: word) := by
  rw [Lexeme.single, hc.1]
  simp [hc.2.1]

/-- A character after which nothing follows that could make up a symbol of two characters with
it. -/
theorem splitFrom_cons {c : Char} {cs : List Char} (h : ∀ d ∈ cs.head?, Symbol.ofChars? c d = none)
    (word : List Char) :
    splitFrom word (c :: cs) = single word c fun word => splitFrom word cs := by
  cases cs with
  | nil => rfl
  | cons d cs => rw [splitFrom, h d rfl]

theorem ofChars?_space (d : Char) : Symbol.ofChars? ' ' d = none := by
  by_cases hd : d = '='
  · rw [hd]
    rfl
  · exact ofChars?_eq_none_of_ne hd

/-- A space separates what stands before it from what follows. -/
theorem splitFrom_append_space (word cs ds : List Char) :
    splitFrom word (cs ++ ' ' :: ds) = splitFrom word cs ++ split ds := by
  have hspace : ∀ word, splitFrom word (' ' :: ds) = close word (split ds) := fun word =>
    splitFrom_cons (fun d _ => ofChars?_space d) word
  -- Only the last character of `cs` meets the space, and makes up no symbol with it.
  fun_induction splitFrom word cs with
  | case1 word => rw [List.nil_append, hspace, close_append, List.nil_append]
  | case2 word c =>
    have hnext : ∀ d ∈ (' ' :: ds).head?, Symbol.ofChars? c d = none := fun d hd =>
      ofChars?_eq_none_of_ne (by rintro rfl; simp at hd)
    rw [List.cons_append, List.nil_append, splitFrom_cons hnext, single_append]
    simp only [hspace, close_append, List.nil_append]
  | case3 word c d cs s hs ih =>
    rw [List.cons_append, List.cons_append, splitFrom, hs, close_append, List.cons_append, ih]
  | case4 word c d cs hs ih =>
    rw [List.cons_append, List.cons_append, splitFrom, hs, single_append]
    exact congrArg (single word c) (funext ih)

theorem split_append_space (cs ds : List Char) : split (cs ++ ' ' :: ds) = split cs ++ split ds :=
  splitFrom_append_space [] cs ds

/-- The lexemes of texts with single spaces between them. -/
theorem split_intercalate (texts : List String) :
    split (" ".intercalate texts).toList = texts.flatMap fun text => split text.toList := by
  rw [String.toList_intercalate]
  induction texts with
  | nil => rfl
  | cons text texts ih =>
    cases texts with
    | nil => simp
    | cons next texts =>
      simp only [List.map_cons] at ih ⊢
      rw [List.intercalate_cons_cons, List.flatMap_cons, ← ih, List.append_assoc]
      exact split_append_space _ _

/-- Plain characters belong to the open word. -/
theorem splitFrom_of_isPlain {cs : List Char} (hcs : ∀ c ∈ cs, IsPlain c) (word ds : List Char) :
    splitFrom word (cs ++ ds) = splitFrom (cs.reverse ++ word) ds := by
  induction cs generalizing word with
  | nil => rfl
  | cons c cs ih =>
    have hc := hcs c (by simp)
    rw [List.cons_append, splitFrom_cons (fun d _ => hc.ofChars? d), hc.single,
      ih fun d hd => hcs d (by simp [hd])]
    simp

/-- A text of plain characters is a single word. -/
theorem split_of_isPlain {cs : List Char} (hcs : ∀ c ∈ cs, IsPlain c) (hne : cs ≠ []) :
    split cs = [.word cs] := by
  have hsplit := splitFrom_of_isPlain hcs [] []
  rw [List.append_nil] at hsplit
  rw [split, hsplit, splitFrom, close]
  simp [hne]

/-- A word, an `@` and what follows it. -/
theorem split_append_at {cs : List Char} (hcs : ∀ c ∈ cs, IsPlain c) (hne : cs ≠ [])
    (ds : List Char) :
    split (cs ++ '@' :: ds) = .word cs :: .symbol .at :: split ds := by
  have hat : ∀ d ∈ ds.head?, Symbol.ofChars? '@' d = none := by
    intro d _
    by_cases hd : d = '='
    · rw [hd]
      rfl
    · exact ofChars?_eq_none_of_ne hd
  rw [split, splitFrom_of_isPlain hcs, splitFrom_cons hat]
  simp [single, Symbol.ofChar?, close, hne, split]

end Lexeme

namespace Token

/-- The lexemes of the tokens of a line, one after the other. -/
theorem split_render (tokens : List Token) :
    Lexeme.split (render tokens).toList = tokens.flatMap fun t => Lexeme.split t.text.toList := by
  rw [render, Lexeme.split_intercalate, List.flatMap_map]

end Token

namespace Lexeme

instance : DecidablePred IsPlain := fun _ => inferInstanceAs (Decidable (_ ∧ _ ∧ _))

theorem isPlain_of_all {cs : List Char} (h : cs.all (IsPlain ·) = true) : ∀ c ∈ cs, IsPlain c := by
  simpa using h

/-- The characters of counter names and rules make up words. -/
theorem isPlain_of_isCounterChar {c : Char} (hc : Token.isCounterChar c = true) : IsPlain c := by
  have hascii : ∀ n < 128, Token.isCounterChar (Char.ofNat n) = true → IsPlain (Char.ofNat n) := by
    decide
  have hlt : c.toNat < 128 := by
    simp only [Token.isCounterChar, Char.isAlphanum, Char.isAlpha, Char.isUpper, Char.isLower,
      Char.isDigit, Bool.or_eq_true, Bool.and_eq_true, decide_eq_true_iff, ge_iff_le,
      UInt32.le_iff_toNat_le] at hc
    rcases hc with (((⟨-, h⟩ | ⟨-, h⟩) | ⟨-, h⟩) | rfl) | rfl
    · exact Nat.lt_of_le_of_lt h (by decide)
    · exact Nat.lt_of_le_of_lt h (by decide)
    · exact Nat.lt_of_le_of_lt h (by decide)
    · decide
    · decide
  have hchar := hascii c.toNat hlt
  rw [Char.ofNat_toNat] at hchar
  exact hchar hc

end Lexeme

namespace Decimal

/-- A text that writes a number consists of digits and a point and starts with a digit. -/
theorem digits_of_read? {cs : List Char} {x : Float} (h : read? cs = some x) :
    (∃ c ∈ cs.head?, c.isDigit = true) ∧ ∀ c ∈ cs, c.isDigit = true ∨ c = '.' := by
  simp only [read?] at h
  split at h
  · exact absurd h (by simp)
  · rename_i hwhole
    have hsplit := List.takeWhile_append_dropWhile (p := Char.isDigit) (l := cs)
    have htake : ∀ c ∈ cs.takeWhile Char.isDigit, c.isDigit = true := fun c hc =>
      List.mem_takeWhile_imp hc
    have hne : cs.takeWhile Char.isDigit ≠ [] := by simpa using hwhole
    constructor
    · obtain ⟨c, ds, hcons⟩ := List.exists_cons_of_ne_nil hne
      have hc := htake c (by simp [hcons])
      rw [← hsplit, hcons]
      exact ⟨c, rfl, hc⟩
    · intro c hc
      rw [← hsplit, List.mem_append] at hc
      rcases hc with hc | hc
      · exact .inl (htake c hc)
      · split at h
        · rename_i hdrop
          simp [hdrop] at hc
        · rename_i fraction hdrop
          split at h
          · exact absurd h (by simp)
          · rename_i hfraction
            rw [hdrop] at hc
            simp at hfraction
            rcases List.mem_cons.1 hc with rfl | hc
            · exact .inr rfl
            · exact .inl (hfraction.2 c hc)
        · exact absurd h (by simp)

/-- What a text writes is the number nearest to a decimal. -/
theorem exists_read_of_read? {cs : List Char} {x : Float} (h : read? cs = some x) :
    ∃ d : Scaled, x = d.read := by
  simp only [read?] at h
  split at h
  · exact absurd h (by simp)
  split at h
  · exact ⟨_, (Option.some.inj h).symm⟩
  · split at h
    · exact absurd h (by simp)
    · exact ⟨_, (Option.some.inj h).symm⟩
  · exact absurd h (by simp)

end Decimal

namespace Rule

theorem read_of_isDigit {c : Char} (hc : c.isDigit = true) (cs : List Char) :
    read (c :: cs) = .other := by
  have hhead : ∀ d : Char, d.isDigit = false → ∀ ds, c :: cs ≠ d :: ds := by
    rintro d hd ds heq
    obtain ⟨rfl, -⟩ := List.cons.inj heq
    exact absurd (hc.symm.trans hd) (by decide)
  have hspan : spanFields? (c :: cs) = none := by
    refine spanFields?_eq_none_iff.2 ?_
    rintro first last ⟨lower, upper, -, -, heq⟩
    exact hhead 'S' (by decide) _ heq
  have hlast : c :: cs ≠ "LAST".toList := hhead 'L' (by decide) _
  have hany : c :: cs ≠ "ANY".toList := hhead 'A' (by decide) _
  have hexcept : c :: cs ≠ "ANY_EXCEPT_LAST".toList := hhead 'A' (by decide) _
  rw [read, if_neg hlast, if_neg hany, if_neg hexcept, hspan]

theorem isPlain_text (r : Rule) : ∀ c ∈ r.text.toList, Lexeme.IsPlain c := by
  have hdigits : ∀ n, ∀ c ∈ Decimal.digits n, Lexeme.IsPlain c := fun n c hc =>
    Lexeme.isPlain_of_isCounterChar (Token.isCounterChar_of_isDigit
      (Decimal.isDigit_of_mem_digits hc))
  cases r with
  | last => exact Lexeme.isPlain_of_all (by decide)
  | any => exact Lexeme.isPlain_of_all (by decide)
  | anyExceptLast => exact Lexeme.isPlain_of_all (by decide)
  | span s =>
    intro c hc
    simp only [toList_text_span, List.mem_append, List.mem_cons, List.not_mem_nil, or_false] at hc
    rcases hc with rfl | rfl | rfl | rfl | rfl | hc | rfl | hc | rfl
    iterate 5 decide
    · exact hdigits _ c hc
    · decide
    · exact hdigits _ c hc
    · decide

end Rule

/-- The error with another line named as the one that cannot be read. -/
def AssertionError.onLine (line : String) : AssertionError → AssertionError
  | .unknownToken token _ => .unknownToken token line
  | .unknownModifier modifier _ => .unknownModifier modifier line
  | .invalidSpan _ => .invalidSpan line
  | .emptyExpression _ => .emptyExpression line
  | .missingRule _ => .missingRule line
  | .misplacedRule rule _ => .misplacedRule rule line
  | .unbalancedParentheses _ => .unbalancedParentheses line
  | .malformed reason _ => .malformed reason line
  | e => e

namespace Token

variable {line : String} {t : Token} {tokens : List Token}

/-- A token as it stands in a line. -/
def Written : Token → Prop
  | .reference name _ => ∀ line, ofWord line name.toList = .ok (.reference name none)
  | .number x => ∃ d : Decimal.Scaled, x = d.read
  | _ => True

/-- What the text of a token is read as: a number that is too large turns into a counter
reference. -/
def asPrinted : Token → Token
  | .number x => if x.isFinite then .number x else .reference "inf" none
  | t => t

/-! ## The line in errors -/

theorem ofWord_onLine (line line' : String) (word : List Char) :
    ofWord line' word = (ofWord line word).mapError (·.onLine line') := by
  unfold ofWord
  cases constants.lookup (String.ofList word) with
  | some x => rfl
  | none =>
    cases Rule.read word with
    | rule r => rfl
    | invalidSpan => rfl
    | other =>
      cases Decimal.read? word with
      | some x => rfl
      | none => cases isCounterWord word <;> rfl

theorem modify_onLine (line line' : String) (l : Lexeme) (tokens : List Token) :
    modify line' l tokens = (modify line l tokens).mapError (·.onLine line') := by
  simp only [modify]
  cases Modifier.ofKeyword? (String.ofList l.text) with
  | none => rfl
  | some m =>
    simp only
    split <;> rfl

/-- Lexemes are read alike in every line, but for the line that an error names. -/
theorem ofLexemes_onLine (line line' : String) (tokens : List Token) (ls : List Lexeme) :
    ofLexemes line' tokens ls = (ofLexemes line tokens ls).mapError (·.onLine line') := by
  fun_induction ofLexemes line tokens ls with
  | case1 tokens => rfl
  | case2 tokens => rfl
  | case3 tokens l rest tokens' hmodify ih =>
    rw [ofLexemes, modify_onLine line, hmodify, Outcome.mapError_ok]
    exact ih
  | case4 tokens l rest e hmodify =>
    rw [ofLexemes, modify_onLine line, hmodify]
    rfl
  | case5 tokens rest ih => exact ih
  | case6 tokens rest ih => exact ih
  | case7 tokens o rest ih => exact ih
  | case8 tokens word rest token htoken ih =>
    rw [ofLexemes, ofWord_onLine line, htoken, Outcome.mapError_ok]
    exact ih
  | case9 tokens word rest e htoken =>
    rw [ofLexemes, ofWord_onLine line, htoken]
    rfl

/-- A word is read as the same token in every line. -/
theorem ofWord_of_ofWord {word : List Char} (h : ofWord line word = .ok t) (line' : String) :
    ofWord line' word = .ok t := by
  rw [ofWord_onLine line, h, Outcome.mapError_ok]

/-! ## Tokens that stand in a line -/

theorem lookup_constants {word : String} {x : Float} (h : constants.lookup word = some x) :
    word = "const_name" ∧ x = (⟨0, 0⟩ : Decimal.Scaled).read := by
  by_cases hword : word = "const_name"
  · subst hword
    exact ⟨rfl, (Option.some.inj h).symm⟩
  · have hne : (word == "const_name") = false := beq_false_of_ne hword
    simp [constants, List.lookup, hne] at h

/-- A word that starts like no constant is none. -/
theorem lookup_constants_of_head {cs : List Char} (h : cs.head? ≠ some 'c') :
    constants.lookup (String.ofList cs) = none := by
  cases hlookup : constants.lookup (String.ofList cs) with
  | none => rfl
  | some x =>
    have hcs : cs = "const_name".toList := by
      rw [← (lookup_constants hlookup).1, String.toList_ofList]
    exact absurd (by rw [hcs]; rfl) h

theorem written_of_ofWord {word : List Char} (h : ofWord line word = .ok t) : t.Written := by
  have hall := ofWord_of_ofWord h
  unfold ofWord at h
  split at h
  · rename_i x hconstant
    obtain rfl := Except.ok.inj h
    exact ⟨_, (lookup_constants hconstant).2⟩
  split at h
  · obtain rfl := Except.ok.inj h
    trivial
  · exact absurd h (by simp)
  split at h
  · rename_i x hread
    obtain rfl := Except.ok.inj h
    exact Decimal.exists_read_of_read? hread
  split at h
  · obtain rfl := Except.ok.inj h
    intro line'
    rw [String.toList_ofList]
    exact hall line'
  · exact absurd h (by simp)

theorem written_of_ofLine (h : ofLine line = .ok tokens) : ∀ t ∈ tokens, t.Written :=
  forall_of_ofLexemes (fun _ _ => written_of_ofWord) (fun _ _ => id) trivial trivial
    (fun _ => trivial) h (by simp)

/-! ## Reading back -/

theorem ofWord_text_rule (line : String) (r : Rule) :
    ofWord line r.text.toList = .ok (.rule r) := by
  have hhead : r.text.toList.head? ≠ some 'c' := by
    cases r with
    | span s => simp [Rule.toList_text_span]
    | _ => decide
  rw [ofWord, lookup_constants_of_head hhead, Rule.read_text]

theorem ofWord_of_read? {cs : List Char} {x : Float} (h : Decimal.read? cs = some x)
    (line : String) :
    ofWord line cs = .ok (.number x) := by
  obtain ⟨⟨c, hhead, hc⟩, -⟩ := Decimal.digits_of_read? h
  obtain ⟨cs, rfl⟩ : ∃ ds, cs = c :: ds := by
    cases cs with
    | nil => simp at hhead
    | cons d ds => exact ⟨ds, by rw [Option.some.inj hhead]⟩
  have hfirst : (c :: cs).head? ≠ some 'c' := by
    rintro hfirst
    rw [Option.some.inj hfirst] at hc
    exact absurd hc (by decide)
  rw [ofWord, lookup_constants_of_head hfirst, Rule.read_of_isDigit hc, h]

/-- A text that writes a number is read as that number, wherever it stands. -/
theorem ofLexemes_split_of_read? {cs : List Char} {x : Float} (h : Decimal.read? cs = some x)
    (line : String) (before : List Token) (rest : List Lexeme) :
    ofLexemes line before (Lexeme.split cs ++ rest) =
      ofLexemes line (.number x :: before) rest := by
  obtain ⟨⟨c, hhead, -⟩, hchars⟩ := Decimal.digits_of_read? h
  have hplain : ∀ c ∈ cs, Lexeme.IsPlain c := by
    intro c hc
    rcases hchars c hc with hdigit | rfl
    · exact Lexeme.isPlain_of_isCounterChar (Token.isCounterChar_of_isDigit hdigit)
    · decide
  have hne : cs ≠ [] := by
    rintro rfl
    exact nomatch hhead
  rw [Lexeme.split_of_isPlain hplain hne, List.singleton_append, ofLexemes, ofWord_of_read? h]

/-- A word that is read as a counter reference consists of characters of counter names. -/
theorem isPlain_of_isCounterWord {cs : List Char} (h : isCounterWord cs = true) :
    cs ≠ [] ∧ ∀ c ∈ cs, Lexeme.IsPlain c := by
  simp only [isCounterWord, Bool.and_eq_true, List.all_eq_true] at h
  exact ⟨by simpa using h.1, fun c hc => Lexeme.isPlain_of_isCounterChar (h.2 c hc)⟩

/-- The text of a token is read as that token, wherever it stands. -/
theorem ofLexemes_split_text (ht : t.Written) (line : String) (before : List Token)
    (rest : List Lexeme) :
    ofLexemes line before (Lexeme.split t.text.toList ++ rest) =
      ofLexemes line (t.asPrinted :: before) rest := by
  cases t with
  | rule r =>
    have hne : r.text.toList ≠ [] := by
      cases r with
      | span s => simp [Rule.toList_text_span]
      | _ => decide
    rw [text, Lexeme.split_of_isPlain (Rule.isPlain_text r) hne, List.singleton_append, ofLexemes,
      ofWord_text_rule]
    rfl
  | reference name modifier =>
    have hwell := wellNamed_of_ofWord (ht line)
    obtain ⟨hne, hplain⟩ := isPlain_of_isCounterWord hwell
    cases modifier with
    | none =>
      rw [text, bindingKey, Lexeme.split_of_isPlain hplain hne, List.singleton_append,
        ofLexemes, ht line]
      rfl
    | some m =>
      have hkeyword : Lexeme.split m.keyword.toList = [.word m.keyword.toList] := by
        cases m <;> decide
      rw [text, toList_bindingKey, Lexeme.split_append_at hplain hne, hkeyword, List.cons_append,
        List.cons_append, List.singleton_append, ofLexemes, ht line]
      simp [ofLexemes, modify, Lexeme.text, asPrinted]
  | number x =>
    obtain ⟨d, rfl⟩ := ht
    cases hfinite : d.read.isFinite with
    | true =>
      rw [text, ofLexemes_split_of_read? (Decimal.read?_text_read hfinite)]
      simp [asPrinted, hfinite]
    | false =>
      have hword : ofWord line "inf".toList = .ok (.reference "inf" none) := rfl
      have hplain : ∀ c ∈ "inf".toList, Lexeme.IsPlain c := Lexeme.isPlain_of_all (by decide)
      rw [text, Decimal.text_read hfinite, Lexeme.split_of_isPlain hplain (by decide),
        List.singleton_append, ofLexemes, hword]
      simp [asPrinted, hfinite]
  | op o =>
    have hsplit : Lexeme.split o.symbol.toList = [.symbol (.op o)] := by cases o <;> decide
    rw [text, hsplit]
    rfl
  | leftParen => rfl
  | rightParen => rfl

/-- The text of the tokens of a line is read as those tokens, but for numbers that are too large. -/
theorem ofLine_render (h : ∀ t ∈ tokens, t.Written) :
    ofLine (render tokens) = .ok (tokens.map asPrinted) := by
  have hrun : ∀ before,
      ofLexemes (render tokens) before (tokens.flatMap fun t => Lexeme.split t.text.toList) =
        .ok (before.reverse ++ tokens.map asPrinted) := by
    generalize render tokens = line
    induction tokens with
    | nil => simp [ofLexemes]
    | cons t tokens ih =>
      intro before
      rw [List.flatMap_cons, ofLexemes_split_text (h t (by simp)),
        ih fun u hu => h u (by simp [hu])]
      simp
  rw [ofLine, split_render]
  exact hrun []

/-- A line that is a number. -/
theorem ofLine_of_read? {x : Float} (h : Decimal.read? line.toList = some x) :
    ofLine line = .ok [.number x] := by
  have hlexemes := ofLexemes_split_of_read? h line [] []
  rwa [List.append_nil] at hlexemes

/-! ## Finite numbers -/

/-- Whether a token is no number that is too large. -/
def isFinite : Token → Bool
  | .number x => x.isFinite
  | _ => true

theorem asPrinted_eq_self_iff : t.asPrinted = t ↔ t.isFinite = true := by
  cases t with
  | number x => simp [asPrinted, isFinite]
  | _ => simp [asPrinted, isFinite]

theorem map_asPrinted_eq_self_iff :
    tokens.map asPrinted = tokens ↔ ∀ t ∈ tokens, t.isFinite = true := by
  have hmap : tokens.map asPrinted = tokens.map id ↔ ∀ t ∈ tokens, t.asPrinted = t :=
    List.map_inj_left
  simpa only [List.map_id, asPrinted_eq_self_iff] using hmap

/-- A token has the text of what it is read as. -/
theorem text_asPrinted (ht : t.Written) : t.asPrinted.text = t.text := by
  cases t with
  | number x =>
    obtain ⟨d, rfl⟩ := ht
    cases hfinite : d.read.isFinite with
    | true => simp [asPrinted, hfinite]
    | false => simp [asPrinted, hfinite, text, bindingKey, Decimal.text_read hfinite]
  | _ => rfl

/-- Tokens are rendered alike if and only if they are read back as the same. -/
theorem render_eq_iff {us : List Token} (h : ∀ t ∈ tokens, t.Written) (hu : ∀ u ∈ us, u.Written) :
    render tokens = render us ↔ tokens.map asPrinted = us.map asPrinted := by
  constructor
  · intro heq
    have htokens := ofLine_render h
    rw [heq, ofLine_render hu] at htokens
    exact (Except.ok.inj htokens).symm
  · intro heq
    have htext : ∀ ts : List Token, (∀ t ∈ ts, t.Written) →
        ts.map text = (ts.map asPrinted).map text := by
      intro ts hts
      rw [List.map_map]
      exact List.map_congr_left fun t ht => (text_asPrinted (hts t ht)).symm
    rw [render, render, htext tokens h, htext us hu, heq]

end Token

/-- A program was compiled from tokens that stand in a line. -/
def Program.IsCompiled (p : Program) : Prop := ∃ line tokens expression,
  Token.ofLine line = .ok tokens ∧ expression ⊆ tokens ∧ Program.compile line expression = .ok p

theorem Program.IsCompiled.written {p : Program} (h : p.IsCompiled) : ∀ t ∈ p, t.Written := by
  obtain ⟨line, tokens, expression, hline, hsub, hcompile⟩ := h
  intro t ht
  have hperm := Program.arrange_perm (Program.compile_eq_ok_iff.1 hcompile).1
  exact Token.written_of_ofLine hline t (hsub (List.mem_of_mem_filter (hperm.mem_iff.1 ht)))

/-- The tokens of a line are rendered as a text that is read again, as the same tokens but for the
numbers that are too large; so they are read back exactly if all numbers are finite. Programs are
rendered alike exactly if these numbers are all that tells them apart. -/
theorem Token.render_reads_back_iff {line : String} {tokens : List Token} {p q : Program}
    (h : ofLine line = .ok tokens) (hp : p.IsCompiled) (hq : q.IsCompiled) :
    (ofLine (render tokens) = .ok (tokens.map asPrinted) ∧
      (ofLine (render tokens) = .ok tokens ↔ ∀ t ∈ tokens, t.isFinite = true)) ∧
    (render p = render q ↔ p.map asPrinted = q.map asPrinted) ∧
    ((∀ t ∈ p, t.isFinite = true) → (∀ t ∈ q, t.isFinite = true) →
      render p = render q → p = q) := by
  have hread := ofLine_render (written_of_ofLine h)
  have hrender := render_eq_iff hp.written hq.written
  refine ⟨⟨hread, ?_⟩, hrender, fun hpfinite hqfinite heq => ?_⟩
  · rw [hread, Except.ok.injEq, map_asPrinted_eq_self_iff]
  · have hmap := hrender.1 heq
    rwa [map_asPrinted_eq_self_iff.2 hpfinite, map_asPrinted_eq_self_iff.2 hqfinite] at hmap

theorem Token.render_reads_back_on_line : ∃ tokens p q,
    ofLine "SPAN[007:10] !cport1.rx.bytes@sec - 0.10 >= 20" = .ok tokens ∧
      (∀ t ∈ tokens, t.isFinite = true) ∧ ofLine (render tokens) = .ok tokens ∧
      (p : Program).IsCompiled ∧ (q : Program).IsCompiled ∧ p ≠ q ∧ render p ≠ render q := by
  have htokens : ofLine "SPAN[007:10] !cport1.rx.bytes@sec - 0.10 >= 20" =
      .ok [.rule (.span ⟨7, 10, by decide, by decide⟩), .op .not,
        .reference "cport1.rx.bytes" (some .sec), .op .subtract,
        .number (Decimal.Scaled.read ⟨10, -2⟩), .op .greaterOrEqual,
        .number (Decimal.Scaled.read ⟨20, 0⟩)] := rfl
  have hp : Program.IsCompiled [.reference "x" none, .number (Decimal.Scaled.read ⟨2, 0⟩),
      .op .subtract] := ⟨"x - 2", _, _, rfl, List.Subset.refl _, rfl⟩
  have hq : Program.IsCompiled [.number (Decimal.Scaled.read ⟨2, 0⟩), .reference "x" none,
      .op .subtract] := ⟨"2 - x", _, _, rfl, List.Subset.refl _, rfl⟩
  obtain ⟨⟨-, hback⟩, -, hinj⟩ := render_reads_back_iff htokens hp hq
  have hne := mt (hinj (by decide +kernel) (by decide +kernel)) (by simp)
  exact ⟨_, _, _, htokens, by decide +kernel, hback.2 (by decide +kernel), hp, hq, by simp, hne⟩

/-- A number too large for its format is read, but its text is the word of a counter name; and a
program of that number is rendered like the program of a counter. -/
theorem Token.render_of_overflow :
    (∃ tokens, ofLine (String.ofList ('1' :: List.replicate 309 '0')) = .ok tokens ∧
      ofLine (render tokens) = .ok [.reference "inf" none] ∧ ofLine (render tokens) ≠ .ok tokens) ∧
    ∃ p q : Program, p.IsCompiled ∧ q.IsCompiled ∧ p ≠ q ∧ render p = render q := by
  obtain ⟨x, hx⟩ :
      ∃ x, x = Decimal.Scaled.read ⟨Decimal.value ('1' :: List.replicate 309 '0'), 0⟩ :=
    ⟨_, rfl⟩
  have hfinite : x.isFinite = false := by
    rw [hx]
    decide +kernel
  have hread : Decimal.read? ('1' :: List.replicate 309 '0') = some x := by
    rw [hx]
    exact Decimal.read?_of_isDigit
      (List.forall_mem_cons.2 ⟨rfl, fun _ => Decimal.isDigit_of_mem_zeros⟩) (List.cons_ne_nil _ _)
  have hline : ofLine (String.ofList ('1' :: List.replicate 309 '0')) = .ok [.number x] :=
    ofLine_of_read? (by rwa [String.toList_ofList])
  have hinf : ofLine "inf" = .ok [.reference "inf" none] := rfl
  have htext : Decimal.text x = "inf" := by
    rw [hx] at hfinite ⊢
    exact Decimal.text_read hfinite
  have hrender : render [.number x] = "inf" := htext
  refine ⟨⟨_, hline, ?_, ?_⟩, [.number x], [.reference "inf" none], ?_, ?_, ?_, ?_⟩
  · rw [hrender, hinf]
  · rw [hrender, hinf]
    simp
  · exact ⟨_, _, _, hline, List.Subset.refl _, rfl⟩
  · exact ⟨_, _, _, hinf, List.Subset.refl _, rfl⟩
  · simp
  · rw [hrender]
    rfl

end TrafficCheck

import TrafficCheck.Text.Blank
import TrafficCheck.Text.Line

/-!
# Lines and line feeds

The lines of a text are what stands between its line feeds, up to the carriage returns at their ends
and up to an empty line behind the last line feed. So it makes no difference to lines without these
whether a line feed stands alone or behind a carriage return.

## Main definitions

* `Text.splitLines`: what stands between line feeds, without the carriage returns at the ends.
* `Text.crlf`: a text with a carriage return before every line feed.

## Main statements

* `Text.exists_splitLines_eq`: the lines of a text are what stands between its line feeds.
* `Text.splitLines_crlf`: carriage returns before line feeds make no difference.
-/

namespace TrafficCheck.Text

/-- What stands between the line feeds of a text, without the carriage returns at the ends. -/
def splitLines (cs : List Char) : List (List Char) := (cs.splitOn '\n').map (trimEndOf '\r')

/-- The text with a carriage return before every line feed. -/
def crlf (cs : List Char) : List Char := cs.flatMap fun c => if c = '\n' then ['\r', '\n'] else [c]

theorem trimEndOf_concat (c : Char) (cs : List Char) :
    trimEndOf c (cs ++ [c]) = trimEndOf c cs := by
  simp [trimEndOf]

/-- A line feed finishes the open line. The carriage return that goes with it is one of those at the
end of that line. -/
theorem linesFrom_lineFeed (done : List (List Char)) (line cs : List Char) :
    ∃ text, trimEndOf '\r' text = trimEndOf '\r' line.reverse ∧
      linesFrom done line ('\n' :: cs) = linesFrom (text :: done) [] cs := by
  refine ⟨_, ?_, rfl⟩
  split
  · rw [List.reverse_cons, trimEndOf_concat]
  · rfl

theorem linesFrom_of_ne {c : Char} (hc : c ≠ '\n') (done : List (List Char)) (line cs : List Char) :
    linesFrom done line (c :: cs) = linesFrom done (c :: line) cs :=
  if_neg hc

/-- The lines of a text behind some finished and an open one, of which the empty line that the text
may end with is no line. -/
theorem map_trimEndOf_linesFrom (done : List (List Char)) (line cs : List Char) :
    ∃ last, (last = [] ∨ last = [[]]) ∧
      (done.reverse ++ cs.splitOnPPrepend (· == '\n') line).map (trimEndOf '\r') =
        (linesFrom done line cs).map (trimEndOf '\r') ++ last := by
  induction cs generalizing done line with
  | nil =>
    cases line with
    | nil => exact ⟨[[]], .inr rfl, by simp [linesFrom, trimEndOf]⟩
    | cons c line => exact ⟨[], .inl rfl, by simp [linesFrom]⟩
  | cons c cs ih =>
    by_cases hc : c = '\n'
    · subst hc
      obtain ⟨text, htext, hlines⟩ := linesFrom_lineFeed done line cs
      obtain ⟨last, hlast, hrest⟩ := ih (text :: done) []
      refine ⟨last, hlast, ?_⟩
      rw [hlines, ← hrest, List.splitOnPPrepend_cons_pos (by rfl)]
      simp [htext]
    · rw [linesFrom_of_ne hc, List.splitOnPPrepend_cons_neg (by simpa using hc)]
      exact ih done (c :: line)

/-- The lines of a text are what stands between its line feeds, except for an empty one at the
end. -/
theorem exists_splitLines_eq (cs : List Char) :
    ∃ last, (last = [] ∨ last = [[]]) ∧ splitLines cs = (lines cs).map (trimEndOf '\r') ++ last :=
  map_trimEndOf_linesFrom [] [] cs

theorem map_trimEndOf_crlf (line cs : List Char) :
    ((crlf cs).splitOnPPrepend (· == '\n') line).map (trimEndOf '\r') =
      (cs.splitOnPPrepend (· == '\n') line).map (trimEndOf '\r') := by
  induction cs generalizing line with
  | nil => rfl
  | cons c cs ih =>
    by_cases hc : c = '\n'
    · have hcrlf : crlf (c :: cs) = '\r' :: '\n' :: crlf cs := by simp [crlf, hc]
      have hrest := ih []
      rw [List.splitOnPPrepend_nil_right, List.splitOnPPrepend_nil_right] at hrest
      rw [hcrlf, List.splitOnPPrepend_cons_neg (by rfl), List.splitOnPPrepend_cons_pos (by rfl),
        List.splitOnPPrepend_cons_pos (by simpa using hc), List.map_cons, List.map_cons, hrest,
        List.reverse_cons, trimEndOf_concat]
    · have hcrlf : crlf (c :: cs) = c :: crlf cs := by simp [crlf, hc]
      rw [hcrlf, List.splitOnPPrepend_cons_neg (by simpa using hc),
        List.splitOnPPrepend_cons_neg (by simpa using hc), ih]

/-- Carriage returns before line feeds make no difference. -/
theorem splitLines_crlf (cs : List Char) : splitLines (crlf cs) = splitLines cs :=
  map_trimEndOf_crlf [] cs

end TrafficCheck.Text

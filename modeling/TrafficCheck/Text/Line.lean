/-!
# Lines of a text

A line ends at a line feed, and one carriage return right before that line feed belongs to the
line end. The text after the last line feed is a line of its own unless it is empty; a carriage
return that ends it stays.
-/

namespace TrafficCheck.Text

/-- The lines of `cs` behind the finished lines `done` (latest first), where `line` holds the
characters of the open line, latest first. -/
def linesFrom (done : List (List Char)) (line : List Char) : List Char → List (List Char)
  | [] => (if line.isEmpty then done else line.reverse :: done).reverse
  | c :: cs =>
    if c = '\n' then
      let text := match line with
        | '\r' :: rest => rest
        | whole => whole
      linesFrom (text.reverse :: done) [] cs
    else linesFrom done (c :: line) cs

/-- The lines of a text, in order and without their line ends. -/
def lines (cs : List Char) : List (List Char) := linesFrom [] [] cs

/-- The lines of a text with their numbers, which start at one. -/
def numberedLines (cs : List Char) : List (Nat × List Char) :=
  (lines cs).mapIdx fun i line => (i + 1, line)

example : lines "a\r\nb\r\r\n\nc\r".toList = ["a".toList, "b\r".toList, [], "c\r".toList] := by
  decide

end TrafficCheck.Text

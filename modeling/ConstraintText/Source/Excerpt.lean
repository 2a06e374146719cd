import ConstraintText.Source.Span

/-!
# Excerpts

A message shows the line its span starts on, with carets under the span. Lines are the pieces of
the text between line feeds, so a text with `n` line feeds has `n + 1` lines.
-/
namespace ConstraintText.Excerpt

/-- The pieces of a text between its line feeds. -/
def splitLines : List Char → List (List Char)
  | [] => [[]]
  | c :: cs =>
    if c = '\n' then [] :: splitLines cs
    else match splitLines cs with
      | [] => [[c]]
      | line :: lines => (c :: line) :: lines

/-- A line without the carriage returns at its end. -/
def trimReturns (line : List Char) : List Char :=
  (line.reverse.dropWhile (· == '\r')).reverse

def lineCount (source : String) : Nat := (splitLines source.toList).length

/-- The text of a line, counted from one. -/
def line? (source : String) (number : Nat) : Option String :=
  match number with
  | 0 => none
  | n + 1 => (splitLines source.toList)[n]?.map fun line => String.ofList (trimReturns line)

/-- How many carets stand under the line: all of a span within the line, else one. -/
def caretWidth (s : Span) : Nat :=
  if s.stop.line = s.start.line then max (s.stop.column - s.start.column) 1 else 1

def carets (s : Span) : List Char :=
  List.replicate (s.start.column - 1) ' ' ++ List.replicate (caretWidth s) '^'

/-- The line a span starts on and the carets below it. -/
def excerpt? (source : String) (s : Span) : Option String :=
  (line? source s.start.line).map fun line => line ++ "\n" ++ String.ofList (carets s)

theorem splitLines_ne_nil (cs : List Char) : splitLines cs ≠ [] := by
  cases cs with
  | nil => simp [splitLines]
  | cons c cs =>
    simp only [splitLines]
    split
    · simp
    · split <;> simp

end ConstraintText.Excerpt

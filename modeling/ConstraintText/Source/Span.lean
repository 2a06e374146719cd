import ConstraintText.Source.Location

/-!
# Spans of a text

A span runs from its first character up to the place just past its last one. Joining two spans
gives the smallest span that covers both.
-/
namespace ConstraintText

structure Span where
  start : Location
  stop : Location
  deriving DecidableEq, Repr

namespace Span

def point (l : Location) : Span := ⟨l, l⟩

/-- A span within one line whose offsets are not known. -/
def onLine (line startColumn stopColumn : Nat) : Span :=
  ⟨⟨line, startColumn, 0⟩, ⟨line, stopColumn, 0⟩⟩

def merge (a b : Span) : Span :=
  ⟨if a.start.reaches b.start then a.start else b.start,
    if b.stop.reaches a.stop then a.stop else b.stop⟩

/-- Length in bytes; a span that stops before its start has none. -/
def length (s : Span) : Nat := s.stop.offset - s.start.offset

def isEmpty (s : Span) : Bool := s.start.offset == s.stop.offset

/-- A span in a message: the line of its end is written only when it differs. -/
def text (s : Span) : String :=
  if s.start.line = s.stop.line then s!"{s.start.text}-{s.stop.column}"
  else s!"{s.start.text}-{s.stop.text}"

end Span
end ConstraintText

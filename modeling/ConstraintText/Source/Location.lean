/-!
# Places in a text

A place is a line, a column and a byte offset. Lines and columns count from one and columns count
characters; only a line feed ends a line. Walking over characters is a fold, so the place reached
after two pieces of text is the place reached after their concatenation.
-/
namespace ConstraintText

structure Location where
  line : Nat
  column : Nat
  offset : Nat
  deriving DecidableEq, Repr

namespace Location

def start : Location := ⟨1, 1, 0⟩

def after (l : Location) (c : Char) : Location :=
  if c = '\n' then ⟨l.line + 1, 1, l.offset + c.utf8Size⟩
  else ⟨l.line, l.column + 1, l.offset + c.utf8Size⟩

/-- The place just past a piece of text. -/
def afterAll (l : Location) (cs : List Char) : Location := cs.foldl after l

/-- Reading order within one text, ties included: by line, then by column. -/
def reaches (a b : Location) : Bool :=
  a.line < b.line || (a.line == b.line && a.column ≤ b.column)

def text (l : Location) : String := s!"{l.line}:{l.column}"

@[simp] theorem afterAll_nil (l : Location) : l.afterAll [] = l := rfl

@[simp] theorem afterAll_cons (l : Location) (c : Char) (cs : List Char) :
    l.afterAll (c :: cs) = (l.after c).afterAll cs := rfl

theorem afterAll_append (l : Location) (cs ds : List Char) :
    l.afterAll (cs ++ ds) = (l.afterAll cs).afterAll ds := by
  simp [afterAll]

end Location
end ConstraintText

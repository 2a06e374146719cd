import ConstraintText.Row

/-!
# Integer vectors

A vector prints as its size on one line and its elements, parted by spaces, on the next.
-/
namespace ConstraintText

structure IntVector where
  elements : List Int
  deriving DecidableEq, Repr

namespace IntVector

def zeros (n : Nat) : IntVector := ⟨Row.zeros n⟩

def size (v : IntVector) : Nat := v.elements.length

def isEmpty (v : IntVector) : Bool := v.elements.isEmpty

def text (v : IntVector) : String :=
  toString v.size ++ "\n" ++ " ".intercalate (v.elements.map toString)

end IntVector
end ConstraintText

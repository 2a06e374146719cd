import ConstraintText.Space

/-!
# Name tables

Names in the order they were first seen. The position of a name is also the column of its
dimension, the constant not counted: parameters first, then inputs, outputs and existentials.
-/
namespace ConstraintText

structure Names where
  toList : List String
  deriving DecidableEq, Repr

namespace Names

def empty : Names := ⟨[]⟩

def size (ns : Names) : Nat := ns.toList.length

def isEmpty (ns : Names) : Bool := ns.toList.isEmpty

def position? (ns : Names) (name : String) : Option Nat := ns.toList.idxOf? name

def name? (ns : Names) (position : Nat) : Option String := ns.toList[position]?

/-- The table with a name in it; a new name goes to the end. -/
def insert (ns : Names) (name : String) : Names :=
  if name ∈ ns.toList then ns else ⟨ns.toList ++ [name]⟩

def resolve (ns : Names) (name : String) : Nat := (ns.position? name).getD ns.size

/-- `n` names from a position on; positions past the table have none. -/
def slice (ns : Names) (start n : Nat) : List (Option String) :=
  (List.range n).map fun i => ns.name? (start + i)

/-- The space whose dimensions are named after the first entries of the table. -/
def toSpace (ns : Names) (nParam nIn nOut : Nat) : Space :=
  ⟨nParam, nIn, nOut, ns.slice 0 nParam, ns.slice nParam nIn, ns.slice (nParam + nIn) nOut⟩

end Names
end ConstraintText

/-!
# Spaces

A space counts the parameters, input and output dimensions of a system and may name them. Columns
of a row follow this order behind the constant. Stored names are lists as long as their group, or
empty when nothing in the group is named.
-/
namespace ConstraintText

inductive DimKind
  | param
  | input
  | output
  | existential
  deriving DecidableEq, Repr

def DimKind.title : DimKind → String
  | param => "Param"
  | input => "In"
  | output => "Out"
  | existential => "Div"

structure Space where
  nParam : Nat
  nIn : Nat
  nOut : Nat
  paramNames : List (Option String)
  inNames : List (Option String)
  outNames : List (Option String)
  deriving DecidableEq, Repr

namespace Space

def unnamed (nParam nIn nOut : Nat) : Space := ⟨nParam, nIn, nOut, [], [], []⟩

def isSet (s : Space) : Bool := s.nIn == 0

/-- A space has no existential dimensions of its own. -/
def dim (s : Space) : DimKind → Nat
  | .param => s.nParam
  | .input => s.nIn
  | .output => s.nOut
  | .existential => 0

def totalDim (s : Space) : Nat := s.nParam + s.nIn + s.nOut

/-- Variable columns in front of the first one of a kind. -/
def offset (s : Space) : DimKind → Nat
  | .param => 0
  | .input => s.nParam
  | .output => s.nParam + s.nIn
  | .existential => s.totalDim

def storedNames (s : Space) : DimKind → List (Option String)
  | .param => s.paramNames
  | .input => s.inNames
  | .output => s.outNames
  | .existential => []

def name? (s : Space) (kind : DimKind) (i : Nat) : Option String :=
  ((s.storedNames kind)[i]?).join

def letter : DimKind → String
  | .param => "p"
  | .input => "i"
  | .output => "o"
  | .existential => "e"

/-- A letter and a number. -/
def defaultName (kind : DimKind) (i : Nat) : String := letter kind ++ toString i

def groupNames (s : Space) (kind : DimKind) : List String :=
  (List.range (s.dim kind)).map fun i => (s.name? kind i).getD (defaultName kind i)

/-- Names of all dimensions in column order. -/
def allNames (s : Space) : List String :=
  s.groupNames .param ++ s.groupNames .input ++ s.groupNames .output

/-- Spaces with the same counts can hold parts of one union. -/
def isCompatible (s t : Space) : Bool :=
  s.nParam == t.nParam && s.nIn == t.nIn && s.nOut == t.nOut

def text (s : Space) : String :=
  (if s.isSet then s!"[{s.nOut}]" else s!"[{s.nIn}] -> [{s.nOut}]") ++
    (if s.nParam > 0 then s!" : {s.nParam} params" else "")

theorem length_groupNames (s : Space) (kind : DimKind) :
    (s.groupNames kind).length = s.dim kind := by
  simp [groupNames]

theorem length_allNames (s : Space) : s.allNames.length = s.totalDim := by
  simp [allNames, length_groupNames, dim, totalDim, Nat.add_assoc]

end Space
end ConstraintText

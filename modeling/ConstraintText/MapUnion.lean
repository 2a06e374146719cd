import ConstraintText.BasicMap.Text
import ConstraintText.Error

/-!
# Unions of basic maps

A union is a list of basic maps over one space, joined by disjunction. Basic maps known to be empty
are left out. Sets are maps without input dimensions.
-/
namespace ConstraintText

structure MapUnion where
  space : Space
  parts : List BasicMap
  deriving DecidableEq, Repr

namespace MapUnion

def empty (space : Space) : MapUnion := ⟨space, []⟩

def ofBasicMap (m : BasicMap) : MapUnion := ⟨m.space, if m.flags.empty then [] else [m]⟩

def size (u : MapUnion) : Nat := u.parts.length

def isEmpty (u : MapUnion) : Bool := u.parts.isEmpty

def isSet (u : MapUnion) : Bool := u.space.isSet

/-- The union of two unions whose spaces have the same counts. -/
def union (u v : MapUnion) : Except Fault MapUnion :=
  if u.space.isCompatible v.space then .ok ⟨u.space, u.parts ++ v.parts⟩
  else .error (.unionOfSpaces u.space v.space)

/-- The union without its last part, rebuilt from the others. -/
def dropLast (u : MapUnion) : Except Fault MapUnion :=
  u.parts.dropLast.foldlM (fun v m => v.union (ofBasicMap m)) (empty u.space)

/-- A union without parts prints as the contradiction; several parts are set apart by semicolons,
which the reader does not accept. -/
def text (u : MapUnion) : String :=
  match u.parts with
  | [] => (BasicMap.empty u.space).text
  | m :: ms =>
    m.paramsText ++ "\x7b " ++ "; ".intercalate ((m :: ms).map BasicMap.bodyText) ++ " \x7d"

def text? (u : MapUnion) : Option String :=
  if u.parts.all BasicMap.isPrintable then some u.text else none

end MapUnion

/-- A basic map taken for a set. -/
structure BasicSet where
  toBasicMap : BasicMap
  deriving DecidableEq, Repr

namespace BasicSet

/-- Only a map without input dimensions is a set. -/
def ofBasicMap? (m : BasicMap) : Option BasicSet := if m.isSet then some ⟨m⟩ else none

def dim (s : BasicSet) : Nat := s.toBasicMap.space.nOut

end BasicSet

structure SetUnion where
  toMapUnion : MapUnion
  deriving DecidableEq, Repr

namespace SetUnion

def ofMapUnion? (u : MapUnion) : Option SetUnion := if u.isSet then some ⟨u⟩ else none

def dim (s : SetUnion) : Nat := s.toMapUnion.space.nOut

end SetUnion
end ConstraintText

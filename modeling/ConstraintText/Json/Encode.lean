import ConstraintText.Json.Print
import ConstraintText.Reading

/-!
# Objects as JSON documents

A structure is an object with its fields in order. An integer is its sign and the digits of its
magnitude to base `2 ^ 32`, least significant first; zero has no digits. A set is written as the map
it is.
-/
namespace ConstraintText

def Json.digits32 (n : Nat) : List Nat :=
  if n = 0 then [] else n % 0x100000000 :: Json.digits32 (n / 0x100000000)
termination_by n

namespace Json

def ofSign (i : Int) : Json := .number ⟨i < 0, i.sign.natAbs, []⟩

def ofInt (i : Int) : Json :=
  .array [ofSign i, .array ((digits32 i.natAbs).map natural)]

def ofRow (row : List Int) : Json := .array (row.map ofInt)

def ofRows (rows : List (List Int)) : Json := .array (rows.map ofRow)

def ofName : Option String → Json
  | none => .null
  | some name => ofString name

def ofNames (names : List (Option String)) : Json := .array (names.map ofName)

end Json

open Json

def Location.toJson (l : Location) : Json :=
  .object [member "line" (natural l.line), member "column" (natural l.column),
    member "offset" (natural l.offset)]

def Span.toJson (s : Span) : Json :=
  .object [member "start" s.start.toJson, member "end" s.stop.toJson]

def Space.toJson (s : Space) : Json :=
  .object [member "n_param" (natural s.nParam), member "n_in" (natural s.nIn),
    member "n_out" (natural s.nOut), member "param_names" (ofNames s.paramNames),
    member "in_names" (ofNames s.inNames), member "out_names" (ofNames s.outNames)]

def Constraint.toJson (c : Constraint) : Json :=
  .object [member "kind" (ofString c.kind.title), member "coeffs" (ofRow c.coeffs)]

def Flags.toJson (f : Flags) : Json :=
  .object [member "empty" (.bool f.empty), member "finalized" (.bool f.finalized)]

def BasicMap.toJson (m : BasicMap) : Json :=
  .object [member "space" m.space.toJson, member "n_div" (natural m.nDiv),
    member "eq" (ofRows m.equalities), member "ineq" (ofRows m.inequalities),
    member "div" (ofRows m.divs), member "flags" m.flags.toJson]

def MapUnion.toJson (u : MapUnion) : Json :=
  .object [member "space" u.space.toJson,
    member "basic_maps" (.array (u.parts.map BasicMap.toJson))]

def BasicSet.toJson (s : BasicSet) : Json := s.toBasicMap.toJson

def SetUnion.toJson (s : SetUnion) : Json := s.toMapUnion.toJson

def IntVector.toJson (v : IntVector) : Json := .object [member "el" (ofRow v.elements)]

def DimKind.toJson (k : DimKind) : Json := ofString k.title

def Format.toJson (f : Format) : Json := ofString f.title

def Object.toJson : Object → Json
  | .basicMap m => m.toJson
  | .basicSet s => s.toJson
  | .map u => u.toJson
  | .set s => s.toJson
  | .vector v => v.toJson

end ConstraintText

import ConstraintText.Dump.Quoted
import ConstraintText.Reading

/-!
# Dumps of objects

A dump shows an object as the tree it is. On one line fields follow each other; on lines of its own
every field and item is indented by four spaces for each level and followed by a comma. Empty lists
stay on one line.
-/
namespace ConstraintText

/-- A tree of words, lists, structures with named fields, and single values under a name. -/
inductive Dump
  | word (text : String)
  | list (items : List Dump)
  | record (name : String) (fields : List (String × Dump))
  | wrapped (name : String) (inner : Dump)

namespace Dump

mutual
def compact : Dump → String
  | .word text => text
  | .list items => "[" ++ ", ".intercalate (compactItems items) ++ "]"
  | .record name fields =>
    name ++ " \x7b " ++ ", ".intercalate (compactFields fields) ++ " \x7d"
  | .wrapped name inner => name ++ "(" ++ compact inner ++ ")"

def compactItems : List Dump → List String
  | [] => []
  | d :: ds => compact d :: compactItems ds

def compactFields : List (String × Dump) → List String
  | [] => []
  | (name, d) :: rest => (name ++ ": " ++ compact d) :: compactFields rest
end

def indentation (level : Nat) : String := String.ofList (List.replicate (4 * level) ' ')

/-- Lines one level deeper than what encloses them, each with a comma. -/
def lines (level : Nat) (texts : List String) : String :=
  String.join (texts.map fun text => indentation (level + 1) ++ text ++ ",\n")

mutual
def prettyAt (level : Nat) : Dump → String
  | .word text => text
  | .list items =>
    if items.isEmpty then "[]"
    else "[\n" ++ lines level (prettyItems (level + 1) items) ++ indentation level ++ "]"
  | .record name fields =>
    name ++ " \x7b\n" ++ lines level (prettyFields (level + 1) fields) ++ indentation level ++
      "\x7d"
  | .wrapped name inner =>
    name ++ "(\n" ++ lines level [prettyAt (level + 1) inner] ++ indentation level ++ ")"

def prettyItems (level : Nat) : List Dump → List String
  | [] => []
  | d :: ds => prettyAt level d :: prettyItems level ds

def prettyFields (level : Nat) : List (String × Dump) → List String
  | [] => []
  | (name, d) :: rest => (name ++ ": " ++ prettyAt level d) :: prettyFields level rest
end

def pretty (d : Dump) : String := prettyAt 0 d

def ofNat (n : Nat) : Dump := .word (toString n)

def ofInt (i : Int) : Dump := .word (Decimal.text i)

def ofBool (b : Bool) : Dump := .word (toString b)

def ofRow (row : List Int) : Dump := .list (row.map ofInt)

def ofRows (rows : List (List Int)) : Dump := .list (rows.map ofRow)

def ofName : Option String → Dump
  | none => .word "None"
  | some name => .wrapped "Some" (.word (quoted name))

def ofNames (names : List (Option String)) : Dump := .list (names.map ofName)

end Dump

open Dump

def Location.dump (l : Location) : Dump :=
  .record "SourceLocation"
    [("line", ofNat l.line), ("column", ofNat l.column), ("offset", ofNat l.offset)]

def Span.dump (s : Span) : Dump :=
  .record "Span" [("start", s.start.dump), ("end", s.stop.dump)]

def Space.dump (s : Space) : Dump :=
  .record "Space" [("n_param", ofNat s.nParam), ("n_in", ofNat s.nIn), ("n_out", ofNat s.nOut),
    ("param_names", ofNames s.paramNames), ("in_names", ofNames s.inNames),
    ("out_names", ofNames s.outNames)]

def Constraint.dump (c : Constraint) : Dump :=
  .record "Constraint" [("kind", .word c.kind.title), ("coeffs", ofRow c.coeffs)]

def Flags.dump (f : Flags) : Dump :=
  .record "BasicMapFlags" [("empty", ofBool f.empty), ("finalized", ofBool f.finalized)]

def BasicMap.dump (m : BasicMap) : Dump :=
  .record "BasicMap" [("space", m.space.dump), ("n_div", ofNat m.nDiv),
    ("eq", ofRows m.equalities), ("ineq", ofRows m.inequalities), ("div", ofRows m.divs),
    ("flags", m.flags.dump)]

def MapUnion.dump (u : MapUnion) : Dump :=
  .record "Map" [("space", u.space.dump), ("basic_maps", .list (u.parts.map BasicMap.dump))]

def BasicSet.dump (s : BasicSet) : Dump := .wrapped "BasicSet" s.toBasicMap.dump

def SetUnion.dump (s : SetUnion) : Dump := .wrapped "Set" s.toMapUnion.dump

def IntVector.dump (v : IntVector) : Dump := .record "IntVec" [("el", ofRow v.elements)]

def DimKind.dump (k : DimKind) : Dump := .word k.title

def Format.dump (f : Format) : Dump := .word f.title

def Object.dump : Object → Dump
  | .basicMap m => m.dump
  | .basicSet s => s.dump
  | .map u => u.dump
  | .set s => s.dump
  | .vector v => v.dump

def ReadConfig.dump (c : ReadConfig) : Dump :=
  .record "ReadConfig" [("simplify", ofBool c.simplify),
    ("reject_trailing_input", ofBool c.rejectTrailing)]

end ConstraintText

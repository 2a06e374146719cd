import ConstraintText.Json.Encode
import ConstraintText.Json.Parse

/-!
# Objects from JSON documents

A structure is read from an object that has each of its fields once, in any order and among others,
or from an array of exactly its fields in order. Counts are literals without fraction, exponent and
sign that fit 64 bits. No relation between the parts of an object is checked.
-/
namespace ConstraintText.Json

def largestDigit : Nat := 0xffffffff

def natural? (bound : Nat) : Json → Option Nat
  | .number n =>
    if n.negative = false ∧ n.rest = [] ∧ n.whole ≤ bound then some n.whole else none
  | _ => none

def count? (v : Json) : Option Nat := natural? Decimal.largestCount v

def bool? : Json → Option Bool
  | .bool b => some b
  | _ => none

def text? : Json → Option String
  | .string s => s
  | _ => none

def items? : Json → Option (List Json)
  | .array items => some items
  | _ => none

def listOf? {α : Type} (read : Json → Option α) (v : Json) : Option (List α) := do
  (← v.items?).mapM read

def only? (members : List (Option String × Json)) (key : String) : Option Json :=
  match members.filter (·.1 == some key) with
  | [(_, v)] => some v
  | _ => none

def fields? (names : List String) : Json → Option (List Json)
  | .array items => if items.length = names.length then some items else none
  | .object members =>
    if members.all (·.1.isSome) then names.mapM (only? members) else none
  | _ => none

/-- The name of a choice without data: the name itself, or an object with the name as its only
key and null as its value. -/
def choice? : Json → Option String
  | .string s => s
  | .object [(key, .null)] => key
  | _ => none

/-- The sign in front of an integer: minus one, zero or one. -/
def sign? : Json → Option Int
  | .number n =>
    if n.rest = [] ∧ n.whole ≤ 1 ∧ (n.negative = true → n.whole = 1) then
      some (if n.negative then -1 else n.whole)
    else none
  | _ => none

/-- The number that digits to base `2 ^ 32` stand for, least significant first. -/
def ofDigits32 (ds : List Nat) : Nat := ds.foldr (fun d n => d + 0x100000000 * n) 0

def int? (v : Json) : Option Int := do
  match ← v.items? with
  | [sign, digits] =>
    let sign ← sign? sign
    let digits ← listOf? (natural? largestDigit) digits
    return sign * ofDigits32 digits
  | _ => none

def row? : Json → Option (List Int) := listOf? int?

def rows? : Json → Option (List (List Int)) := listOf? row?

def name? : Json → Option (Option String)
  | .null => some none
  | v => v.text?.map some

def names? : Json → Option (List (Option String)) := listOf? name?

end ConstraintText.Json

namespace ConstraintText

open Json

def Location.ofJson? (v : Json) : Option Location := do
  match ← fields? ["line", "column", "offset"] v with
  | [line, column, offset] => return ⟨← count? line, ← count? column, ← count? offset⟩
  | _ => none

def Span.ofJson? (v : Json) : Option Span := do
  match ← fields? ["start", "end"] v with
  | [start, stop] => return ⟨← Location.ofJson? start, ← Location.ofJson? stop⟩
  | _ => none

def Space.ofJson? (v : Json) : Option Space := do
  match ← fields? ["n_param", "n_in", "n_out", "param_names", "in_names", "out_names"] v with
  | [nParam, nIn, nOut, paramNames, inNames, outNames] =>
    return ⟨← count? nParam, ← count? nIn, ← count? nOut, ← names? paramNames, ← names? inNames,
      ← names? outNames⟩
  | _ => none

def ConstraintKind.ofJson? (v : Json) : Option ConstraintKind := do
  let title ← choice? v
  [ConstraintKind.equality, .inequality].find? (·.title == title)

def Constraint.ofJson? (v : Json) : Option Constraint := do
  match ← fields? ["kind", "coeffs"] v with
  | [kind, coeffs] => return ⟨← ConstraintKind.ofJson? kind, ← row? coeffs⟩
  | _ => none

def Flags.ofJson? (v : Json) : Option Flags := do
  match ← fields? ["empty", "finalized"] v with
  | [empty, finalized] => return ⟨← bool? empty, ← bool? finalized⟩
  | _ => none

def BasicMap.ofJson? (v : Json) : Option BasicMap := do
  match ← fields? ["space", "n_div", "eq", "ineq", "div", "flags"] v with
  | [space, nDiv, equalities, inequalities, divs, flags] =>
    return ⟨← Space.ofJson? space, ← count? nDiv, ← rows? equalities, ← rows? inequalities,
      ← rows? divs, ← Flags.ofJson? flags⟩
  | _ => none

def MapUnion.ofJson? (v : Json) : Option MapUnion := do
  match ← fields? ["space", "basic_maps"] v with
  | [space, parts] => return ⟨← Space.ofJson? space, ← listOf? BasicMap.ofJson? parts⟩
  | _ => none

def BasicSet.ofJson? (v : Json) : Option BasicSet := (BasicMap.ofJson? v).map BasicSet.mk

def SetUnion.ofJson? (v : Json) : Option SetUnion := (MapUnion.ofJson? v).map SetUnion.mk

def IntVector.ofJson? (v : Json) : Option IntVector := do
  match ← fields? ["el"] v with
  | [elements] => return ⟨← row? elements⟩
  | _ => none

def DimKind.ofJson? (v : Json) : Option DimKind := do
  let title ← choice? v
  [DimKind.param, .input, .output, .existential].find? (·.title == title)

def Format.ofJson? (v : Json) : Option Format := do
  let title ← choice? v
  [Format.isl, .polylib].find? (·.title == title)

end ConstraintText

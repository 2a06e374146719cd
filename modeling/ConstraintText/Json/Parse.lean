import ConstraintText.Json.Token

/-!
# Parsing JSON texts

The tokens are read one by one with a stack of the arrays and objects that are still open, so depth
costs nothing but the stack.
-/
namespace ConstraintText.Json

/-- An array or object still open, with what it holds so far. An object waits for the value of a
key. -/
inductive Frame
  | array (items : List Json)
  | object (members : List (Option String × Json)) (key : Option String)

/-- What must come next: a value; the first item of an array or its end; a separator or the end
behind an item or a member; the first key of an object or its end; a key; the colon behind a key;
nothing. -/
inductive Position
  | value (stack : List Frame)
  | firstItem (stack : List Frame)
  | afterItem (items : List Json) (stack : List Frame)
  | afterMember (members : List (Option String × Json)) (stack : List Frame)
  | firstKey (stack : List Frame)
  | key (members : List (Option String × Json)) (stack : List Frame)
  | colon (members : List (Option String × Json)) (key : Option String) (stack : List Frame)
  | finish (document : Json)

def behind (v : Json) : List Frame → Position
  | [] => .finish v
  | .array items :: stack => .afterItem (items ++ [v]) stack
  | .object members key :: stack => .afterMember (members ++ [(key, v)]) stack

/-- The step of a token where a value must come. -/
def stepValue (stack : List Frame) : Lexeme → Option Position
  | .null => some (behind .null stack)
  | .bool b => some (behind (.bool b) stack)
  | .number n => some (behind (.number n) stack)
  | .string s => some (behind (.string s) stack)
  | .openBracket => some (.firstItem stack)
  | .openBrace => some (.firstKey stack)
  | _ => none

def step (p : Position) (t : Lexeme) : Option Position :=
  match p with
  | .value stack => stepValue stack t
  | .firstItem stack =>
    if t = .closeBracket then some (behind (.array []) stack)
    else stepValue (.array [] :: stack) t
  | .afterItem items stack =>
    if t = .comma then some (.value (.array items :: stack))
    else if t = .closeBracket then some (behind (.array items) stack)
    else none
  | .afterMember members stack =>
    if t = .comma then some (.key members stack)
    else if t = .closeBrace then some (behind (.object members) stack)
    else none
  | .firstKey stack =>
    match t with
    | .closeBrace => some (behind (.object []) stack)
    | .string key => some (.colon [] key stack)
    | _ => none
  | .key members stack =>
    match t with
    | .string key => some (.colon members key stack)
    | _ => none
  | .colon members key stack =>
    if t = .colon then some (.value (.object members key :: stack)) else none
  | .finish _ => none

def parse? (source : String) : Option Json := do
  let ts ← lexemes? source.toList
  match ← ts.foldlM step (.value []) with
  | .finish v => some v
  | _ => none

end ConstraintText.Json

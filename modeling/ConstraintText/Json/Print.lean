import ConstraintText.Json.Literal

/-!
# Printing JSON documents

The compact form has no blanks. The pretty form puts every item and member on a line of its own,
indented by two spaces for each level; empty arrays and objects stay on one line.
-/
namespace ConstraintText.Json

def stringText (s : Option String) : String := quote (s.getD "")

mutual
def compact : Json → String
  | .null => "null"
  | .bool b => toString b
  | .number n => numberText n
  | .string s => stringText s
  | .array items => "[" ++ ",".intercalate (compactItems items) ++ "]"
  | .object members => "\x7b" ++ ",".intercalate (compactMembers members) ++ "\x7d"

def compactItems : List Json → List String
  | [] => []
  | v :: vs => compact v :: compactItems vs

def compactMembers : List (Option String × Json) → List String
  | [] => []
  | (key, v) :: rest => (stringText key ++ ":" ++ compact v) :: compactMembers rest
end

def indentation (level : Nat) : String := String.ofList (List.replicate (2 * level) ' ')

/-- Lines between brackets, each one level deeper than the brackets. -/
def block (opening closing : String) (level : Nat) (lines : List String) : String :=
  if lines.isEmpty then opening ++ closing
  else
    let indent := "\n" ++ indentation (level + 1)
    opening ++ indent ++ ("," ++ indent).intercalate lines ++ "\n" ++ indentation level ++ closing

mutual
def prettyAt (level : Nat) : Json → String
  | .null => "null"
  | .bool b => toString b
  | .number n => numberText n
  | .string s => stringText s
  | .array items => block "[" "]" level (prettyItems (level + 1) items)
  | .object members => block "\x7b" "\x7d" level (prettyMembers (level + 1) members)

def prettyItems (level : Nat) : List Json → List String
  | [] => []
  | v :: vs => prettyAt level v :: prettyItems level vs

def prettyMembers (level : Nat) : List (Option String × Json) → List String
  | [] => []
  | (key, v) :: rest => (stringText key ++ ": " ++ prettyAt level v) :: prettyMembers level rest
end

def pretty (v : Json) : String := prettyAt 0 v

end ConstraintText.Json

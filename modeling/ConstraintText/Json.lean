import ConstraintText.Decimal

/-!
# JSON documents

A document keeps what a reader of objects needs: members in the order they were written, repeated
keys included, and numbers as literals. A string literal may hold half of a surrogate pair; it then
stands for no text.
-/
namespace ConstraintText

/-- A number literal: its sign, its whole part, and the text of its fraction and exponent. -/
structure NumberLiteral where
  negative : Bool
  whole : Nat
  rest : List Char
  deriving DecidableEq, Repr

inductive Json
  | null
  | bool (b : Bool)
  | number (n : NumberLiteral)
  | string (s : Option String)
  | array (items : List Json)
  | object (members : List (Option String × Json))

namespace Json

def ofString (s : String) : Json := .string (some s)

def natural (n : Nat) : Json := .number ⟨false, n, []⟩

def member (key : String) (value : Json) : Option String × Json := (some key, value)

end Json
end ConstraintText

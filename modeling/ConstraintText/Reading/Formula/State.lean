import ConstraintText.BasicMap
import ConstraintText.Names
import ConstraintText.Reading.Machine

/-!
# Where the reading of a formula stands

The state of a reading is the table of names declared so far and what must come next. The rows read
so far are kept in a system that grows with the names. The terms of a constraint are summed into one
row: at `<=` the row collected so far is negated, at `>=` and `=` the sign of the terms to come is
turned, and either way the row ends up as a sum that is compared with zero.
-/
namespace ConstraintText.Formula

/-- The tuples of a formula: the parameters with the number of them that the caller wants, if any;
the first tuple of a formula with a known number of parameters; the second tuple behind a first one
of known size. -/
inductive TupleRole
  | params (wanted : Option Nat)
  | first (nParam : Nat)
  | second (nParam nIn : Nat)
  deriving DecidableEq, Repr

/-- The condition read so far: its rows, and for each open `exists` block, innermost first, whether
it has a parenthesis to close. -/
structure Body where
  system : BasicMap
  blocks : List Bool
  deriving DecidableEq, Repr

/-- The lists that declare names, with what is needed behind them: the opening bracket of a tuple;
the parenthesis of a block. Both keep the number of names declared before. -/
inductive ListRole
  | tuple (role : TupleRole) (opening : Span) (before : Nat)
  | block (paren : Bool) (before : Nat) (body : Body)
  deriving DecidableEq, Repr

/-- The constraint being read: the row collected so far, the sign of the terms to come, and the
kind of the constraint once its operator is known. -/
structure Sum where
  row : Row
  sign : Int
  kind : Option ConstraintKind
  deriving DecidableEq, Repr

/-- Where in a formula the reading stands, named for what comes next. -/
inductive Point
  | beginning (wanted : Option Nat)
  | openBracket (role : TupleRole)
  | name (role : ListRole)
  | comma (role : ListRole)
  | closeBracket (role : TupleRole) (opening : Span) (before : Nat)
  | blockColon (paren : Bool) (body : Body)
  | paramArrow
  | openBrace
  | secondTuple (nParam : Nat)
  | condition (system : BasicMap)
  | constraint (body : Body)
  | blockParen (body : Body)
  | terms (body : Body) (sum : Sum)
  | coefficientName (body : Body) (sum : Sum) (value : Int)
  | conjunction (body : Body)
  | closeParen (body : Body)
  | closeBrace (system : BasicMap)
  deriving DecidableEq, Repr

structure State where
  names : Names
  point : Point
  deriving DecidableEq, Repr

abbrev FormulaMove := Move State BasicMap

def Sum.start (system : BasicMap) : Sum := ⟨Row.zeros system.rowLength, 1, none⟩

/-- Adds a multiple of a column to the sum; column zero is the constant. -/
def Sum.add? (sum : Sum) (column : Nat) (value : Int) : Option Sum :=
  (sum.row.addAt? column (value * sum.sign)).map fun row => ⟨row, sum.sign, sum.kind⟩

def Sum.compare (sum : Sum) (operator : TokenKind) : Sum :=
  match operator with
  | .lessEqual => ⟨sum.row.negate, sum.sign, some .inequality⟩
  | .equal => ⟨sum.row, -1, some .equality⟩
  | _ => ⟨sum.row, -1, some .inequality⟩

end ConstraintText.Formula

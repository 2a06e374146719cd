/-!
# Constraint rows

A row is the constant term and one coefficient per variable column. It reads as the equality
`c₀ + c₁x₁ + … = 0` or as the inequality `c₀ + c₁x₁ + … ≥ 0`. Normalising divides a row by the
greatest common divisor of its variable coefficients and tells rows that always hold and rows that
never hold from the rest.
-/
namespace ConstraintText

abbrev Row := List Int

inductive ConstraintKind
  | equality
  | inequality
  deriving DecidableEq, Repr

def ConstraintKind.title : ConstraintKind → String
  | equality => "Equality"
  | inequality => "Inequality"

/-- What is known of a row: it still constrains a variable, holds everywhere, or holds nowhere. -/
inductive RowStatus
  | active
  | trivial
  | infeasible
  deriving DecidableEq, Repr

def RowStatus.title : RowStatus → String
  | active => "Active"
  | trivial => "Trivial"
  | infeasible => "Infeasible"

namespace Row

def zeros (n : Nat) : Row := List.replicate n 0

def constant (row : Row) : Int := row.headD 0

/-- Every row of a system has a constant; a list without one is no row. -/
def ifRow {α : Type} (row : Row) (a : α) : Option α := if row.isEmpty then none else some a

def constant? (row : Row) : Option Int := row.ifRow row.constant

def negate (row : Row) : Row := row.map (- ·)

/-- The row with exactly `n` entries: zero columns are added, surplus ones dropped. -/
def resize (row : Row) (n : Nat) : Row := row.take n ++ zeros (n - row.length)

def addAt? (row : Row) (column : Nat) (amount : Int) : Option Row :=
  row[column]?.map fun c => row.set column (c + amount)

/-- Greatest common divisor of the variable coefficients, zero when all of them are. -/
def variableGcd (row : Row) : Nat := row.tail.foldl (fun g c => Nat.gcd g c.natAbs) 0

/-- Whether a number in place of a row satisfies a constraint of the kind. -/
def holds (kind : ConstraintKind) (value : Int) : Bool :=
  match kind with
  | .equality => value == 0
  | .inequality => 0 ≤ value

/-- The row divided by the divisor of its variable coefficients, the constant rounded down: this
admits the same integer points. An equality whose constant is no multiple of the divisor admits
none. -/
def normalize (kind : ConstraintKind) (row : Row) : RowStatus × Row :=
  let g := row.variableGcd
  if g = 0 then (if holds kind row.constant then .trivial else .infeasible, row)
  else if g = 1 then (.active, row)
  else if kind = .equality ∧ row.constant % g ≠ 0 then (.infeasible, row)
  else (.active, row.constant / g :: row.tail.map (· / (g : Int)))

def normalize? (kind : ConstraintKind) (row : Row) : Option (RowStatus × Row) :=
  row.ifRow (row.normalize kind)

/-- A term of a printed row; the coefficient one is not written. -/
def termText (magnitude : Nat) (name : String) : String :=
  if magnitude = 1 then name else toString magnitude ++ name

def addTerm (side term : String) : String :=
  if side = "" then term else side ++ " + " ++ term

def variableTerms (positive : Bool) (row : Row) (names : List String) : List String :=
  (row.tail.zip names).filterMap fun (c, name) =>
    if c ≠ 0 ∧ decide (0 < c) = positive then some (termText c.natAbs name) else none

def constantTerms (positive : Bool) (row : Row) : List String :=
  if row.constant ≠ 0 ∧ decide (0 < row.constant) = positive then
    [toString row.constant.natAbs]
  else []

def sideText (positive : Bool) (row : Row) (names : List String) : String :=
  let side := (variableTerms positive row names ++ constantTerms positive row).foldl addTerm ""
  if side = "" then "0" else side

/-- A row as a comparison of two sums with non-negative coefficients: what is added stands on the
left, what is subtracted on the right. -/
def text (kind : ConstraintKind) (row : Row) (names : List String) : String :=
  let relation := match kind with
    | .equality => " = "
    | .inequality => " >= "
  row.sideText true names ++ relation ++ row.sideText false names

def text? (kind : ConstraintKind) (row : Row) (names : List String) : Option String :=
  row.ifRow (row.text kind names)

@[simp] theorem length_negate (row : Row) : row.negate.length = row.length := by
  simp [negate]

theorem length_normalize (kind : ConstraintKind) {row : Row} (h : row ≠ []) :
    (row.normalize kind).2.length = row.length := by
  obtain ⟨c, cs, rfl⟩ := List.exists_cons_of_ne_nil h
  simp only [normalize]
  split
  · rfl
  · split
    · rfl
    · split <;> simp

end Row

structure Constraint where
  kind : ConstraintKind
  coeffs : Row
  deriving DecidableEq, Repr

namespace Constraint

/-- Columns of a constraint without a space are numbered from zero. -/
def columnNames (c : Constraint) : List String :=
  (List.range (c.coeffs.length - 1)).map fun i => "x" ++ toString i

def text (c : Constraint) : String := c.coeffs.text c.kind c.columnNames

def text? (c : Constraint) : Option String := c.coeffs.ifRow c.text

def rowLe : Row → Row → Bool
  | [], _ => true
  | _ :: _, [] => false
  | a :: as, b :: bs => a < b || (a == b && rowLe as bs)

/-- Equalities come before inequalities, rows of one kind in lexicographic order. -/
def le (a b : Constraint) : Bool :=
  match a.kind, b.kind with
  | .equality, .inequality => true
  | .inequality, .equality => false
  | _, _ => rowLe a.coeffs b.coeffs

def sort (cs : List Constraint) : List Constraint := cs.mergeSort le

def dropRepeats : List Constraint → List Constraint
  | [] => []
  | [c] => [c]
  | c :: d :: cs => if c = d then dropRepeats (d :: cs) else c :: dropRepeats (d :: cs)

end Constraint
end ConstraintText

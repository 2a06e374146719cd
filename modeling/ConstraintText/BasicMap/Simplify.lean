import ConstraintText.BasicMap

/-!
# Simplifying a basic map

Rows are normalised; rows that always hold and repeated rows are dropped, and a row that never
holds leaves nothing but the contradiction. Existentials stay even when nothing constrains them.
-/
namespace ConstraintText.BasicMap

/-- The normalised form of a row that constrains a variable. -/
def activeForm? (kind : ConstraintKind) (row : Row) : Option Row :=
  match row.normalize kind with
  | (.active, normal) => some normal
  | _ => none

/-- What is left of the rows of one kind, first occurrences kept in order. -/
def simplifyRows (kind : ConstraintKind) (rows : List Row) : List Row :=
  (rows.filterMap (activeForm? kind)).eraseDups

def isInfeasible (kind : ConstraintKind) (row : Row) : Bool :=
  (row.normalize kind).1 == .infeasible

/-- Whether a single row shows that no point satisfies the system. -/
def hasInfeasibleRow (m : BasicMap) : Bool :=
  m.equalities.any (isInfeasible .equality) || m.inequalities.any (isInfeasible .inequality)

def simplify (m : BasicMap) : BasicMap :=
  if m.flags.empty then m
  else if m.hasInfeasibleRow then m.setToEmpty
  else (m.withRows .equality (simplifyRows .equality m.equalities)).withRows .inequality
    (simplifyRows .inequality m.inequalities)

@[simp] theorem space_simplify (m : BasicMap) : m.simplify.space = m.space := by
  unfold simplify
  split
  · rfl
  · split <;> rfl

@[simp] theorem nDiv_simplify (m : BasicMap) : m.simplify.nDiv = m.nDiv := by
  unfold simplify
  split
  · rfl
  · split <;> rfl

end ConstraintText.BasicMap

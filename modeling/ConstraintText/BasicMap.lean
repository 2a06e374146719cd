import ConstraintText.Row
import ConstraintText.Space

/-!
# Basic maps

A basic map is one conjunction of constraint rows over a space and existential dimensions. Column
zero is the constant; parameters, inputs, outputs and existentials follow. Each existential has a
row of its own that could define it as an integer division; these rows stay zero, so existentials
are plain integers. All rows of one sort have one length, and every operation keeps it so.
-/
namespace ConstraintText

/-- Whether a system is known to hold for no point, and whether its reading is complete. -/
structure Flags where
  empty : Bool
  finalized : Bool
  deriving DecidableEq, Repr

structure BasicMap where
  space : Space
  nDiv : Nat
  equalities : List Row
  inequalities : List Row
  divs : List Row
  flags : Flags
  deriving DecidableEq, Repr

namespace BasicMap

def totalDim (m : BasicMap) : Nat := m.space.totalDim + m.nDiv

def rowLength (m : BasicMap) : Nat := 1 + m.totalDim

def dim (m : BasicMap) : DimKind → Nat
  | .existential => m.nDiv
  | kind => m.space.dim kind

def isSet (m : BasicMap) : Bool := m.space.isSet

def rows (m : BasicMap) : ConstraintKind → List Row
  | .equality => m.equalities
  | .inequality => m.inequalities

def withRows (m : BasicMap) (kind : ConstraintKind) (rows : List Row) : BasicMap :=
  match kind with
  | .equality => ⟨m.space, m.nDiv, rows, m.inequalities, m.divs, m.flags⟩
  | .inequality => ⟨m.space, m.nDiv, m.equalities, rows, m.divs, m.flags⟩

def withFlags (m : BasicMap) (flags : Flags) : BasicMap :=
  ⟨m.space, m.nDiv, m.equalities, m.inequalities, m.divs, flags⟩

/-- A system that grows is not finished. -/
def reopened (m : BasicMap) : BasicMap := m.withFlags ⟨m.flags.empty, false⟩

def finalize (m : BasicMap) : BasicMap := m.withFlags ⟨m.flags.empty, true⟩

def constraints (m : BasicMap) : List Constraint :=
  m.equalities.map (⟨.equality, ·⟩) ++ m.inequalities.map (⟨.inequality, ·⟩)

/-- Appends existential dimensions: rows get zero columns and each new dimension a zero row. -/
def extend (m : BasicMap) (extra : Nat) : BasicMap :=
  if extra = 0 then m
  else
    let length := m.rowLength + extra
    ⟨m.space, m.nDiv + extra, m.equalities.map (·.resize length),
      m.inequalities.map (·.resize length),
      m.divs.map (·.resize (1 + length)) ++ List.replicate extra (Row.zeros (1 + length)),
      ⟨m.flags.empty, false⟩⟩

def unconstrained (space : Space) : BasicMap := ⟨space, 0, [], [], [], ⟨false, false⟩⟩

def withExistentials (space : Space) (extra : Nat) : BasicMap :=
  (unconstrained space).extend extra

/-- The row `1 = 0` of a system with rows of the given length. -/
def contradiction (length : Nat) : Row := 1 :: Row.zeros (length - 1)

/-- Replaces all constraints by the contradiction. -/
def setToEmpty (m : BasicMap) : BasicMap :=
  ⟨m.space, m.nDiv, [contradiction m.rowLength], [], m.divs, ⟨true, false⟩⟩

def empty (space : Space) : BasicMap := (unconstrained space).setToEmpty

/-- Appends a row. -/
def addRow (m : BasicMap) (kind : ConstraintKind) (row : Row) : BasicMap :=
  (m.withRows kind (m.rows kind ++ [row])).reopened

def addZeroRow (m : BasicMap) (kind : ConstraintKind) : BasicMap :=
  m.addRow kind (Row.zeros m.rowLength)

def setRow? (m : BasicMap) (kind : ConstraintKind) (k : Nat) (row : Row) : Option BasicMap :=
  match (m.rows kind)[k]? with
  | none => none
  | some old =>
    if old.length = row.length then some (m.withRows kind ((m.rows kind).set k row)) else none

/-- Appends a row of the length all rows have. -/
def appendRow? (m : BasicMap) (kind : ConstraintKind) (row : Row) : Option BasicMap :=
  if row.length = m.rowLength then some (m.addRow kind row) else none

def setCell? (m : BasicMap) (kind : ConstraintKind) (k column : Nat) (value : Int) :
    Option BasicMap :=
  match (m.rows kind)[k]? with
  | none => none
  | some old =>
    if column < old.length then
      some (m.withRows kind ((m.rows kind).set k (old.set column value)))
    else none

def negateInequality? (m : BasicMap) (k : Nat) : Option BasicMap :=
  (m.inequalities[k]?).map fun row =>
    m.withRows .inequality (m.inequalities.set k row.negate)

def toEquality? (m : BasicMap) (k : Nat) : Option BasicMap :=
  (m.inequalities[k]?).map fun row =>
    (m.withRows .inequality (m.inequalities.eraseIdx k)).withRows .equality (m.equalities ++ [row])

@[simp] theorem space_extend (m : BasicMap) (extra : Nat) : (m.extend extra).space = m.space := by
  unfold extend
  split <;> rfl

@[simp] theorem nDiv_extend (m : BasicMap) (extra : Nat) :
    (m.extend extra).nDiv = m.nDiv + extra := by
  unfold extend
  split
  · simp [*]
  · rfl

theorem rowLength_extend (m : BasicMap) (extra : Nat) :
    (m.extend extra).rowLength = m.rowLength + extra := by
  simp [rowLength, totalDim, Nat.add_assoc]

end BasicMap
end ConstraintText

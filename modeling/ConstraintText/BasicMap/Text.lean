import ConstraintText.BasicMap

/-!
# Printing a basic map

A basic map prints as parameters, tuples and one conjunction in the notation that the reader
accepts. Existentials have no names of their own, so they get names `e<k>` that clash with no
dimension. A system with existentials and no rows prints the row `0 = 0`, since the notation has
no empty conjunction.
-/
namespace ConstraintText.BasicMap

/-- A search for names of existentials: the number to try next, how many names are wanted still, and
all names so far. The number is never greater than that of the columns, so 32 bits hold it in any
system of fewer than `2 ^ 31` columns. -/
structure NameSearch where
  next : Nat
  wanted : Nat
  names : List String
  deriving DecidableEq, Repr

namespace NameSearch

/-- One round: the name of a number joins the others unless it is taken. When no more names are
wanted the search is over. -/
def step (taken : List String) : NameSearch → NameSearch
  | ⟨next, 0, names⟩ => ⟨next, 0, names⟩
  | ⟨next, wanted + 1, names⟩ =>
    let name := Space.defaultName .existential next
    if name ∈ taken then ⟨next + 1, wanted + 1, names⟩ else ⟨next + 1, wanted, names ++ [name]⟩

def run (taken : List String) : Nat → NameSearch → NameSearch
  | 0, search => search
  | rounds + 1, search => run taken rounds (step taken search)

end NameSearch

/-- The first `n` default names of existentials that are not taken. A round that finds none passes
over a taken name, so there are rounds enough. -/
def freshNames (taken : List String) (n : Nat) : List String :=
  (NameSearch.run taken (n + taken.length) ⟨0, n, []⟩).names

def existentialNames (m : BasicMap) : List String := freshNames m.space.allNames m.nDiv

def columnNames (m : BasicMap) : List String := m.space.allNames ++ m.existentialNames

def tupleText (names : List String) : String := "[" ++ ", ".intercalate names ++ "]"

def paramsText (m : BasicMap) : String :=
  if m.space.nParam = 0 then "" else tupleText (m.space.groupNames .param) ++ " -> "

def tuplesText (m : BasicMap) : String :=
  (if m.isSet then "" else tupleText (m.space.groupNames .input) ++ " -> ") ++
    tupleText (m.space.groupNames .output)

def rowTexts (m : BasicMap) : List String :=
  let names := m.columnNames
  m.constraints.map fun c => c.coeffs.text c.kind names

def conditionText (m : BasicMap) : String :=
  let rows := " and ".intercalate m.rowTexts
  if m.nDiv > 0 then
    " : exists (" ++ ", ".intercalate m.existentialNames ++ " : " ++
      (if m.rowTexts.isEmpty then "0 = 0" else rows) ++ ")"
  else if m.rowTexts.isEmpty then "" else " : " ++ rows

/-- Tuples and conjunction, without parameters and braces. -/
def bodyText (m : BasicMap) : String := m.tuplesText ++ m.conditionText

def text (m : BasicMap) : String := m.paramsText ++ "\x7b " ++ m.bodyText ++ " \x7d"

/-- Rows without even a constant cannot be printed. -/
def isPrintable (m : BasicMap) : Bool := m.constraints.all (!·.coeffs.isEmpty)

def text? (m : BasicMap) : Option String := if m.isPrintable then some m.text else none

end ConstraintText.BasicMap

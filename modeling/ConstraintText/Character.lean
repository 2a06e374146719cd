import ConstraintText.Character.Ranges

/-!
# Character classes

Identifiers begin with a letter or an underscore and continue with letters, marks, digits and
connectors of any script; blanks are the white space of any script. ASCII is classified by rule
and everything else by table.
-/
namespace ConstraintText.Character

def inRanges (ranges : List (Nat × Nat)) (c : Char) : Bool :=
  ranges.any fun r => r.1 ≤ c.toNat && c.toNat ≤ r.2

def isAscii (c : Char) : Bool := c.toNat < 128

/-- White space: tab to carriage return and the space in ASCII. -/
def isBlank (c : Char) : Bool :=
  if isAscii c then c == ' ' || (9 ≤ c.toNat && c.toNat ≤ 13) else inRanges blankRanges c

def isLetter (c : Char) : Bool :=
  if isAscii c then c.isAlpha else inRanges identifierStartRanges c

/-- What may stand in an identifier after its first character, the underscore aside. -/
def isWordPart (c : Char) : Bool :=
  if isAscii c then c.isAlphanum || c == '_'
  else inRanges identifierStartRanges c || inRanges identifierExtraRanges c

def beginsIdentifier (c : Char) : Bool := isLetter c || c == '_'

def continuesIdentifier (c : Char) : Bool := isWordPart c || c == '_'

def isExtending (c : Char) : Bool := !isAscii c && inRanges extendingRanges c

/-- A character with a visible form, the space included; in ASCII everything but the controls. -/
def isVisible (c : Char) : Bool :=
  if isAscii c then 32 ≤ c.toNat && c.toNat < 127 else !inRanges invisibleRanges c

end ConstraintText.Character

import ConstraintText.Character

/-!
# Plain text

Plain text has no control characters but white space, and none of the sequences that control a
terminal. Such a sequence begins with an escape character and is left out with everything that
belongs to it; an unfinished one takes the rest of the text along. White space inside a short
sequence is kept, and so is what stands behind it as far as the next control character, where the
sequence goes on.
-/
namespace ConstraintText.Command.PlainText

/-- The parts of a sequence, named for what has been read of it. The strings of devices and
applications have a header or none; the command of the operating system is a string as well. -/
inductive Sequence
  | escape
  | intermediate
  | control
  | deviceEntry
  | deviceParameters
  | deviceIntermediate
  | string
  | systemCommand
  deriving DecidableEq, Repr

/-- Where in a text the reading stands: in text, perhaps inside a sequence that goes on later, or
in a sequence. -/
inductive Mode
  | text (suspended : Option Sequence)
  | sequence (s : Sequence)
  deriving DecidableEq, Repr

def isSpacing (c : Char) : Bool := c == '\t' || c == '\n' || c == '\x0c' || c == '\r'

def isPlain (c : Char) : Bool := !Character.isAscii c || Character.isVisible c || isSpacing c

/-- Whether a character ends a string. The terminator is one byte, so it also ends a string when
it is part of the encoding of another character. -/
def terminates (c : Char) : Bool :=
  !Character.isAscii c && (String.utf8EncodeChar c).contains 0x9C

namespace Sequence

def isShort : Sequence → Bool
  | escape => true
  | intermediate => true
  | control => true
  | _ => false

def afterEscape (c : Char) : Option Sequence :=
  if c ≤ '/' then some .intermediate
  else if c = '[' then some .control
  else if c = ']' then some .systemCommand
  else if c = 'P' then some .deviceEntry
  else if c = 'X' ∨ c = '^' ∨ c = '_' then some .string
  else none

def afterHeader (parameters : Sequence) (last : Char) (c : Char) : Sequence :=
  if c ≤ '/' then .deviceIntermediate else if c ≤ last then parameters else .string

/-- The sequence behind one more character, unless it ends with it. Characters without a meaning
in a sequence do not change it. -/
def next (s : Sequence) (c : Char) : Option Sequence :=
  match s with
  | string => if terminates c then none else some string
  | systemCommand => if c = '\x07' then none else some systemCommand
  | s =>
    if !(Character.isAscii c && Character.isVisible c) then some s
    else match s with
      | escape => afterEscape c
      | intermediate => if '0' ≤ c then none else some intermediate
      | control => if '@' ≤ c then none else some control
      | deviceEntry => some (afterHeader deviceParameters '?' c)
      | deviceParameters => some (afterHeader deviceParameters ';' c)
      | _ => some (if c ≤ '/' then deviceIntermediate else string)

end Sequence

def Mode.within : Option Sequence → Mode
  | none => .text none
  | some s => .sequence s

/-- The mode behind a character, and whether the character is kept. An escape character begins a
sequence anywhere, and the characters for cancelling and substitution end every one. -/
def step (m : Mode) (c : Char) : Mode × Bool :=
  if c = '\x1b' then (.sequence .escape, false)
  else if c = '\x18' ∨ c = '\x1a' then (.text none, false)
  else match m with
    | .text suspended =>
      if !Character.isAscii c then (.text none, true)
      else if isPlain c then (.text suspended, true)
      else (.within suspended, false)
    | .sequence s =>
      if s.isShort && isSpacing c then (.text (some s), true) else (.within (s.next c), false)

def keep (m : Mode) : List Char → List Char
  | [] => []
  | c :: cs => if (step m c).2 then c :: keep (step m c).1 cs else keep (step m c).1 cs

def ofString (s : String) : String := String.ofList (keep (.text none) s.toList)

end ConstraintText.Command.PlainText

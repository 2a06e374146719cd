/-!
# Decimal integers

Integers are written in decimal with a minus sign in front of negative ones. Reading takes an
optional minus sign and at least one digit, and nothing else.
-/
namespace ConstraintText.Decimal

def isNumeral (cs : List Char) : Bool := !cs.isEmpty && cs.all Char.isDigit

def value (ds : List Char) : Nat := Nat.ofDigitChars 10 ds 0

def natural? (cs : List Char) : Option Nat :=
  if isNumeral cs then some (value cs) else none

def integer? : List Char → Option Int
  | [] => none
  | c :: cs =>
    if c = '-' then (natural? cs).map fun n => -(n : Int)
    else (natural? (c :: cs)).map Int.ofNat

/-- The largest count that the readers take: counts have 64 bits. -/
def largestCount : Nat := 0xffffffffffffffff

/-- A count: digits, with or without a plus sign. -/
def count? (cs : List Char) : Option Nat :=
  (natural? (if cs.head? = some '+' then cs.tail else cs)).bind fun n =>
    if n ≤ largestCount then some n else none

def text (i : Int) : String := toString i

theorem natural?_toDigits (n : Nat) : natural? (Nat.toDigits 10 n) = some n := by
  have hd : isNumeral (Nat.toDigits 10 n) = true := by
    simp only [isNumeral, Bool.and_eq_true, List.all_eq_true, Bool.not_eq_true',
      List.isEmpty_eq_false_iff]
    exact ⟨Nat.toDigits_ne_nil, fun c hc => Nat.isDigit_of_mem_toDigits (by decide) (by decide) hc⟩
  simp [natural?, hd, value]

end ConstraintText.Decimal

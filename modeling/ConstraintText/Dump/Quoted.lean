import ConstraintText.Character

/-!
# Quoted text

In a dump, text stands in double quotes. These, backslashes, controls, and characters that cannot be
seen on their own are escaped, so a quoted text has no line break and no invisible part.
-/
namespace ConstraintText.Dump

def numberEscape (c : Char) : List Char :=
  ['\\', 'u', '{'] ++ Nat.toDigits 16 c.toNat ++ ['}']

def escape (c : Char) : List Char :=
  if c = '"' then ['\\', '"']
  else if c = '\\' then ['\\', '\\']
  else if c = '\n' then ['\\', 'n']
  else if c = '\r' then ['\\', 'r']
  else if c = '\t' then ['\\', 't']
  else if c = '\x00' then ['\\', '0']
  else if Character.isExtending c || !Character.isVisible c then numberEscape c
  else [c]

def quoted (s : String) : String :=
  String.ofList ('"' :: s.toList.flatMap escape ++ ['"'])

end ConstraintText.Dump

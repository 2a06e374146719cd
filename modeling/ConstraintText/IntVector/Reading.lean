import ConstraintText.IntVector
import ConstraintText.Reading.Event
import ConstraintText.Source.Excerpt

/-!
# Reading vectors

A vector is read line by line. Blank lines and lines that begin with `#` are skipped; the first
word of the first line left is the size, and the next line left holds at least that many integers.
What follows the size on its line, the last integer on its line, and that line is not looked at. A
vector of size zero needs no second line.

Columns in this format count bytes of the line.
-/
namespace ConstraintText.IntVector

/-- A line with its number, its offset in the text, and its characters without the line break. -/
structure Line where
  number : Nat
  offset : Nat
  chars : List Char
  deriving DecidableEq, Repr

structure Word where
  chars : List Char
  start : Nat
  stop : Nat
  deriving DecidableEq, Repr

def byteLength (cs : List Char) : Nat := cs.foldr (fun c n => c.utf8Size + n) 0

/-- The numbered lines of a text whose pieces between line feeds are given. An empty last piece is
no line. -/
def numberLines (number offset : Nat) : List (List Char) → List Line
  | [] => []
  | [piece] => if piece = [] then [] else [⟨number, offset, Excerpt.trimReturns piece⟩]
  | piece :: pieces =>
    ⟨number, offset, Excerpt.trimReturns piece⟩ ::
      numberLines (number + 1) (offset + byteLength piece + 1) pieces

def lines (source : String) : List Line :=
  numberLines 1 0 (Excerpt.splitLines source.toList)

namespace Line

def hasContent (l : Line) : Bool :=
  match l.chars.dropWhile Character.isBlank with
  | [] => false
  | c :: _ => c != '#'

/-- The words from a byte offset on, behind a word begun but not ended, with its characters in
reverse. -/
def wordsFrom (offset : Nat) (begun : List Char) : List Char → List Word
  | [] => if begun = [] then [] else [⟨begun.reverse, offset - byteLength begun, offset⟩]
  | c :: cs =>
    if Character.isBlank c then
      (if begun = [] then [] else [⟨begun.reverse, offset - byteLength begun, offset⟩]) ++
        wordsFrom (offset + c.utf8Size) [] cs
    else wordsFrom (offset + c.utf8Size) (c :: begun) cs

def words (l : Line) : List Word := wordsFrom 0 [] l.chars

def span (l : Line) (start stop : Nat) : Span :=
  ⟨⟨l.number, start + 1, l.offset + start⟩, ⟨l.number, stop + 1, l.offset + stop⟩⟩

def finish (l : Line) : Span := l.span (byteLength l.chars) (byteLength l.chars)

end Line

/-- Digits with underscores between and behind them. -/
def groupedNatural? (cs : List Char) : Option Nat :=
  if cs.head? = some '_' then none else Decimal.natural? (cs.filter (· ≠ '_'))

/-- An element: grouped digits, with or without one sign. -/
def element? (cs : List Char) : Option Int :=
  if cs.head? = some '-' then (groupedNatural? cs.tail).map fun n => -(n : Int)
  else if cs.head? = some '+' then (groupedNatural? cs.tail).map Int.ofNat
  else (groupedNatural? cs).map Int.ofNat

def wordRefusal (problem : Problem) (l : Line) (w : Word) : ReadError :=
  .refused ⟨problem, l.span w.start w.stop, some (String.ofList w.chars)⟩

def endRefusal (source : String) : ReadError :=
  .refused (.atPlace .unexpectedEnd ⟨(lines source).length + 1, 1, source.utf8ByteSize⟩)

def readSize (l : Line) : Except ReadError Nat :=
  match l.words with
  | [] => .error (.refused ⟨.vectorSize, l.finish, none⟩)
  | w :: _ =>
    match Decimal.count? w.chars with
    | none => .error (wordRefusal .vectorSize l w)
    | some n => .ok n

def readElement (l : Line) (w : Word) : Except ReadError Int :=
  match element? w.chars with
  | none => .error (wordRefusal .expectedInteger l w)
  | some i => .ok i

def readElements (l : Line) (n : Nat) : Except ReadError IntVector :=
  if l.words.length < n then .error (.refused ⟨.tooFewValues n l.words.length, l.finish, none⟩)
  else ((l.words.take n).mapM (readElement l)).map IntVector.mk

def read (source : String) : Except ReadError IntVector :=
  match (lines source).filter Line.hasContent with
  | [] => .error (endRefusal source)
  | header :: rest =>
    match readSize header with
    | .error e => .error e
    | .ok 0 => .ok (zeros 0)
    | .ok (n + 1) =>
      match rest with
      | [] => .error (endRefusal source)
      | l :: _ => readElements l (n + 1)

/-- The reading of a vector with its report; that of the empty vector has none. -/
def readReported (source : String) : Except ReadError IntVector × List ReadEvent :=
  match read source with
  | .error e => (.error e, [])
  | .ok v => (.ok v, if v.isEmpty then [] else [.vector v.size])

end ConstraintText.IntVector

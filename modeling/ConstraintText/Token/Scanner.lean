import ConstraintText.Character
import ConstraintText.Decimal
import ConstraintText.Token

/-!
# Scanning a text into tokens

The scanner holds what is left of the text. Each step skips a gap of blanks and comments, cuts the
longest lexeme off the front and yields a token, or an error for a character that begins none; at
the end of the text it yields an end token. Every step but the last takes at least one character,
so a text has finitely many items.
-/
namespace ConstraintText

inductive LexProblem
  | unexpectedChar (c : Char)
  | invalidNumber (lexeme : String)
  | malformedNumber (reason : String)
  deriving DecidableEq, Repr

namespace LexProblem

def message : LexProblem → String
  | unexpectedChar c => "Unexpected character: '" ++ c.toString ++ "'"
  | invalidNumber lexeme => "Invalid integer literal: '" ++ lexeme ++ "'"
  | malformedNumber reason => reason

def title : LexProblem → String
  | unexpectedChar _ => "UnexpectedChar"
  | invalidNumber _ => "InvalidNumber"
  | malformedNumber _ => "InvalidNumber"

end LexProblem

structure LexError where
  problem : LexProblem
  span : Span
  deriving DecidableEq, Repr

def LexError.message (e : LexError) : String := s!"{e.problem.message} at {e.span.text}"

/-- A lexeme cut off behind its first character: its kind, its other characters, what follows. -/
structure Cut where
  kind : TokenKind
  tail : List Char
  rest : List Char
  deriving DecidableEq, Repr

namespace Cut

/-- Lexemes of one character that begin no longer one. -/
def symbol? (c : Char) : Option TokenKind :=
  if c = '(' then some .leftParen
  else if c = ')' then some .rightParen
  else if c = '[' then some .leftBracket
  else if c = ']' then some .rightBracket
  else if c = '{' then some .leftBrace
  else if c = '}' then some .rightBrace
  else if c = ',' then some .comma
  else if c = ':' then some .colon
  else if c = ';' then some .semicolon
  else if c = '+' then some .plus
  else if c = '=' then some .equal
  else none

def number (cs : List Char) : Cut :=
  ⟨.integer, cs.takeWhile Char.isDigit, cs.dropWhile Char.isDigit⟩

/-- As much of an identifier as follows; the whole may be a keyword. -/
def word (c : Char) (cs : List Char) : Cut :=
  let tail := cs.takeWhile Character.continuesIdentifier
  ⟨(TokenKind.keyword? (String.ofList (c :: tail))).getD .identifier, tail,
    cs.dropWhile Character.continuesIdentifier⟩

/-- One character, or two when `d` follows. -/
def pair (d : Char) (short long : TokenKind) (cs : List Char) : Cut :=
  if cs.head? = some d then ⟨long, [d], cs.tail⟩ else ⟨short, [], cs⟩

/-- A minus sign belongs to an arrow, to the digits right behind it, or stands alone. -/
def dash (cs : List Char) : Cut :=
  if (cs.head?.any Char.isDigit) then number cs else pair '>' .minus .arrow cs

/-- The longest lexeme that begins with `c` and goes on in `cs`. -/
def ofChars? (c : Char) (cs : List Char) : Option Cut :=
  match symbol? c with
  | some kind => some ⟨kind, [], cs⟩
  | none =>
    if c = '-' then some (dash cs)
    else if c = '<' then some (pair '=' .less .lessEqual cs)
    else if c = '>' then some (pair '=' .greater .greaterEqual cs)
    else if c.isDigit then some (number cs)
    else if Character.beginsIdentifier c then some (word c cs)
    else none

theorem number_append (cs : List Char) : (number cs).tail ++ (number cs).rest = cs :=
  List.takeWhile_append_dropWhile

theorem word_append (c : Char) (cs : List Char) : (word c cs).tail ++ (word c cs).rest = cs :=
  List.takeWhile_append_dropWhile

theorem pair_append (d : Char) (short long : TokenKind) (cs : List Char) :
    (pair d short long cs).tail ++ (pair d short long cs).rest = cs := by
  unfold pair
  cases cs with
  | nil => simp
  | cons c cs => by_cases h : c = d <;> simp [h]

theorem dash_append (cs : List Char) : (dash cs).tail ++ (dash cs).rest = cs := by
  unfold dash
  split
  · exact number_append cs
  · exact pair_append _ _ _ cs

theorem append_of_ofChars? {c : Char} {cs : List Char} {t : Cut} (h : ofChars? c cs = some t) :
    t.tail ++ t.rest = cs := by
  unfold ofChars? at h
  split at h
  · simp only [Option.some.injEq] at h; subst h; rfl
  · split at h
    · simp only [Option.some.injEq] at h; subst h; exact dash_append cs
    · split at h
      · simp only [Option.some.injEq] at h; subst h; exact pair_append _ _ _ cs
      · split at h
        · simp only [Option.some.injEq] at h; subst h; exact pair_append _ _ _ cs
        · split at h
          · simp only [Option.some.injEq] at h; subst h; exact number_append cs
          · split at h
            · simp only [Option.some.injEq] at h; subst h; exact word_append c cs
            · simp at h

end Cut

/-- What is left of a text, where it starts, and whether a line feed was passed since the last
token. -/
structure Scanner where
  rest : List Char
  place : Location
  newLine : Bool
  deriving DecidableEq, Repr

namespace Scanner

def ofString (source : String) : Scanner := ⟨source.toList, .start, true⟩

/-- The blanks and comments in front of a text, possibly inside a comment already. A comment runs
up to a line feed. -/
def gap (inComment : Bool) : List Char → List Char
  | [] => []
  | c :: cs =>
    if c = '\n' then c :: gap false cs
    else if inComment || c == '#' then c :: gap true cs
    else if Character.isBlank c then c :: gap false cs
    else []

/-- What follows the gap. -/
def afterGap (inComment : Bool) : List Char → List Char
  | [] => []
  | c :: cs =>
    if c = '\n' then afterGap false cs
    else if inComment || c == '#' then afterGap true cs
    else if Character.isBlank c then afterGap false cs
    else c :: cs

/-- The next item and the scanner behind it. -/
def next (s : Scanner) : Except LexError Token × Scanner :=
  let skipped := gap false s.rest
  let start := s.place.afterAll skipped
  let newLine := s.newLine || skipped.contains '\n'
  match afterGap false s.rest with
  | [] => (.ok ⟨.finish, .point start, "", newLine, none⟩, ⟨[], start, false⟩)
  | c :: cs =>
    match Cut.ofChars? c cs with
    | none => (.error ⟨.unexpectedChar c, ⟨start, start.after c⟩⟩, ⟨cs, start.after c, newLine⟩)
    | some cut =>
      let chars := c :: cut.tail
      let lexeme := String.ofList chars
      let span : Span := ⟨start, start.afterAll chars⟩
      let behind : Scanner := ⟨cut.rest, span.stop, false⟩
      if cut.kind = .integer then
        match Decimal.integer? chars with
        | none => (.error ⟨.invalidNumber lexeme, span⟩, behind)
        | some value => (.ok ⟨.integer, span, lexeme, newLine, some value⟩, behind)
      else (.ok ⟨cut.kind, span, lexeme, newLine, none⟩, behind)

theorem gap_append (inComment : Bool) (cs : List Char) :
    gap inComment cs ++ afterGap inComment cs = cs := by
  fun_induction gap inComment cs <;> simp_all [afterGap]

theorem afterGap_length_le (inComment : Bool) (cs : List Char) :
    (afterGap inComment cs).length ≤ cs.length := by
  have h := congrArg List.length (gap_append inComment cs)
  simp only [List.length_append] at h
  omega

theorem next_rest_of_afterGap_nil {s : Scanner} (h : afterGap false s.rest = []) :
    s.next.2.rest = [] := by
  simp [next, h]

theorem next_rest_le_of_afterGap_cons {s : Scanner} {c : Char} {cs : List Char}
    (h : afterGap false s.rest = c :: cs) : s.next.2.rest.length ≤ cs.length := by
  unfold next
  simp only [h]
  split
  · exact Nat.le_refl _
  · rename_i cut hcut
    have hl := congrArg List.length (Cut.append_of_ofChars? hcut)
    simp only [List.length_append] at hl
    repeat' split
    all_goals simp only; omega

theorem next_rest_le (s : Scanner) : s.next.2.rest.length ≤ s.rest.length := by
  have hle := afterGap_length_le false s.rest
  cases h : afterGap false s.rest with
  | nil => simp [next_rest_of_afterGap_nil h]
  | cons c cs =>
    have hn := next_rest_le_of_afterGap_cons h
    rw [h, List.length_cons] at hle
    omega

theorem next_rest_lt {s : Scanner} (h : afterGap false s.rest ≠ []) :
    s.next.2.rest.length < s.rest.length := by
  have hle := afterGap_length_le false s.rest
  obtain ⟨c, cs, hc⟩ := List.exists_cons_of_ne_nil h
  have hn := next_rest_le_of_afterGap_cons hc
  rw [hc, List.length_cons] at hle
  omega

/-- All items of a text; the last one is the end token. -/
def items (s : Scanner) : List (Except LexError Token) :=
  if afterGap false s.rest = [] then [s.next.1] else s.next.1 :: s.next.2.items
termination_by s.rest.length
decreasing_by exact next_rest_lt ‹_›

/-- All tokens of a text, the end token included, or its first error. -/
def tokens (s : Scanner) : Except LexError (List Token) := s.items.mapM id

end Scanner
end ConstraintText

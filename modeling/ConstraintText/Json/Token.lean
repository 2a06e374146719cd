import ConstraintText.Json.Literal

/-!
# Tokens of JSON texts

A JSON text is a sequence of tokens with blanks in between; how they are laid out carries no
meaning.
-/
namespace ConstraintText.Json

inductive Lexeme
  | openBrace
  | closeBrace
  | openBracket
  | closeBracket
  | comma
  | colon
  | null
  | bool (b : Bool)
  | number (n : NumberLiteral)
  | string (s : Option String)
  deriving DecidableEq, Repr

def isSpace (c : Char) : Bool := c == ' ' || c == '\n' || c == '\t' || c == '\r'

def afterWord? (word cs : List Char) : Option (List Char) :=
  if word.isPrefixOf cs then some (cs.drop word.length) else none

def stringLexeme? (cs : List Char) : Option (Lexeme × List Char) :=
  (stringBody? cs).map fun (units, rest) =>
    (.string ((unitsText? units).map String.ofList), rest)

def mark? (c : Char) : Option Lexeme :=
  if c = '{' then some .openBrace
  else if c = '}' then some .closeBrace
  else if c = '[' then some .openBracket
  else if c = ']' then some .closeBracket
  else if c = ',' then some .comma
  else if c = ':' then some .colon
  else none

/-- The words of the format: what follows their first letter, and what they stand for. -/
def word? (c : Char) : Option (List Char × Lexeme) :=
  if c = 'n' then some (['u', 'l', 'l'], .null)
  else if c = 't' then some (['r', 'u', 'e'], .bool true)
  else if c = 'f' then some (['a', 'l', 's', 'e'], .bool false)
  else none

def lexeme? (c : Char) (cs : List Char) : Option (Lexeme × List Char) :=
  match mark? c, word? c with
  | some t, _ => some (t, cs)
  | none, some (word, t) => (afterWord? word cs).map (t, ·)
  | none, none =>
    if c = '"' then stringLexeme? cs
    else (number? (c :: cs)).map fun (n, rest) => (.number n, rest)

theorem afterWord?_length {word cs rest : List Char} (h : afterWord? word cs = some rest) :
    rest.length ≤ cs.length := by
  unfold afterWord? at h
  split at h
  · simp only [Option.some.injEq] at h
    rw [← h, List.length_drop]
    omega
  · simp at h

theorem lexeme?_length {c : Char} {cs rest : List Char} {t : Lexeme}
    (h : lexeme? c cs = some (t, rest)) : rest.length ≤ cs.length := by
  unfold lexeme? at h
  split at h
  · simp only [Option.some.injEq, Prod.mk.injEq] at h
    simp [h.2]
  · obtain ⟨r, hr, he⟩ := Option.map_eq_some_iff.mp h
    simp only [Prod.mk.injEq] at he
    exact afterWord?_length (he.2 ▸ hr)
  · split at h
    · obtain ⟨⟨us, r⟩, hr, he⟩ := Option.map_eq_some_iff.mp h
      simp only [Prod.mk.injEq] at he
      exact Nat.le_of_lt (stringBody?_length (he.2 ▸ hr))
    · obtain ⟨⟨n, r⟩, hr, he⟩ := Option.map_eq_some_iff.mp h
      simp only [Prod.mk.injEq] at he
      have := number?_length (he.2 ▸ hr)
      rw [List.length_cons] at this
      omega

def lexemes? (cs : List Char) : Option (List Lexeme) :=
  match cs with
  | [] => some []
  | c :: rest =>
    if isSpace c then lexemes? rest
    else
      match h : lexeme? c rest with
      | none => none
      | some (t, after) =>
        have := lexeme?_length h
        (lexemes? after).map (t :: ·)
termination_by cs.length
decreasing_by
  · simp
  · simp only [List.length_cons]; omega

end ConstraintText.Json

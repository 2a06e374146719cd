import ConstraintText.Space
import ConstraintText.Token.Scanner

/-!
# Why a reading fails

A refusal is a cause, the span it points at and the lexeme found there. Causes are data; their
kind and wording are functions of them. Faults are states that no reading reaches; they have
causes of their own so that this can be stated.
-/
namespace ConstraintText

inductive RefusalKind
  | unexpectedToken
  | expectedToken
  | unexpectedEnd
  | duplicateIdentifier
  | unknownIdentifier
  | tooManyOperators
  | missingOperator
  | parameterMismatch
  | multipleDisjuncts
  | notASet
  | invalidTypeFlag
  | misalignedCoefficient
  | invalidCount
  | incompatibleSpaces
  | unsupportedFormat
  deriving DecidableEq, Repr

def RefusalKind.title : RefusalKind → String
  | unexpectedToken => "UnexpectedToken"
  | expectedToken => "ExpectedToken"
  | unexpectedEnd => "UnexpectedEof"
  | duplicateIdentifier => "DuplicateIdentifier"
  | unknownIdentifier => "UnknownIdentifier"
  | tooManyOperators => "TooManyOperators"
  | missingOperator => "MissingOperator"
  | parameterMismatch => "ParameterMismatch"
  | multipleDisjuncts => "MultipleDisjuncts"
  | notASet => "NotASet"
  | invalidTypeFlag => "InvalidTypeFlag"
  | misalignedCoefficient => "MisalignedCoefficient"
  | invalidCount => "InvalidCount"
  | incompatibleSpaces => "IncompatibleSpaces"
  | unsupportedFormat => "UnsupportedFormat"

inductive Format
  | isl
  | polylib
  deriving DecidableEq, Repr

namespace Format

def text : Format → String
  | isl => "isl"
  | polylib => "polylib"

def title : Format → String
  | isl => "Isl"
  | polylib => "PolyLib"

end Format

inductive CountRole
  | matrices
  | rows
  | columns
  deriving DecidableEq, Repr

def CountRole.text : CountRole → String
  | matrices => "number of matrices"
  | rows => "row count"
  | columns => "column count"

inductive Problem
  | unexpectedToken
  | trailingInput
  | expectedToken (kind : TokenKind)
  | expectedCoefficient
  | expectedInteger
  | expectedCount (role : CountRole)
  | unexpectedEnd
  | duplicateName
  | unknownName
  | secondOperator
  | noOperator
  | parameterCount (wanted found : Nat)
  | tooFewNames (wanted found : Nat)
  | severalDisjuncts (n : Nat)
  | notASet (space : Space)
  | rowType
  | rowNotOnNewLine
  | invalidCount (role : CountRole)
  | noMatrix
  | columnCountOnNewLine
  | tooFewColumns (nParam : Nat)
  | vectorSize
  | tooFewValues (size found : Nat)
  | spacesDiffer (matrix union : Space)
  | unsupportedFormat (format : Format)
  | described (kind : RefusalKind) (words : String)
  deriving DecidableEq, Repr

namespace Problem

def kind : Problem → RefusalKind
  | unexpectedToken => .unexpectedToken
  | trailingInput => .unexpectedToken
  | expectedToken _ => .expectedToken
  | expectedCoefficient => .expectedToken
  | expectedInteger => .unexpectedToken
  | expectedCount _ => .expectedToken
  | unexpectedEnd => .unexpectedEnd
  | duplicateName => .duplicateIdentifier
  | unknownName => .unknownIdentifier
  | secondOperator => .tooManyOperators
  | noOperator => .missingOperator
  | parameterCount _ _ => .parameterMismatch
  | tooFewNames _ _ => .parameterMismatch
  | severalDisjuncts _ => .multipleDisjuncts
  | notASet _ => .notASet
  | rowType => .invalidTypeFlag
  | rowNotOnNewLine => .misalignedCoefficient
  | invalidCount _ => .invalidCount
  | noMatrix => .invalidCount
  | columnCountOnNewLine => .invalidCount
  | tooFewColumns _ => .invalidCount
  | vectorSize => .invalidCount
  | tooFewValues _ _ => .invalidCount
  | spacesDiffer _ _ => .incompatibleSpaces
  | unsupportedFormat _ => .unsupportedFormat
  | described kind _ => kind

def message : Problem → String
  | unexpectedToken => "unexpected token"
  | trailingInput => "trailing input"
  | expectedToken kind => s!"expecting '{kind.text}'"
  | expectedCoefficient => "expecting coefficient"
  | expectedInteger => "expecting integer"
  | expectedCount role => s!"expecting {role.text}"
  | unexpectedEnd => "unexpected EOF"
  | duplicateName => "expecting unique identifier"
  | unknownName => "unknown identifier"
  | secondOperator => "too many operators"
  | noOperator => "missing operator"
  | parameterCount wanted found => s!"expected {wanted} parameters, found {found}"
  | tooFewNames wanted found => s!"expected {wanted} parameters, found {found} names"
  | severalDisjuncts n => s!"expected a single basic map, found {n} disjuncts"
  | notASet space => s!"expected a set, found a map in space {space.text}"
  | rowType => "row type should be 0 (equality) or 1 (inequality)"
  | rowNotOnNewLine => "coefficient should appear on new line"
  | invalidCount role => s!"invalid {role.text}"
  | noMatrix => "expecting at least one matrix"
  | columnCountOnNewLine => "column count should follow row count on the same line"
  | tooFewColumns nParam =>
    s!"expecting at least {min (nParam + 2) Decimal.largestCount} columns for {nParam} parameters"
  | vectorSize => "expecting vector size"
  | tooFewValues size found => s!"expecting {size} values, found {found}"
  | spacesDiffer matrix union =>
    s!"matrix in space {matrix.text} cannot join union in space {union.text}"
  | unsupportedFormat format => s!"vectors cannot be read in {format.text} format"
  | described _ words => words

end Problem

structure Refusal where
  problem : Problem
  span : Span
  found : Option String
  deriving DecidableEq, Repr

namespace Refusal

def atToken (problem : Problem) (t : Token) : Refusal := ⟨problem, t.span, some t.lexeme⟩

def atPlace (problem : Problem) (place : Location) : Refusal := ⟨problem, .point place, none⟩

def message (r : Refusal) : String :=
  s!"{r.problem.message} at {r.span.text}" ++
    match r.found with
    | none => ""
    | some lexeme => s!" (found: {lexeme})"

end Refusal

/-- States that a correct reading does not reach. -/
inductive Fault
  | pushBackOverflow (pending returned : Token)
  | integerWithoutValue (token : Token)
  | columnOutOfRange (column : Nat)
  | rowOfOtherLength
  | unionOfSpaces (left right : Space)
  | described (words : String)
  deriving DecidableEq, Repr

def Fault.message : Fault → String
  | pushBackOverflow pending returned =>
    s!"token pushback overflow: {pending.text} already pending when returning {returned.text}"
  | integerWithoutValue token => s!"integer token without value: {token.text}"
  | columnOutOfRange column => s!"no column {column} in the row"
  | rowOfOtherLength => "row of another length"
  | unionOfSpaces left right =>
    s!"union of maps in different spaces: {left.text} and {right.text}"
  | described words => words

inductive IoFailure
  | notUtf8
  | noSuchFile
  | isDirectory
  | notDirectory
  | nameTooLong
  | other (words : String)
  deriving DecidableEq, Repr

def IoFailure.message : IoFailure → String
  | notUtf8 => "stream did not contain valid UTF-8"
  | noSuchFile => "No such file or directory (os error 2)"
  | isDirectory => "Is a directory (os error 21)"
  | notDirectory => "Not a directory (os error 20)"
  | nameTooLong => "File name too long (os error 36)"
  | other words => words

inductive ReadError
  | lexical (error : LexError)
  | refused (refusal : Refusal)
  | fault (fault : Fault)
  | io (failure : IoFailure)
  deriving DecidableEq, Repr

namespace ReadError

def title : ReadError → String
  | lexical e => e.problem.title
  | refused r => r.problem.kind.title
  | fault _ => "Internal"
  | io _ => "Io"

def cause : ReadError → String
  | lexical e => e.message
  | refused r => r.message
  | fault f => f.message
  | io f => f.message

def message (e : ReadError) : String :=
  let part := match e with
    | lexical _ => "Lexer error: "
    | refused _ => "Parse error: "
    | fault _ => "Internal error: "
    | io _ => "I/O error: "
  part ++ e.cause

def span? : ReadError → Option Span
  | lexical e => some e.span
  | refused r => some r.span
  | fault _ => none
  | io _ => none

def found? : ReadError → Option String
  | refused r => r.found
  | _ => none

end ReadError
end ConstraintText

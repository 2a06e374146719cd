import ConstraintText.MapUnion
import ConstraintText.Reading.Machine

/-!
# Reading matrices

A matrix is a row count and a column count on one line, then rows that each begin on a new line
with their type, `0` for an equality and `1` for an inequality. A row lists the coefficients of the
dimensions, then of the parameters, then the constant. Several matrices are announced by their
number on a line of its own: the second integer of the text tells the two forms apart, since it
stands on a new line only behind such a number.

Nothing is sized by the counts before the entries have been read, so a count that the text cannot
supply runs into its end.
-/
namespace ConstraintText.Matrix

/-- The matrices read before the current one, and how many follow it. -/
structure Job where
  parts : List BasicMap
  following : Nat
  deriving DecidableEq, Repr

/-- The matrix being read: the span of its row count, its number of dimensions, the rows read and
the number of rows to come. -/
structure Progress where
  header : Span
  dims : Nat
  rows : List Constraint
  rowsLeft : Nat
  deriving DecidableEq, Repr

inductive Point
  | firstInteger
  | secondInteger (first : Token)
  | rowCount (job : Job)
  | columnCount (job : Job) (rows : Token)
  | rowType (job : Job) (progress : Progress)
  | entry (job : Job) (progress : Progress) (kind : ConstraintKind) (entries : List Int)
      (left : Nat)
  deriving DecidableEq, Repr

structure State where
  nParam : Nat
  point : Point
  deriving DecidableEq, Repr

abbrev MatrixMove := Move State MapUnion

def count? (role : CountRole) (t : Token) : Except Problem Nat :=
  if t.kind = .integer then
    match t.value with
    | none => .error (.invalidCount role)
    | some value =>
      if 0 ≤ value ∧ value ≤ Decimal.largestCount then .ok value.toNat
      else .error (.invalidCount role)
  else .error (.expectedCount role)

/-- A row in column order: the constant comes first, parameters before dimensions. -/
def arrange (dims nParam : Nat) (entries : List Int) : Row :=
  entries.drop (dims + nParam) ++ (entries.drop dims).take nParam ++ entries.take dims

/-- The system of the rows of a matrix. -/
def build (nParam dims : Nat) (rows : List Constraint) : Option BasicMap :=
  rows.foldlM (fun m c => m.appendRow? c.kind c.coeffs)
    (BasicMap.unconstrained (.unnamed nParam 0 dims))

/-- What follows a complete matrix. All matrices of a text must have one space. -/
def afterMatrix (nParam : Nat) (job : Job) (progress : Progress) : Next State MapUnion :=
  match build nParam progress.dims progress.rows with
  | none => .fail (.fault .rowOfOtherLength)
  | some m =>
    let first := (job.parts.head?.getD m).space
    if first.isCompatible m.space then
      match job.following with
      | 0 => .done ⟨first, job.parts ++ [m]⟩
      | following + 1 => .go ⟨nParam, .rowCount ⟨job.parts ++ [m], following⟩⟩
    else .fail (.refused ⟨.spacesDiffer m.space first, progress.header, none⟩)

/-- What follows a row or a header. -/
def afterRow (nParam : Nat) (job : Job) (progress : Progress) : Next State MapUnion :=
  if progress.rowsLeft = 0 then afterMatrix nParam job progress
  else .go ⟨nParam, .rowType job progress⟩

def onColumnCount (nParam : Nat) (job : Job) (rowsToken t : Token) : MatrixMove :=
  if t.onNewLine then .refuse .columnCountOnNewLine t
  else match count? .rows rowsToken with
    | .error problem => .refuse problem rowsToken
    | .ok rows =>
      match count? .columns t with
      | .error problem => .refuse problem t
      | .ok columns =>
        if columns < 2 + nParam then .refuse (.tooFewColumns nParam) t
        else
          let dims := columns - 2 - nParam
          ⟨.take, [.matrix rows columns dims nParam],
            afterRow nParam job ⟨rowsToken.span, dims, [], rows⟩⟩

/-- The second integer of the text: a column count, unless it stands on a new line; then the first
one is the number of matrices. -/
def onSecondInteger (nParam : Nat) (first t : Token) : MatrixMove :=
  if t.onNewLine then
    match count? .matrices first with
    | .error problem => ⟨.peek, [], .fail (.refused (.atToken problem first))⟩
    | .ok 0 => ⟨.peek, [], .fail (.refused (.atToken .noMatrix first))⟩
    | .ok (n + 1) => ⟨.peek, [.matrices (n + 1)], .go ⟨nParam, .rowCount ⟨[], n⟩⟩⟩
  else onColumnCount nParam ⟨[], 0⟩ first t

/-- Rows are made of integers only; another token is left in the stream. -/
def refuseEntry (t : Token) : MatrixMove :=
  ⟨.pushBack, [], .fail (.refused (.atToken .expectedCoefficient t))⟩

def kindOfType? (value : Int) : Option ConstraintKind :=
  if value = 0 then some .equality else if value = 1 then some .inequality else none

def onRowType (nParam : Nat) (job : Job) (progress : Progress) (t : Token) : MatrixMove :=
  if t.kind = .integer then
    if t.onNewLine then
      match t.value.bind kindOfType? with
      | none => .refuse .rowType t
      | some kind =>
        .take ⟨nParam, .entry job progress kind [] (progress.dims + nParam + 1)⟩
    else .refuse .rowNotOnNewLine t
  else refuseEntry t

def onEntry (nParam : Nat) (job : Job) (progress : Progress) (kind : ConstraintKind)
    (entries : List Int) (left : Nat) (t : Token) : MatrixMove :=
  if t.kind = .integer then
    match t.value with
    | none => .fault (.integerWithoutValue t)
    | some value =>
      let entries := entries ++ [value]
      if left ≤ 1 then
        let row : Constraint := ⟨kind, arrange progress.dims nParam entries⟩
        ⟨.take, [], afterRow nParam job
          ⟨progress.header, progress.dims, progress.rows ++ [row], progress.rowsLeft - 1⟩⟩
      else .take ⟨nParam, .entry job progress kind entries (left - 1)⟩
  else refuseEntry t

def onToken (q : State) (t : Token) : MatrixMove :=
  match q.point with
  | .firstInteger => .take ⟨q.nParam, .secondInteger t⟩
  | .secondInteger first => onSecondInteger q.nParam first t
  | .rowCount job => .take ⟨q.nParam, .columnCount job t⟩
  | .columnCount job rows => onColumnCount q.nParam job rows t
  | .rowType job progress => onRowType q.nParam job progress t
  | .entry job progress kind entries left => onEntry q.nParam job progress kind entries left t

def onEnd (q : State) : EndMove State :=
  match q.point with
  | .rowType _ _ => .refuse .expectedCoefficient
  | .entry _ _ _ _ _ => .refuse .expectedCoefficient
  | _ => .refuse .unexpectedEnd

/-- Only the second integer is ever left to another state. -/
def rank (q : State) : Nat :=
  match q.point with
  | .secondInteger _ => 1
  | _ => 0

theorem token_onColumnCount {nParam : Nat} {job : Job} {rows t : Token} :
    (onColumnCount nParam job rows t).token = .take := by
  unfold onColumnCount
  repeat' split
  all_goals rfl

theorem rank_onToken {q q' : State} {t : Token} (h : (onToken q t).next = .go q')
    (ht : (onToken q t).token ≠ .take) : rank q' < rank q := by
  obtain ⟨nParam, point⟩ := q
  revert h ht
  cases point with
  | firstInteger => simp [onToken, Move.take]
  | rowCount job => simp [onToken, Move.take]
  | columnCount job rows => simp [onToken, token_onColumnCount]
  | secondInteger first =>
    simp only [onToken, onSecondInteger]
    split
    · split
      · simp
      · simp
      · simp only [Next.go.injEq]
        intro h _; subst h; simp [rank]
    · simp [token_onColumnCount]
  | rowType job progress =>
    simp only [onToken, onRowType, refuseEntry]
    repeat' split
    all_goals simp [Move.refuse, Move.take]
  | entry job progress kind entries left =>
    simp only [onToken, onEntry, refuseEntry]
    repeat' split
    all_goals simp [Move.fault, Move.take]

theorem rank_onEnd {q q' : State} {events : List ReadEvent} (h : onEnd q = .go events q') :
    rank q' < rank q := by
  obtain ⟨nParam, point⟩ := q
  cases point <;> simp [onEnd] at h

def machine : Machine State MapUnion where
  onToken := onToken
  onEnd := onEnd
  rank := rank
  rank_onToken := rank_onToken
  rank_onEnd := rank_onEnd

/-- Reads the union of all matrices; without a number of parameters there are none. -/
def read (wanted : Option Nat) (s : TokenStream) : Reading MapUnion :=
  machine.run s ⟨wanted.getD 0, .firstInteger⟩

end ConstraintText.Matrix

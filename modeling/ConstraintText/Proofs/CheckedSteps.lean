import ConstraintText.Proofs.CheckedCounts
import ConstraintText.Proofs.Reachability

/-!
# Steps with counts of 64 bits

The steps of both readings once more, with counts of 64 bits, rows that must be as long as they are
taken to be, and integers that must have a value. Behind the names of a block a system must have as
many columns as there are names. A matrix is completed and joined to the others where it ends.
-/
namespace ConstraintText

namespace Formula

def afterNames64? (names : Names) : ListRole → Option (List ReadEvent × Point)
  | .tuple role opening before => some ([], .closeBracket role opening before)
  | .block paren before body => do
    let extra ← difference64? names.size before
    let system ← body.system.extend64? extra
    let dims ← system.totalDim64?
    let columns ← system.rowLength64?
    if dims = names.size then
      some ([.existentials extra columns], .blockColon paren ⟨system, body.blocks⟩)
    else none

def setSpace64? (names : Names) (nParam : Nat) : Option Space := do
  let nOut ← difference64? names.size nParam
  names.toSpace64? nParam 0 nOut

def mapSpace64? (names : Names) (nParam nIn : Nat) : Option Space := do
  let others ← difference64? names.size nIn
  let nOut ← difference64? others nParam
  names.toSpace64? nParam nIn nOut

def afterTuple64? (names : Names) (tuple : Span) : TupleRole → Option (Next State BasicMap)
  | .second nParam nIn => do
    let space ← mapSpace64? names nParam nIn
    some (.go ⟨names, .condition (.unconstrained space)⟩)
  | role => some (afterTuple names tuple role)

def start64? (system : BasicMap) : Option Sum := do
  let length ← system.rowLength64?
  some ⟨Row.zeros length, 1, none⟩

def addNamed64? (names : Names) (body : Body) (sum : Sum) (t : Token) (value : Int) :
    Option FormulaMove :=
  match names.position? t.lexeme with
  | none => some (.refuse .unknownName t)
  | some position => do
    let column ← sum64? 1 position
    let sum ← sum.add? column value
    some (.take ⟨names, .terms body sum⟩)

def onTerm64? (names : Names) (body : Body) (sum : Sum) (t : Token) : Option FormulaMove :=
  match t.kind with
  | .identifier => addNamed64? names body sum t 1
  | .integer => do
    let value ← t.value
    some (.take ⟨names, .coefficientName body sum value⟩)
  | .plus => some (.take ⟨names, .terms body sum⟩)
  | kind =>
    if kind.isRelation then
      if sum.kind.isSome then some (.refuse .secondOperator t)
      else some (.take ⟨names, .terms body (sum.compare kind)⟩)
    else
      match sum.kind with
      | none => some (.refuse .noOperator t)
      | some kind => do
        let system ← body.system.appendSum64? kind sum.row
        some (.leave ⟨names, .conjunction ⟨system, body.blocks⟩⟩)

def onToken64? (q : State) (t : Token) : Option FormulaMove :=
  let names := q.names
  match q.point with
  | .name role =>
    if t.kind = .identifier then do
      let _ ← sum64? names.size 1
      some (onToken q t)
    else do
      let (events, point) ← afterNames64? names role
      some ⟨.pushBack, events, .go ⟨names, point⟩⟩
  | .comma role =>
    if t.kind = .comma then some (onToken q t)
    else do
      let (events, point) ← afterNames64? names role
      some ⟨.pushBack, events, .go ⟨names, point⟩⟩
  | .closeBracket role opening before =>
    if t.kind = .rightBracket then do
      let size ← difference64? names.size before
      let next ← afterTuple64? names (opening.merge t.span) role
      some ⟨.take, [.tuple size opening], next⟩
    else some (onToken q t)
  | .secondTuple nParam =>
    if t.kind = .arrow then do
      let nIn ← difference64? names.size nParam
      some (.take ⟨names, .openBracket (.second nParam nIn)⟩)
    else do
      let space ← setSpace64? names nParam
      some (.leave ⟨names, .condition (.unconstrained space)⟩)
  | .constraint body =>
    if t.kind = .existsWord then some (onToken q t)
    else do
      let sum ← start64? body.system
      some (.leave ⟨names, .terms body sum⟩)
  | .terms body sum => onTerm64? names body sum t
  | .coefficientName body sum value =>
    if t.kind = .identifier then addNamed64? names body sum t value
    else do
      let sum ← sum.add? 0 value
      some ⟨.pushBack, [], .go ⟨names, .terms body sum⟩⟩
  | _ => some (onToken q t)

def onEnd64? (q : State) : Option (EndMove State) :=
  let names := q.names
  match q.point with
  | .name role => do
    let (events, point) ← afterNames64? names role
    some (.go events ⟨names, point⟩)
  | .comma role => do
    let (events, point) ← afterNames64? names role
    some (.go events ⟨names, point⟩)
  | .secondTuple nParam => do
    let space ← setSpace64? names nParam
    some (.go [] ⟨names, .condition (.unconstrained space)⟩)
  | _ => some (onEnd q)

def checks : Machine.Checks State BasicMap := ⟨onToken64?, onEnd64?⟩

end Formula

namespace Matrix

def build64? (nParam dims : Nat) (rows : List Constraint) : Option BasicMap :=
  rows.foldlM (fun m c => m.appendRow64? c.kind c.coeffs)
    (BasicMap.unconstrained (.unnamed nParam 0 dims))

/-- What follows a complete matrix. It is completed at once, and if it has the space of the first
one it is joined to those before it. -/
def afterMatrix64? (config : ReadConfig) (nParam : Nat) (job : Job) (progress : Progress) :
    Option (Next State MapUnion) := do
  let m ← build64? nParam progress.dims progress.rows
  let complete ← m.complete64? config
  let first := (job.parts.head?.getD m).space
  if first.isCompatible m.space then
    let before := MapUnion.complete ⟨first, job.parts⟩ config
    let _ ← (before.union (.ofBasicMap complete)).toOption
    some (afterMatrix nParam job progress)
  else some (afterMatrix nParam job progress)

def afterRow64? (config : ReadConfig) (nParam : Nat) (job : Job) (progress : Progress) :
    Option (Next State MapUnion) :=
  if progress.rowsLeft = 0 then afterMatrix64? config nParam job progress
  else some (afterRow nParam job progress)

def onColumnCount64? (config : ReadConfig) (nParam : Nat) (job : Job) (rowsToken t : Token) :
    Option MatrixMove :=
  if t.onNewLine then some (.refuse .columnCountOnNewLine t)
  else match count? .rows rowsToken with
    | .error problem => some (.refuse problem rowsToken)
    | .ok rows =>
      match count? .columns t with
      | .error problem => some (.refuse problem t)
      | .ok columns =>
        match (difference64? columns 2).bind (difference64? · nParam) with
        | none => some (.refuse (.tooFewColumns nParam) t)
        | some dims => do
          let next ← afterRow64? config nParam job ⟨rowsToken.span, dims, [], rows⟩
          some ⟨.take, [.matrix rows columns dims nParam], next⟩

def onEntry64? (config : ReadConfig) (nParam : Nat) (job : Job) (progress : Progress)
    (kind : ConstraintKind) (entries : List Int) (left : Nat) (t : Token) : Option MatrixMove :=
  if t.kind = .integer then do
    let value ← t.value
    let entries := entries ++ [value]
    if left ≤ 1 then
      let rowsLeft ← difference64? progress.rowsLeft 1
      let row : Constraint := ⟨kind, arrange progress.dims nParam entries⟩
      let next ← afterRow64? config nParam job
        ⟨progress.header, progress.dims, progress.rows ++ [row], rowsLeft⟩
      some ⟨.take, [], next⟩
    else some (.take ⟨nParam, .entry job progress kind entries (left - 1)⟩)
  else some (refuseEntry t)

def onToken64? (config : ReadConfig) (q : State) (t : Token) : Option MatrixMove :=
  match q.point with
  | .secondInteger first =>
    if t.onNewLine then some (onToken q t) else onColumnCount64? config q.nParam ⟨[], 0⟩ first t
  | .columnCount job rows => onColumnCount64? config q.nParam job rows t
  | .rowType _ progress => do
    let front ← sum64? progress.dims q.nParam
    let _ ← sum64? front 1
    some (onToken q t)
  | .entry job progress kind entries left =>
    onEntry64? config q.nParam job progress kind entries left t
  | _ => some (onToken q t)

/-- Nothing is counted at the end of the text. -/
def checks (config : ReadConfig) : Machine.Checks State MapUnion :=
  ⟨onToken64? config, fun q => some (onEnd q)⟩

end Matrix
end ConstraintText

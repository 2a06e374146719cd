import ConstraintText.Reading.Formula.State

/-!
# The steps of reading a formula

What each state does with a token and at the end of the text. A name counts from its declaration to
the end of the formula, so the position of a name in the table is the column of its coefficients.
-/
namespace ConstraintText.Formula

/-- What follows a list of names. A block's names become existentials at once. -/
def afterNames (names : Names) : ListRole → List ReadEvent × Point
  | .tuple role opening before => ([], .closeBracket role opening before)
  | .block paren before body =>
    let extra := names.size - before
    let system := body.system.extend extra
    ([.existentials extra system.rowLength], .blockColon paren ⟨system, body.blocks⟩)

/-- The space of a formula without a second tuple is that of a set. -/
def setSpace (names : Names) (nParam : Nat) : Space :=
  names.toSpace nParam 0 (names.size - nParam)

def mapSpace (names : Names) (nParam nIn : Nat) : Space :=
  names.toSpace nParam nIn (names.size - nIn - nParam)

/-- What follows a complete tuple, if its size is right. -/
def afterTuple (names : Names) (tuple : Span) : TupleRole → Next State BasicMap
  | .params wanted =>
    match wanted with
    | none => .go ⟨names, .paramArrow⟩
    | some n =>
      if n = names.size then .go ⟨names, .paramArrow⟩
      else .fail (.refused ⟨.parameterCount n names.size, tuple, none⟩)
  | .first nParam =>
    if names.size < nParam then .fail (.refused ⟨.tooFewNames nParam names.size, tuple, none⟩)
    else .go ⟨names, .secondTuple nParam⟩
  | .second nParam nIn =>
    .go ⟨names, .condition (.unconstrained (mapSpace names nParam nIn))⟩

/-- Adds a term to the sum. -/
def addTerm (names : Names) (body : Body) (sum : Sum) (column : Nat) (value : Int) :
    FormulaMove :=
  match sum.add? column value with
  | none => .fault (.columnOutOfRange column)
  | some sum => .take ⟨names, .terms body sum⟩

def addNamed (names : Names) (body : Body) (sum : Sum) (t : Token) (value : Int) : FormulaMove :=
  match names.position? t.lexeme with
  | none => .refuse .unknownName t
  | some position => addTerm names body sum (1 + position) value

/-- Adds a constant and leaves the token behind it to the next state. -/
def addConstant (names : Names) (body : Body) (sum : Sum) (value : Int) : Next State BasicMap :=
  match sum.add? 0 value with
  | none => .fail (.fault (.columnOutOfRange 0))
  | some sum => .go ⟨names, .terms body sum⟩

/-- A token among the terms of a constraint. A token that is no part of any constraint ends it. -/
def onTerm (names : Names) (body : Body) (sum : Sum) (t : Token) : FormulaMove :=
  match t.kind with
  | .identifier => addNamed names body sum t 1
  | .integer =>
    match t.value with
    | none => .fault (.integerWithoutValue t)
    | some value => .take ⟨names, .coefficientName body sum value⟩
  | .plus => .take ⟨names, .terms body sum⟩
  | kind =>
    if kind.isRelation then
      if sum.kind.isSome then .refuse .secondOperator t
      else .take ⟨names, .terms body (sum.compare kind)⟩
    else
      match sum.kind with
      | none => .refuse .noOperator t
      | some kind =>
        match body.system.appendRow? kind sum.row with
        | none => .fault .rowOfOtherLength
        | some system => .leave ⟨names, .conjunction ⟨system, body.blocks⟩⟩

/-- What may follow the last constraint of the innermost block. -/
def afterConjunction (body : Body) : Point :=
  match body.blocks with
  | [] => .closeBrace body.system
  | true :: blocks => .closeParen ⟨body.system, blocks⟩
  | false :: blocks => .conjunction ⟨body.system, blocks⟩

/-- Uses a token of the kind; any other is refused. -/
def expect (kind : TokenKind) (t : Token) (state : State) : FormulaMove :=
  if t.kind = kind then .take state else .refuse (.expectedToken kind) t

def onToken (q : State) (t : Token) : FormulaMove :=
  let names := q.names
  match q.point with
  | .beginning wanted =>
    if t.kind = .leftBracket then .leave ⟨names, .openBracket (.params wanted)⟩
    else expect .leftBrace t ⟨names, .openBracket (.first (wanted.getD 0))⟩
  | .openBracket role =>
    expect .leftBracket t ⟨names, .name (.tuple role t.span names.size)⟩
  | .name role =>
    if t.kind = .identifier then
      if t.lexeme ∈ names.toList then .refuse .duplicateName t
      else .take ⟨names.insert t.lexeme, .comma role⟩
    else
      let (events, point) := afterNames names role
      ⟨.pushBack, events, .go ⟨names, point⟩⟩
  | .comma role =>
    if t.kind = .comma then .take ⟨names, .name role⟩
    else
      let (events, point) := afterNames names role
      ⟨.pushBack, events, .go ⟨names, point⟩⟩
  | .closeBracket role opening before =>
    if t.kind = .rightBracket then
      ⟨.take, [.tuple (names.size - before) opening], afterTuple names (opening.merge t.span) role⟩
    else .refuse (.expectedToken .rightBracket) t
  | .blockColon paren body =>
    expect .colon t ⟨names, .constraint ⟨body.system, paren :: body.blocks⟩⟩
  | .paramArrow => expect .arrow t ⟨names, .openBrace⟩
  | .openBrace => expect .leftBrace t ⟨names, .openBracket (.first names.size)⟩
  | .secondTuple nParam =>
    if t.kind = .arrow then
      .take ⟨names, .openBracket (.second nParam (names.size - nParam))⟩
    else .leave ⟨names, .condition (.unconstrained (setSpace names nParam))⟩
  | .condition system =>
    if t.kind = .colon then .take ⟨names, .constraint ⟨system, []⟩⟩
    else if t.kind = .rightBrace then ⟨.take, [], .done system⟩
    else .refuse .unexpectedToken t
  | .constraint body =>
    if t.kind = .existsWord then .take ⟨names, .blockParen body⟩
    else .leave ⟨names, .terms body (.start body.system)⟩
  | .blockParen body =>
    if t.kind = .leftParen then .take ⟨names, .name (.block true names.size body)⟩
    else .leave ⟨names, .name (.block false names.size body)⟩
  | .terms body sum => onTerm names body sum t
  | .coefficientName body sum value =>
    if t.kind = .identifier then addNamed names body sum t value
    else ⟨.pushBack, [], addConstant names body sum value⟩
  | .conjunction body =>
    if t.kind = .andWord then .take ⟨names, .constraint body⟩
    else .leave ⟨names, afterConjunction body⟩
  | .closeParen body => expect .rightParen t ⟨names, .conjunction body⟩
  | .closeBrace system =>
    if t.kind = .rightBrace then ⟨.take, [], .done system⟩ else .refuse .unexpectedToken t

/-- At the end of the text a formula is never complete. Lists of names end there all the same. -/
def onEnd (q : State) : EndMove State :=
  let names := q.names
  match q.point with
  | .openBracket _ => .refuse (.expectedToken .leftBracket)
  | .name role =>
    let (events, point) := afterNames names role
    .go events ⟨names, point⟩
  | .comma role =>
    let (events, point) := afterNames names role
    .go events ⟨names, point⟩
  | .closeBracket _ _ _ => .refuse (.expectedToken .rightBracket)
  | .blockColon _ _ => .refuse (.expectedToken .colon)
  | .paramArrow => .refuse (.expectedToken .arrow)
  | .openBrace => .refuse (.expectedToken .leftBrace)
  | .secondTuple nParam => .go [] ⟨names, .condition (.unconstrained (setSpace names nParam))⟩
  | .blockParen body => .go [] ⟨names, .name (.block false names.size body)⟩
  | .closeParen _ => .refuse (.expectedToken .rightParen)
  | _ => .refuse .unexpectedEnd

end ConstraintText.Formula

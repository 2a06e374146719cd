import ConstraintText.Proofs.Sessions

/-!
# Texts behind other lines

Lines in front of a text move its places down and its offsets on, and leave its columns. Nothing that
is scanned or read depends on where the text stands: the same is read of a text that is moved, and
the spans of errors and of reports are moved with it.
-/
namespace ConstraintText

/-- How far lines in front of a text move it. -/
structure Displacement where
  lines : Nat
  bytes : Nat
  deriving DecidableEq, Repr

def Location.displace (d : Displacement) (l : Location) : Location :=
  ⟨l.line + d.lines, l.column, l.offset + d.bytes⟩

def Span.displace (d : Displacement) (s : Span) : Span := ⟨s.start.displace d, s.stop.displace d⟩

def Token.displace (d : Displacement) (t : Token) : Token :=
  ⟨t.kind, t.span.displace d, t.lexeme, t.onNewLine, t.value⟩

def LexError.displace (d : Displacement) (e : LexError) : LexError := ⟨e.problem, e.span.displace d⟩

def Refusal.displace (d : Displacement) (r : Refusal) : Refusal :=
  ⟨r.problem, r.span.displace d, r.found⟩

def Fault.displace (d : Displacement) : Fault → Fault
  | .pushBackOverflow pending returned =>
    .pushBackOverflow (pending.displace d) (returned.displace d)
  | .integerWithoutValue t => .integerWithoutValue (t.displace d)
  | f => f

/-- The same error in the text behind other lines. -/
def ReadError.displace (d : Displacement) : ReadError → ReadError
  | .lexical e => .lexical (e.displace d)
  | .refused r => .refused (r.displace d)
  | .fault f => .fault (f.displace d)
  | .io failure => .io failure

def ReadEvent.displace (d : Displacement) : ReadEvent → ReadEvent
  | .pushedBack t => .pushedBack (t.displace d)
  | .tuple size opening => .tuple size (opening.displace d)
  | event => event

def Scanner.displace (d : Displacement) (s : Scanner) : Scanner :=
  ⟨s.rest, s.place.displace d, s.newLine⟩

def TokenStream.displace (d : Displacement) (s : TokenStream) : TokenStream :=
  ⟨s.scanner.displace d, s.pending.map (·.displace d)⟩

def Reading.displace {α : Type} (d : Displacement) (r : Reading α) : Reading α :=
  ⟨r.result.mapError (·.displace d), r.stream.displace d, r.events.map (·.displace d)⟩

section Places

variable (d : Displacement)

theorem Location.after_displace (l : Location) (c : Char) :
    (l.displace d).after c = (l.after c).displace d := by
  unfold after
  split <;> simp [displace, Nat.add_right_comm]

@[simp] theorem Location.afterAll_displace (l : Location) (cs : List Char) :
    (l.displace d).afterAll cs = (l.afterAll cs).displace d := by
  induction cs generalizing l with
  | nil => rfl
  | cons c cs ih => rw [afterAll_cons, after_displace, ih, afterAll_cons]

@[simp] theorem Location.reaches_displace (a b : Location) :
    (a.displace d).reaches (b.displace d) = a.reaches b := by
  rw [Bool.eq_iff_iff]
  simp only [reaches, Bool.or_eq_true, Bool.and_eq_true, decide_eq_true_iff, beq_iff_eq]
  simp [displace]

@[simp] theorem Span.merge_displace (a b : Span) :
    (a.displace d).merge (b.displace d) = (a.merge b).displace d := by
  simp only [merge, displace, Location.reaches_displace]
  split <;> split <;> rfl

@[simp] theorem Token.kind_displace (t : Token) : (t.displace d).kind = t.kind := by
  cases t
  rfl

@[simp] theorem Token.lexeme_displace (t : Token) : (t.displace d).lexeme = t.lexeme := by
  cases t
  rfl

@[simp] theorem Token.onNewLine_displace (t : Token) : (t.displace d).onNewLine = t.onNewLine := by
  cases t
  rfl

@[simp] theorem Token.value_displace (t : Token) : (t.displace d).value = t.value := by
  cases t
  rfl

@[simp] theorem Token.isFinish_displace (t : Token) : (t.displace d).isFinish = t.isFinish := by
  cases t
  rfl

/-- The items of a text are the same wherever it stands. -/
theorem Scanner.next_displace (s : Scanner) : (s.displace d).next =
    ((s.next.1.map (·.displace d)).mapError (·.displace d), s.next.2.displace d) := by
  unfold next
  simp only [displace, Location.afterAll_displace, Location.after_displace]
  cases afterGap false s.rest with
  | nil => rfl
  | cons c cs =>
    dsimp only
    cases Cut.ofChars? c cs with
    | none => rfl
    | some cut =>
      dsimp only
      split
      · cases Decimal.integer? (c :: cut.tail) <;> rfl
      · rfl

end Places

namespace TokenStream

variable (d : Displacement) (s : TokenStream)

theorem scan_displace : (s.displace d).scan =
    ((s.scan.1.map (Option.map (·.displace d))).mapError (·.displace d), s.scan.2.displace d) := by
  unfold scan
  have hnext : (s.displace d).scanner.next = _ := s.scanner.next_displace d
  rw [hnext]
  rcases s.scanner.next with ⟨item, scanner⟩
  cases item with
  | error e => rfl
  | ok t => cases ht : t.isFinish <;> simp [Except.map, Except.mapError, displace, ht]

theorem next_displace : (s.displace d).next =
    ((s.next.1.map (Option.map (·.displace d))).mapError (·.displace d), s.next.2.displace d) := by
  obtain ⟨scanner, pending⟩ := s
  cases pending with
  | some held => rfl
  | none => exact scan_displace d ⟨scanner, none⟩

theorem peek_displace : (s.displace d).peek =
    ((s.peek.1.map (Option.map (·.displace d))).mapError (·.displace d), s.peek.2.displace d) := by
  obtain ⟨scanner, pending⟩ := s
  cases pending with
  | some held => rfl
  | none =>
    have hscan : (displace d ⟨scanner, none⟩).scan = _ := scan_displace d ⟨scanner, none⟩
    have hpending : (displace d ⟨scanner, none⟩).pending = none := rfl
    simp only [peek, hpending, hscan]
    rcases scan ⟨scanner, none⟩ with ⟨item, s'⟩
    cases item <;> rfl

theorem pushBack_displace (t : Token) : (s.displace d).pushBack (t.displace d) =
    ((s.pushBack t).map (·.displace d)).mapError (·.displace d) := by
  obtain ⟨scanner, pending⟩ := s
  cases pending <;> rfl

theorem expectEnd_displace : (s.displace d).expectEnd =
    (s.expectEnd.1.mapError (·.displace d), s.expectEnd.2.displace d) := by
  unfold expectEnd
  rw [next_displace]
  rcases s.next with ⟨item, s'⟩
  match item with
  | .error e => rfl
  | .ok none => rfl
  | .ok (some t) => rfl

theorem dispose_displace (disposition : Disposition) (t : Token) :
    (s.displace d).dispose disposition (t.displace d) =
      ((s.dispose disposition t).map fun r => (r.1.displace d, r.2.map (·.displace d))).mapError
        (·.displace d) := by
  cases disposition <;> simp only [dispose, pushBack_displace]
  · rfl
  · cases s.pushBack t <;> rfl
  · cases s.pushBack t <;> rfl

end TokenStream

def Next.displace {σ α : Type} (d : Displacement) (f : σ → σ) : Next σ α → Next σ α
  | .go q => .go (f q)
  | .fail e => .fail (e.displace d)
  | .done value => .done value

def Move.displace {σ α : Type} (d : Displacement) (f : σ → σ) (move : Move σ α) : Move σ α :=
  ⟨move.token, move.events.map (·.displace d), move.next.displace d f⟩

def EndMove.displace {σ : Type} (d : Displacement) (f : σ → σ) : EndMove σ → EndMove σ
  | .go events q => .go (events.map (·.displace d)) (f q)
  | .refuse problem => .refuse problem

/-- Whether a machine does in a text behind other lines what it does in the text. -/
structure Machine.Displaces {σ α : Type} (m : Machine σ α) (d : Displacement) (f : σ → σ) : Prop where
  token (q : σ) (t : Token) : m.onToken (f q) (t.displace d) = (m.onToken q t).displace d f
  finish (q : σ) : m.onEnd (f q) = (m.onEnd q).displace d f

/-- A run in a text behind other lines is the run in the text. -/
theorem Machine.Displaces.run {σ α : Type} {m : Machine σ α} {d : Displacement} {f : σ → σ}
    (hm : m.Displaces d f) (s : TokenStream) (q : σ) :
    m.run (s.displace d) (f q) = (m.run s q).displace d := by
  have hnext := fun s : TokenStream => s.next_displace d
  fun_induction m.run s q with
  | case1 s q e s' hn =>
    rw [run_of_lexical m (f q) (by rw [hnext, hn]; rfl)]
    rfl
  | case2 s q s' hn problem hq =>
    rw [run_of_end m (f q) (by rw [hnext, hn]; rfl), hm.finish, hq]
    rfl
  | case3 s q s' hn events q' hq ih =>
    rw [run_of_end m (f q) (by rw [hnext, hn]; rfl), hm.finish, hq]
    simp only [EndMove.displace, ih]
    simp [Reading.after, Reading.displace]
  | case4 s q t s' hn fault hd =>
    rw [run_of_token m (f q) (by rw [hnext, hn]; rfl), hm.token]
    simp only [Move.displace, TokenStream.dispose_displace, hd]
    rfl
  | case5 s q t s' hn s'' events hd e hq =>
    rw [run_of_token m (f q) (by rw [hnext, hn]; rfl), hm.token]
    simp only [Move.displace, TokenStream.dispose_displace, hd, hq]
    simp [Except.map, Except.mapError, Next.displace, Reading.after, Reading.error, Reading.displace]
  | case6 s q t s' hn s'' events hd value hq =>
    rw [run_of_token m (f q) (by rw [hnext, hn]; rfl), hm.token]
    simp only [Move.displace, TokenStream.dispose_displace, hd, hq]
    simp [Except.map, Except.mapError, Next.displace, Reading.after, Reading.ok, Reading.displace]
  | case7 s q t s' hn s'' events hd q' hq ih =>
    rw [run_of_token m (f q) (by rw [hnext, hn]; rfl), hm.token]
    simp only [Move.displace, TokenStream.dispose_displace, hd, hq]
    simp only [Except.map, Except.mapError, Next.displace, ih]
    simp [Reading.after, Reading.displace]

namespace Formula

def ListRole.displace (d : Displacement) : ListRole → ListRole
  | .tuple role opening before => .tuple role (opening.displace d) before
  | .block paren before body => .block paren before body

/-- The point in a formula behind other lines: only the span of an opening bracket is kept. -/
def Point.displace (d : Displacement) : Point → Point
  | .name role => .name (role.displace d)
  | .comma role => .comma (role.displace d)
  | .closeBracket role opening before => .closeBracket role (opening.displace d) before
  | point => point

def State.displace (d : Displacement) (q : State) : State := ⟨q.names, q.point.displace d⟩

variable (d : Displacement) (names : Names)

abbrev moved (move : FormulaMove) : FormulaMove := move.displace d (State.displace d)

theorem expect_displace {d : Displacement} {kind : TokenKind} {t : Token} {q q' : State}
    (hq : q' = q.displace d) : expect kind (t.displace d) q' = moved d (expect kind t q) := by
  subst hq
  unfold expect
  rw [Token.kind_displace]
  split <;> rfl

theorem afterNames_displace (role : ListRole) : afterNames names (role.displace d) =
    ((afterNames names role).1.map (·.displace d), (afterNames names role).2.displace d) := by
  cases role <;> rfl

theorem afterTuple_displace (tuple : Span) (role : TupleRole) :
    afterTuple names (tuple.displace d) role =
      (afterTuple names tuple role).displace d (State.displace d) := by
  unfold afterTuple
  repeat' split
  all_goals rfl

theorem addNamed_displace (body : Body) (sum : Sum) (t : Token) (value : Int) :
    addNamed names body sum (t.displace d) value = moved d (addNamed names body sum t value) := by
  unfold addNamed addTerm
  rw [Token.lexeme_displace]
  repeat' split
  all_goals rfl

theorem addConstant_displace (body : Body) (sum : Sum) (value : Int) :
    addConstant names body sum value =
      (addConstant names body sum value).displace d (State.displace d) := by
  unfold addConstant
  split <;> rfl

theorem onTerm_displace (body : Body) (sum : Sum) (t : Token) :
    onTerm names body sum (t.displace d) = moved d (onTerm names body sum t) := by
  unfold onTerm
  rw [Token.kind_displace, Token.value_displace]
  repeat' split
  all_goals first
    | exact addNamed_displace d names body sum t 1
    | rfl

theorem afterConjunction_displace (body : Body) :
    (afterConjunction body).displace d = afterConjunction body := by
  obtain ⟨system, blocks⟩ := body
  match blocks with
  | [] => rfl
  | true :: blocks => rfl
  | false :: blocks => rfl

theorem takeOrLeave_displace {kind : TokenKind} {t : Token} {q₁ q₂ q₁' q₂' : State}
    (h₁ : q₁' = q₁.displace d) (h₂ : q₂' = q₂.displace d) :
    (if (t.displace d).kind = kind then .take q₁' else .leave q₂') =
      moved d (if t.kind = kind then .take q₁ else .leave q₂) := by
  subst h₁ h₂
  rw [Token.kind_displace]
  split <;> rfl

theorem onName_displace (role : ListRole) (t : Token) :
    onToken ⟨names, .name (role.displace d)⟩ (t.displace d) =
      moved d (onToken ⟨names, .name role⟩ t) := by
  simp only [onToken, afterNames_displace, Token.kind_displace, Token.lexeme_displace]
  split
  · split <;> rfl
  · rfl

theorem onCloseBracket_displace (role : TupleRole) (opening : Span) (before : Nat) (t : Token) :
    onToken ⟨names, .closeBracket role (opening.displace d) before⟩ (t.displace d) =
      moved d (onToken ⟨names, .closeBracket role opening before⟩ t) := by
  simp only [onToken, Token.kind_displace]
  split
  · have hspan : (opening.displace d).merge (t.displace d).span =
        (opening.merge t.span).displace d := Span.merge_displace d opening t.span
    rw [hspan, afterTuple_displace]
    rfl
  · rfl

theorem onCoefficientName_displace (body : Body) (sum : Sum) (value : Int) (t : Token) :
    onToken ⟨names, .coefficientName body sum value⟩ (t.displace d) =
      moved d (onToken ⟨names, .coefficientName body sum value⟩ t) := by
  simp only [onToken, Token.kind_displace]
  split
  · exact addNamed_displace d names body sum t value
  · simp only [moved, Move.displace, ← addConstant_displace]
    rfl

theorem onToken_displace (q : State) (t : Token) :
    onToken (q.displace d) (t.displace d) = moved d (onToken q t) := by
  obtain ⟨names, point⟩ := q
  cases point with
  | terms body sum => exact onTerm_displace d names body sum t
  | coefficientName body sum value => exact onCoefficientName_displace d names body sum value t
  | name role => exact onName_displace d names role t
  | closeBracket role opening before => exact onCloseBracket_displace d names role opening before t
  | openBracket role => exact expect_displace rfl
  | blockColon paren body => exact expect_displace rfl
  | paramArrow => exact expect_displace rfl
  | openBrace => exact expect_displace rfl
  | closeParen body => exact expect_displace rfl
  | secondTuple nParam => exact takeOrLeave_displace d rfl rfl
  | constraint body => exact takeOrLeave_displace d rfl rfl
  | blockParen body => exact takeOrLeave_displace d rfl rfl
  | conjunction body =>
    exact takeOrLeave_displace d rfl
      (congrArg (State.mk names) (afterConjunction_displace d body).symm)
  | beginning wanted =>
    simp only [onToken, State.displace, Point.displace, Token.kind_displace]
    split
    · rfl
    · exact expect_displace rfl
  | comma role =>
    simp only [onToken, State.displace, Point.displace, afterNames_displace, Token.kind_displace]
    split <;> rfl
  | condition system =>
    simp only [onToken, State.displace, Point.displace, Token.kind_displace]
    repeat' split
    all_goals rfl
  | closeBrace system =>
    simp only [onToken, State.displace, Point.displace, Token.kind_displace]
    split <;> rfl

theorem onEnd_displace (q : State) :
    onEnd (q.displace d) = (onEnd q).displace d (State.displace d) := by
  obtain ⟨names, point⟩ := q
  cases point with
  | name role | comma role =>
    simp only [onEnd, State.displace, Point.displace, afterNames_displace, EndMove.displace]
  | _ => rfl

theorem displaces_machine : machine.Displaces d (State.displace d) :=
  ⟨onToken_displace d, onEnd_displace d⟩

end Formula

namespace Matrix

def Progress.displace (d : Displacement) (p : Progress) : Progress :=
  ⟨p.header.displace d, p.dims, p.rows, p.rowsLeft⟩

def Point.displace (d : Displacement) : Point → Point
  | .firstInteger => .firstInteger
  | .secondInteger first => .secondInteger (first.displace d)
  | .rowCount job => .rowCount job
  | .columnCount job rows => .columnCount job (rows.displace d)
  | .rowType job progress => .rowType job (progress.displace d)
  | .entry job progress kind entries left => .entry job (progress.displace d) kind entries left

def State.displace (d : Displacement) (q : State) : State := ⟨q.nParam, q.point.displace d⟩

variable (d : Displacement) (nParam : Nat) (job : Job)

abbrev moved (move : MatrixMove) : MatrixMove := move.displace d (State.displace d)

theorem count?_displace (role : CountRole) (t : Token) :
    count? role (t.displace d) = count? role t := rfl

theorem afterMatrix_displace (progress : Progress) :
    afterMatrix nParam job (progress.displace d) =
      (afterMatrix nParam job progress).displace d (State.displace d) := by
  unfold afterMatrix
  simp only [Progress.displace]
  cases build nParam progress.dims progress.rows with
  | none => rfl
  | some m =>
    dsimp only
    split
    · cases job.following <;> rfl
    · rfl

theorem afterRow_displace (progress : Progress) :
    afterRow nParam job (progress.displace d) =
      (afterRow nParam job progress).displace d (State.displace d) := by
  rw [afterRow, afterRow, afterMatrix_displace]
  by_cases h : progress.rowsLeft = 0
  · rw [if_pos h, if_pos (by exact h)]
  · rw [if_neg h, if_neg (by exact h)]
    rfl

theorem onColumnCount_displace (rows t : Token) :
    onColumnCount nParam job (rows.displace d) (t.displace d) =
      moved d (onColumnCount nParam job rows t) := by
  unfold onColumnCount
  rw [count?_displace, count?_displace, Token.onNewLine_displace]
  split
  · rfl
  · cases count? .rows rows with
    | error problem => rfl
    | ok n =>
      dsimp only
      cases count? .columns t with
      | error problem => rfl
      | ok columns =>
        dsimp only
        split
        · rfl
        · have hrow := afterRow_displace d nParam job ⟨rows.span, columns - 2 - nParam, [], n⟩
          simp only [moved, Move.displace, ← hrow]
          rfl

theorem onToken_displace (q : State) (t : Token) :
    onToken (q.displace d) (t.displace d) = moved d (onToken q t) := by
  obtain ⟨nParam, point⟩ := q
  cases point with
  | firstInteger => rfl
  | rowCount job => rfl
  | columnCount job rows => exact onColumnCount_displace d nParam job rows t
  | secondInteger first =>
    simp only [onToken, State.displace, Point.displace, onSecondInteger, Token.onNewLine_displace,
      count?_displace, onColumnCount_displace]
    split
    · repeat' split
      all_goals rfl
    · rfl
  | rowType job progress =>
    simp only [onToken, State.displace, Point.displace, onRowType, Token.kind_displace,
      Token.onNewLine_displace]
    rw [Token.value_displace]
    split
    · split
      · cases t.value.bind kindOfType? <;> rfl
      · rfl
    · rfl
  | entry job progress kind entries left =>
    simp only [onToken, State.displace, Point.displace, onEntry, Token.kind_displace,
      Token.value_displace]
    split
    · cases t.value with
      | none => rfl
      | some value =>
        dsimp only
        split
        · simp only [moved, Move.displace, ← afterRow_displace]
          rfl
        · rfl
    · rfl

theorem displaces_machine : machine.Displaces d (State.displace d) :=
  ⟨onToken_displace d, fun q => by obtain ⟨nParam, point⟩ := q; cases point <;> rfl⟩

end Matrix

namespace Reading

variable {α β : Type} (d : Displacement)

theorem after_displace (r : Reading α) (events : List ReadEvent) :
    (r.after events).displace d = (r.displace d).after (events.map (·.displace d)) := by
  simp [after, displace]

theorem bind_displace {r : Reading α} {f : α → TokenStream → Reading β}
    (hf : ∀ value s, f value (s.displace d) = (f value s).displace d) :
    (r.displace d).bind f = (r.bind f).displace d := by
  obtain ⟨result, stream, events⟩ := r
  cases result with
  | error e => rfl
  | ok value =>
    simp only [bind, displace, Except.mapError, hf]
    exact (after_displace d (f value stream) events).symm

variable (config : ReadConfig) (wanted : Option Nat) (s : TokenStream)

theorem readMatrices_displace : readMatrices config wanted (s.displace d) =
    (readMatrices config wanted s).displace d := by
  have hread : Matrix.read wanted (s.displace d) = (Matrix.read wanted s).displace d :=
    (Matrix.displaces_machine d).run s ⟨wanted.getD 0, .firstInteger⟩
  rw [readMatrices, hread]
  exact bind_displace d fun _ _ => rfl

theorem readFormula_displace : readFormula config wanted (s.displace d) =
    (readFormula config wanted s).displace d := by
  have hread : Formula.read wanted (s.displace d) = (Formula.read wanted s).displace d :=
    (Formula.displaces_machine d).run s ⟨.empty, .beginning wanted⟩
  rw [readFormula, hread]
  exact bind_displace d fun _ _ => rfl

theorem readMap_displace :
    readMap config wanted (s.displace d) = (readMap config wanted s).displace d := by
  unfold readMap
  rw [TokenStream.peek_displace]
  rcases s.peek with ⟨item, s'⟩
  match item with
  | .error e => rfl
  | .ok none => rfl
  | .ok (some t) =>
    simp only [Except.map, Except.mapError, Option.map_some, Token.kind_displace,
      readMatrices_displace, readFormula_displace]
    split
    · exact (after_displace d _ [.pushedBack t]).symm
    · rfl

theorem onlyPart_displace (u : MapUnion) : onlyPart u (s.displace d) = (onlyPart u s).displace d := by
  unfold onlyPart
  split <;> rfl

theorem readBasicMap_displace :
    readBasicMap config wanted (s.displace d) = (readBasicMap config wanted s).displace d := by
  rw [readBasicMap, readMap_displace]
  exact bind_displace d fun u s => onlyPart_displace d s u

theorem readBasicSet_displace :
    readBasicSet config wanted (s.displace d) = (readBasicSet config wanted s).displace d := by
  rw [readBasicSet, readBasicMap_displace]
  refine bind_displace d fun m s => ?_
  cases BasicSet.ofBasicMap? m <;> rfl

theorem readSet_displace :
    readSet config wanted (s.displace d) = (readSet config wanted s).displace d := by
  rw [readSet, readMap_displace]
  refine bind_displace d fun u s => ?_
  cases SetUnion.ofMapUnion? u <;> rfl

theorem finish_displace : finish config (s.displace d) = (finish config s).displace d := by
  unfold finish
  split
  · rw [TokenStream.expectEnd_displace]
    rfl
  · rfl

end Reading

/-- A call gives the same in a text behind other lines. -/
theorem Call.read_displace (config : ReadConfig) (call : Call) (d : Displacement)
    (s : TokenStream) : call.read config (s.displace d) = (call.read config s).displace d := by
  cases call with
  | map wanted =>
    rw [read, Reading.readMap_displace]
    exact Reading.bind_displace d fun _ _ => rfl
  | basicMap wanted =>
    rw [read, Reading.readBasicMap_displace]
    exact Reading.bind_displace d fun _ _ => rfl
  | set wanted =>
    rw [read, Reading.readSet_displace]
    exact Reading.bind_displace d fun _ _ => rfl
  | basicSet wanted =>
    rw [read, Reading.readBasicSet_displace]
    exact Reading.bind_displace d fun _ _ => rfl
  | finish =>
    rw [read, Reading.finish_displace]
    exact Reading.bind_displace d fun _ _ => rfl

end ConstraintText

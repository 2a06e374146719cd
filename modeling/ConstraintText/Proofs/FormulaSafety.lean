import ConstraintText.Proofs.CheckedSteps
import ConstraintText.Proofs.ScanningSafety

/-!
# Reading formulas stays within bounds

Wherever the reading of a formula gets, its system has a column for each name and nothing but that,
each name was a token once, and the row being summed has the length of a row. So no column is out of
range, no row has another length, and no count is greater than the number of tokens and a few.
-/
namespace ConstraintText

namespace BasicMap

/-- Whether a system has rows of one length with a column for each of some names. -/
structure FitsNames (n : Nat) (m : BasicMap) : Prop where
  isUniform : m.IsUniform
  totalDim : m.totalDim = n

variable {n : Nat} {m : BasicMap}

theorem FitsNames.rowLength (h : m.FitsNames n) : m.rowLength = 1 + n := by
  rw [BasicMap.rowLength, h.totalDim]

theorem fitsNames_unconstrained {space : Space} (h : space.totalDim = n) :
    (unconstrained space).FitsNames n :=
  ⟨isUniform_unconstrained space, h⟩

theorem FitsNames.extend (h : m.FitsNames n) (extra : Nat) :
    (m.extend extra).FitsNames (n + extra) := by
  refine ⟨h.isUniform.extend extra, ?_⟩
  have htotal := h.totalDim
  simp only [BasicMap.totalDim, space_extend, nDiv_extend] at htotal ⊢
  omega

theorem FitsNames.addRow (h : m.FitsNames n) (kind : ConstraintKind) {row : Row}
    (hr : row.length = 1 + n) : (m.addRow kind row).FitsNames n := by
  have hlength := h.rowLength
  refine ⟨h.isUniform.of_rows (space_addRow _ _ _) (nDiv_addRow _ _ _) (divs_addRow _ _ _) ?_, ?_⟩
  · intro kind' row' hrow
    rcases mem_rows_addRow hrow with rfl | hrow
    · rw [hr, hlength]
    · exact h.isUniform.rows kind' row' hrow
  · rw [← h.totalDim, BasicMap.totalDim, BasicMap.totalDim, space_addRow, nDiv_addRow]

end BasicMap

namespace Formula

def TupleRole.Fits (n : Nat) : TupleRole → Prop
  | .second nParam nIn => nParam + nIn ≤ n
  | _ => True

def ListRole.Fits (n : Nat) : ListRole → Prop
  | .tuple role _ before => before ≤ n ∧ role.Fits n
  | .block _ before body => before ≤ n ∧ body.system.FitsNames before

def Point.Fits (n : Nat) : Point → Prop
  | .openBracket role => role.Fits n
  | .name role => role.Fits n
  | .comma role => role.Fits n
  | .closeBracket role _ before => before ≤ n ∧ role.Fits n
  | .blockColon _ body => body.system.FitsNames n
  | .secondTuple nParam => nParam ≤ n
  | .condition system => system.FitsNames n
  | .constraint body => body.system.FitsNames n
  | .blockParen body => body.system.FitsNames n
  | .terms body sum => body.system.FitsNames n ∧ sum.row.length = 1 + n
  | .coefficientName body sum _ => body.system.FitsNames n ∧ sum.row.length = 1 + n
  | .conjunction body => body.system.FitsNames n
  | .closeParen body => body.system.FitsNames n
  | .closeBrace system => system.FitsNames n
  | _ => True

/-- The invariant of a reading that began with so many tokens. -/
structure Fits (limit : Nat) (q : State) (ts : List Token) : Prop where
  size : q.names.size + ts.length ≤ limit
  values : ∀ t ∈ ts, t.HasValue
  point : q.point.Fits q.names.size

variable {limit : Nat} {q : State} {names : Names} {point : Point} {body : Body} {sum : Sum}
  {t : Token} {ts : List Token} {P : State → Prop} {Q : BasicMap → Prop}

theorem Fits.take (h : Fits limit q (t :: ts)) (hs : names.size ≤ q.names.size + 1)
    (hp : point.Fits names.size) : Fits limit ⟨names, point⟩ ts where
  size := by
    have hsize := h.size
    rw [List.length_cons] at hsize
    show names.size + ts.length ≤ limit
    omega
  values := fun u hu => h.values u (List.mem_cons_of_mem t hu)
  point := hp

theorem Fits.leave (h : Fits limit q ts) (hp : point.Fits q.names.size) :
    Fits limit ⟨q.names, point⟩ ts :=
  ⟨h.size, h.values, hp⟩

theorem Fits.use (h : Fits limit q (t :: ts)) (hp : point.Fits q.names.size) :
    Fits limit ⟨q.names, point⟩ ts :=
  h.take (Nat.le_succ _) hp

/-- Whether a system has columns for so many names at most. -/
def IsWithin (limit : Nat) (m : BasicMap) : Prop := ∃ n ≤ limit, m.FitsNames n

/-- Whether a move with a token leads to a point where the invariant holds again. -/
def Continues (limit : Nat) (t : Token) (ts : List Token) (move : FormulaMove) : Prop :=
  move.next.Goes (fun q => Fits limit q (if move.token = .take then ts else t :: ts))
    (IsWithin limit)

theorem continues_take (h : Fits limit q ts) : Continues limit t ts (.take q) := h

theorem continues_leave (h : Fits limit q (t :: ts)) : Continues limit t ts (.leave q) := h

theorem continues_refuse (problem : Problem) : Continues limit t ts (.refuse problem t) := ⟨_, rfl⟩

theorem continues_takeOrLeave {kind : TokenKind} {q₁ q₂ : State} (h₁ : Fits limit q₁ ts)
    (h₂ : Fits limit q₂ (t :: ts)) :
    Continues limit t ts (if t.kind = kind then .take q₁ else .leave q₂) := by
  split
  · exact continues_take h₁
  · exact continues_leave h₂

theorem continues_expect {kind : TokenKind} (h : Fits limit q ts) :
    Continues limit t ts (expect kind t q) := by
  unfold expect
  split
  · exact continues_take h
  · exact continues_refuse _

theorem size_insert {name : String} (h : name ∉ names.toList) :
    (names.insert name).size = names.size + 1 := by
  simp [Names.insert, h, Names.size]

theorem totalDim_setSpace {nParam : Nat} (h : nParam ≤ names.size) :
    (setSpace names nParam).totalDim = names.size := by
  simp only [setSpace, Names.toSpace, Space.totalDim]
  omega

theorem totalDim_mapSpace {nParam nIn : Nat} (h : nParam + nIn ≤ names.size) :
    (mapSpace names nParam nIn).totalDim = names.size := by
  simp only [mapSpace, Names.toSpace, Space.totalDim]
  omega

theorem ListRole.Fits.mono {role : ListRole} {n k : Nat} (h : role.Fits n) (hk : n ≤ k) :
    role.Fits k := by
  cases role with
  | tuple role opening before =>
    obtain ⟨hb, hr⟩ := h
    refine ⟨hb.trans hk, ?_⟩
    cases role with
    | second nParam nIn => exact Nat.le_trans hr hk
    | params _ => trivial
    | first _ => trivial
  | block paren before body => exact ⟨h.1.trans hk, h.2⟩

theorem fits_afterNames {role : ListRole} (h : role.Fits names.size) :
    (afterNames names role).2.Fits names.size := by
  cases role with
  | tuple role opening before => exact h
  | block paren before body =>
    obtain ⟨hb, hs⟩ := h
    have hextended := hs.extend (names.size - before)
    rw [Nat.add_sub_cancel' hb] at hextended
    exact hextended

theorem goes_afterTuple {role : TupleRole} {tuple : Span} (h : role.Fits names.size)
    (hP : ∀ point : Point, point.Fits names.size → P ⟨names, point⟩) :
    (afterTuple names tuple role).Goes P Q := by
  cases role with
  | params wanted =>
    cases wanted with
    | none => exact hP _ trivial
    | some n =>
      simp only [afterTuple]
      split
      · exact hP _ trivial
      · exact ⟨_, rfl⟩
  | first nParam =>
    simp only [afterTuple]
    split
    · exact ⟨_, rfl⟩
    · exact hP _ (Nat.not_lt.mp ‹_›)
  | second nParam nIn =>
    exact hP _ (BasicMap.fitsNames_unconstrained (totalDim_mapSpace h))

theorem position?_lt {name : String} {position : Nat} (h : names.position? name = some position) :
    position < names.size := by
  obtain ⟨hlt, -⟩ := List.idxOf?_eq_some_iff.mp h
  exact hlt

theorem exists_add? {column : Nat} (h : column < sum.row.length) (value : Int) :
    ∃ sum', sum.add? column value = some sum' ∧ sum'.row.length = sum.row.length := by
  refine ⟨⟨sum.row.set column (sum.row[column] + value * sum.sign), sum.sign, sum.kind⟩, ?_, ?_⟩
  · simp [Sum.add?, Row.addAt?, List.getElem?_eq_getElem h]
  · exact List.length_set

theorem length_compare (sum : Sum) (operator : TokenKind) :
    (sum.compare operator).row.length = sum.row.length := by
  unfold Sum.compare
  split <;> simp

theorem continues_addNamed (h : Fits limit ⟨names, point⟩ (t :: ts))
    (hsystem : body.system.FitsNames names.size) (hl : sum.row.length = 1 + names.size)
    (value : Int) : Continues limit t ts (addNamed names body sum t value) := by
  unfold addNamed
  split
  · exact continues_refuse _
  · rename_i position hposition
    have hlt := position?_lt hposition
    have hcolumn : 1 + position < sum.row.length := by omega
    obtain ⟨sum', hs, hl'⟩ := exists_add? hcolumn value
    simp only [addTerm, hs]
    exact continues_take (h.use ⟨hsystem, hl'.trans hl⟩)

theorem appendRow?_eq {kind : ConstraintKind} {m : BasicMap} {row : Row} {n : Nat}
    (h : m.FitsNames n) (hr : row.length = 1 + n) :
    m.appendRow? kind row = some (m.addRow kind row) :=
  if_pos (hr.trans h.rowLength.symm)

theorem continues_onTerm (h : Fits limit ⟨names, .terms body sum⟩ (t :: ts)) :
    Continues limit t ts (onTerm names body sum t) := by
  obtain ⟨hsystem, hl⟩ := h.point
  unfold onTerm
  split
  · exact continues_addNamed h hsystem hl 1
  · rename_i hk
    obtain ⟨value, hv⟩ := h.values t List.mem_cons_self hk
    simp only [hv]
    exact continues_take (h.use ⟨hsystem, hl⟩)
  · exact continues_take (h.use ⟨hsystem, hl⟩)
  · split
    · split
      · exact continues_refuse _
      · exact continues_take (h.use ⟨hsystem, (length_compare sum _).trans hl⟩)
    · split
      · exact continues_refuse _
      · rename_i kind _
        simp only [appendRow?_eq hsystem hl]
        exact continues_leave (h.leave (hsystem.addRow kind hl))

theorem continues_onCoefficientName {value : Int}
    (h : Fits limit ⟨names, .coefficientName body sum value⟩ (t :: ts)) :
    Continues limit t ts (onToken ⟨names, .coefficientName body sum value⟩ t) := by
  obtain ⟨hsystem, hl⟩ :
      body.system.FitsNames names.size ∧ sum.row.length = 1 + names.size := h.point
  simp only [onToken]
  split
  · exact continues_addNamed h hsystem hl value
  · have hconstant : 0 < sum.row.length := by omega
    obtain ⟨sum', hs, hl'⟩ := exists_add? hconstant value
    simp only [addConstant, hs]
    exact continues_leave (h.leave ⟨hsystem, hl'.trans hl⟩)

/-- The only step that adds a name takes the token of that name. -/
theorem continues_onName {role : ListRole} (h : Fits limit ⟨names, .name role⟩ (t :: ts)) :
    Continues limit t ts (onToken ⟨names, .name role⟩ t) := by
  simp only [onToken]
  split
  · split
    · exact continues_refuse _
    · have hinsert := size_insert ‹_›
      have hgrows : names.size ≤ (names.insert t.lexeme).size := by omega
      exact continues_take (h.take hinsert.le (h.point.mono hgrows))
  · exact h.leave (fits_afterNames h.point)

theorem continues_onComma {role : ListRole} (h : Fits limit ⟨names, .comma role⟩ (t :: ts)) :
    Continues limit t ts (onToken ⟨names, .comma role⟩ t) := by
  simp only [onToken]
  split
  · exact continues_take (h.use h.point)
  · exact h.leave (fits_afterNames h.point)

theorem continues_onCloseBracket {role : TupleRole} {opening : Span} {before : Nat}
    (h : Fits limit ⟨names, .closeBracket role opening before⟩ (t :: ts)) :
    Continues limit t ts (onToken ⟨names, .closeBracket role opening before⟩ t) := by
  simp only [onToken]
  split
  · exact goes_afterTuple h.point.2 fun point hpoint => h.use hpoint
  · exact continues_refuse _

theorem continues_onCondition {system : BasicMap}
    (h : Fits limit ⟨names, .condition system⟩ (t :: ts)) :
    Continues limit t ts (onToken ⟨names, .condition system⟩ t) := by
  simp only [onToken]
  split
  · exact continues_take (h.use h.point)
  · split
    · exact ⟨names.size, Nat.le_of_add_right_le h.size, h.point⟩
    · exact continues_refuse _

theorem fits_afterConjunction {n : Nat} (h : body.system.FitsNames n) :
    (afterConjunction body).Fits n := by
  obtain ⟨system, blocks⟩ := body
  match blocks with
  | [] => exact h
  | true :: _ => exact h
  | false :: _ => exact h

theorem length_start {n : Nat} {system : BasicMap} (h : system.FitsNames n) :
    (Sum.start system).row.length = 1 + n := by
  rw [Sum.start, Row.zeros, List.length_replicate, h.rowLength]

/-- A token takes the reading to a point where the invariant holds again. -/
theorem continues_onToken (h : Fits limit q (t :: ts)) : Continues limit t ts (onToken q t) := by
  obtain ⟨names, point⟩ := q
  have hp := h.point
  cases point with
  | terms body sum => exact continues_onTerm h
  | coefficientName body sum value => exact continues_onCoefficientName h
  | name role => exact continues_onName h
  | comma role => exact continues_onComma h
  | closeBracket role opening before => exact continues_onCloseBracket h
  | condition system => exact continues_onCondition h
  | beginning wanted =>
    simp only [onToken]
    split
    · exact continues_leave (h.leave trivial)
    · exact continues_expect (h.use trivial)
  | openBracket role => exact continues_expect (h.use ⟨le_rfl, hp⟩)
  | blockColon paren body => exact continues_expect (h.use hp)
  | paramArrow => exact continues_expect (h.use trivial)
  | openBrace => exact continues_expect (h.use trivial)
  | closeParen body => exact continues_expect (h.use hp)
  | secondTuple nParam =>
    have hset := BasicMap.fitsNames_unconstrained (totalDim_setSpace hp)
    exact continues_takeOrLeave (h.use (Nat.add_sub_cancel' hp).le) (h.leave hset)
  | constraint body => exact continues_takeOrLeave (h.use hp) (h.leave ⟨hp, length_start hp⟩)
  | blockParen body =>
    exact continues_takeOrLeave (h.use ⟨le_rfl, hp⟩) (h.leave ⟨le_rfl, hp⟩)
  | conjunction body =>
    exact continues_takeOrLeave (h.use hp) (h.leave (fits_afterConjunction hp))
  | closeBrace system =>
    simp only [onToken]
    split
    · exact ⟨names.size, Nat.le_of_add_right_le h.size, hp⟩
    · exact continues_refuse _

theorem fits_onEnd {q' : State} {events : List ReadEvent} (h : Fits limit q [])
    (he : onEnd q = .go events q') : Fits limit q' [] := by
  obtain ⟨names, point⟩ := q
  have hp := h.point
  cases point <;> simp only [onEnd, EndMove.go.injEq, reduceCtorEq] at he
  case name role =>
    obtain ⟨-, rfl⟩ := he
    exact h.leave (fits_afterNames hp)
  case comma role =>
    obtain ⟨-, rfl⟩ := he
    exact h.leave (fits_afterNames hp)
  case secondTuple nParam =>
    obtain ⟨-, rfl⟩ := he
    exact h.leave (BasicMap.fitsNames_unconstrained (totalDim_setSpace hp))
  case blockParen body =>
    obtain ⟨-, rfl⟩ := he
    exact h.leave ⟨le_rfl, hp⟩

theorem stays (limit : Nat) : machine.Stays (Fits limit) (IsWithin limit) :=
  ⟨continues_onToken, fits_onEnd⟩

theorem afterNames64?_eq {role : ListRole} (h : role.Fits names.size)
    (hs : names.size + 2 ≤ Decimal.largestCount) :
    afterNames64? names role = some (afterNames names role) := by
  cases role with
  | tuple role opening before => rfl
  | block paren before body =>
    obtain ⟨hb, hsystem⟩ := h
    have hlength := hsystem.rowLength
    have hextended := hsystem.extend (names.size - before)
    rw [Nat.add_sub_cancel' hb] at hextended
    have hrow := hextended.rowLength
    have hextend : body.system.extend64? (names.size - before)
        = some (body.system.extend (names.size - before)) := BasicMap.extend64?_eq (by omega)
    have htotal := BasicMap.totalDim64?_eq (m := body.system.extend (names.size - before))
      (by rw [hextended.totalDim]; omega)
    have hrows := BasicMap.rowLength64?_eq (m := body.system.extend (names.size - before))
      (by omega)
    simp [afterNames64?, afterNames, difference64?_eq hb, hextend, htotal, hrows,
      hextended.totalDim]

theorem setSpace64?_eq {nParam : Nat} (h : nParam ≤ names.size)
    (hs : names.size ≤ Decimal.largestCount) :
    setSpace64? names nParam = some (setSpace names nParam) := by
  have hdims : nParam + 0 + (names.size - nParam) ≤ Decimal.largestCount := by omega
  simp [setSpace64?, difference64?_eq h, Names.toSpace64?_eq hdims, setSpace]

theorem mapSpace64?_eq {nParam nIn : Nat} (h : nParam + nIn ≤ names.size)
    (hs : names.size ≤ Decimal.largestCount) :
    mapSpace64? names nParam nIn = some (mapSpace names nParam nIn) := by
  have hinputs : nIn ≤ names.size := by omega
  have hparams : nParam ≤ names.size - nIn := by omega
  have hdims : nParam + nIn + (names.size - nIn - nParam) ≤ Decimal.largestCount := by omega
  simp [mapSpace64?, difference64?_eq hinputs, difference64?_eq hparams,
    Names.toSpace64?_eq hdims, mapSpace]

theorem afterTuple64?_eq {role : TupleRole} {tuple : Span} (h : role.Fits names.size)
    (hs : names.size ≤ Decimal.largestCount) :
    afterTuple64? names tuple role = some (afterTuple names tuple role) := by
  cases role with
  | params wanted => rfl
  | first nParam => rfl
  | second nParam nIn => simp [afterTuple64?, mapSpace64?_eq h hs, afterTuple]

theorem addNamed64?_eq {value : Int} (hl : sum.row.length = 1 + names.size)
    (hs : names.size + 1 ≤ Decimal.largestCount) :
    addNamed64? names body sum t value = some (addNamed names body sum t value) := by
  cases hposition : names.position? t.lexeme with
  | none => simp [addNamed64?, addNamed, hposition]
  | some position =>
    have hlt := position?_lt hposition
    have hcolumn : 1 + position < sum.row.length := by omega
    have hfits : 1 + position ≤ Decimal.largestCount := by omega
    obtain ⟨sum', hadd, -⟩ := exists_add? hcolumn value
    simp [addNamed64?, addNamed, hposition, sum64?_eq hfits, hadd, addTerm]

theorem onTerm64?_eq (hsystem : body.system.FitsNames names.size)
    (hl : sum.row.length = 1 + names.size) (hv : t.HasValue)
    (hs : names.size + 1 ≤ Decimal.largestCount) :
    onTerm64? names body sum t = some (onTerm names body sum t) := by
  have hrow : sum.row.length = body.system.rowLength := hl.trans hsystem.rowLength.symm
  fun_cases onTerm names body sum t with
  | case1 hk => simp [onTerm64?, hk, addNamed64?_eq hl hs]
  | case2 hk hnone =>
    obtain ⟨value, hsome⟩ := hv hk
    simp [hnone] at hsome
  | case3 hk value hsome => simp [onTerm64?, hk, hsome]
  | case4 hk => simp [onTerm64?, hk]
  | case5 => simp [onTerm64?, *]
  | case6 => simp [onTerm64?, *]
  | case7 => simp [onTerm64?, *]
  | case8 kind hkind hnone =>
    simp [appendRow?_eq hsystem hl] at hnone
  | case9 kind hkind system hsome =>
    obtain rfl := Option.some.inj ((appendRow?_eq hsystem hl).symm.trans hsome)
    have hsum64 := BasicMap.appendSum64?_eq kind hrow (by omega)
    simp [onTerm64?, *]

/-- With counts of 64 bits a token takes the reading to the same point. -/
theorem onToken64?_eq (h : Fits limit q (t :: ts)) (hlimit : limit + 2 ≤ Decimal.largestCount) :
    onToken64? q t = some (onToken q t) := by
  obtain ⟨names, point⟩ := q
  have hp := h.point
  have hsize : names.size + (ts.length + 1) ≤ limit := h.size
  have hs : names.size + 2 ≤ Decimal.largestCount := by omega
  cases point with
  | name role =>
    have hgrows : names.size + 1 ≤ Decimal.largestCount := by omega
    simp only [onToken64?, sum64?_eq hgrows, afterNames64?_eq hp hs]
    split <;> simp [onToken, *]
  | comma role =>
    simp only [onToken64?, afterNames64?_eq hp hs]
    split <;> simp [onToken, *]
  | closeBracket role opening before =>
    simp only [onToken64?, difference64?_eq hp.1, afterTuple64?_eq hp.2 (Nat.le_of_add_right_le hs)]
    split <;> simp [onToken, *]
  | secondTuple nParam =>
    simp only [onToken64?, difference64?_eq hp, setSpace64?_eq hp (Nat.le_of_add_right_le hs)]
    split <;> simp [onToken, *]
  | constraint body =>
    have hrow : body.system.rowLength = 1 + names.size := hp.rowLength
    have hlength := BasicMap.rowLength64?_eq (m := body.system) (by omega)
    simp only [onToken64?, start64?, hlength]
    split <;> simp [onToken, Sum.start, *]
  | terms body sum =>
    exact onTerm64?_eq hp.1 hp.2 (h.values t List.mem_cons_self) (Nat.le_of_succ_le hs)
  | coefficientName body sum value =>
    have hl : sum.row.length = 1 + names.size := hp.2
    have hconstant : 0 < sum.row.length := by omega
    obtain ⟨sum', hadd, -⟩ := exists_add? hconstant value
    simp only [onToken64?, addNamed64?_eq hl (Nat.le_of_succ_le hs), hadd]
    split <;> simp [onToken, addConstant, *]
  | beginning _ => rfl
  | openBracket _ => rfl
  | blockColon _ _ => rfl
  | paramArrow => rfl
  | openBrace => rfl
  | condition _ => rfl
  | blockParen _ => rfl
  | conjunction _ => rfl
  | closeParen _ => rfl
  | closeBrace _ => rfl

theorem onEnd64?_eq (h : Fits limit q []) (hlimit : limit + 2 ≤ Decimal.largestCount) :
    onEnd64? q = some (onEnd q) := by
  obtain ⟨names, point⟩ := q
  have hp := h.point
  have hsize : names.size ≤ limit := h.size
  have hs : names.size + 2 ≤ Decimal.largestCount := by omega
  cases point with
  | name role => simp [onEnd64?, afterNames64?_eq hp hs, onEnd]
  | comma role => simp [onEnd64?, afterNames64?_eq hp hs, onEnd]
  | secondTuple nParam =>
    simp [onEnd64?, setSpace64?_eq hp (Nat.le_of_add_right_le hs), onEnd]
  | _ => rfl

theorem fits_beginning (wanted : Option Nat) (hv : ∀ t ∈ ts, t.HasValue) :
    Fits ts.length ⟨.empty, .beginning wanted⟩ ts :=
  ⟨(Nat.zero_add _).le, hv, trivial⟩

/-- Whatever the tokens of a text are, reading them as a formula stays within bounds. -/
theorem passes (wanted : Option Nat) (hv : ∀ t ∈ ts, t.HasValue)
    (hlimit : ts.length + 2 ≤ Decimal.largestCount) :
    machine.Passes checks ⟨.empty, .beginning wanted⟩ ts :=
  (stays ts.length).passes (fits_beginning wanted hv) (fun h => onToken64?_eq h hlimit)
    fun h => onEnd64?_eq h hlimit

end Formula
end ConstraintText

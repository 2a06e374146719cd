import ConstraintText.Reading.Formula.Step

/-!
# Reading formulas

A formula declares tuples of names and states constraints over them:

    [n] -> { [i] -> [j] : exists k : j = 2k and i <= n }

The parameter tuple, the second tuple and the condition may be missing, the names of an `exists`
block may stand with its conjunction in parentheses, and a conjunction goes on after a block.

A state may leave a token to another one, and its rank then falls: so every step of the reading uses
a token in the end.
-/
namespace ConstraintText.Formula

/-- States that leave a token come before the states they leave it to. -/
def rank (q : State) : Nat :=
  match q.point with
  | .beginning _ => 1
  | .name _ => 1
  | .comma _ => 1
  | .secondTuple _ => 1
  | .blockParen _ => 2
  | .constraint body => body.blocks.length + 3
  | .coefficientName body _ _ => body.blocks.length + 3
  | .terms body _ => body.blocks.length + 2
  | .conjunction body => body.blocks.length + 1
  | _ => 0

theorem rank_afterNames (names : Names) (role : ListRole) :
    rank ⟨names, (afterNames names role).2⟩ = 0 := by
  cases role <;> rfl

theorem rank_afterConjunction (names : Names) (body : Body) :
    rank ⟨names, afterConjunction body⟩ < body.blocks.length + 1 := by
  obtain ⟨system, blocks⟩ := body
  match blocks with
  | [] => simp [afterConjunction, rank]
  | true :: blocks => simp [afterConjunction, rank]
  | false :: blocks => simp [afterConjunction, rank]

theorem token_expect {kind : TokenKind} {t : Token} {state : State} :
    (expect kind t state).token = .take := by
  unfold expect
  split <;> rfl

theorem token_addNamed {names : Names} {body : Body} {sum : Sum} {t : Token} {value : Int} :
    (addNamed names body sum t value).token = .take := by
  unfold addNamed addTerm
  repeat' split
  all_goals rfl

/-- Whether a move that leaves its token leads to a rank below `n`. -/
def Falls (n : Nat) (move : FormulaMove) : Prop :=
  ∀ q, move.next = .go q → move.token ≠ .take → rank q < n

section Falls

variable {n : Nat} {names : Names} {body : Body} {sum : Sum} {value : Int} {t : Token}

theorem falls_of_take {move : FormulaMove} (h : move.token = .take) : Falls n move :=
  fun _ _ ht => absurd h ht

theorem falls_pushBack {events : List ReadEvent} {q : State} (h : rank q < n) :
    Falls n ⟨.pushBack, events, .go q⟩ := by
  intro q' hq _
  obtain rfl := Next.go.inj hq
  exact h

/-- A token of one kind is used, and any other is left to a state of lower rank. -/
theorem falls_takeOrLeave {kind : TokenKind} {q₁ q₂ : State} (h : rank q₂ < n) :
    Falls n (if t.kind = kind then .take q₁ else .leave q₂) := by
  split
  · exact falls_of_take rfl
  · exact falls_pushBack h

theorem falls_onTerm : Falls (body.blocks.length + 2) (onTerm names body sum t) := by
  unfold onTerm
  split
  · exact falls_of_take token_addNamed
  · split <;> exact falls_of_take rfl
  · exact falls_of_take rfl
  · split
    · split <;> exact falls_of_take rfl
    · split
      · exact falls_of_take rfl
      · split
        · exact falls_of_take rfl
        · exact falls_pushBack (by simp [rank])

theorem falls_onName {role : ListRole} : Falls 1 (onToken ⟨names, .name role⟩ t) := by
  simp only [onToken]
  split
  · split <;> exact falls_of_take rfl
  · exact falls_pushBack (by simp [rank_afterNames])

theorem falls_onComma {role : ListRole} : Falls 1 (onToken ⟨names, .comma role⟩ t) := by
  simp only [onToken]
  split
  · exact falls_of_take rfl
  · exact falls_pushBack (by simp [rank_afterNames])

theorem falls_onCoefficientName :
    Falls (body.blocks.length + 3) (onToken ⟨names, .coefficientName body sum value⟩ t) := by
  simp only [onToken]
  split
  · exact falls_of_take token_addNamed
  · unfold addConstant
    split
    · simp [Falls]
    · exact falls_pushBack (by simp [rank])

theorem falls_onToken (q : State) (t : Token) : Falls (rank q) (onToken q t) := by
  obtain ⟨names, point⟩ := q
  cases point with
  | terms body sum => exact falls_onTerm
  | name role => exact falls_onName
  | comma role => exact falls_onComma
  | coefficientName body sum value => exact falls_onCoefficientName
  | secondTuple nParam => exact falls_takeOrLeave (by simp [rank])
  | constraint body => exact falls_takeOrLeave (by simp [rank])
  | blockParen body => exact falls_takeOrLeave (by simp [rank])
  | conjunction body => exact falls_takeOrLeave (rank_afterConjunction names body)
  | beginning wanted =>
    simp only [onToken]
    split
    · exact falls_pushBack (by simp [rank])
    · exact falls_of_take token_expect
  | openBracket role => exact falls_of_take token_expect
  | blockColon paren body => exact falls_of_take token_expect
  | paramArrow => exact falls_of_take token_expect
  | openBrace => exact falls_of_take token_expect
  | closeParen body => exact falls_of_take token_expect
  | closeBracket role opening before =>
    simp only [onToken]
    split <;> exact falls_of_take rfl
  | condition system =>
    simp only [onToken]
    repeat' split
    all_goals exact falls_of_take rfl
  | closeBrace system =>
    simp only [onToken]
    split <;> exact falls_of_take rfl

end Falls

theorem rank_onToken {q q' : State} {t : Token} (h : (onToken q t).next = .go q')
    (ht : (onToken q t).token ≠ .take) : rank q' < rank q :=
  falls_onToken q t q' h ht

theorem rank_onEnd {q q' : State} {events : List ReadEvent} (h : onEnd q = .go events q') :
    rank q' < rank q := by
  obtain ⟨names, point⟩ := q
  cases point <;> simp only [onEnd, EndMove.go.injEq, reduceCtorEq] at h
  case name role => rw [← h.2, rank_afterNames]; simp [rank]
  case comma role => rw [← h.2, rank_afterNames]; simp [rank]
  case secondTuple nParam => rw [← h.2]; simp [rank]
  case blockParen body => rw [← h.2]; simp [rank]

def machine : Machine State BasicMap where
  onToken := onToken
  onEnd := onEnd
  rank := rank
  rank_onToken := rank_onToken
  rank_onEnd := rank_onEnd

/-- Reads one formula; `wanted` is the number of parameters the caller wants. -/
def read (wanted : Option Nat) (s : TokenStream) : Reading BasicMap :=
  machine.run s ⟨.empty, .beginning wanted⟩

end ConstraintText.Formula

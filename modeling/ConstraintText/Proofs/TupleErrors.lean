import ConstraintText.Proofs.Diagnostics
import ConstraintText.Proofs.Drafts
import ConstraintText.Proofs.FormulaSafety

/-!
# Tuples that do not fit the wanted parameters

A reading that is refused because of its parameters has just taken the closing bracket of a tuple:
the parameters of a formula, or the first tuple of a formula without them. Wherever the reading of a
formula gets, the tokens taken so far end with those of the tuple it is in, so the refusal spans
this tuple. No other step is refused for that reason, and matrices never are.
-/
namespace ConstraintText

/-- Whether an error is about parameters that are not those wanted. -/
def ReadError.IsMismatch : ReadError → Prop
  | .refused r => r.problem.kind = .parameterMismatch
  | _ => False

@[simp] theorem ReadError.isMismatch_refused (r : Refusal) :
    (refused r).IsMismatch ↔ r.problem.kind = .parameterMismatch := Iff.rfl

@[simp] theorem ReadError.isMismatch_fault (f : Fault) : ¬(fault f).IsMismatch := id

@[simp] theorem Refusal.problem_atToken (problem : Problem) (t : Token) :
    (atToken problem t).problem = problem := rfl

@[simp] theorem Refusal.problem_atPlace (problem : Problem) (place : Location) :
    (atPlace problem place).problem = problem := rfl

def Next.Leads {σ α : Type} (I : σ → Prop) (E : ReadError → Prop) : Next σ α → Prop
  | .go q => I q
  | .fail e => E e
  | .done _ => True

namespace Formula

/-- Names of a list up to the one or the comma read last, and whether a name may follow. -/
inductive NamesSoFar : Bool → List Token → List Token → Prop
  | empty : NamesSoFar true [] []
  | name {t : Token} {ids ns : List Token} (h : NamesSoFar true ids ns) (ht : t.kind = .identifier) :
      NamesSoFar false (ids ++ [t]) (ns ++ [t])
  | comma {t : Token} {ids ns : List Token} (h : NamesSoFar false ids ns) (ht : t.kind = .comma) :
      NamesSoFar true ids (ns ++ [t])

theorem NamesSoFar.append {next : Bool} {ids ns : List Token} (h : NamesSoFar next ids ns) :
    match next with
    | true => ∀ ids' ns', DerivesNames ids' ns' → DerivesNames (ids ++ ids') (ns ++ ns')
    | false => DerivesNames ids ns ∧ ∀ comma ids' ns', comma.kind = .comma →
        DerivesNames ids' ns' → DerivesNames (ids ++ ids') (ns ++ comma :: ns') := by
  induction h with
  | empty => exact fun ids' ns' h' => h'
  | name _ ht ih =>
    -- the name is the last one of a list, or a comma and others follow it
    refine ⟨ih _ _ (.last ht), fun comma ids' ns' hc h' => ?_⟩
    simpa using ih _ _ (.more ht hc h')
  | comma _ ht ih => exact fun ids' ns' h' => by simpa using ih.2 _ ids' ns' ht h'

theorem NamesSoFar.derives {next : Bool} {ids ns : List Token} (h : NamesSoFar next ids ns) :
    DerivesNames ids ns := by
  have happend := h.append
  cases next with
  | true => simpa using happend [] [] .empty
  | false => exact happend.1

/-- Why a tuple of so many names does not fit, by what stands in front of it: nothing in front of
the parameters, a brace in front of a first tuple without parameters. -/
inductive Mismatch (wanted : Option Nat) (front : List Token) (found : Nat) : Problem → Prop
  | params {n : Nat} (hw : wanted = some n) (hf : front = []) (hn : n ≠ found) :
      Mismatch wanted front found (.parameterCount n found)
  | first {n : Nat} {brace : Token} (hw : wanted = some n) (hf : front = [brace])
      (hb : brace.kind = .leftBrace) (hn : found < n) :
      Mismatch wanted front found (.tooFewNames n found)

/-- A refusal of a tuple among some tokens; its span joins those of the brackets. -/
inductive RefusesTuple (wanted : Option Nat) : List Token → ReadError → Prop
  | intro {front ids ns rest : List Token} {opening closing : Token} {problem : Problem}
      (ho : opening.kind = .leftBracket) (hn : DerivesNames ids ns)
      (hc : closing.kind = .rightBracket) (hm : Mismatch wanted front ids.length problem) :
      RefusesTuple wanted (front ++ opening :: ns ++ closing :: rest)
        (.refused ⟨problem, opening.span.merge closing.span, none⟩)

/-- What stands in front of a tuple behind so many names. A first tuple behind parameters has as
many names as there are parameters from the beginning. -/
def TupleRole.StandsBehind (wanted : Option Nat) (front : List Token) (before : Nat) :
    TupleRole → Prop
  | .params w => w = wanted ∧ front = [] ∧ before = 0
  | .first n => n ≤ before ∨ n = wanted.getD 0 ∧ before = 0 ∧
      ∃ brace : Token, front = [brace] ∧ brace.kind = .leftBrace
  | .second _ _ => True

def ListRole.EndsWith (wanted : Option Nat) (used : List Token) (size : Nat)
    (names : List Token → List Token → Prop) : ListRole → Prop
  | .tuple role opening before => ∃ front bracket ids ns, used = front ++ bracket :: ns ∧
      role.StandsBehind wanted front before ∧ bracket.kind = .leftBracket ∧
      bracket.span = opening ∧ names ids ns ∧ size = before + ids.length
  | .block _ _ _ => True

/-- What the tokens taken are where a reading stands in a tuple or in front of one. -/
def State.Follows (wanted : Option Nat) (used : List Token) (q : State) : Prop :=
  match q.point with
  | .beginning w => w = wanted ∧ used = [] ∧ q.names.size = 0
  | .openBracket role => role.StandsBehind wanted used q.names.size
  | .name role => role.EndsWith wanted used q.names.size (NamesSoFar true)
  | .comma role => role.EndsWith wanted used q.names.size (NamesSoFar false)
  | .closeBracket role opening before =>
    (ListRole.tuple role opening before).EndsWith wanted used q.names.size DerivesNames
  | _ => True

variable {wanted : Option Nat} {used : List Token} {names : Names} {role : ListRole} {t : Token}

theorem follows_afterNames {next : Bool}
    (h : role.EndsWith wanted used names.size (NamesSoFar next)) :
    State.Follows wanted used ⟨names, (afterNames names role).2⟩ := by
  cases role with
  | block paren before body => trivial
  | tuple role opening before =>
    obtain ⟨front, bracket, ids, ns, hused, hfront, hb, ho, hn, hsize⟩ := h
    exact ⟨front, bracket, ids, ns, hused, hfront, hb, ho, hn.derives, hsize⟩

theorem follows_name (h : role.EndsWith wanted used names.size (NamesSoFar true))
    (ht : t.kind = .identifier) (hnew : t.lexeme ∉ names.toList) :
    State.Follows wanted (used ++ [t]) ⟨names.insert t.lexeme, .comma role⟩ := by
  cases role with
  | block paren before body => trivial
  | tuple role opening before =>
    obtain ⟨front, bracket, ids, ns, rfl, hfront, hb, ho, hn, hsize⟩ := h
    refine ⟨front, bracket, ids ++ [t], ns ++ [t], by simp, hfront, hb, ho, .name hn ht, ?_⟩
    rw [size_insert hnew, hsize, List.length_append, List.length_singleton, Nat.add_assoc]

theorem follows_comma (h : role.EndsWith wanted used names.size (NamesSoFar false))
    (ht : t.kind = .comma) : State.Follows wanted (used ++ [t]) ⟨names, .name role⟩ := by
  cases role with
  | block paren before body => trivial
  | tuple role opening before =>
    obtain ⟨front, bracket, ids, ns, rfl, hfront, hb, ho, hn, hsize⟩ := h
    exact ⟨front, bracket, ids, ns ++ [t], by simp, hfront, hb, ho, .comma hn ht, hsize⟩

theorem follows_afterConjunction {body : Body} :
    State.Follows wanted used ⟨names, afterConjunction body⟩ := by
  unfold afterConjunction
  split <;> trivial

/-- An error that blames a tuple of some tokens, if it is a mismatch. -/
def Blames (wanted : Option Nat) (used : List Token) (e : ReadError) : Prop :=
  e.IsMismatch → ∀ rest, RefusesTuple wanted (used ++ rest) e

theorem blames_of_not {e : ReadError} (h : ¬e.IsMismatch) : Blames wanted used e :=
  fun he => absurd he h

/-- Whether a step with a token goes on to what follows the tokens then taken, and blames nothing
but a tuple of them. -/
def Obeys (wanted : Option Nat) (used : List Token) (t : Token) (move : FormulaMove) : Prop :=
  move.next.Leads (State.Follows wanted (if move.token = .take then used ++ [t] else used))
    (Blames wanted (used ++ [t]))

theorem Obeys.follows {move : FormulaMove} {q : State} (h : Obeys wanted used t move)
    (hn : move.next = .go q) :
    q.Follows wanted (if move.token = .take then used ++ [t] else used) := by
  rwa [Obeys, hn] at h

theorem Obeys.blames {move : FormulaMove} {e : ReadError} (h : Obeys wanted used t move)
    (hn : move.next = .fail e) : Blames wanted (used ++ [t]) e := by
  rwa [Obeys, hn] at h

theorem obeys_take {q : State} (h : q.Follows wanted (used ++ [t])) :
    Obeys wanted used t (.take q) := h

theorem obeys_leave {q : State} (h : q.Follows wanted used) : Obeys wanted used t (.leave q) := h

theorem obeys_refuse {problem : Problem} (h : problem.kind ≠ .parameterMismatch) :
    Obeys wanted used t (.refuse problem t) :=
  blames_of_not h

theorem obeys_fault (f : Fault) : Obeys wanted used t (.fault f) := blames_of_not id

theorem obeys_takeOrLeave {kind : TokenKind} {q₁ q₂ : State} (h₁ : q₁.Follows wanted (used ++ [t]))
    (h₂ : q₂.Follows wanted used) :
    Obeys wanted used t (if t.kind = kind then .take q₁ else .leave q₂) := by
  split
  · exact obeys_take h₁
  · exact obeys_leave h₂

theorem obeys_expect {kind : TokenKind} {q : State}
    (h : t.kind = kind → q.Follows wanted (used ++ [t])) :
    Obeys wanted used t (expect kind t q) := by
  unfold expect
  split
  · exact obeys_take (h ‹_›)
  · exact obeys_refuse (by simp [Problem.kind])

/-- A complete tuple is left for what follows it, or it is refused. -/
theorem leads_afterTuple {role : TupleRole} {opening : Span} {before : Nat}
    (h : State.Follows wanted used ⟨names, .closeBracket role opening before⟩)
    (ht : t.kind = .rightBracket) (used' : List Token) :
    (afterTuple names (opening.merge t.span) role).Leads (State.Follows wanted used')
      (Blames wanted (used ++ [t])) := by
  obtain ⟨front, bracket, ids, ns, rfl, hfront, hb, rfl, hn, hsize⟩ := h
  have blames : ∀ {problem : Problem}, Mismatch wanted front ids.length problem →
      Blames wanted (front ++ bracket :: ns ++ [t])
        (.refused ⟨problem, bracket.span.merge t.span, none⟩) := by
    intro problem hm _ rest
    have hrefuses : RefusesTuple wanted (front ++ bracket :: ns ++ t :: rest)
        (.refused ⟨problem, bracket.span.merge t.span, none⟩) := .intro hb hn ht hm
    simpa using hrefuses
  cases role with
  | params w =>
    obtain ⟨rfl, hnil, rfl⟩ := hfront
    have hfound : names.size = ids.length := by simpa using hsize
    cases w with
    | none => trivial
    | some n =>
      simp only [afterTuple, hfound]
      split
      · trivial
      · exact blames (.params rfl hnil ‹_›)
  | first n =>
    simp only [afterTuple]
    split
    · rename_i hlt
      change names.size = before + ids.length at hsize
      obtain hle | ⟨rfl, rfl, brace, hbrace, hk⟩ := hfront
      · omega
      · rw [Nat.zero_add] at hsize
        rw [hsize] at hlt ⊢
        cases wanted with
        | none => simp at hlt
        | some n => exact blames (.first rfl hbrace hk hlt)
    · trivial
  | second nParam nIn => trivial

theorem obeys_addNamed (names : Names) (body : Body) (sum : Sum) (t : Token) (value : Int) :
    Obeys wanted used t (addNamed names body sum t value) := by
  unfold addNamed addTerm
  repeat' split
  · exact obeys_refuse (by simp [Problem.kind])
  · exact obeys_fault _
  · exact obeys_take trivial

theorem obeys_onTerm (names : Names) (body : Body) (sum : Sum) (t : Token) :
    Obeys wanted used t (onTerm names body sum t) := by
  unfold onTerm
  repeat' split
  all_goals first
    | exact obeys_addNamed _ _ _ _ _
    | exact obeys_take trivial
    | exact obeys_leave trivial
    | exact obeys_refuse (by simp [Problem.kind])
    | exact obeys_fault _

theorem obeys_onName (h : role.EndsWith wanted used names.size (NamesSoFar true)) (t : Token) :
    Obeys wanted used t (onToken ⟨names, .name role⟩ t) := by
  simp only [onToken]
  split
  · split
    · exact obeys_refuse (by simp [Problem.kind])
    · exact obeys_take (follows_name h ‹_› ‹_›)
  · exact follows_afterNames h

theorem obeys_onComma (h : role.EndsWith wanted used names.size (NamesSoFar false)) (t : Token) :
    Obeys wanted used t (onToken ⟨names, .comma role⟩ t) := by
  simp only [onToken]
  split
  · exact obeys_take (follows_comma h ‹_›)
  · exact follows_afterNames h

theorem obeys_onCoefficientName (names : Names) (body : Body) (sum : Sum) (value : Int)
    (t : Token) :
    Obeys wanted used t (onToken ⟨names, .coefficientName body sum value⟩ t) := by
  simp only [onToken, addConstant]
  repeat' split
  · exact obeys_addNamed _ _ _ _ _
  · exact obeys_fault _
  · exact obeys_leave trivial

theorem obeys_onCondition (names : Names) (system : BasicMap) (t : Token) :
    Obeys wanted used t (onToken ⟨names, .condition system⟩ t) := by
  simp only [onToken]
  split
  · exact obeys_take trivial
  · split
    · trivial
    · exact obeys_refuse (by simp [Problem.kind])

/-- Each step with a token keeps what the tokens taken are, and what it refuses as a mismatch is a
tuple of them. -/
theorem obeys_onToken {q : State} (h : q.Follows wanted used) (t : Token) :
    Obeys wanted used t (machine.onToken q t) := by
  change Obeys wanted used t (onToken q t)
  obtain ⟨names, point⟩ := q
  cases point with
  | terms body sum => exact obeys_onTerm names body sum t
  | coefficientName body sum value => exact obeys_onCoefficientName names body sum value t
  | name role => exact obeys_onName h t
  | comma role => exact obeys_onComma h t
  | condition system => exact obeys_onCondition names system t
  | beginning w =>
    obtain ⟨rfl, rfl, hsize⟩ := h
    simp only [onToken]
    split
    · exact obeys_leave ⟨rfl, rfl, hsize⟩
    · exact obeys_expect fun ht => .inr ⟨rfl, hsize, t, rfl, ht⟩
  | openBracket role =>
    exact obeys_expect fun ht => ⟨used, t, [], [], rfl, h, ht, rfl, .empty, rfl⟩
  | closeBracket role opening before =>
    simp only [onToken]
    split
    · exact leads_afterTuple h ‹_› _
    · exact obeys_refuse (by simp [Problem.kind])
  | blockColon paren body => exact obeys_expect fun _ => trivial
  | paramArrow => exact obeys_expect fun _ => trivial
  | openBrace => exact obeys_expect fun _ => .inl le_rfl
  | closeParen body => exact obeys_expect fun _ => trivial
  | secondTuple nParam => exact obeys_takeOrLeave trivial trivial
  | constraint body => exact obeys_takeOrLeave trivial trivial
  | blockParen body => exact obeys_takeOrLeave trivial trivial
  | conjunction body => exact obeys_takeOrLeave trivial follows_afterConjunction
  | closeBrace system =>
    simp only [onToken]
    split
    · trivial
    · exact obeys_refuse (by simp [Problem.kind])

theorem follows_onEnd {q q' : State} {events : List ReadEvent} (h : q.Follows wanted used)
    (he : onEnd q = .go events q') : q'.Follows wanted used := by
  obtain ⟨names, point⟩ := q
  cases point <;> simp only [onEnd, EndMove.go.injEq, reduceCtorEq] at he
  case name role => exact he.2 ▸ follows_afterNames h
  case comma role => exact he.2 ▸ follows_afterNames h
  case secondTuple nParam => exact he.2 ▸ trivial
  case blockParen body => exact he.2 ▸ trivial

/-- Wherever the reading of a formula gets, its state follows the tokens taken so far. -/
theorem exists_follows {ts us : List Token} {q : State}
    (h : machine.Reaches ⟨.empty, .beginning wanted⟩ ts q us) :
    ∃ used, ts = used ++ us ∧ q.Follows wanted used := by
  induction h with
  | refl => exact ⟨[], rfl, rfl, rfl, rfl⟩
  | @take q₁ q₂ t us _ hn ht ih =>
    obtain ⟨used, rfl, hq⟩ := ih
    have hstep := (obeys_onToken hq t).follows hn
    rw [if_pos ht] at hstep
    exact ⟨used ++ [t], by simp, hstep⟩
  | @leave q₁ q₂ t us _ hn ht ih =>
    obtain ⟨used, rfl, hq⟩ := ih
    have hstep := (obeys_onToken hq t).follows hn
    rw [if_neg ht] at hstep
    exact ⟨used, rfl, hstep⟩
  | finish _ he ih =>
    obtain ⟨used, hused, hq⟩ := ih
    exact ⟨used, hused, follows_onEnd hq he⟩

theorem kind_of_onEnd {q : State} {problem : Problem} (h : onEnd q = .refuse problem) :
    problem.kind ≠ .parameterMismatch := by
  obtain ⟨names, point⟩ := q
  cases point <;> simp only [onEnd, EndMove.refuse.injEq, reduceCtorEq] at h
  all_goals simp [← h, Problem.kind]

theorem refusesTuple_of_error {ts : List Token} {scanner : Scanner} {e : ReadError}
    (h : (machine.outcome ⟨.empty, .beginning wanted⟩ ts).result scanner = .error e)
    (he : e.IsMismatch) : RefusesTuple wanted ts e := by
  obtain ⟨cause, rfl⟩ | ⟨q, problem, place, hq, rfl⟩ | ⟨q, t, us, hq, hn⟩ :=
    Machine.exists_of_result_error h
  · exact he.elim
  · exact absurd he (kind_of_onEnd hq)
  · obtain ⟨used, rfl, hfollows⟩ := exists_follows hq
    have hblames := (obeys_onToken hfollows t).blames hn
    simpa using hblames he us

end Formula

namespace Matrix

variable {t : Token} {problem : Problem}

theorem kind_of_count? {role : CountRole} (h : count? role t = .error problem) :
    problem.kind ≠ .parameterMismatch := by
  unfold count? at h
  repeat' split at h
  all_goals simp only [Except.error.injEq, reduceCtorEq] at h
  all_goals simp [← h, Problem.kind]

/-- Whether a step is not refused for the parameters. -/
def Accepts (next : Next State MapUnion) : Prop := next.Leads (fun _ => True) (¬·.IsMismatch)

theorem accepts_afterRow (nParam : Nat) (job : Job) (progress : Progress) :
    Accepts (afterRow nParam job progress) := by
  unfold afterRow afterMatrix
  dsimp only
  repeat' split
  all_goals simp [Accepts, Next.Leads, Problem.kind]

theorem accepts_onColumnCount (nParam : Nat) (job : Job) (rows t : Token) :
    Accepts (onColumnCount nParam job rows t).next := by
  unfold onColumnCount
  repeat' split
  · simp [Accepts, Move.refuse, Next.Leads, Problem.kind]
  · exact kind_of_count? ‹_›
  · exact kind_of_count? ‹_›
  · simp [Accepts, Move.refuse, Next.Leads, Problem.kind]
  · exact accepts_afterRow _ _ _

theorem accepts_onToken (q : State) (t : Token) : Accepts (onToken q t).next := by
  obtain ⟨nParam, point⟩ := q
  cases point with
  | firstInteger => trivial
  | rowCount job => trivial
  | columnCount job rows => exact accepts_onColumnCount _ _ _ _
  | secondInteger first =>
    simp only [onToken, onSecondInteger]
    repeat' split
    · exact kind_of_count? ‹_›
    · simp [Accepts, Next.Leads, Problem.kind]
    · trivial
    · exact accepts_onColumnCount _ _ _ _
  | rowType job progress =>
    simp only [onToken, onRowType, refuseEntry]
    repeat' split
    all_goals simp [Accepts, Move.refuse, Move.take, Next.Leads, Problem.kind]
  | entry job progress kind entries left =>
    simp only [onToken, onEntry, refuseEntry]
    repeat' split
    · exact id
    · exact accepts_afterRow _ _ _
    · trivial
    · simp [Accepts, Next.Leads, Problem.kind]

theorem not_isMismatch_of_error {nParam : Nat} {ts : List Token} {scanner : Scanner} {e : ReadError}
    (h : (machine.outcome ⟨nParam, .firstInteger⟩ ts).result scanner = .error e) :
    ¬e.IsMismatch := by
  obtain ⟨cause, rfl⟩ | ⟨q, problem, place, hq, rfl⟩ | ⟨q, t, us, -, hn⟩ :=
    Machine.exists_of_result_error h
  · exact id
  · obtain ⟨nParam, point⟩ := q
    cases point <;> simp only [machine, onEnd, EndMove.refuse.injEq] at hq
    all_goals simp [← hq, Problem.kind]
  · have hstep : Accepts (machine.onToken q t).next := accepts_onToken q t
    rwa [hn] at hstep

end Matrix

namespace Reading
open Formula

variable {s : TokenStream} {config : ReadConfig} {wanted : Option Nat} {e : ReadError}

theorem error_of_map {α β : Type} {result : Except ReadError α} {f : α → β}
    (h : result.map f = .error e) : result = .error e := by
  cases result with
  | ok value => simp [Except.map] at h
  | error e' => simpa [Except.map] using h

theorem refusesTuple_of_readMap (h : (readMap config wanted s).result = .error e)
    (he : e.IsMismatch) : RefusesTuple wanted s.tokens e := by
  rw [(readMap_eq_drafts config wanted s).1] at h
  have hdrafts := error_of_map h
  cases hb : s.beginsWithInteger with
  | true =>
    obtain ⟨s', -, hread⟩ := drafts_of_matrices wanted hb
    rw [hread, Matrix.read, Machine.run_result] at hdrafts
    exact absurd he (Matrix.not_isMismatch_of_error hdrafts)
  | false =>
    rw [drafts_result_of_formula hb] at hdrafts
    exact refusesTuple_of_error (error_of_map hdrafts) he

theorem refusesTuple_of_readBasicMap (h : (readBasicMap config wanted s).result = .error e)
    (he : e.IsMismatch) : RefusesTuple wanted s.tokens e := by
  obtain h | ⟨u, -, h⟩ := error_of_bind h
  · exact refusesTuple_of_readMap h he
  · unfold onlyPart at h
    split at h
    · simp [ok] at h
    · simp [ok] at h
    · obtain rfl := Except.error.inj h
      exact absurd he (by simp [TokenStream.refusal, Problem.kind])

theorem refusesTuple_of_readBasicSet (h : (readBasicSet config wanted s).result = .error e)
    (he : e.IsMismatch) : RefusesTuple wanted s.tokens e := by
  obtain h | ⟨m, -, h⟩ := error_of_bind h
  · exact refusesTuple_of_readBasicMap h he
  · split at h
    · simp [ok] at h
    · obtain rfl := Except.error.inj h
      exact absurd he (by simp [TokenStream.refusal, Problem.kind])

theorem refusesTuple_of_readSet (h : (readSet config wanted s).result = .error e)
    (he : e.IsMismatch) : RefusesTuple wanted s.tokens e := by
  obtain h | ⟨u, -, h⟩ := error_of_bind h
  · exact refusesTuple_of_readMap h he
  · split at h
    · simp [ok] at h
    · obtain rfl := Except.error.inj h
      exact absurd he (by simp [TokenStream.refusal, Problem.kind])

theorem not_isMismatch_of_finish (h : (finish config s).result = .error e) : ¬e.IsMismatch := by
  unfold finish at h
  split at h
  · change s.expectEnd.1 = .error e at h
    unfold TokenStream.expectEnd at h
    split at h
    · obtain rfl := Except.error.inj h
      exact id
    · simp at h
    · obtain rfl := Except.error.inj h
      simp [TokenStream.refusal, Problem.kind]
  · simp [ok] at h

end Reading

def Call.wanted : Call → Option Nat
  | .map wanted => wanted
  | .basicMap wanted => wanted
  | .set wanted => wanted
  | .basicSet wanted => wanted
  | .finish => none

/-- A call that is refused for the parameters is refused for a tuple of the tokens to come. -/
theorem Call.refusesTuple_of_read {config : ReadConfig} {call : Call} {s : TokenStream}
    {e : ReadError} (h : (call.read config s).result = .error e) (he : e.IsMismatch) :
    Formula.RefusesTuple call.wanted s.tokens e := by
  cases call with
  | map wanted =>
    obtain h | ⟨u, -, h⟩ := Reading.error_of_bind h
    · exact Reading.refusesTuple_of_readMap h he
    · simp [Reading.ok] at h
  | basicMap wanted =>
    obtain h | ⟨m, -, h⟩ := Reading.error_of_bind h
    · exact Reading.refusesTuple_of_readBasicMap h he
    · simp [Reading.ok] at h
  | set wanted =>
    obtain h | ⟨u, -, h⟩ := Reading.error_of_bind h
    · exact Reading.refusesTuple_of_readSet h he
    · simp [Reading.ok] at h
  | basicSet wanted =>
    obtain h | ⟨m, -, h⟩ := Reading.error_of_bind h
    · exact Reading.refusesTuple_of_readBasicSet h he
    · simp [Reading.ok] at h
  | finish =>
    obtain h | ⟨u, -, h⟩ := Reading.error_of_bind h
    · exact absurd he (Reading.not_isMismatch_of_finish h)
    · simp [Reading.ok] at h

end ConstraintText

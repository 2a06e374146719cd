import ConstraintText.Proofs.Places
import ConstraintText.Proofs.Sessions

/-!
# Errors point into their text

Whatever a scanner yields stands at places of its text, and the excerpt of a lexeme has its carets
below the lexeme. The states of the readers keep spans of tokens only, so the errors of the readers
point into the text as well, and what an error has found is the piece of the text in its span. The
streams that readers leave are again streams of the text: this holds of one reading after another.
-/
namespace ConstraintText

/-- A span between places of a source whose piece is a lexeme, marked so in its excerpt. -/
structure Span.Shows (span : Span) (source lexeme : String) : Prop where
  placed : span.IsPlaced source
  cut : span.lexeme? source = some lexeme
  excerpt : ∃ text, Excerpt.excerpt? source span = some text ∧ Excerpt.Marks text lexeme.toList

def Token.ShownIn (t : Token) (source : String) : Prop := t.span.Shows source t.lexeme

/-- An error that shows the character it is about. -/
def LexError.ShownIn (e : LexError) (source : String) : Prop :=
  ∃ c, e.problem = .unexpectedChar c ∧ e.span.Shows source (String.ofList [c])

theorem Span.Cuts.shows {source : String} {span : Span} {front piece back : List Char}
    (h : span.Cuts source front piece back) (hne : piece ≠ [])
    (hplain : ∀ c ∈ piece, c ≠ '\n' ∧ c ≠ '\r') : span.Shows source (String.ofList piece) := by
  refine ⟨h.isPlaced, h.lexeme?, ?_⟩
  rw [String.toList_ofList]
  exact Excerpt.marks_of_cuts h hne hplain

/-- A character that neither ends a line nor is trimmed off a line. -/
def IsPlain (c : Char) : Prop := c ≠ '\n' ∧ c ≠ '\r'

theorem isPlain_of {p : Char → Bool} (hline : p '\n' = false) (hreturn : p '\r' = false) {c : Char}
    (h : p c = true) : IsPlain c := by
  constructor
  · rintro rfl
    simp [hline] at h
  · rintro rfl
    simp [hreturn] at h

namespace Scanner

theorem isBlank_of_afterGap {inComment : Bool} {cs ds : List Char} {c : Char}
    (h : afterGap inComment cs = c :: ds) : Character.isBlank c = false := by
  fun_induction afterGap inComment cs with
  | case1 inComment => simp at h
  | case2 inComment cs ih => exact ih h
  | case3 inComment d cs hd hin ih => exact ih h
  | case4 inComment d cs hd hin hblank ih => exact ih h
  | case5 inComment d cs hd hin hblank =>
    obtain ⟨rfl, rfl⟩ := List.cons.inj h
    simpa using hblank

end Scanner

namespace Cut

theorem isPlain_of_tail {c : Char} {cs : List Char} {cut : Cut} (h : ofChars? c cs = some cut) :
    ∀ d ∈ cut.tail, IsPlain d := by
  have hnumber : ∀ d ∈ (number cs).tail, IsPlain d := fun d hd =>
    isPlain_of (by decide) (by decide) (List.mem_takeWhile_imp hd)
  have hword : ∀ d ∈ (word c cs).tail, IsPlain d := fun d hd =>
    isPlain_of (by decide) (by decide) (List.mem_takeWhile_imp hd)
  have hpair : ∀ {e : Char} {short long : TokenKind}, IsPlain e →
      ∀ d ∈ (pair e short long cs).tail, IsPlain d := by
    intro e short long he d hd
    unfold pair at hd
    split at hd
    · rwa [List.mem_singleton.mp hd]
    · simp at hd
  have hdash : ∀ d ∈ (dash cs).tail, IsPlain d := by
    unfold dash
    split
    · exact hnumber
    · exact hpair (by simp [IsPlain])
  unfold ofChars? at h
  repeat' split at h
  all_goals try obtain rfl := Option.some.inj h
  · simp
  · exact hdash
  · exact hpair (by simp [IsPlain])
  · exact hpair (by simp [IsPlain])
  · exact hnumber
  · exact hword
  · simp at h

end Cut

namespace Scanner

/-- What an item of a source shows: the end token a place, a token its lexeme, an error its
character. -/
def PointsInto (source : String) : Except LexError Token → Prop
  | .ok t => t.span.IsPlaced source ∧ (Excerpt.excerpt? source t.span).isSome = true ∧
      (t.isFinish = false → t.ShownIn source)
  | .error e => e.ShownIn source

variable {source : String} {s : Scanner}

theorem IsIn.isPlaceOf (h : s.IsIn source) : s.place.IsPlaceOf source := by
  obtain ⟨front, hsource, hplace⟩ := h
  exact hplace ▸ Location.isPlaceOf_afterAll hsource

theorem IsIn.pointsInto_next (h : s.IsIn source) : PointsInto source s.next.1 := by
  obtain ⟨front, hcuts⟩ := h.cuts_next
  rcases s.next_cases with ⟨hg, hn⟩ | ⟨c, cs, hg, hc, hn⟩ | ⟨c, cs, cut, value, hg, hc, hv, hn⟩
  · rw [hn] at hcuts ⊢
    exact ⟨hcuts.isPlaced, Excerpt.isSome_excerpt? hcuts.isPlaced, by simp [Token.isFinish]⟩
  · rw [hn] at hcuts ⊢
    obtain ⟨d, hd, hcuts⟩ := hcuts
    obtain rfl : c = d := by simpa using hd
    refine ⟨c, rfl, hcuts.shows (by simp) fun e he => ?_⟩
    rw [List.mem_singleton.mp he]
    exact isPlain_of (p := fun c => !Character.isBlank c) (by decide) (by decide)
      (by simpa using isBlank_of_afterGap hg)
  · rw [hn] at hcuts ⊢
    refine ⟨hcuts.isPlaced, Excerpt.isSome_excerpt? hcuts.isPlaced, fun _ => ?_⟩
    simp only [String.toList_ofList] at hcuts
    refine hcuts.shows (by simp) fun d hd => ?_
    rcases List.mem_cons.mp hd with rfl | hd
    · exact isPlain_of (p := fun c => !Character.isBlank c) (by decide) (by decide)
        (by simpa using isBlank_of_afterGap hg)
    · exact Cut.isPlain_of_tail hc d hd

end Scanner

theorem Token.IsScanned.shownIn {source : String} {t : Token} (h : t.IsScanned source) :
    t.ShownIn source := by
  obtain ⟨ht, s, hs, hn⟩ := h
  have hitem := hs.pointsInto_next
  rw [hn] at hitem
  exact hitem.2.2 ht

theorem LexError.IsScanned.shownIn {source : String} {e : LexError} (h : e.IsScanned source) :
    e.ShownIn source := by
  obtain ⟨s, hs, hn⟩ := h
  have hitem := hs.pointsInto_next
  rwa [hn] at hitem

/-- An error whose span stands at places of a source and has an excerpt; it shows what it has found
there, and a character that begins no lexeme. -/
structure ReadError.PointsInto (e : ReadError) (source : String) : Prop where
  placed : ∀ span ∈ e.span?, span.IsPlaced source
  excerpt : ∀ span ∈ e.span?, (Excerpt.excerpt? source span).isSome = true
  found : ∀ span ∈ e.span?, ∀ lexeme ∈ e.found?, span.Shows source lexeme
  lexical : ∀ cause, e = .lexical cause → cause.ShownIn source

namespace ReadError

variable {source : String}

theorem pointsInto_lexical {e : LexError} (h : e.ShownIn source) :
    (lexical e).PointsInto source := by
  obtain ⟨c, hc, hshows⟩ := h
  refine ⟨?_, ?_, by simp [found?], ?_⟩
  · simpa [span?] using hshows.placed
  · simpa [span?] using Excerpt.isSome_excerpt? hshows.placed
  · rintro cause ⟨⟩
    exact ⟨c, hc, hshows⟩

theorem pointsInto_refused {r : Refusal} (h : r.span.IsPlaced source)
    (hfound : ∀ lexeme ∈ r.found, r.span.Shows source lexeme) :
    (refused r).PointsInto source := by
  refine ⟨?_, ?_, ?_, by simp⟩
  · simpa [span?] using h
  · simpa [span?] using Excerpt.isSome_excerpt? h
  · simpa [span?, found?] using hfound

theorem pointsInto_atToken {t : Token} (h : t.ShownIn source) (problem : Problem) :
    (refused (.atToken problem t)).PointsInto source :=
  pointsInto_refused h.placed (by simpa [Refusal.atToken, Token.ShownIn] using h)

theorem pointsInto_atPlace {place : Location} (h : place.IsPlaceOf source) (problem : Problem) :
    (refused (.atPlace problem place)).PointsInto source :=
  pointsInto_refused (Span.isPlaced_point h) (by simp [Refusal.atPlace])

theorem pointsInto_fault (f : Fault) : (fault f).PointsInto source :=
  ⟨by simp [span?], by simp [span?], by simp [span?], by simp⟩

end ReadError

/-- Whether a step goes on to states as they should be and fails only with errors that point into a
source. -/
def Next.PointsInto {σ α : Type} (source : String) (I : σ → Prop) : Next σ α → Prop
  | .go q => I q
  | .fail e => e.PointsInto source
  | .done _ => True

/-- Whether the steps of a machine with tokens of a source keep an invariant and fail only with
errors that point into the source. -/
structure Machine.PointsInto {σ α : Type} (m : Machine σ α) (source : String) (I : σ → Prop) :
    Prop where
  token {q : σ} {t : Token} : I q → t.ShownIn source → (m.onToken q t).next.PointsInto source I
  finish {q q' : σ} {events : List ReadEvent} : I q → m.onEnd q = .go events q' → I q'

/-- Runs on streams of a source fail only with errors that point into it. -/
theorem Machine.PointsInto.run {σ α : Type} {source : String} {m : Machine σ α} {I : σ → Prop}
    (hm : m.PointsInto source I) {s : TokenStream} {q : σ} (hs : s.IsIn source) (hq : I q)
    {e : ReadError} (he : (m.run s q).result = .error e) : e.PointsInto source := by
  fun_induction m.run s q with
  | case1 s q cause s' hn =>
    obtain rfl := Except.error.inj he
    exact ReadError.pointsInto_lexical (hs.isScanned_of_next_error (by rw [hn])).shownIn
  | case2 s q s' hn problem hend =>
    obtain rfl := Except.error.inj he
    exact ReadError.pointsInto_atPlace (hs.next_eq hn).scanner.isPlaceOf problem
  | case3 s q s' hn events q' hend ih => exact ih (hs.next_eq hn) (hm.finish hq hend) he
  | case4 s q t s' hn f hd =>
    obtain rfl := Except.error.inj he
    exact ReadError.pointsInto_fault f
  | case5 s q t s' hn s'' events hd e' hnext =>
    obtain rfl : e' = e := Except.error.inj he
    have hstep := hm.token hq (hs.isScanned_of_next (by rw [hn])).shownIn
    rwa [hnext] at hstep
  | case6 s q t s' hn s'' events hd value hnext =>
    exact absurd he (by simp [Reading.after, Reading.ok])
  | case7 s q t s' hn s'' events hd q' hnext ih =>
    have hstep := hm.token hq (hs.isScanned_of_next (by rw [hn])).shownIn
    rw [hnext] at hstep
    exact ih (hs.moves (.dispose_eq hn hd)) hstep he

namespace Formula

def ListRole.opening? : ListRole → Option Span
  | .tuple _ opening _ => some opening
  | .block _ _ _ => none

def Point.opening? : Point → Option Span
  | .name role => role.opening?
  | .comma role => role.opening?
  | .closeBracket _ opening _ => some opening
  | _ => none

def State.IsPlaced (source : String) (q : State) : Prop :=
  ∀ span ∈ q.point.opening?, span.IsPlaced source

variable {source : String} {names : Names} {body : Body} {sum : Sum} {t : Token} {value : Int}

theorem isPlaced_afterNames {role : ListRole} (h : ∀ span ∈ role.opening?, span.IsPlaced source) :
    State.IsPlaced source ⟨names, (afterNames names role).2⟩ := by
  cases role with
  | tuple role opening before => exact h
  | block paren before body => exact fun span hspan => by simp [afterNames, Point.opening?] at hspan

theorem opening?_afterConjunction (body : Body) : (afterConjunction body).opening? = none := by
  unfold afterConjunction
  split <;> rfl

theorem pointsInto_afterTuple {tuple : Span} (h : tuple.IsPlaced source) (role : TupleRole) :
    (afterTuple names tuple role).PointsInto source (State.IsPlaced source) := by
  unfold afterTuple
  repeat' split
  all_goals first
    | exact ReadError.pointsInto_refused h (by simp)
    | exact fun span hspan => absurd hspan (by simp [Point.opening?])

theorem pointsInto_addNamed (ht : t.ShownIn source) :
    (addNamed names body sum t value).next.PointsInto source (State.IsPlaced source) := by
  unfold addNamed addTerm
  repeat' split
  · exact ReadError.pointsInto_atToken ht _
  · exact ReadError.pointsInto_fault _
  · simp [Move.take, Next.PointsInto, State.IsPlaced, Point.opening?]

theorem pointsInto_onTerm (ht : t.ShownIn source) :
    (onTerm names body sum t).next.PointsInto source (State.IsPlaced source) := by
  unfold onTerm
  repeat' split
  all_goals first
    | exact pointsInto_addNamed ht
    | exact ReadError.pointsInto_atToken ht _
    | exact ReadError.pointsInto_fault _
    | exact fun span hspan => absurd hspan (by simp [Point.opening?])

theorem pointsInto_expect {kind : TokenKind} {q : State} (ht : t.ShownIn source)
    (hq : q.IsPlaced source) :
    (expect kind t q).next.PointsInto source (State.IsPlaced source) := by
  unfold expect
  split
  · exact hq
  · exact ReadError.pointsInto_atToken ht _

theorem isPlaced_of_opening? {point : Point} (h : point.opening? = none) :
    State.IsPlaced source ⟨names, point⟩ :=
  fun span hspan => by simp [h] at hspan

theorem pointsInto_takeOrLeave {kind : TokenKind} {q₁ q₂ : State} (h₁ : q₁.IsPlaced source)
    (h₂ : q₂.IsPlaced source) :
    (if t.kind = kind then Move.take q₁ else .leave q₂ : FormulaMove).next.PointsInto source
      (State.IsPlaced source) := by
  split
  · exact h₁
  · exact h₂

theorem pointsInto_onName {role : ListRole} (hrole : ∀ span ∈ role.opening?, span.IsPlaced source)
    (ht : t.ShownIn source) :
    (onToken ⟨names, .name role⟩ t).next.PointsInto source (State.IsPlaced source) := by
  simp only [onToken]
  repeat' split
  · exact ReadError.pointsInto_atToken ht _
  · exact hrole
  · exact isPlaced_afterNames hrole

theorem pointsInto_onComma {role : ListRole} (hrole : ∀ span ∈ role.opening?, span.IsPlaced source) :
    (onToken ⟨names, .comma role⟩ t).next.PointsInto source (State.IsPlaced source) := by
  simp only [onToken]
  split
  · exact hrole
  · exact isPlaced_afterNames hrole

theorem pointsInto_onCoefficientName (ht : t.ShownIn source) :
    (onToken ⟨names, .coefficientName body sum value⟩ t).next.PointsInto source
      (State.IsPlaced source) := by
  simp only [onToken, addConstant]
  repeat' split
  · exact pointsInto_addNamed ht
  · exact ReadError.pointsInto_fault _
  · exact isPlaced_of_opening? rfl

theorem pointsInto_onCondition {system : BasicMap} (ht : t.ShownIn source) :
    (onToken ⟨names, .condition system⟩ t).next.PointsInto source (State.IsPlaced source) := by
  simp only [onToken]
  repeat' split
  · exact isPlaced_of_opening? rfl
  · trivial
  · exact ReadError.pointsInto_atToken ht _

theorem pointsInto_onToken {q : State} (hq : q.IsPlaced source) (ht : t.ShownIn source) :
    (onToken q t).next.PointsInto source (State.IsPlaced source) := by
  obtain ⟨names, point⟩ := q
  cases point with
  | terms body sum => exact pointsInto_onTerm ht
  | coefficientName body sum value => exact pointsInto_onCoefficientName ht
  | name role => exact pointsInto_onName hq ht
  | comma role => exact pointsInto_onComma hq
  | condition system => exact pointsInto_onCondition ht
  | beginning wanted =>
    simp only [onToken]
    split
    · exact isPlaced_of_opening? rfl
    · exact pointsInto_expect ht (isPlaced_of_opening? rfl)
  | openBracket role =>
    exact pointsInto_expect ht fun span hspan => Option.some.inj hspan ▸ ht.placed
  | closeBracket role opening before =>
    simp only [onToken]
    split
    · exact pointsInto_afterTuple ((hq opening rfl).merge ht.placed) role
    · exact ReadError.pointsInto_atToken ht _
  | blockColon paren body => exact pointsInto_expect ht (isPlaced_of_opening? rfl)
  | paramArrow => exact pointsInto_expect ht (isPlaced_of_opening? rfl)
  | openBrace => exact pointsInto_expect ht (isPlaced_of_opening? rfl)
  | closeParen body => exact pointsInto_expect ht (isPlaced_of_opening? rfl)
  | secondTuple nParam =>
    exact pointsInto_takeOrLeave (isPlaced_of_opening? rfl) (isPlaced_of_opening? rfl)
  | constraint body =>
    exact pointsInto_takeOrLeave (isPlaced_of_opening? rfl) (isPlaced_of_opening? rfl)
  | blockParen body =>
    exact pointsInto_takeOrLeave (isPlaced_of_opening? rfl) (isPlaced_of_opening? rfl)
  | conjunction body =>
    exact pointsInto_takeOrLeave (isPlaced_of_opening? rfl)
      (isPlaced_of_opening? (opening?_afterConjunction body))
  | closeBrace system =>
    simp only [onToken]
    split
    · trivial
    · exact ReadError.pointsInto_atToken ht _

theorem isPlaced_onEnd {q q' : State} {events : List ReadEvent} (hq : q.IsPlaced source)
    (h : onEnd q = .go events q') : q'.IsPlaced source := by
  obtain ⟨names, point⟩ := q
  cases point <;> simp only [onEnd, EndMove.go.injEq, reduceCtorEq] at h
  case name role =>
    exact h.2 ▸ isPlaced_afterNames hq
  case comma role =>
    exact h.2 ▸ isPlaced_afterNames hq
  case secondTuple nParam => exact h.2 ▸ isPlaced_of_opening? rfl
  case blockParen body => exact h.2 ▸ isPlaced_of_opening? rfl

theorem pointsInto_machine (source : String) :
    machine.PointsInto source (State.IsPlaced source) :=
  ⟨pointsInto_onToken, isPlaced_onEnd⟩

end Formula

namespace Matrix

/-- Whether the tokens and the span that a state keeps are those of a source. -/
def State.IsShown (source : String) (q : State) : Prop :=
  match q.point with
  | .firstInteger => True
  | .secondInteger first => first.ShownIn source
  | .rowCount _ => True
  | .columnCount _ rows => rows.ShownIn source
  | .rowType _ progress => progress.header.IsPlaced source
  | .entry _ progress _ _ _ => progress.header.IsPlaced source

variable {source : String} {nParam : Nat} {job : Job} {progress : Progress} {t : Token}

theorem pointsInto_afterMatrix (h : progress.header.IsPlaced source) :
    (afterMatrix nParam job progress).PointsInto source (State.IsShown source) := by
  unfold afterMatrix
  dsimp only
  repeat' split
  · exact ReadError.pointsInto_fault _
  · trivial
  · trivial
  · exact ReadError.pointsInto_refused h (by simp)

theorem pointsInto_afterRow (h : progress.header.IsPlaced source) :
    (afterRow nParam job progress).PointsInto source (State.IsShown source) := by
  unfold afterRow
  split
  · exact pointsInto_afterMatrix h
  · exact h

theorem pointsInto_onColumnCount {rows : Token} (hrows : rows.ShownIn source)
    (ht : t.ShownIn source) :
    (onColumnCount nParam job rows t).next.PointsInto source (State.IsShown source) := by
  unfold onColumnCount
  repeat' split
  · exact ReadError.pointsInto_atToken ht _
  · exact ReadError.pointsInto_atToken hrows _
  · exact ReadError.pointsInto_atToken ht _
  · exact ReadError.pointsInto_atToken ht _
  · exact pointsInto_afterRow hrows.placed

theorem pointsInto_onToken {q : State} (hq : q.IsShown source) (ht : t.ShownIn source) :
    (onToken q t).next.PointsInto source (State.IsShown source) := by
  obtain ⟨nParam, point⟩ := q
  cases point with
  | firstInteger => exact ht
  | rowCount job => exact ht
  | columnCount job rows => exact pointsInto_onColumnCount hq ht
  | secondInteger first =>
    simp only [onToken, onSecondInteger]
    repeat' split
    · exact ReadError.pointsInto_atToken hq _
    · exact ReadError.pointsInto_atToken hq _
    · trivial
    · exact pointsInto_onColumnCount hq ht
  | rowType job progress =>
    simp only [onToken, onRowType, refuseEntry]
    repeat' split
    · exact ReadError.pointsInto_atToken ht _
    · exact hq
    · exact ReadError.pointsInto_atToken ht _
    · exact ReadError.pointsInto_atToken ht _
  | entry job progress kind entries left =>
    simp only [onToken, onEntry, refuseEntry]
    repeat' split
    · exact ReadError.pointsInto_fault _
    · exact pointsInto_afterRow hq
    · exact hq
    · exact ReadError.pointsInto_atToken ht _

theorem pointsInto_machine (source : String) :
    machine.PointsInto source (State.IsShown source) where
  token := pointsInto_onToken
  finish {q q' events} _ h := by
    obtain ⟨nParam, point⟩ := q
    cases point <;> simp [machine, onEnd] at h

end Matrix

namespace Reading

variable {α β : Type} {source : String} {s : TokenStream} {e : ReadError}

theorem error_of_bind {r : Reading α} {f : α → TokenStream → Reading β}
    (h : (r.bind f).result = .error e) :
    r.result = .error e ∨
      ∃ value, r.result = .ok value ∧ (f value r.stream).result = .error e := by
  unfold bind at h
  split at h
  · exact .inr ⟨_, ‹_›, h⟩
  · rename_i e' hr
    obtain rfl : e' = e := Except.error.inj h
    exact .inl hr

theorem pointsInto_readMap {config : ReadConfig} {wanted : Option Nat} (hs : s.IsIn source)
    (h : (readMap config wanted s).result = .error e) : e.PointsInto source := by
  have hpeek := hs.moves (.peek s)
  unfold readMap at h
  split at h <;> rename_i hp <;> rw [hp] at hpeek
  · obtain rfl := Except.error.inj h
    exact ReadError.pointsInto_lexical (hs.isScanned_of_peek_error (by rw [hp])).shownIn
  · obtain rfl := Except.error.inj h
    exact ReadError.pointsInto_atPlace hpeek.scanner.isPlaceOf _
  · split at h
    · have hfirst : Matrix.State.IsShown source ⟨wanted.getD 0, .firstInteger⟩ := trivial
      obtain h | ⟨u, -, h⟩ := error_of_bind h
      · exact (Matrix.pointsInto_machine source).run hpeek hfirst h
      · simp [ok] at h
    · obtain h | ⟨m, -, h⟩ := error_of_bind h
      · exact (Formula.pointsInto_machine source).run hpeek (Formula.isPlaced_of_opening? rfl) h
      · simp [ok, after] at h

theorem pointsInto_readBasicMap {config : ReadConfig} {wanted : Option Nat} (hs : s.IsIn source)
    (h : (readBasicMap config wanted s).result = .error e) : e.PointsInto source := by
  have hstream := hs.moves (moves_readMap config wanted s)
  obtain h | ⟨u, -, h⟩ := error_of_bind h
  · exact pointsInto_readMap hs h
  · unfold onlyPart at h
    split at h
    · simp [ok] at h
    · simp [ok] at h
    · obtain rfl := Except.error.inj h
      exact ReadError.pointsInto_atPlace hstream.scanner.isPlaceOf _

theorem pointsInto_readBasicSet {config : ReadConfig} {wanted : Option Nat} (hs : s.IsIn source)
    (h : (readBasicSet config wanted s).result = .error e) : e.PointsInto source := by
  have hstream := hs.moves (moves_readBasicMap config wanted s)
  obtain h | ⟨m, -, h⟩ := error_of_bind h
  · exact pointsInto_readBasicMap hs h
  · split at h
    · simp [ok] at h
    · obtain rfl := Except.error.inj h
      exact ReadError.pointsInto_atPlace hstream.scanner.isPlaceOf _

theorem pointsInto_readSet {config : ReadConfig} {wanted : Option Nat} (hs : s.IsIn source)
    (h : (readSet config wanted s).result = .error e) : e.PointsInto source := by
  have hstream := hs.moves (moves_readMap config wanted s)
  obtain h | ⟨u, -, h⟩ := error_of_bind h
  · exact pointsInto_readMap hs h
  · split at h
    · simp [ok] at h
    · obtain rfl := Except.error.inj h
      exact ReadError.pointsInto_atPlace hstream.scanner.isPlaceOf _

theorem pointsInto_expectEnd (hs : s.IsIn source) (h : s.expectEnd.1 = .error e) :
    e.PointsInto source := by
  unfold TokenStream.expectEnd at h
  split at h <;> rename_i hn
  · obtain rfl := Except.error.inj h
    exact ReadError.pointsInto_lexical (hs.isScanned_of_next_error (by rw [hn])).shownIn
  · simp at h
  · obtain rfl := Except.error.inj h
    exact ReadError.pointsInto_atToken (hs.isScanned_of_next (by rw [hn])).shownIn _

theorem pointsInto_finish {config : ReadConfig} (hs : s.IsIn source)
    (h : (finish config s).result = .error e) : e.PointsInto source := by
  unfold finish at h
  split at h
  · exact pointsInto_expectEnd hs h
  · simp [ok] at h

end Reading

theorem Call.pointsInto_read {source : String} {s : TokenStream} {e : ReadError}
    {config : ReadConfig} {call : Call} (hs : s.IsIn source)
    (h : (call.read config s).result = .error e) : e.PointsInto source := by
  cases call with
  | map wanted =>
    obtain h | ⟨u, -, h⟩ := Reading.error_of_bind h
    · exact Reading.pointsInto_readMap hs h
    · simp [Reading.ok] at h
  | basicMap wanted =>
    obtain h | ⟨m, -, h⟩ := Reading.error_of_bind h
    · exact Reading.pointsInto_readBasicMap hs h
    · simp [Reading.ok] at h
  | set wanted =>
    obtain h | ⟨u, -, h⟩ := Reading.error_of_bind h
    · exact Reading.pointsInto_readSet hs h
    · simp [Reading.ok] at h
  | basicSet wanted =>
    obtain h | ⟨m, -, h⟩ := Reading.error_of_bind h
    · exact Reading.pointsInto_readBasicSet hs h
    · simp [Reading.ok] at h
  | finish =>
    obtain h | ⟨u, -, h⟩ := Reading.error_of_bind h
    · exact Reading.pointsInto_finish hs h
    · simp [Reading.ok] at h

/-- Scanning yields only items that point into the source, and whatever calls have been made on a
source before, the next one fails only with an error that points into it. -/
theorem pointsInto_source (source : String) :
    (∀ n, Scanner.PointsInto source ((Scanner.ofString source).skip n).next.1) ∧
    ∀ s, TokenStream.IsReached source s → ∀ (config : ReadConfig) (call : Call) (e : ReadError),
      (call.read config s).result = .error e → e.PointsInto source := by
  refine ⟨fun n => ?_, fun s hs config call e he => ?_⟩
  · have hin : ((Scanner.ofString source).skip n).IsIn source := Scanner.isIn_iterate source n
    exact hin.pointsInto_next
  · exact call.pointsInto_read hs.isIn he

/-- An unknown name in the second object of a text, behind a comment. -/
theorem pointsInto_source_second_object :
    let source := "\x7b [i] \x7d\r\n\x7b [i] : # ü\r\n i >= é \x7d"
    let s := (Call.read .standard (.map none) (.ofString source)).stream
    let e : ReadError := .refused ⟨.unknownName, ⟨⟨3, 7, 29⟩, ⟨3, 8, 31⟩⟩, some "é"⟩
    s.IsReached source ∧ (Call.read .standard (.map none) s).result = .error e ∧
      e.PointsInto source := by
  intro source s e
  have hs : s.IsReached source := .call .standard (.map none) .start
  let left : TokenStream := ⟨⟨"\r\n\x7b [i] : # ü\r\n i >= é \x7d".toList, ⟨1, 8, 7⟩, false⟩, none⟩
  have hleft : s = left := by
    unfold s source left
    cbv
  have he : (Call.read .standard (.map none) left).result = .error e := by
    unfold left e
    cbv
  rw [← hleft] at he
  exact ⟨hs, he, (pointsInto_source source).2 s hs .standard (.map none) e he⟩

end ConstraintText

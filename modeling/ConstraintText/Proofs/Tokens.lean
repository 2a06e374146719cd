import Mathlib
import ConstraintText.Reading.Machine

/-!
# The tokens of a text

A reading sees the tokens in front of the first character that begins none. Behind them stands
that error or the end of the text. Taking a token and holding it back change the list of tokens to
come as they change a list with a cursor, so what a machine does is a matter of that list.
-/
namespace ConstraintText

namespace Cut

/-- The characters that are lexemes whatever follows, each with its kind. -/
def symbols : List (Char × TokenKind) :=
  [('(', .leftParen), (')', .rightParen), ('[', .leftBracket), (']', .rightBracket),
    ('{', .leftBrace), ('}', .rightBrace), (',', .comma), (':', .colon), (';', .semicolon),
    ('+', .plus), ('=', .equal)]

theorem mem_cons_of_ite {c d : Char} {kind first : TokenKind} {other : Option TokenKind}
    {table : List (Char × TokenKind)} (h : (if c = d then some first else other) = some kind)
    (ho : other = some kind → (c, kind) ∈ table) : (c, kind) ∈ (d, first) :: table := by
  split at h
  · subst c
    obtain rfl := Option.some.inj h
    exact List.mem_cons_self
  · exact List.mem_cons_of_mem _ (ho h)

theorem mem_symbols {c : Char} {kind : TokenKind} (h : symbol? c = some kind) :
    (c, kind) ∈ symbols := by
  repeat refine mem_cons_of_ite h fun h => ?_
  exact absurd h (by simp)

theorem kind_symbol? {c : Char} {kind : TokenKind} (h : symbol? c = some kind) :
    kind ≠ .finish := by
  have hkind : ∀ p ∈ symbols, p.2 ≠ .finish := by decide
  exact hkind _ (mem_symbols h)

theorem kind_pair (d : Char) (short long : TokenKind) (cs : List Char) :
    (pair d short long cs).kind = short ∨ (pair d short long cs).kind = long := by
  unfold pair
  split
  · exact .inr rfl
  · exact .inl rfl

theorem kind_word (c : Char) (cs : List Char) :
    (word c cs).kind ∈ [TokenKind.identifier, .andWord, .existsWord] := by
  unfold word TokenKind.keyword?
  dsimp only
  repeat' split
  all_goals decide

def longKinds : List TokenKind :=
  [.integer, .identifier, .andWord, .existsWord, .minus, .arrow, .less, .lessEqual, .greater,
    .greaterEqual]

theorem kind_dash (cs : List Char) : (dash cs).kind ∈ longKinds := by
  unfold dash
  split
  · exact List.mem_cons_self
  · rcases kind_pair '>' .minus .arrow cs with h | h <;> rw [h] <;> decide

theorem kind_of_symbol?_eq_none {c : Char} {cs : List Char} {cut : Cut} (hs : symbol? c = none)
    (h : ofChars? c cs = some cut) : cut.kind ∈ longKinds := by
  simp only [ofChars?, hs] at h
  repeat' split at h
  all_goals simp only [Option.some.injEq, reduceCtorEq] at h
  all_goals subst h
  · exact kind_dash cs
  · rcases kind_pair '=' .less .lessEqual cs with h | h <;> rw [h] <;> decide
  · rcases kind_pair '=' .greater .greaterEqual cs with h | h <;> rw [h] <;> decide
  · exact List.mem_cons_self
  · have hk := kind_word c cs
    simp only [longKinds, List.mem_cons, List.not_mem_nil, or_false] at hk ⊢
    rcases hk with h | h | h <;> simp [h]

theorem kind_ofChars? {c : Char} {cs : List Char} {cut : Cut} (h : ofChars? c cs = some cut) :
    cut.kind ≠ .finish := by
  cases hs : symbol? c with
  | none =>
    have hk := kind_of_symbol?_eq_none hs h
    intro hf
    rw [hf] at hk
    exact absurd hk (by decide)
  | some kind =>
    simp only [ofChars?, hs, Option.some.injEq] at h
    subst h
    exact kind_symbol? hs

end Cut

/-- The tokens in front of the first error or end token of a list of items. -/
def leadingTokens : List (Except LexError Token) → List Token
  | .ok t :: items => if t.isFinish then [] else t :: leadingTokens items
  | _ => []

/-- What stands behind the leading tokens: an error, or the end of the text at a place. -/
def stopOf : List (Except LexError Token) → Except LexError Location
  | [] => .ok .start
  | .error e :: _ => .error e
  | .ok t :: items => if t.isFinish then .ok t.span.start else stopOf items

namespace Scanner

def leading (s : Scanner) : List Token := leadingTokens s.items

def stop (s : Scanner) : Except LexError Location := stopOf s.items

theorem isFinish_next {s s' : Scanner} {t : Token} (h : s.next = (.ok t, s')) :
    t.isFinish = true ↔ afterGap false s.rest = [] := by
  unfold next at h
  dsimp only at h
  split at h
  · rename_i hg
    simp only [Prod.mk.injEq, Except.ok.injEq] at h
    rw [← h.1]
    exact ⟨fun _ => hg, fun _ => rfl⟩
  · rename_i hg
    simp only [hg, reduceCtorEq, iff_false]
    split at h
    · simp at h
    · rename_i cut hcut
      have hk := Cut.kind_ofChars? hcut
      repeat' split at h
      all_goals simp only [Prod.mk.injEq, Except.ok.injEq, reduceCtorEq, false_and] at h
      · simp [← h.1, Token.isFinish]
      · simpa [← h.1, Token.isFinish] using hk

theorem items_of_token {s s' : Scanner} {t : Token} (h : s.next = (.ok t, s'))
    (ht : t.isFinish = false) : s.items = .ok t :: s'.items := by
  have hg : afterGap false s.rest ≠ [] := fun hg => by simp [(isFinish_next h).mpr hg] at ht
  rw [items, if_neg hg, h]

theorem items_eq (s : Scanner) : ∃ items, s.items = s.next.1 :: items := by
  rw [items]
  split
  · exact ⟨[], rfl⟩
  · exact ⟨_, rfl⟩

/-- A text is tokenized if all its items are tokens. -/
theorem items_of_tokens {s : Scanner} {ts : List Token} (h : s.tokens = .ok ts) :
    s.items = ts.map .ok := by
  rw [tokens] at h
  generalize s.items = items at h
  induction items generalizing ts with
  | nil => simpa [pure, Except.pure, eq_comm] using h
  | cons item items ih =>
    cases item with
    | error e => simp [List.mapM_cons, bind, Except.bind] at h
    | ok t =>
      cases hrest : items.mapM id with
      | error e => simp [List.mapM_cons, hrest, bind, Except.bind] at h
      | ok rest =>
        obtain rfl : t :: rest = ts := by
          simpa [List.mapM_cons, hrest, bind, Except.bind, pure, Except.pure] using h
        rw [ih hrest, List.map_cons]

theorem leading_of_token {s s' : Scanner} {t : Token} (h : s.next = (.ok t, s'))
    (ht : t.isFinish = false) : s.leading = t :: s'.leading := by
  simp [leading, items_of_token h ht, leadingTokens, ht]

theorem stop_of_token {s s' : Scanner} {t : Token} (h : s.next = (.ok t, s'))
    (ht : t.isFinish = false) : s.stop = s'.stop := by
  simp [stop, items_of_token h ht, stopOf, ht]

theorem leading_of_finish {s s' : Scanner} {t : Token} (h : s.next = (.ok t, s'))
    (ht : t.isFinish = true) : s.leading = [] := by
  obtain ⟨items, hi⟩ := s.items_eq
  simp [leading, hi, h, leadingTokens, ht]

theorem stop_of_finish {s s' : Scanner} {t : Token} (h : s.next = (.ok t, s'))
    (ht : t.isFinish = true) : s.stop = .ok t.span.start := by
  obtain ⟨items, hi⟩ := s.items_eq
  simp [stop, hi, h, stopOf, ht]

theorem leading_of_error {s s' : Scanner} {e : LexError} (h : s.next = (.error e, s')) :
    s.leading = [] := by
  obtain ⟨items, hi⟩ := s.items_eq
  simp [leading, hi, h, leadingTokens]

theorem stop_of_error {s s' : Scanner} {e : LexError} (h : s.next = (.error e, s')) :
    s.stop = .error e := by
  obtain ⟨items, hi⟩ := s.items_eq
  simp [stop, hi, h, stopOf]

theorem next_of_finish {s s' : Scanner} {t : Token} (h : s.next = (.ok t, s'))
    (ht : t.isFinish = true) :
    s'.place = t.span.start ∧ ∃ t', s'.next = (.ok t', s') ∧ t'.isFinish = true ∧
      t'.span.start = t.span.start := by
  have hg := (isFinish_next h).mp ht
  simp only [next, hg, Prod.mk.injEq, Except.ok.injEq] at h
  obtain ⟨rfl, rfl⟩ := h
  refine ⟨rfl, ⟨.finish, .point _, "", false, none⟩, ?_, rfl, rfl⟩
  simp [next, gap, afterGap, Span.point]

end Scanner

namespace TokenStream

/-- The tokens to come: the one held back and those of the text. -/
def tokens (s : TokenStream) : List Token := s.pending.toList ++ s.scanner.leading

theorem tokens_of_pending_none {s : TokenStream} (h : s.pending = none) :
    s.tokens = s.scanner.leading := by
  simp [tokens, h]

theorem next_of_tokens_cons {s : TokenStream} {t : Token} {ts : List Token}
    (h : s.tokens = t :: ts) :
    ∃ s', s.next = (.ok (some t), s') ∧ s'.pending = none ∧ s'.tokens = ts ∧
      s'.scanner.stop = s.scanner.stop := by
  obtain ⟨scanner, pending⟩ := s
  cases pending with
  | some held =>
    simp only [tokens, Option.toList_some, List.cons_append, List.nil_append,
      List.cons.injEq] at h
    obtain ⟨rfl, rfl⟩ := h
    exact ⟨⟨scanner, none⟩, rfl, rfl, rfl, rfl⟩
  | none =>
    rw [tokens_of_pending_none rfl] at h
    cases hn : scanner.next with
    | mk item scanner' =>
      cases item with
      | error e => simp [Scanner.leading_of_error hn] at h
      | ok t' =>
        cases ht : t'.isFinish with
        | true => simp [Scanner.leading_of_finish hn ht] at h
        | false =>
          rw [Scanner.leading_of_token hn ht, List.cons.injEq] at h
          obtain ⟨rfl, rfl⟩ := h
          refine ⟨⟨scanner', none⟩, ?_, rfl, rfl, (Scanner.stop_of_token hn ht).symm⟩
          simp [next, scan, hn, ht]

theorem next_of_tokens_nil {s : TokenStream} (h : s.tokens = []) :
    (∃ e s', s.next = (.error e, s') ∧ s.scanner.stop = .error e) ∨
      ∃ s', s.next = (.ok none, s') ∧ s'.tokens = [] ∧ s.scanner.stop = .ok s'.place ∧
        s'.scanner.stop = s.scanner.stop := by
  obtain ⟨scanner, pending⟩ := s
  cases pending with
  | some held => simp [tokens] at h
  | none =>
    rw [tokens_of_pending_none rfl] at h
    cases hn : scanner.next with
    | mk item scanner' =>
      cases item with
      | error e =>
        refine .inl ⟨e, ⟨scanner', none⟩, ?_, Scanner.stop_of_error hn⟩
        simp [next, scan, hn]
      | ok t =>
        cases ht : t.isFinish with
        | false => simp [Scanner.leading_of_token hn ht] at h
        | true =>
          obtain ⟨hp, t', hn', ht', hs'⟩ := Scanner.next_of_finish hn ht
          refine .inr ⟨⟨scanner', none⟩, ?_, ?_, ?_, ?_⟩
          · simp [next, scan, hn, ht]
          · rw [tokens_of_pending_none rfl, Scanner.leading_of_finish hn' ht']
          · rw [Scanner.stop_of_finish hn ht, place, hp]
          · rw [Scanner.stop_of_finish hn' ht', hs', Scanner.stop_of_finish hn ht]

theorem peek_of_tokens_cons {s : TokenStream} {t : Token} {ts : List Token}
    (h : s.tokens = t :: ts) :
    ∃ s', s.peek = (.ok (some t), s') ∧ s'.tokens = s.tokens ∧
      s'.scanner.stop = s.scanner.stop := by
  obtain ⟨s', hn, hp, ht, hs⟩ := next_of_tokens_cons h
  obtain ⟨scanner, pending⟩ := s
  cases pending with
  | some held =>
    simp only [next, Prod.mk.injEq, Except.ok.injEq, Option.some.injEq] at hn
    exact ⟨_, by simp [peek, hn.1], rfl, rfl⟩
  | none =>
    have hscan : scan ⟨scanner, none⟩ = (.ok (some t), s') := hn
    refine ⟨⟨s'.scanner, some t⟩, by simp [peek, hscan], ?_, hs⟩
    rw [h, ← ht, tokens_of_pending_none hp]
    rfl

theorem peek_of_tokens_nil {s : TokenStream} (h : s.tokens = []) :
    (∃ e s', s.peek = (.error e, s') ∧ s.scanner.stop = .error e) ∨
      ∃ s', s.peek = (.ok none, s') ∧ s.scanner.stop = .ok s'.place := by
  obtain ⟨scanner, pending⟩ := s
  cases pending with
  | some held => simp [tokens] at h
  | none =>
    rcases next_of_tokens_nil h with ⟨e, s', hn, hstop⟩ | ⟨s', hn, -, hstop, -⟩
    · have hscan : scan ⟨scanner, none⟩ = (.error e, s') := hn
      exact .inl ⟨e, s', by simp [peek, hscan], hstop⟩
    · have hscan : scan ⟨scanner, none⟩ = (.ok none, s') := hn
      exact .inr ⟨⟨s'.scanner, none⟩, by simp [peek, hscan], hstop⟩

/-- Whether the first token to come is an integer: then matrices are read. -/
def beginsWithInteger (s : TokenStream) : Bool := s.tokens.head?.any (·.kind == .integer)

end TokenStream
end ConstraintText

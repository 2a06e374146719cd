import ConstraintText.Proofs.Sessions

/-!
# Streams as cursors

A stream scans its text on demand. Seen from outside it is a cursor over a list: the items of the
text that are still to come, and at most one token held in front of them. Any calls in any order
have the same results on both. What is to come, the token held included, changes in one way only:
the first item is taken off, or a token is put in front. So calls that put back nothing but the
token just taken go through the items of the text one after the other.
-/
namespace ConstraintText

inductive StreamCall
  | next
  | peek
  | pushBack (t : Token)
  | eatIf (kind : TokenKind)
  | eat (kind : TokenKind)
  | expectEnd
  deriving DecidableEq, Repr

inductive StreamAnswer
  | atFront (t : Option Token)
  | eaten (t : Token)
  | found (b : Bool)
  | done
  deriving DecidableEq, Repr

abbrev StreamResult := Except ReadError StreamAnswer

namespace TokenStream

/-- The result of a call and the stream behind it. A token that cannot be held changes nothing. -/
def perform (s : TokenStream) : StreamCall → StreamResult × TokenStream
  | .next => ((s.next.1.mapError .lexical).map .atFront, s.next.2)
  | .peek => ((s.peek.1.mapError .lexical).map .atFront, s.peek.2)
  | .pushBack t =>
    match s.pushBack t with
    | .error f => (.error (.fault f), s)
    | .ok s' => (.ok .done, s')
  | .eatIf kind => ((s.eatIf kind).1.map .found, (s.eatIf kind).2)
  | .eat kind => ((s.eat kind).1.map .eaten, (s.eat kind).2)
  | .expectEnd => (s.expectEnd.1.map fun _ => .done, s.expectEnd.2)

/-- The results of calls one after the other. -/
def results (s : TokenStream) : List StreamCall → List StreamResult
  | [] => []
  | call :: calls => (s.perform call).1 :: (s.perform call).2.results calls

end TokenStream

/-- A list of items, at most one token held in front of it, and the place where the text ends. -/
structure Cursor where
  items : List (Except LexError Token)
  held : Option Token
  finish : Location
  deriving DecidableEq, Repr

namespace Cursor

/-- The items of a text, the end token aside. -/
def ofString (source : String) : Cursor :=
  ⟨(Scanner.ofString source).items.dropLast, none, Location.start.afterAll source.toList⟩

/-- What is at the front: the token held if there is one, else the first item. -/
def front? (c : Cursor) : Option (Except LexError Token) :=
  match c.held with
  | some t => some (.ok t)
  | none => c.items.head?

def advance (c : Cursor) : Cursor :=
  match c.held with
  | some _ => { c with held := none }
  | none => { c with items := c.items.tail }

def hold (c : Cursor) (t : Token) : Cursor := { c.advance with held := some t }

/-- Looks at the front: nothing is there, or an error, which is taken off, or a token. -/
def look (c : Cursor) (atEnd : StreamResult) (onToken : Token → StreamResult × Cursor) :
    StreamResult × Cursor :=
  match c.front? with
  | none => (atEnd, c)
  | some (.error e) => (.error (.lexical e), c.advance)
  | some (.ok t) => onToken t

def perform (c : Cursor) : StreamCall → StreamResult × Cursor
  | .next => c.look (.ok (.atFront none)) fun t => (.ok (.atFront (some t)), c.advance)
  | .peek => c.look (.ok (.atFront none)) fun t => (.ok (.atFront (some t)), c.hold t)
  | .pushBack t =>
    match c.held with
    | some u => (.error (.fault (.pushBackOverflow u t)), c)
    | none => (.ok .done, { c with held := some t })
  | .eatIf kind => c.look (.ok (.found false)) fun t =>
      if t.kind = kind then (.ok (.found true), c.advance) else (.ok (.found false), c.hold t)
  | .eat kind => c.look (.error (.refused (.atPlace (.expectedToken kind) c.finish))) fun t =>
      (if t.kind = kind then .ok (.eaten t)
        else .error (.refused (.atToken (.expectedToken kind) t)), c.advance)
  | .expectEnd => c.look (.ok .done) fun t =>
      (.error (.refused (.atToken .trailingInput t)), c.advance)

def results (c : Cursor) : List StreamCall → List StreamResult
  | [] => []
  | call :: calls => (c.perform call).1 :: (c.perform call).2.results calls

end Cursor

namespace Scanner

def finish (s : Scanner) : Location := s.place.afterAll s.rest

theorem finish_next (s : Scanner) : s.next.2.finish = s.finish := by
  have hgap := gap_append false s.rest
  have hfinish : s.finish = s.start.afterAll (afterGap false s.rest) := by
    rw [finish, ← hgap, Location.afterAll_append, hgap, start]
  rcases s.next_cases with ⟨hg, hn⟩ | ⟨c, cs, hg, -, hn⟩ | ⟨c, cs, cut, value, hg, hc, -, hn⟩
  · rw [hn, hfinish, hg, finish]
  · rw [hn, hfinish, hg, finish, ← Location.afterAll_append, List.singleton_append]
  · rw [hn, hfinish, hg, finish, ← Location.afterAll_append, List.cons_append,
      Cut.append_of_ofChars? hc]

theorem place_next_of_finish {s s' : Scanner} {t : Token} (h : s.next = (.ok t, s'))
    (ht : t.isFinish = true) : s'.place = s.finish := by
  have hg := (isFinish_next h).mp ht
  have hgap : gap false s.rest = s.rest := by simpa [hg] using gap_append false s.rest
  simp only [next, hg, Prod.mk.injEq] at h
  rw [← h.2, finish, hgap]

theorem items_ne_nil (s : Scanner) : s.items ≠ [] := by
  obtain ⟨items, hi⟩ := s.items_eq
  simp [hi]

theorem items_of_finish {s s' : Scanner} {t : Token} (h : s.next = (.ok t, s'))
    (ht : t.isFinish = true) : s.items = [.ok t] := by
  rw [items, if_pos ((isFinish_next h).mp ht), h]

theorem items_of_error {s s' : Scanner} {e : LexError} (h : s.next = (.error e, s')) :
    s.items = .error e :: s'.items := by
  have hg : afterGap false s.rest ≠ [] := by
    intro hg
    simp [next, hg] at h
  rw [items, if_neg hg, h]

end Scanner

namespace TokenStream

def cursor (s : TokenStream) : Cursor := ⟨s.scanner.items.dropLast, s.pending, s.scanner.finish⟩

theorem cursor_ofString (source : String) : (ofString source).cursor = .ofString source := rfl

/-- What scanning comes to is the first item of the list, which it takes off. -/
theorem scan_cases (s : Scanner) (held : Option Token) :
    (∃ s', scan ⟨s, held⟩ = (.ok none, ⟨s', held⟩) ∧ s.items.dropLast = [] ∧
      s'.items.dropLast = [] ∧ s'.place = s.finish ∧ s'.finish = s.finish) ∨
    (∃ e s', scan ⟨s, held⟩ = (.error e, ⟨s', held⟩) ∧
      s.items.dropLast = .error e :: s'.items.dropLast ∧ s'.finish = s.finish) ∨
    ∃ t s', scan ⟨s, held⟩ = (.ok (some t), ⟨s', held⟩) ∧
      s.items.dropLast = .ok t :: s'.items.dropLast ∧ s'.finish = s.finish := by
  have hfinish := s.finish_next
  rcases hn : s.next with ⟨item, s'⟩
  rw [hn] at hfinish
  cases item with
  | error e =>
    refine .inr (.inl ⟨e, s', by simp [scan, hn], ?_, hfinish⟩)
    rw [Scanner.items_of_error hn, List.dropLast_cons_of_ne_nil s'.items_ne_nil]
  | ok t =>
    cases ht : t.isFinish with
    | true =>
      obtain ⟨-, t', hn', ht', -⟩ := Scanner.next_of_finish hn ht
      refine .inl ⟨s', by simp [scan, hn, ht], ?_, ?_, Scanner.place_next_of_finish hn ht, hfinish⟩
      · rw [Scanner.items_of_finish hn ht, List.dropLast_singleton]
      · rw [Scanner.items_of_finish hn' ht', List.dropLast_singleton]
    | false =>
      refine .inr (.inr ⟨t, s', by simp [scan, hn, ht], ?_, hfinish⟩)
      rw [Scanner.items_of_token hn ht, List.dropLast_cons_of_ne_nil s'.items_ne_nil]

theorem next_cases (s : TokenStream) :
    (∃ s', s.next = (.ok none, s') ∧ s.cursor.front? = none ∧ s'.cursor = s.cursor ∧
      s'.place = s.cursor.finish) ∨
    (∃ e s', s.next = (.error e, s') ∧ s.cursor.front? = some (.error e) ∧
      s'.cursor = s.cursor.advance) ∨
    ∃ t s', s.next = (.ok (some t), s') ∧ s.cursor.front? = some (.ok t) ∧
      s'.cursor = s.cursor.advance ∧ s'.pending = none := by
  obtain ⟨scanner, held⟩ := s
  cases held with
  | some t => exact .inr (.inr ⟨t, ⟨scanner, none⟩, rfl, rfl, rfl, rfl⟩)
  | none =>
    rcases scan_cases scanner none with ⟨s', hs, hi, hi', hp, hf⟩ | ⟨e, s', hs, hi, hf⟩ |
      ⟨t, s', hs, hi, hf⟩
    · refine .inl ⟨⟨s', none⟩, hs, ?_, ?_, hp⟩
      · simp [cursor, Cursor.front?, hi]
      · simp [cursor, hi, hi', hf]
    · refine .inr (.inl ⟨e, ⟨s', none⟩, hs, ?_, ?_⟩)
      · simp [cursor, Cursor.front?, hi]
      · simp [cursor, Cursor.advance, hi, hf]
    · refine .inr (.inr ⟨t, ⟨s', none⟩, hs, ?_, ?_, rfl⟩)
      · simp [cursor, Cursor.front?, hi]
      · simp [cursor, Cursor.advance, hi, hf]

theorem peek_eq (s : TokenStream) :
    s.peek = match s.next with
      | (.error e, s') => (.error e, s')
      | (.ok t, s') => (.ok t, ⟨s'.scanner, t⟩) := by
  obtain ⟨scanner, held⟩ := s
  cases held with
  | some t => rfl
  | none => rfl

/-- Every call does to a stream what it does to the cursor that the stream is. -/
theorem perform_cursor (s : TokenStream) (call : StreamCall) :
    ((s.perform call).1, (s.perform call).2.cursor) = s.cursor.perform call := by
  cases call with
  | pushBack t =>
    obtain ⟨scanner, held⟩ := s
    cases held <;> rfl
  | next =>
    rcases s.next_cases with ⟨s', hn, hf, hc, -⟩ | ⟨e, s', hn, hf, hc⟩ | ⟨t, s', hn, hf, hc, -⟩ <;>
      simp [perform, Cursor.perform, Cursor.look, hn, hf, hc, Except.mapError, Except.map]
  | peek =>
    rcases s.next_cases with ⟨s', hn, hf, hc, -⟩ | ⟨e, s', hn, hf, hc⟩ | ⟨t, s', hn, hf, hc, hp⟩
    · have hheld : s'.pending = none := by
        have := s.pending_next
        rwa [hn] at this
      obtain ⟨scanner, held⟩ := s'
      obtain rfl : held = none := hheld
      simp [perform, peek_eq, Cursor.perform, Cursor.look, hn, hf, hc, Except.mapError, Except.map]
    · simp [perform, peek_eq, Cursor.perform, Cursor.look, hn, hf, hc, Except.mapError, Except.map]
    · have hhold : (⟨s'.scanner, some t⟩ : TokenStream).cursor = s.cursor.hold t := by
        rw [Cursor.hold, ← hc]
        rfl
      simp [perform, peek_eq, Cursor.perform, Cursor.look, hn, hf, hhold, Except.mapError,
        Except.map]
  | eatIf kind =>
    rcases s.next_cases with ⟨s', hn, hf, hc, -⟩ | ⟨e, s', hn, hf, hc⟩ | ⟨t, s', hn, hf, hc, hp⟩
    · simp [perform, eatIf, Cursor.perform, Cursor.look, hn, hf, hc, Except.map]
    · simp [perform, eatIf, Cursor.perform, Cursor.look, hn, hf, hc, Except.map]
    · have hhold : (⟨s'.scanner, some t⟩ : TokenStream).cursor = s.cursor.hold t := by
        rw [Cursor.hold, ← hc]
        rfl
      by_cases hk : t.kind = kind <;>
        simp [perform, eatIf, pushBack, Cursor.perform, Cursor.look, hn, hf, hc, hp, hk, hhold,
          Except.map]
  | eat kind =>
    rcases s.next_cases with ⟨s', hn, hf, hc, hp⟩ | ⟨e, s', hn, hf, hc⟩ | ⟨t, s', hn, hf, hc, -⟩
    · simp [perform, eat, refusal, Cursor.perform, Cursor.look, hn, hf, hc, hp, Except.map]
    · simp [perform, eat, Cursor.perform, Cursor.look, hn, hf, hc, Except.map]
    · by_cases hk : t.kind = kind <;>
        simp [perform, eat, refusal, Cursor.perform, Cursor.look, hn, hf, hc, hk, Except.map]
  | expectEnd =>
    rcases s.next_cases with ⟨s', hn, hf, hc, -⟩ | ⟨e, s', hn, hf, hc⟩ | ⟨t, s', hn, hf, hc, -⟩ <;>
      simp [perform, expectEnd, refusal, Cursor.perform, Cursor.look, hn, hf, hc, Except.map]

theorem results_cursor (s : TokenStream) (calls : List StreamCall) :
    s.results calls = s.cursor.results calls := by
  induction calls generalizing s with
  | nil => rfl
  | cons call calls ih => rw [results, Cursor.results, ← perform_cursor, ih]

end TokenStream

namespace Cursor

variable (c : Cursor)

/-- Everything to come: the token held, then the items. -/
def toCome : List (Except LexError Token) := c.held.toList.map .ok ++ c.items

theorem head?_toCome : c.toCome.head? = c.front? := by
  obtain ⟨items, held, finish⟩ := c
  cases held <;> simp [toCome, front?]

theorem toCome_advance : c.advance.toCome = c.toCome.tail := by
  obtain ⟨items, held, finish⟩ := c
  cases held <;> simp [toCome, advance]

theorem held_advance : c.advance.held = none := by
  obtain ⟨items, held, finish⟩ := c
  cases held <;> rfl

theorem toCome_hold {t : Token} (h : c.front? = some (.ok t)) : (c.hold t).toCome = c.toCome := by
  obtain ⟨items, held, finish⟩ := c
  cases held with
  | some u =>
    obtain rfl : u = t := by simpa [front?] using h
    rfl
  | none =>
    obtain ⟨rest, rfl⟩ : ∃ rest, items = .ok t :: rest :=
      List.head?_eq_some_iff.mp (by simpa [front?] using h)
    rfl

end Cursor

/-- Whether a call takes off what is at the front. An error is taken by every call that looks at
it. A token is left by a look, and by a call that eats another kind only if there is one; a call
that rejects a token has taken it. -/
def StreamCall.takes : StreamCall → Except LexError Token → Bool
  | .pushBack _, _ => false
  | _, .error _ => true
  | .peek, .ok _ => false
  | .eatIf kind, .ok t => t.kind == kind
  | _, .ok _ => true

def Cursor.taken? (c : Cursor) (call : StreamCall) : Option (Except LexError Token) :=
  c.toCome.head?.filter call.takes

namespace Cursor

variable (c : Cursor)

theorem perform_of_taken {call : StreamCall} {item : Except LexError Token}
    (h : c.taken? call = some item) : (c.perform call).2 = c.advance ∧ c.front? = some item := by
  obtain ⟨hfront, htakes⟩ := Option.filter_eq_some_iff.mp h
  rw [head?_toCome] at hfront
  refine ⟨?_, hfront⟩
  cases item with
  | error e => cases call <;> simp_all [perform, look, StreamCall.takes]
  | ok t => cases call <;> simp_all [perform, look, StreamCall.takes]

theorem toCome_of_not_taken {call : StreamCall} (hcall : ∀ t, call ≠ .pushBack t)
    (h : c.taken? call = none) : (c.perform call).2.toCome = c.toCome := by
  rw [taken?, head?_toCome, Option.filter_eq_none_iff] at h
  cases hfront : c.front? with
  | none => cases call <;> simp_all [perform, look]
  | some item =>
    cases item with
    | error e => cases call <;> simp_all [StreamCall.takes]
    | ok t =>
      have hhold := c.toCome_hold hfront
      cases call <;> simp_all [perform, look, StreamCall.takes]

/-- A call takes its item off the front of what is to come, and nothing else. -/
theorem toCome_perform {call : StreamCall} (hcall : ∀ t, call ≠ .pushBack t) :
    c.toCome = (c.taken? call).toList ++ (c.perform call).2.toCome := by
  cases h : c.taken? call with
  | none => rw [c.toCome_of_not_taken hcall h, Option.toList_none, List.nil_append]
  | some item =>
    obtain ⟨hperform, hfront⟩ := c.perform_of_taken h
    rw [← head?_toCome] at hfront
    obtain ⟨rest, hrest⟩ := List.head?_eq_some_iff.mp hfront
    rw [hperform, toCome_advance, hrest]
    rfl

end Cursor

namespace TokenStream

variable (s : TokenStream)

def toCome : List (Except LexError Token) := s.cursor.toCome

def frontResult : Option (Except LexError Token) → StreamResult
  | none => .ok (.atFront none)
  | some (.error e) => .error (.lexical e)
  | some (.ok t) => .ok (.atFront (some t))

theorem result_perform (call : StreamCall) : (s.perform call).1 = (s.cursor.perform call).1 :=
  congrArg Prod.fst (s.perform_cursor call)

theorem cursor_perform (call : StreamCall) :
    (s.perform call).2.cursor = (s.cursor.perform call).2 :=
  congrArg Prod.snd (s.perform_cursor call)

theorem result_next : (s.perform .next).1 = frontResult s.cursor.front? := by
  rw [result_perform]
  unfold Cursor.perform Cursor.look
  dsimp only
  split <;> rename_i h <;> rw [h] <;> rfl

theorem result_peek : (s.perform .peek).1 = (s.perform .next).1 := by
  rw [result_next, result_perform]
  unfold Cursor.perform Cursor.look
  dsimp only
  split <;> rename_i h <;> rw [h] <;> rfl

theorem toCome_perform {call : StreamCall} (hcall : ∀ t, call ≠ .pushBack t) :
    s.toCome = (s.cursor.taken? call).toList ++ (s.perform call).2.toCome := by
  rw [toCome, toCome, cursor_perform]
  exact s.cursor.toCome_perform hcall

theorem results_of_toCome_nil (h : s.toCome = []) (n : Nat) :
    s.results (List.replicate n .next) = List.replicate n (.ok (.atFront none)) := by
  induction n generalizing s with
  | zero => rfl
  | succ n ih =>
    have hnext : ∀ t, StreamCall.next ≠ .pushBack t := by simp
    have hrest := s.toCome_perform hnext
    rw [h] at hrest
    have hfront : s.cursor.front? = none := by
      rw [← Cursor.head?_toCome, ← toCome, h]
      rfl
    rw [List.replicate_succ, List.replicate_succ, results, result_next, hfront,
      ih _ (List.nil_eq_append_iff.mp hrest).2]
    rfl

theorem perform_pushBack_of_held {u : Token} (h : s.pending = some u) (t : Token) :
    s.perform (.pushBack t) = (.error (.fault (.pushBackOverflow u t)), s) := by
  simp [perform, pushBack, h]

theorem perform_pushBack_of_none (h : s.pending = none) (t : Token) :
    s.perform (.pushBack t) = (.ok .done, ⟨s.scanner, some t⟩) := by
  simp [perform, pushBack, h]

theorem toCome_pushBack (h : s.pending = none) (t : Token) :
    (⟨s.scanner, some t⟩ : TokenStream).toCome = .ok t :: s.toCome := by
  simp [toCome, Cursor.toCome, cursor, h]

/-- Behind a call that has taken an item no token is held. -/
theorem pending_of_taken {call : StreamCall} {item : Except LexError Token}
    (h : s.cursor.taken? call = some item) : (s.perform call).2.pending = none := by
  change (s.perform call).2.cursor.held = none
  rw [cursor_perform, (s.cursor.perform_of_taken h).1, Cursor.held_advance]

/-- What the calls on a stream do to what is to come. -/
structure GoesAlong : Prop where
  next : (s.perform .next).1 = frontResult s.cursor.front?
  exhausted : s.toCome = [] → ∀ n,
    s.results (List.replicate n .next) = List.replicate n (.ok (.atFront none))
  peek : (s.perform .peek).1 = (s.perform .next).1
  /-- What a call takes off, it takes off the front; the rest stays as it is. -/
  taken : ∀ call, (∀ t, call ≠ .pushBack t) →
    s.toCome = (s.cursor.taken? call).toList ++ (s.perform call).2.toCome
  pushBack_fails : ∀ t,
    (∃ f, (s.perform (.pushBack t)).1 = .error (.fault f)) ↔ s.pending.isSome = true
  pushBack_failed : ∀ t, s.pending.isSome = true → (s.perform (.pushBack t)).2 = s
  pushBack : ∀ t, s.pending = none → (s.perform (.pushBack t)).2.toCome = .ok t :: s.toCome

theorem goesAlong : s.GoesAlong where
  next := s.result_next
  exhausted := s.results_of_toCome_nil
  peek := s.result_peek
  taken _ hcall := s.toCome_perform hcall
  pushBack_fails t := by
    cases h : s.pending with
    | none => simp [s.perform_pushBack_of_none h]
    | some u => simp [s.perform_pushBack_of_held h]
  pushBack_failed t ht := by
    obtain ⟨u, hu⟩ := Option.isSome_iff_exists.mp ht
    rw [s.perform_pushBack_of_held hu]
  pushBack t ht := by
    rw [s.perform_pushBack_of_none ht, s.toCome_pushBack ht]

/-- Calls on a source that put back only the token just taken: what the calls before the last one
have taken for good, what the last one has taken, and the stream. -/
inductive Ledger (source : String) :
    List (Except LexError Token) → Option (Except LexError Token) → TokenStream → Prop
  | start : Ledger source [] none (ofString source)
  | call {taken : List (Except LexError Token)} {last : Option (Except LexError Token)}
      {s : TokenStream} (call : StreamCall) (hcall : ∀ t, call ≠ .pushBack t)
      (h : Ledger source taken last s) :
      Ledger source (taken ++ last.toList) (s.cursor.taken? call) (s.perform call).2
  | pushBack {taken : List (Except LexError Token)} {t : Token} {s : TokenStream}
      (h : Ledger source taken (some (.ok t)) s) :
      Ledger source taken none (s.perform (.pushBack t)).2

variable {s}

theorem Ledger.pending {source : String} {taken : List (Except LexError Token)}
    {item : Except LexError Token} (h : Ledger source taken (some item) s) : s.pending = none := by
  generalize hlast : some item = last at h
  cases h with
  | start => cases hlast
  | call call hcall h => exact pending_of_taken _ hlast.symm
  | pushBack h => cases hlast

/-- What has been taken and what is to come are the items of the source. -/
theorem Ledger.balanced {source : String} {taken : List (Except LexError Token)}
    {last : Option (Except LexError Token)} (h : Ledger source taken last s) :
    taken ++ last.toList ++ s.toCome = (Cursor.ofString source).items := by
  induction h with
  | start => rfl
  | call call hcall h ih => rw [← ih, List.append_assoc, ← toCome_perform _ hcall]
  | @pushBack taken t s h ih =>
    rw [s.perform_pushBack_of_none h.pending, s.toCome_pushBack h.pending, ← ih]
    simp

/-- A stream of a source is a cursor over the items of the source: any calls have the same results
on both, and each call takes off at most the front of what is to come or puts a token there. So
calls that put back only the token just taken lose no item, repeat none and keep their order, and
they can put it back. -/
theorem refines_cursor (source : String) :
    (∀ calls, (ofString source).results calls = (Cursor.ofString source).results calls) ∧
    (∀ s : TokenStream, s.GoesAlong) ∧
    ∀ taken last s, Ledger source taken last s →
      taken ++ last.toList ++ s.toCome = (Cursor.ofString source).items ∧
      ∀ t, last = some (.ok t) → (s.perform (.pushBack t)).1 = .ok .done := by
  refine ⟨fun calls => ?_, goesAlong, fun taken last s h => ⟨h.balanced, ?_⟩⟩
  · rw [results_cursor, cursor_ofString]
  · rintro t rfl
    rw [s.perform_pushBack_of_none h.pending]

/-- A token is taken, put back, left by a look and by a call for another kind, and then taken by a
call that rejects it; an error and another token are still to come. -/
theorem refines_cursor_rejected_token :
    let source := "a * b"
    let a : Token := ⟨.identifier, ⟨⟨1, 1, 0⟩, ⟨1, 2, 1⟩⟩, "a", true, none⟩
    let b : Token := ⟨.identifier, ⟨⟨1, 5, 4⟩, ⟨1, 6, 5⟩⟩, "b", false, none⟩
    let star : LexError := ⟨.unexpectedChar '*', ⟨⟨1, 3, 2⟩, ⟨1, 4, 3⟩⟩⟩
    let behind : TokenStream := ⟨⟨[' ', '*', ' ', 'b'], ⟨1, 2, 1⟩, false⟩, none⟩
    Ledger source [] (some (.ok a)) behind ∧
      behind.toCome = [.error star, .ok b] ∧
      [] ++ (some (.ok a)).toList ++ behind.toCome = (Cursor.ofString source).items ∧
      (behind.perform (.pushBack a)).1 = .ok .done := by
  intro source a b star behind
  have hnext : (ofString source).cursor.taken? .next = some (.ok a) := by
    unfold source a
    cbv
  have htaken : Ledger source [] (some (.ok a)) ((ofString source).perform .next).2 :=
    hnext ▸ .call .next (by simp) .start
  let held : TokenStream := ⟨behind.scanner, some a⟩
  have hback : (((ofString source).perform .next).2.perform (.pushBack a)).2 = held := by
    unfold source a held behind
    cbv
  have hheld : Ledger source [] none held := hback ▸ .pushBack htaken
  have hpeek : Ledger source [] none held := .call .peek (by simp) hheld
  have heatIf : Ledger source [] none held := .call (.eatIf .comma) (by simp) hpeek
  have heat : Ledger source [] (some (.ok a)) behind := .call (.eat .comma) (by simp) heatIf
  have hcome : behind.toCome = [.error star, .ok b] := by
    unfold behind star b
    cbv
  have hbalance := (refines_cursor source).2.2 [] (some (.ok a)) behind heat
  exact ⟨heat, hcome, hbalance.1, hbalance.2 a rfl⟩

end TokenStream
end ConstraintText

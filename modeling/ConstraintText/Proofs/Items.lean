import ConstraintText.Proofs.ScanningSafety

/-!
# Scanning loses nothing

The items of a source, with the gaps between them, make up the source. Each item is cut out by its
span, a gap has blanks and comments only, and numbers and words go on as long as they can. Whatever
the source is, its items end with the end token, and each step before that one takes a character.
-/
namespace ConstraintText

/-- Blanks and comments. A comment runs up to a line feed, or `atEnd` of a source up to that end. -/
inductive IsGap (atEnd : Bool) : List Char → Prop
  | nil : IsGap atEnd []
  | blank {c : Char} {cs : List Char} (hc : Character.isBlank c = true) (h : IsGap atEnd cs) :
      IsGap atEnd (c :: cs)
  | comment {body cs : List Char} (hb : '\n' ∉ body)
      (hc : cs.head? = some '\n' ∨ atEnd = true ∧ cs = []) (h : IsGap atEnd cs) :
      IsGap atEnd ('#' :: (body ++ cs))

/-- The character of a source behind the last byte of a span. -/
def Span.charBehind? (source : String) (span : Span) : Option Char :=
  String.Pos.Raw.get? source ⟨span.stop.offset⟩

/-- Digits that stand for a value, or a minus sign and digits that stand for its negation. -/
def IsNumber (lexeme : String) (value : Int) : Prop :=
  ∃ digits, Decimal.isNumeral digits = true ∧
    (lexeme.toList = digits ∧ value = Decimal.value digits ∨
      lexeme.toList = '-' :: digits ∧ value = -Decimal.value digits)

/-- A token is the piece of the source in its span. An integer has the value of its digits; no
digit stands behind an integer, and nothing that goes on with a word behind a word. -/
structure Token.IsExact (source : String) (t : Token) : Prop where
  lexeme : t.span.lexeme? source = some t.lexeme
  value : t.kind = .integer → ∃ value, t.value = some value ∧ IsNumber t.lexeme value
  number : t.kind = .integer → ∀ c ∈ t.span.charBehind? source, c.isDigit = false
  word : t.kind ∈ TokenKind.words →
    ∀ c ∈ t.span.charBehind? source, Character.continuesIdentifier c = false

/-- An error is one character of the source. -/
def LexError.IsExact (source : String) (e : LexError) : Prop :=
  ∃ c, e.problem = .unexpectedChar c ∧ e.span.lexeme? source = some (String.ofList [c])

namespace Location

theorem offset_afterAll (l : Location) (cs : List Char) :
    (l.afterAll cs).offset = l.offset + String.utf8Len cs := by
  induction cs generalizing l with
  | nil => simp
  | cons c cs ih =>
    have hc : (l.after c).offset = l.offset + c.utf8Size := by
      unfold after
      split <;> rfl
    rw [afterAll_cons, ih, hc, String.utf8Len_cons]
    omega

end Location

/-- A span begins behind what stands in front of its piece and stops behind the piece. -/
structure Span.Cuts (source : String) (span : Span) (front piece back : List Char) : Prop where
  source_eq : source.toList = front ++ piece ++ back
  start_eq : span.start = Location.start.afterAll front
  stop_eq : span.stop = span.start.afterAll piece

namespace Span.Cuts

variable {source : String} {span : Span} {front piece back : List Char}

theorem lexeme? (h : span.Cuts source front piece back) :
    span.lexeme? source = some (String.ofList piece) := by
  obtain ⟨hsource, hstart, hstop⟩ := h
  obtain ⟨start, stop⟩ := span
  obtain rfl : stop = start.afterAll piece := hstop
  exact lexeme?_of_append hsource hstart

theorem offset_stop (h : span.Cuts source front piece back) :
    span.stop.offset = String.utf8Len (front ++ piece) := by
  rw [h.stop_eq, h.start_eq, ← Location.afterAll_append, Location.offset_afterAll, Location.start,
    Nat.zero_add]

theorem charBehind? (h : span.Cuts source front piece back) :
    span.charBehind? source = back.head? := by
  have hsource : source = String.ofList (front ++ piece ++ back) := by
    rw [← h.source_eq, String.ofList_toList]
  rw [Span.charBehind?, h.offset_stop, hsource]
  exact String.get?_of_valid (front ++ piece) back

end Span.Cuts

theorem isNumber_of_integer? {cs : List Char} {value : Int} (h : Decimal.integer? cs = some value) :
    IsNumber (String.ofList cs) value := by
  have hnatural : ∀ {digits : List Char} {n : Nat}, Decimal.natural? digits = some n →
      Decimal.isNumeral digits = true ∧ n = Decimal.value digits := by
    intro digits n hn
    unfold Decimal.natural? at hn
    split at hn
    · exact ⟨‹_›, (Option.some.inj hn).symm⟩
    · simp at hn
  cases cs with
  | nil => simp [Decimal.integer?] at h
  | cons c cs =>
    rw [Decimal.integer?] at h
    split at h
    · rename_i hc
      cases hn : Decimal.natural? cs with
      | none => simp [hn] at h
      | some n =>
        obtain ⟨hd, rfl⟩ := hnatural hn
        refine ⟨cs, hd, .inr ⟨by rw [String.toList_ofList, hc], ?_⟩⟩
        simpa [hn] using h.symm
    · cases hn : Decimal.natural? (c :: cs) with
      | none => simp [hn] at h
      | some n =>
        obtain ⟨hd, rfl⟩ := hnatural hn
        refine ⟨c :: cs, hd, .inl ⟨String.toList_ofList, ?_⟩⟩
        simpa [hn] using h.symm

namespace Cut

variable {c : Char} {cs : List Char} {cut : Cut}

theorem head?_rest_of_integer (h : ofChars? c cs = some cut) (hk : cut.kind = .integer) :
    ∀ d ∈ cut.rest.head?, d.isDigit = false := by
  have hrest := goesOn_rest h
  rw [hk] at hrest
  exact hrest

theorem head?_rest_of_word (h : ofChars? c cs = some cut) (hk : cut.kind ∈ TokenKind.words) :
    ∀ d ∈ cut.rest.head?, Character.continuesIdentifier d = false := by
  obtain ⟨-, rfl⟩ := word_of_kind h hk
  exact head?_dropWhile

theorem exists_item (h : ofChars? c cs = some cut) (start : Location) (newLine : Bool) :
    ∃ value, cut.item c start newLine = .ok ⟨cut.kind, ⟨start, start.afterAll (c :: cut.tail)⟩,
        String.ofList (c :: cut.tail), newLine, value⟩ ∧
      (cut.kind = .integer →
        ∃ n, value = some n ∧ IsNumber (String.ofList (c :: cut.tail)) n) := by
  by_cases hk : cut.kind = .integer
  · obtain ⟨n, hn⟩ := exists_integer? h hk
    exact ⟨some n, by simp [item, hk, hn], fun _ => ⟨n, rfl, isNumber_of_integer? hn⟩⟩
  · exact ⟨none, by simp only [item, if_neg hk], fun hi => absurd hi hk⟩

end Cut

namespace Scanner

def itemSpan : Except LexError Token → Span
  | .ok t => t.span
  | .error e => e.span

def isFinishItem : Except LexError Token → Bool
  | .ok t => t.isFinish
  | .error _ => false

def IsExactItem (source : String) : Except LexError Token → Prop
  | .ok t => t.IsExact source
  | .error e => e.IsExact source

/-- Whether there is nothing but a gap from a place of a source to an item. -/
def GapTo (source : String) (place : Location) (item : Except LexError Token) : Prop :=
  ∃ gap, Span.lexeme? source ⟨place, (itemSpan item).start⟩ = some gap ∧
    IsGap (isFinishItem item) gap.toList

theorem isGap_gap {atEnd : Bool} (inComment : Bool) (cs : List Char)
    (h : atEnd = true ∨ afterGap inComment cs ≠ []) :
    if inComment then ∃ body rest, gap inComment cs = body ++ rest ∧ '\n' ∉ body ∧
      (rest.head? = some '\n' ∨ atEnd = true ∧ rest = []) ∧ IsGap atEnd rest
    else IsGap atEnd (gap inComment cs) := by
  fun_induction gap inComment cs with
  | case1 inComment =>
    have hend : atEnd = true := by simpa [afterGap] using h
    split
    · exact ⟨[], [], rfl, by simp, .inr ⟨hend, rfl⟩, .nil⟩
    · exact .nil
  | case2 inComment cs ih =>
    have hrest : IsGap atEnd (gap false cs) := by simpa using ih (by simpa [afterGap] using h)
    have hline : IsGap atEnd ('\n' :: gap false cs) := .blank (by decide) hrest
    split
    · exact ⟨[], _, rfl, by simp, .inl rfl, hline⟩
    · exact hline
  | case3 inComment c cs hc hin ih =>
    obtain ⟨body, rest, hgap, hb, hr, hrest⟩ : ∃ body rest, gap true cs = body ++ rest ∧
        '\n' ∉ body ∧ (rest.head? = some '\n' ∨ atEnd = true ∧ rest = []) ∧ IsGap atEnd rest := by
      simpa using ih (by simpa [afterGap, hc, hin] using h)
    split
    · refine ⟨c :: body, rest, by rw [hgap, List.cons_append], ?_, hr, hrest⟩
      simpa [hb] using fun he : '\n' = c => hc he.symm
    · obtain rfl : c = '#' := by simp_all
      rw [hgap]
      exact .comment hb hr hrest
  | case4 inComment c cs hc hin hblank ih =>
    obtain ⟨rfl, -⟩ : inComment = false ∧ c ≠ '#' := by simpa using hin
    have hrest : IsGap atEnd (gap false cs) := by
      simpa using ih (by simpa [afterGap, hc, hin, hblank] using h)
    exact .blank hblank hrest
  | case5 inComment c cs hc hin hblank =>
    obtain ⟨rfl, -⟩ : inComment = false ∧ c ≠ '#' := by simpa using hin
    exact .nil

theorem afterGap_comment {body : List Char} (h : '\n' ∉ body) (cs : List Char) :
    afterGap true (body ++ cs) = afterGap true cs := by
  induction body with
  | nil => rfl
  | cons c body ih =>
    obtain ⟨hc, hbody⟩ : '\n' ≠ c ∧ '\n' ∉ body := by simpa using h
    rw [List.cons_append, afterGap, if_neg hc.symm, if_pos (by simp), ih hbody]

theorem afterGap_append {atEnd : Bool} {between cs : List Char} (h : IsGap atEnd between)
    (hcs : atEnd = true → cs = []) : afterGap false (between ++ cs) = afterGap false cs := by
  induction h with
  | nil => rfl
  | @blank c ds hc _ ih =>
    have hcomment : c ≠ '#' := by
      rintro rfl
      exact absurd hc (by decide)
    simp [afterGap, hcomment, hc, ih]
  | @comment body ds hb hc _ ih =>
    rw [List.cons_append, List.append_assoc, afterGap, if_neg (by decide), if_pos (by decide),
      afterGap_comment hb]
    rcases hc with hc | ⟨hend, rfl⟩
    · obtain ⟨ds, rfl⟩ := List.head?_eq_some_iff.mp hc
      simpa [afterGap] using ih
    · rw [hcs hend]
      rfl

/-- Nothing is left behind blanks and comments up to the end of a text, and behind nothing else. -/
theorem isGap_iff_afterGap {cs : List Char} : IsGap true cs ↔ afterGap false cs = [] := by
  constructor
  · intro h
    have hgap : afterGap false (cs ++ []) = afterGap false [] := afterGap_append h fun _ => rfl
    simpa [afterGap] using hgap
  · intro h
    have hgap : gap false cs = cs := by simpa [h] using gap_append false cs
    simpa [hgap] using @isGap_gap true false cs (.inl rfl)

/-- What a step can do: it comes to the end of the text, to a character that begins no lexeme, or
behind a lexeme. -/
theorem next_cases (s : Scanner) :
    (afterGap false s.rest = [] ∧
      s.next = (.ok ⟨.finish, .point s.start, "", s.onNewLine, none⟩, ⟨[], s.start, false⟩)) ∨
    (∃ c cs, afterGap false s.rest = c :: cs ∧ Cut.ofChars? c cs = none ∧
      s.next = (.error ⟨.unexpectedChar c, ⟨s.start, s.start.afterAll [c]⟩⟩,
        ⟨cs, s.start.afterAll [c], s.onNewLine⟩)) ∨
    ∃ c cs cut value, afterGap false s.rest = c :: cs ∧ Cut.ofChars? c cs = some cut ∧
      (cut.kind = .integer →
        ∃ n, value = some n ∧ IsNumber (String.ofList (c :: cut.tail)) n) ∧
      s.next = (.ok ⟨cut.kind, ⟨s.start, s.start.afterAll (c :: cut.tail)⟩,
        String.ofList (c :: cut.tail), s.onNewLine, value⟩,
        ⟨cut.rest, s.start.afterAll (c :: cut.tail), false⟩) := by
  cases hg : afterGap false s.rest with
  | nil => exact .inl ⟨rfl, by simp [next, hg, start, onNewLine]⟩
  | cons c cs =>
    cases hc : Cut.ofChars? c cs with
    | none => exact .inr (.inl ⟨c, cs, rfl, hc, by simp [next, hg, hc, start, onNewLine]⟩)
    | some cut =>
      obtain ⟨value, hitem, hvalue⟩ := Cut.exists_item hc s.start s.onNewLine
      exact .inr (.inr ⟨c, cs, cut, value, rfl, hc, hvalue, by rw [next_of_cut hg hc, hitem]⟩)

theorem start_itemSpan_next (s : Scanner) : (itemSpan s.next.1).start = s.start := by
  rcases s.next_cases with ⟨-, hn⟩ | ⟨c, cs, -, -, hn⟩ | ⟨c, cs, cut, value, -, -, -, hn⟩ <;>
    rw [hn] <;> rfl

theorem stop_itemSpan_next (s : Scanner) : (itemSpan s.next.1).stop = s.next.2.place := by
  rcases s.next_cases with ⟨-, hn⟩ | ⟨c, cs, -, -, hn⟩ | ⟨c, cs, cut, value, -, -, -, hn⟩ <;>
    rw [hn] <;> rfl

theorem isFinishItem_next (s : Scanner) :
    isFinishItem s.next.1 = true ↔ afterGap false s.rest = [] := by
  rcases hn : s.next with ⟨item, s'⟩
  cases item with
  | ok t => exact isFinish_next hn
  | error e =>
    refine iff_of_false (by simp [isFinishItem]) fun hg => ?_
    simp [next, hg] at hn

variable {source : String} {s : Scanner}

theorem IsIn.cuts_gap (h : s.IsIn source) : ∃ front,
    Span.Cuts source ⟨s.place, s.start⟩ front (gap false s.rest) (afterGap false s.rest) := by
  obtain ⟨front, hsource, hplace⟩ := h
  exact ⟨front, by rw [hsource, List.append_assoc, gap_append], hplace, rfl⟩

theorem IsIn.gapTo_next (h : s.IsIn source) : GapTo source s.place s.next.1 := by
  obtain ⟨front, hcuts⟩ := h.cuts_gap
  rw [GapTo, start_itemSpan_next]
  refine ⟨_, hcuts.lexeme?, ?_⟩
  rw [String.toList_ofList]
  have hend : isFinishItem s.next.1 = true ∨ afterGap false s.rest ≠ [] := by
    rw [isFinishItem_next]
    exact Classical.em _
  simpa using isGap_gap false s.rest hend

theorem IsIn.cuts_next (h : s.IsIn source) : ∃ front,
    match s.next.1 with
    | .ok t => t.span.Cuts source front t.lexeme.toList s.next.2.rest
    | .error e => ∃ c, e.problem = .unexpectedChar c ∧ e.span.Cuts source front [c] s.next.2.rest
    := by
  obtain ⟨front, hsource, hplace, -⟩ := h.cuts_gap
  have hstart : s.start = Location.start.afterAll (front ++ gap false s.rest) := by
    rw [Location.afterAll_append, ← hplace, start]
  refine ⟨front ++ gap false s.rest, ?_⟩
  rcases s.next_cases with ⟨hg, hn⟩ | ⟨c, cs, hg, -, hn⟩ | ⟨c, cs, cut, value, hg, hc, -, hn⟩
  · rw [hn]
    exact ⟨by simp [hsource, hg], hstart, rfl⟩
  · rw [hn]
    exact ⟨c, rfl, by simp [hsource, hg], hstart, rfl⟩
  · rw [hn]
    refine ⟨?_, hstart, by rw [String.toList_ofList]⟩
    rw [hsource, hg, String.toList_ofList, List.append_assoc _ (c :: cut.tail), List.cons_append,
      Cut.append_of_ofChars? hc]

theorem IsIn.isExactItem_next (h : s.IsIn source) : IsExactItem source s.next.1 := by
  obtain ⟨front, hcuts⟩ := h.cuts_next
  rcases s.next_cases with ⟨hg, hn⟩ | ⟨c, cs, hg, -, hn⟩ | ⟨c, cs, cut, value, hg, hc, hv, hn⟩
  · rw [hn] at hcuts ⊢
    exact ⟨hcuts.lexeme?, by simp, by simp, by simp [TokenKind.words]⟩
  · rw [hn] at hcuts ⊢
    obtain ⟨d, hd, hcuts⟩ := hcuts
    exact ⟨d, hd, hcuts.lexeme?⟩
  · rw [hn] at hcuts ⊢
    refine ⟨?_, hv, fun hk => ?_, fun hk => ?_⟩
    · rw [hcuts.lexeme?, String.ofList_toList]
    · rw [hcuts.charBehind?]
      exact Cut.head?_rest_of_integer hc hk
    · rw [hcuts.charBehind?]
      exact Cut.head?_rest_of_word hc hk

/-- The scanner behind so many items. -/
def skip (s : Scanner) (n : Nat) : Scanner := (fun scanner : Scanner => scanner.next.2)^[n] s

theorem head?_items (s : Scanner) : s.items.head? = some s.next.1 := by
  unfold items
  split <;> rfl

theorem getElem_items {s : Scanner} (i : Nat) (h : i < s.items.length) :
    s.items[i] = (s.skip i).next.1 := by
  fun_induction items s generalizing i with
  | case1 s hg =>
    obtain rfl : i = 0 := by simpa using h
    rfl
  | case2 s hg ih =>
    cases i with
    | zero => rfl
    | succ i => exact ih i (by simpa using h)

theorem IsIn.skip (h : s.IsIn source) (n : Nat) : (s.skip n).IsIn source := by
  induction n with
  | zero => exact h
  | succ n ih =>
    rw [Scanner.skip, Function.iterate_succ_apply']
    exact ih.next

theorem exists_next_of_leading {t : Token} (h : t ∈ s.leading) :
    ∃ n s', (s.skip n).next = (.ok t, s') := by
  have hmem := (prefix_leadingTokens s.items).subset (List.mem_map_of_mem h)
  obtain ⟨n, hn, hitem⟩ := List.mem_iff_getElem.mp hmem
  rw [getElem_items] at hitem
  exact ⟨n, _, Prod.ext hitem rfl⟩

/-- What holds of all items one behind the other holds of the tokens in front of the first error. -/
theorem pairwise_leading {R : Except LexError Token → Except LexError Token → Prop}
    (h : s.items.Pairwise R) : s.leading.Pairwise fun t u => R (.ok t) (.ok u) := by
  have hitems := h.sublist (prefix_leadingTokens s.items).sublist
  rwa [List.pairwise_map] at hitems

theorem length_rest_skip_lt {s : Scanner} (i : Nat) (h : i + 1 < s.items.length) :
    (s.skip (i + 1)).rest.length < (s.skip i).rest.length := by
  fun_induction items s generalizing i with
  | case1 s hg => simp at h
  | case2 s hg ih =>
    cases i with
    | zero => exact next_rest_lt hg
    | succ i => exact ih i (by simpa using h)

theorem offset_place_le_start (s : Scanner) : s.place.offset ≤ s.start.offset := by
  rw [start, Location.offset_afterAll]
  omega

theorem offset_start_le_next (s : Scanner) : s.start.offset ≤ s.next.2.place.offset := by
  rcases s.next_cases with ⟨-, hn⟩ | ⟨c, cs, -, -, hn⟩ | ⟨c, cs, cut, value, -, -, -, hn⟩
  · rw [hn]
  · rw [hn, Location.offset_afterAll]
    omega
  · rw [hn, Location.offset_afterAll]
    omega

theorem proper_itemSpan_next (s : Scanner) :
    (itemSpan s.next.1).start.offset ≤ (itemSpan s.next.1).stop.offset := by
  rw [start_itemSpan_next, stop_itemSpan_next]
  exact s.offset_start_le_next

theorem proper_itemSpan {s : Scanner} : ∀ item ∈ s.items,
    (itemSpan item).start.offset ≤ (itemSpan item).stop.offset := by
  fun_induction items s with
  | case1 s hg => simpa using s.proper_itemSpan_next
  | case2 s hg ih => exact List.forall_mem_cons.mpr ⟨s.proper_itemSpan_next, ih⟩

theorem offset_place_le_of_mem {s : Scanner} : ∀ item ∈ s.items,
    s.place.offset ≤ (itemSpan item).start.offset := by
  fun_induction items s with
  | case1 s hg => simpa [start_itemSpan_next] using s.offset_place_le_start
  | case2 s hg ih =>
    refine List.forall_mem_cons.mpr ⟨?_, fun item hitem => ?_⟩
    · rw [start_itemSpan_next]
      exact s.offset_place_le_start
    · exact s.offset_place_le_start.trans (s.offset_start_le_next.trans (ih item hitem))

theorem pairwise_items (s : Scanner) :
    s.items.Pairwise fun a b => (itemSpan a).stop.offset ≤ (itemSpan b).start.offset := by
  fun_induction items s with
  | case1 s hg => exact List.pairwise_singleton _ _
  | case2 s hg ih =>
    refine List.pairwise_cons.mpr ⟨fun item hitem => ?_, ih⟩
    rw [stop_itemSpan_next]
    exact offset_place_le_of_mem item hitem

/-- Scanning goes on until the whole source is used up. -/
theorem IsIn.exists_finish (h : s.IsIn source) :
    ∃ (front : List (Except LexError Token)) (t : Token) (place : Location),
      s.items = front ++ [.ok t] ∧ t.kind = .finish ∧ t.span = .point place ∧
      place.offset = source.utf8ByteSize ∧ ∀ item ∈ front, isFinishItem item = false := by
  fun_induction items s with
  | case1 s hg =>
    obtain ⟨front, hcuts⟩ := h.cuts_gap
    have hsize : s.start.offset = source.utf8ByteSize := by
      rw [hcuts.offset_stop, ← String.utf8Len_toList, hcuts.source_eq, hg, List.append_nil]
    refine ⟨[], ⟨.finish, .point s.start, "", s.onNewLine, none⟩, s.start, ?_, rfl, rfl, hsize,
      by simp⟩
    simp [Scanner.next, hg, start, onNewLine]
  | case2 s hg ih =>
    obtain ⟨front, t, place, hitems, hkind, hspan, hplace, hfront⟩ := ih h.next
    refine ⟨s.next.1 :: front, t, place, by rw [hitems, List.cons_append], hkind, hspan, hplace, ?_⟩
    refine List.forall_mem_cons.mpr ⟨?_, hfront⟩
    exact Bool.eq_false_iff.mpr fun hf => hg (s.isFinishItem_next.mp hf)

theorem IsIn.isChain_items (h : s.IsIn source) :
    s.items.IsChain fun a b => GapTo source (itemSpan a).stop b := by
  fun_induction items s with
  | case1 s hg => exact List.isChain_singleton _
  | case2 s hg ih =>
    refine List.isChain_cons.mpr ⟨fun item hitem => ?_, ih h.next⟩
    rw [head?_items, Option.mem_some_iff] at hitem
    rw [stop_itemSpan_next, ← hitem]
    exact h.next.gapTo_next

theorem IsIn.isExactItem_of_mem (h : s.IsIn source) : ∀ item ∈ s.items,
    IsExactItem source item := by
  fun_induction items s with
  | case1 s hg => simpa using h.isExactItem_next
  | case2 s hg ih => exact List.forall_mem_cons.mpr ⟨h.isExactItem_next, ih h.next⟩

/-- What the items of a source are if nothing of the source is lost. -/
structure Covers (source : String) (items : List (Except LexError Token)) : Prop where
  /-- They come from scanning step by step. -/
  scanned : ∀ i (h : i < items.length), items[i] = ((ofString source).skip i).next.1
  /-- Each step but the last takes a character at least. -/
  consumed : ∀ i, i + 1 < items.length →
    ((ofString source).skip (i + 1)).rest.length < ((ofString source).skip i).rest.length
  /-- The last item is the only end token, and it stands at the end of the source. -/
  finish : ∃ (front : List (Except LexError Token)) (t : Token) (place : Location),
    items = front ++ [.ok t] ∧ t.kind = .finish ∧ t.span = .point place ∧
    place.offset = source.utf8ByteSize ∧ ∀ item ∈ front, isFinishItem item = false
  /-- The byte ranges of the items are in order and disjoint. -/
  ordered : items.Pairwise fun a b => (itemSpan a).stop.offset ≤ (itemSpan b).start.offset
  proper : ∀ item ∈ items, (itemSpan item).start.offset ≤ (itemSpan item).stop.offset
  /-- There are only gaps in front of the first item and between the items. -/
  gap : ∀ item ∈ items.head?, GapTo source .start item
  gaps : items.IsChain fun a b => GapTo source (itemSpan a).stop b
  /-- Each item is the piece of the source in its span. -/
  exact : ∀ item ∈ items, IsExactItem source item

/-- Scanning loses nothing of any source. -/
theorem items_cover (source : String) : Covers source (ofString source).items := by
  have hin := isIn_ofString source
  exact {
    scanned := getElem_items
    consumed := length_rest_skip_lt
    finish := hin.exists_finish
    ordered := pairwise_items _
    proper := proper_itemSpan
    gap := by
      intro item hitem
      rw [head?_items, Option.mem_some_iff] at hitem
      exact hitem ▸ hin.gapTo_next
    gaps := hin.isChain_items
    exact := hin.isExactItem_of_mem }

end Scanner
end ConstraintText

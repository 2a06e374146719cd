import ConstraintText.Proofs.Diagnostics

/-!
# Tokens that begin a line

A token says whether it is the first one on its line. The scanner carries this flag from item to
item: a line feed in a gap raises it, a token takes it along and lowers it, and nothing else does
either. So the flag of a token tells whether a line feed stands between the token before it and
itself, whatever comments, other blanks and errors there are between them.
-/
namespace ConstraintText

def lastToken? (items : List (Except LexError Token)) : Option Token :=
  (items.filterMap Except.toOption).getLast?

theorem lastToken?_cons (item : Except LexError Token) (items : List (Except LexError Token)) :
    lastToken? (item :: items) = (lastToken? items).or item.toOption := by
  cases item with
  | error e => simp [lastToken?, Except.toOption]
  | ok t => simp [lastToken?, Except.toOption, List.getLast?_cons, Option.or_some]

/-- Whether the flag of a token is right, given the token before it: the first token has it, and
another one has it if there is a line feed between the two, that is, if it is on a later line. -/
def Token.HasFlagAfter (source : String) (t : Token) : Option Token → Prop
  | none => t.onNewLine = true
  | some u => ∃ between, Span.lexeme? source ⟨u.span.stop, t.span.start⟩ = some between ∧
      (t.onNewLine = true ↔ '\n' ∈ between.toList) ∧
      (t.onNewLine = true ↔ u.span.stop.line < t.span.start.line)

namespace Scanner

variable {source : String} {s : Scanner} {last : Option Token}

/-- The flag of a scanner in a source, given the last token: whether there is a line feed in what
the scanner has passed since. -/
def HasFlagSince (source : String) (s : Scanner) : Option Token → Prop
  | none => s.newLine = true ∧ s.IsIn source
  | some u => ∃ front between, Span.Cuts source ⟨u.span.stop, s.place⟩ front between s.rest ∧
      (s.newLine = true ↔ '\n' ∈ between)

theorem HasFlagSince.isIn (h : s.HasFlagSince source last) : s.IsIn source := by
  cases last with
  | none => exact h.2
  | some u =>
    obtain ⟨front, between, ⟨hsource, hstart, hstop⟩, -⟩ := h
    refine ⟨front ++ between, hsource, ?_⟩
    rw [Location.afterAll_append, ← hstart]
    exact hstop

theorem onNewLine_iff (s : Scanner) :
    s.onNewLine = true ↔ s.newLine = true ∨ '\n' ∈ gap false s.rest := by
  simp [onNewLine]

/-- An error leaves the flag as the gap in front of it has left it. -/
theorem newLine_next_of_error {e : LexError} (h : s.next.1 = .error e) :
    s.next.2.newLine = s.onNewLine := by
  rcases s.next_cases with ⟨-, hn⟩ | ⟨c, cs, -, -, hn⟩ | ⟨c, cs, cut, value, -, -, -, hn⟩
  · simp [hn] at h
  · rw [hn]
  · simp [hn] at h

theorem newLine_next_of_token {t : Token} (h : s.next.1 = .ok t) :
    t.onNewLine = s.onNewLine ∧ s.next.2.newLine = false := by
  rcases s.next_cases with ⟨-, hn⟩ | ⟨c, cs, -, -, hn⟩ | ⟨c, cs, cut, value, -, -, -, hn⟩
  · rw [hn] at h ⊢
    obtain rfl := Except.ok.inj h
    exact ⟨rfl, rfl⟩
  · simp [hn] at h
  · rw [hn] at h ⊢
    obtain rfl := Except.ok.inj h
    exact ⟨rfl, rfl⟩

theorem HasFlagSince.cuts_gap {u : Token} (h : s.HasFlagSince source (some u)) :
    ∃ front between, Span.Cuts source ⟨u.span.stop, s.start⟩ front between
      (afterGap false s.rest) ∧ (s.onNewLine = true ↔ '\n' ∈ between) := by
  obtain ⟨front, between, ⟨hsource, hstart, hstop⟩, hflag⟩ := h
  refine ⟨front, between ++ gap false s.rest, ⟨?_, hstart, ?_⟩, ?_⟩
  · rw [hsource]
    simp only [List.append_assoc, gap_append]
  · rw [Location.afterAll_append, ← hstop, start]
  · rw [onNewLine_iff, hflag, List.mem_append]

theorem HasFlagSince.hasFlagAfter {t : Token} (h : s.HasFlagSince source last)
    (ht : s.next.1 = .ok t) : t.HasFlagAfter source last := by
  have hflag := (newLine_next_of_token ht).1
  have hplace : t.span.start = s.start := by
    have hspan := s.start_itemSpan_next
    rwa [ht] at hspan
  cases last with
  | none =>
    rw [Token.HasFlagAfter, hflag, onNewLine_iff]
    exact .inl h.1
  | some u =>
    obtain ⟨front, between, hcuts, hline⟩ := h.cuts_gap
    rw [← hplace] at hcuts
    rw [← hflag] at hline
    refine ⟨_, hcuts.lexeme?, by rwa [String.toList_ofList], hline.trans ?_⟩
    obtain ⟨-, hstart, hstop⟩ := hcuts
    have hfront : u.span.stop.line = 1 + front.count '\n' := by
      rw [← Location.line_afterAll_start, ← hstart]
    have hboth : t.span.start.line = 1 + (front ++ between).count '\n' := by
      rw [← Location.line_afterAll_start, Location.afterAll_append, ← hstart, ← hstop]
    rw [hfront, hboth, List.count_append, ← List.count_pos_iff]
    omega

/-- One step of the scanner keeps its flag right. -/
theorem HasFlagSince.next (h : s.HasFlagSince source last) :
    s.next.2.HasFlagSince source (s.next.1.toOption.or last) := by
  have hin := h.isIn.next
  cases hitem : s.next.1 with
  | ok t =>
    have hstop : t.span.stop = s.next.2.place := by
      have hspan := s.stop_itemSpan_next
      rwa [hitem] at hspan
    obtain ⟨front, hsource, hplace⟩ := hin
    refine ⟨front, [], ⟨by rw [List.append_nil, hsource], hstop.trans hplace, hstop.symm⟩, ?_⟩
    simp [(newLine_next_of_token hitem).2]
  | error e =>
    have hflag := newLine_next_of_error hitem
    cases last with
    | none =>
      refine ⟨?_, hin⟩
      rw [hflag, onNewLine_iff]
      exact .inl h.1
    | some u =>
      obtain ⟨front, between, hcuts, hline⟩ := h.cuts_gap
      rcases s.next_cases with ⟨-, hn⟩ | ⟨c, cs, hg, -, hn⟩ | ⟨c, cs, cut, value, -, -, -, hn⟩
      · simp [hn] at hitem
      · -- the character that begins no token is none that ends a line
        have hc : c ≠ '\n' := by
          rintro rfl
          exact absurd (isBlank_of_afterGap hg) (by decide)
        rw [hg] at hcuts
        obtain ⟨hsource, hstart, hstop⟩ := hcuts
        refine ⟨front, between ++ [c], ⟨?_, hstart, ?_⟩, ?_⟩
        · simpa [hn] using hsource
        · rw [Location.afterAll_append, ← hstop, hn]
        · rw [hflag, hline]
          simpa using fun he : '\n' = c => absurd he.symm hc
      · simp [hn] at hitem

/-- Every token of a run has the right flag, whatever errors stand between it and the token
before it. -/
theorem HasFlagSince.of_items {front back : List (Except LexError Token)} {t : Token}
    (h : s.HasFlagSince source last) (hitems : s.items = front ++ .ok t :: back) :
    t.HasFlagAfter source ((lastToken? front).or last) := by
  induction front generalizing s last with
  | nil =>
    refine h.hasFlagAfter ?_
    have hhead := s.head?_items
    rw [hitems] at hhead
    exact (Option.some.inj hhead).symm
  | cons item front ih =>
    by_cases hg : afterGap false s.rest = []
    · rw [items, if_pos hg] at hitems
      simp at hitems
    · rw [items, if_neg hg, List.cons_append, List.cons.injEq] at hitems
      rw [lastToken?_cons, Option.or_assoc, ← hitems.1]
      exact ih h.next hitems.2

/-- In every source a token begins a line exactly if it is the first one or there is a line feed
between the token before it and itself, that is, if it is on a later line than the end of that
token. From item to item the flag is raised by line feeds in a gap and by nothing else, errors
leave it, and tokens lower it. -/
theorem onNewLine_of_items (source : String) :
    (∀ (front back : List (Except LexError Token)) (t : Token),
      (ofString source).items = front ++ .ok t :: back → t.HasFlagAfter source (lastToken? front)) ∧
    ∀ s : Scanner, match s.next.1 with
      | .error _ => s.next.2.newLine = true ↔ s.newLine = true ∨ '\n' ∈ gap false s.rest
      | .ok t => (t.onNewLine = true ↔ s.newLine = true ∨ '\n' ∈ gap false s.rest) ∧
          s.next.2.newLine = false := by
  refine ⟨fun front back t hitems => ?_, fun s => ?_⟩
  · have h : (ofString source).HasFlagSince source none := ⟨rfl, isIn_ofString source⟩
    simpa using h.of_items hitems
  · split
    · rename_i e he
      rw [newLine_next_of_error he, onNewLine_iff]
    · rename_i t ht
      rw [(newLine_next_of_token ht).1, onNewLine_iff]
      exact ⟨Iff.rfl, (newLine_next_of_token ht).2⟩

/-- A token behind a comment with a carriage return, a line feed and two characters that begin no
token, one on each side of the line feed. -/
theorem onNewLine_of_items_behind_errors :
    let source := "a * # b\r -\n? \u2028c"
    let a : Token := ⟨.identifier, ⟨⟨1, 1, 0⟩, ⟨1, 2, 1⟩⟩, "a", true, none⟩
    let c : Token := ⟨.identifier, ⟨⟨2, 4, 16⟩, ⟨2, 5, 17⟩⟩, "c", true, none⟩
    let front : List (Except LexError Token) :=
      [.ok a, .error ⟨.unexpectedChar '*', ⟨⟨1, 3, 2⟩, ⟨1, 4, 3⟩⟩⟩,
        .error ⟨.unexpectedChar '?', ⟨⟨2, 1, 11⟩, ⟨2, 2, 12⟩⟩⟩]
    let finish : Token := ⟨.finish, .point ⟨2, 5, 17⟩, "", false, none⟩
    (ofString source).items = front ++ .ok c :: [.ok finish] ∧
      c.HasFlagAfter source (lastToken? front) ∧ lastToken? front = some a := by
  intro source a c front finish
  have hitems : (ofString source).items = front ++ .ok c :: [.ok finish] := by
    unfold source front a c finish
    cbv
  exact ⟨hitems, (onNewLine_of_items source).1 front [.ok finish] c hitems, rfl⟩

end Scanner
end ConstraintText

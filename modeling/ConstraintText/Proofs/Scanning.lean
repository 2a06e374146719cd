import ConstraintText.Proofs.Tokens

/-!
# Scanning pieces of a text

A lexeme is cut off with the one character behind it in view at most, so a piece of a text has its
tokens whatever stands behind, as long as that begins with the same character. A closing brace is
cut off without a look behind it.
-/
namespace ConstraintText

/-- Whether a lexeme of a kind goes on with a character, where one stands behind it. -/
def TokenKind.goesOn (kind : TokenKind) (c : Char) : Bool :=
  match kind with
  | .integer => c.isDigit
  | .identifier | .andWord | .existsWord => Character.continuesIdentifier c
  | .minus => c.isDigit || c == '>'
  | .less | .greater => c == '='
  | _ => false

namespace Cut

variable {p : Char → Bool} {c : Char} {cs rest : List Char}

theorem takeWhile_append_of_head? (hcs : ∀ a ∈ cs, p a = true)
    (hr : ∀ a ∈ rest.head?, p a = false) :
    (cs ++ rest).takeWhile p = cs ∧ (cs ++ rest).dropWhile p = rest := by
  rw [List.takeWhile_append_of_pos hcs, List.dropWhile_append_of_pos hcs]
  cases rest with
  | nil => simp
  | cons a rest => simp [hr a (by simp)]

theorem head?_dropWhile : ∀ a ∈ (cs.dropWhile p).head?, p a = false := by
  intro a ha
  have := List.head?_dropWhile_not p cs
  rwa [Option.mem_def.mp ha] at this

theorem goesOn_word (c d : Char) (cs : List Char) :
    (word c cs).kind.goesOn d = Character.continuesIdentifier d := by
  have hk := kind_word c cs
  simp only [List.mem_cons, List.not_mem_nil, or_false] at hk
  rcases hk with hk | hk | hk <;> rw [hk] <;> rfl

theorem number_append_rest (hr : ∀ d ∈ rest.head?, d.isDigit = false) :
    number ((number cs).tail ++ rest) = ⟨.integer, (number cs).tail, rest⟩ := by
  have hdigits : ∀ d ∈ (number cs).tail, d.isDigit = true := fun d hd => List.mem_takeWhile_imp hd
  obtain ⟨ht, hd⟩ := takeWhile_append_of_head? hdigits hr
  rw [number, ht, hd]

theorem word_append_rest (hr : ∀ d ∈ rest.head?, Character.continuesIdentifier d = false) :
    word c ((word c cs).tail ++ rest) = ⟨(word c cs).kind, (word c cs).tail, rest⟩ := by
  have htail : ∀ d ∈ (word c cs).tail, Character.continuesIdentifier d = true :=
    fun d hd => List.mem_takeWhile_imp hd
  obtain ⟨ht, hd⟩ := takeWhile_append_of_head? htail hr
  rw [word, ht, hd]
  rfl

theorem pair_append_rest (d : Char) (short long : TokenKind)
    (hr : cs.head? ≠ some d → rest.head? ≠ some d) :
    pair d short long ((pair d short long cs).tail ++ rest) =
      ⟨(pair d short long cs).kind, (pair d short long cs).tail, rest⟩ := by
  by_cases hd : cs.head? = some d
  · simp [pair, hd]
  · simp [pair, hd, hr hd]

theorem dash_append_rest (hr : ∀ d ∈ rest.head?, (dash cs).kind.goesOn d = false) :
    dash ((dash cs).tail ++ rest) = ⟨(dash cs).kind, (dash cs).tail, rest⟩ := by
  by_cases hd : (cs.head?.any Char.isDigit) = true
  · simp only [dash, if_pos hd] at hr ⊢
    have hfirst : (((number cs).tail ++ rest).head?.any Char.isDigit) = true := by
      cases cs with
      | nil => simp at hd
      | cons a cs =>
        simp only [List.head?_cons, Option.any_some] at hd
        simp [number, hd]
    rw [if_pos hfirst, number_append_rest hr]
    rfl
  · simp only [dash, if_neg hd] at hr ⊢
    by_cases hg : cs.head? = some '>'
    · simp [pair, hg, Char.isDigit]
    · have hrest : ∀ d ∈ rest.head?, d.isDigit = false ∧ d ≠ '>' := by
        simpa [pair, hg, TokenKind.goesOn] using hr
      have hfirst : ¬ (rest.head?.any Char.isDigit) = true := by
        cases rest with
        | nil => simp
        | cons d rest => simpa using (hrest d (by simp)).1
      have hsecond : rest.head? ≠ some '>' := fun he => (hrest _ he).2 rfl
      simp [pair, hg, hfirst, hsecond]

theorem ofChars?_append_of_goesOn {cut : Cut} (hc : ofChars? c cs = some cut)
    (hr : ∀ d ∈ rest.head?, cut.kind.goesOn d = false) :
    ofChars? c (cut.tail ++ rest) = some ⟨cut.kind, cut.tail, rest⟩ := by
  unfold ofChars? at hc ⊢
  split at hc
  · obtain rfl := Option.some.inj hc
    simp
  · have hpair : ∀ {d : Char} {short long : TokenKind}, (∀ e, short.goesOn e = (e == d)) →
        (∀ e ∈ rest.head?, (pair d short long cs).kind.goesOn e = false) →
        cs.head? ≠ some d → rest.head? ≠ some d := by
      intro d short long hshort hgoes hd he
      have := hgoes d he
      simp [pair, hd, hshort] at this
    repeat' split at hc
    all_goals try obtain rfl := Option.some.inj hc
    · rw [if_pos ‹_›, dash_append_rest hr]
    · rw [if_neg ‹_›, if_pos ‹_›, pair_append_rest _ _ _ (hpair (fun _ => rfl) hr)]
    · rw [if_neg ‹_›, if_neg ‹_›, if_pos ‹_›, pair_append_rest _ _ _ (hpair (fun _ => rfl) hr)]
    · rw [if_neg ‹_›, if_neg ‹_›, if_neg ‹_›, if_pos ‹_›, number_append_rest hr]
      rfl
    · simp only [goesOn_word] at hr
      rw [if_neg ‹_›, if_neg ‹_›, if_neg ‹_›, if_neg ‹_›, if_pos ‹_›, word_append_rest hr]
    · simp at hc

theorem goesOn_rest_pair {d : Char} {short long : TokenKind}
    (hshort : ∀ e, short.goesOn e = (e == d)) (hlong : ∀ e, long.goesOn e = false) :
    ∀ e ∈ (pair d short long cs).rest.head?, (pair d short long cs).kind.goesOn e = false := by
  intro e he
  by_cases hd : cs.head? = some d
  · simp [pair, hd, hlong]
  · simp only [pair, if_neg hd] at he ⊢
    rw [hshort, beq_eq_false_iff_ne]
    rintro rfl
    exact hd he

theorem goesOn_rest_dash : ∀ d ∈ (dash cs).rest.head?, (dash cs).kind.goesOn d = false := by
  intro d hd
  by_cases hdigit : (cs.head?.any Char.isDigit) = true
  · simp only [dash, if_pos hdigit] at hd ⊢
    exact head?_dropWhile d hd
  · simp only [dash, if_neg hdigit] at hd ⊢
    by_cases hg : cs.head? = some '>'
    · simp [pair, hg, TokenKind.goesOn]
    · simp only [pair, if_neg hg, Option.mem_def] at hd ⊢
      simp_all [TokenKind.goesOn]

theorem goesOn_rest {cut : Cut} (hc : ofChars? c cs = some cut) :
    ∀ d ∈ cut.rest.head?, cut.kind.goesOn d = false := by
  unfold ofChars? at hc
  split at hc
  · rename_i kind hs
    obtain rfl := Option.some.inj hc
    have hkind : ∀ p ∈ symbols, ∀ d, p.2.goesOn d = false := by simp [symbols, TokenKind.goesOn]
    exact fun d _ => hkind _ (mem_symbols hs) d
  · repeat' split at hc
    all_goals try obtain rfl := Option.some.inj hc
    · exact goesOn_rest_dash
    · exact goesOn_rest_pair (fun _ => rfl) (fun _ => rfl)
    · exact goesOn_rest_pair (fun _ => rfl) (fun _ => rfl)
    · exact head?_dropWhile
    · intro d hd
      rw [goesOn_word]
      exact head?_dropWhile d hd
    · simp at hc

theorem ofChars?_append_rest {cut : Cut} (hc : ofChars? c cs = some cut)
    (h : rest.head? = cut.rest.head?) :
    ofChars? c (cut.tail ++ rest) = some ⟨cut.kind, cut.tail, rest⟩ :=
  ofChars?_append_of_goesOn hc (h ▸ goesOn_rest hc)

theorem mem_symbols_of_kind {cut : Cut} (hc : ofChars? c cs = some cut)
    (hk : cut.kind ∉ longKinds) : (c, cut.kind) ∈ symbols ∧ cut = ⟨cut.kind, [], cs⟩ := by
  cases hs : symbol? c with
  | none => exact absurd (kind_of_symbol?_eq_none hs hc) hk
  | some kind =>
    simp only [ofChars?, hs, Option.some.injEq] at hc
    subst hc
    exact ⟨mem_symbols hs, rfl⟩

theorem eq_of_rightBrace {cut : Cut} (hc : ofChars? c cs = some cut)
    (hk : cut.kind = .rightBrace) : c = '}' ∧ cut = ⟨.rightBrace, [], cs⟩ := by
  have hbrace : ∀ p ∈ symbols, p.2 = .rightBrace → p.1 = '}' := by decide
  obtain ⟨hmem, hcut⟩ := mem_symbols_of_kind hc (by rw [hk]; decide)
  rw [hk] at hmem hcut
  exact ⟨hbrace _ hmem rfl, hcut⟩

def item (cut : Cut) (c : Char) (start : Location) (newLine : Bool) : Except LexError Token :=
  let chars := c :: cut.tail
  let lexeme := String.ofList chars
  let span : Span := ⟨start, start.afterAll chars⟩
  if cut.kind = .integer then
    match Decimal.integer? chars with
    | none => .error ⟨.invalidNumber lexeme, span⟩
    | some value => .ok ⟨.integer, span, lexeme, newLine, some value⟩
  else .ok ⟨cut.kind, span, lexeme, newLine, none⟩

theorem kind_of_item {cut : Cut} {start : Location} {newLine : Bool} {t : Token}
    (h : cut.item c start newLine = .ok t) : t.kind = cut.kind := by
  by_cases hk : cut.kind = .integer
  · simp only [item, if_pos hk] at h
    cases hv : Decimal.integer? (c :: cut.tail) with
    | none => simp [hv] at h
    | some value =>
      simp only [hv, Except.ok.injEq] at h
      rw [← h, hk]
  · simp only [item, if_neg hk, Except.ok.injEq] at h
    rw [← h]

end Cut

namespace Scanner

theorem gap_append_of_afterGap {inComment : Bool} {cs : List Char} {c : Char} {ds : List Char}
    (h : afterGap inComment cs = c :: ds) (es : List Char) :
    gap inComment (gap inComment cs ++ c :: es) = gap inComment cs ∧
      afterGap inComment (gap inComment cs ++ c :: es) = c :: es := by
  fun_induction gap inComment cs <;> simp_all [afterGap, gap]

variable {s s' : Scanner} {c : Char} {cs : List Char}

def start (s : Scanner) : Location := s.place.afterAll (gap false s.rest)

def onNewLine (s : Scanner) : Bool := s.newLine || (gap false s.rest).contains '\n'

theorem next_of_cut {cut : Cut} (hg : afterGap false s.rest = c :: cs)
    (hc : Cut.ofChars? c cs = some cut) :
    s.next = (cut.item c s.start s.onNewLine,
      ⟨cut.rest, s.start.afterAll (c :: cut.tail), false⟩) := by
  by_cases hk : cut.kind = .integer
  · cases hv : Decimal.integer? (c :: cut.tail) <;>
      simp only [next, hg, hc, Cut.item, start, onNewLine, if_pos hk, hv]
  · simp only [next, hg, hc, Cut.item, start, onNewLine, if_neg hk]

theorem exists_cut {t : Token} (h : s.next = (.ok t, s')) (ht : t.isFinish = false) :
    ∃ c cs cut, afterGap false s.rest = c :: cs ∧ Cut.ofChars? c cs = some cut := by
  cases hg : afterGap false s.rest with
  | nil => simp [(isFinish_next h).mpr hg] at ht
  | cons c cs =>
    cases hc : Cut.ofChars? c cs with
    | none => simp [next, hg, hc] at h
    | some cut => exact ⟨c, cs, cut, rfl, hc⟩

/-- The next token stays the same when what stands behind it begins alike; a closing brace stays
the same in any case. -/
theorem next_append_rest {t : Token} (h : s.next = (.ok t, s')) (ht : t.isFinish = false) :
    ∃ used, used ≠ [] ∧ s.rest = used ++ s'.rest ∧
      (t.kind = .rightBrace → used.getLast? = some '}') ∧
      ∀ rest, rest.head? = s'.rest.head? ∨ t.kind = .rightBrace →
        next ⟨used ++ rest, s.place, s.newLine⟩ = (.ok t, ⟨rest, s'.place, s'.newLine⟩) := by
  obtain ⟨c, cs, cut, hg, hc⟩ := exists_cut h ht
  rw [next_of_cut hg hc, Prod.mk.injEq] at h
  obtain ⟨hitem, rfl⟩ := h
  have hkind := Cut.kind_of_item hitem
  refine ⟨gap false s.rest ++ c :: cut.tail, by simp, ?_, ?_, ?_⟩
  · rw [List.append_assoc, List.cons_append, Cut.append_of_ofChars? hc, ← hg, gap_append]
  · intro hb
    obtain ⟨rfl, rfl⟩ := Cut.eq_of_rightBrace hc (hkind ▸ hb)
    simp
  · intro rest hr
    have hcut : Cut.ofChars? c (cut.tail ++ rest) = some ⟨cut.kind, cut.tail, rest⟩ := by
      rcases hr with hr | hb
      · exact Cut.ofChars?_append_rest hc hr
      · obtain ⟨rfl, rfl⟩ := Cut.eq_of_rightBrace hc (hkind ▸ hb)
        rfl
    obtain ⟨hgap, hafter⟩ := gap_append_of_afterGap hg (cut.tail ++ rest)
    rw [List.append_assoc, List.cons_append, next_of_cut hafter hcut]
    simp only [start, onNewLine, hgap]
    exact Prod.ext hitem rfl

/-- Scanning yields these tokens one after the other and comes to the second scanner. -/
inductive Scans : Scanner → List Token → Scanner → Prop
  | nil (s : Scanner) : Scans s [] s
  | cons {s s' s'' : Scanner} {t : Token} {ts : List Token} (h : s.next = (.ok t, s'))
      (ht : t.isFinish = false) (hs : Scans s' ts s'') : Scans s (t :: ts) s''

theorem Scans.append {s s' s'' : Scanner} {ts us : List Token} (h : Scans s ts s')
    (h' : Scans s' us s'') : Scans s (ts ++ us) s'' := by
  induction h with
  | nil s => exact h'
  | cons hn ht _ ih => exact .cons hn ht (ih h')

theorem Scans.leading {s s' : Scanner} {ts : List Token} (h : Scans s ts s') :
    s.leading = ts ++ s'.leading := by
  induction h with
  | nil s => rfl
  | cons hn ht _ ih => rw [leading_of_token hn ht, ih, List.cons_append]

/-- A piece of a text that ends with a closing brace has its tokens whatever stands behind. -/
theorem Scans.append_rest {s s' : Scanner} {ts : List Token} (h : Scans s ts s') :
    ∃ used, s.rest = used ++ s'.rest ∧ (ts = [] ↔ used = []) ∧
      ((∀ t ∈ ts.getLast?, t.kind = .rightBrace) →
        (ts ≠ [] → used.getLast? = some '}') ∧
        ∀ rest, Scans ⟨used ++ rest, s.place, s.newLine⟩ ts ⟨rest, s'.place, s'.newLine⟩) := by
  induction h with
  | nil s => exact ⟨[], rfl, by simp, fun _ => ⟨by simp, fun rest => .nil _⟩⟩
  | @cons s s₁ s' t ts hn ht _ ih =>
    obtain ⟨used, hu, hempty, hbrace⟩ := ih
    obtain ⟨front, hne, hf, hlast, hnext⟩ := next_append_rest hn ht
    refine ⟨front ++ used, by rw [hf, hu, List.append_assoc], by simp [hne], fun hend => ?_⟩
    cases ts with
    | nil =>
      obtain rfl := hempty.mp rfl
      have hk : t.kind = .rightBrace := hend t (by simp)
      refine ⟨fun _ => by simpa using hlast hk, fun rest => ?_⟩
      obtain ⟨-, hscans⟩ := hbrace (by simp)
      refine .cons ?_ ht (hscans rest)
      simpa using hnext rest (.inr hk)
    | cons u ts =>
      have hused : used ≠ [] := fun he => by simpa using hempty.mpr he
      obtain ⟨hlast', hscans⟩ := hbrace (by simpa using hend)
      refine ⟨fun _ => ?_, fun rest => ?_⟩
      · rw [List.getLast?_append_of_ne_nil _ hused]
        exact hlast' (by simp)
      · refine .cons ?_ ht (hscans rest)
        rw [List.append_assoc]
        refine hnext _ (.inl ?_)
        rw [hu, List.head?_append_of_ne_nil _ hused, List.head?_append_of_ne_nil _ hused]

end Scanner

namespace TokenStream

/-- The stream yields these tokens one after the other and becomes the second stream. -/
inductive Takes : TokenStream → List Token → TokenStream → Prop
  | nil (s : TokenStream) : Takes s [] s
  | cons {s s' s'' : TokenStream} {t : Token} {ts : List Token}
      (h : s.next = (.ok (some t), s')) (hs : Takes s' ts s'') : Takes s (t :: ts) s''

theorem next_of_scan {scanner : Scanner} {t : Token} {s' : TokenStream}
    (h : next ⟨scanner, none⟩ = (.ok (some t), s')) :
    scanner.next = (.ok t, s'.scanner) ∧ t.isFinish = false ∧ s'.pending = none := by
  rcases hn : scanner.next with ⟨item, scanner'⟩
  cases item with
  | error e => simp [next, scan, hn] at h
  | ok u =>
    cases hu : u.isFinish with
    | true => simp [next, scan, hn, hu] at h
    | false =>
      simp only [next, scan, hn, hu, Bool.false_eq_true, if_false, Prod.mk.injEq, Except.ok.injEq,
        Option.some.injEq] at h
      obtain ⟨rfl, rfl⟩ := h
      exact ⟨rfl, hu, rfl⟩

theorem Takes.scans {s s' : TokenStream} {ts : List Token} (h : Takes s ts s')
    (hp : s.pending = none) : s.scanner.Scans ts s'.scanner ∧ s'.pending = none := by
  induction h with
  | nil s => exact ⟨.nil _, hp⟩
  | @cons s s₁ s' t ts hn _ ih =>
    obtain ⟨scanner, pending⟩ := s
    obtain rfl : pending = none := hp
    obtain ⟨hscan, ht, hp₁⟩ := next_of_scan hn
    exact ⟨.cons hscan ht (ih hp₁).1, (ih hp₁).2⟩

theorem Takes.of_pushed {s s' s'' : TokenStream} {t : Token} {ts : List Token}
    (hn : s.next = (.ok (some t), s')) (h : Takes ⟨s'.scanner, some t⟩ ts s'') (hts : ts ≠ []) :
    Takes s ts s'' := by
  have hp : s'.pending = none := by
    have := s.pending_next
    rwa [hn] at this
  cases h with
  | nil => exact absurd rfl hts
  | cons hn' hs =>
    simp only [next, Prod.mk.injEq, Except.ok.injEq, Option.some.injEq] at hn'
    obtain ⟨rfl, rfl⟩ := hn'
    obtain ⟨scanner, pending⟩ := s'
    obtain rfl : pending = none := hp
    exact .cons hn hs

theorem Takes.of_peek {s s' s'' : TokenStream} {t : Token} {ts : List Token}
    (hp : s.peek = (.ok (some t), s')) (h : Takes s' ts s'') (hts : ts ≠ []) : Takes s ts s'' := by
  obtain ⟨scanner, pending⟩ := s
  cases pending with
  | some held =>
    simp only [peek, Prod.mk.injEq] at hp
    exact hp.2 ▸ h
  | none =>
    rcases hn : scan ⟨scanner, none⟩ with ⟨item, s₁⟩
    cases item with
    | error e => simp [peek, hn] at hp
    | ok u =>
      simp only [peek, hn, Prod.mk.injEq, Except.ok.injEq] at hp
      obtain ⟨rfl, rfl⟩ := hp
      exact .of_pushed hn h hts

end TokenStream
end ConstraintText

import ConstraintText.Proofs.CheckedCounts
import ConstraintText.Proofs.Lexemes

/-!
# Scanning stays within bounds

The scanner once more, with places counted by 64 bits and lexemes cut out of the source between two
of its bytes. The place where a scanner is says how many bytes are behind it, so a cut never splits
a character, and lines and columns are at most one more than bytes. A number that is cut off has a
digit, so the only characters refused are those that begin no lexeme.
-/
namespace ConstraintText

namespace Location

def after64? (l : Location) (c : Char) : Option Location := do
  let offset ← sum64? l.offset c.utf8Size
  if c = '\n' then do
    let line ← sum64? l.line 1
    some ⟨line, 1, offset⟩
  else do
    let column ← sum64? l.column 1
    some ⟨l.line, column, offset⟩

def afterAll64? (l : Location) (cs : List Char) : Option Location := cs.foldlM after64? l

/-- Whether a place can be the one behind so many bytes. -/
structure Fits (n : Nat) (l : Location) : Prop where
  offset : l.offset = n
  line : l.line ≤ n + 1
  column : l.column ≤ n + 1

variable {n : Nat} {l : Location} {c : Char} {cs : List Char}

theorem fits_start : Fits 0 start := ⟨rfl, le_rfl, le_rfl⟩

theorem Fits.after (h : l.Fits n) (c : Char) : (l.after c).Fits (n + c.utf8Size) := by
  obtain ⟨hoffset, hline, hcolumn⟩ := h
  have hsize := c.utf8Size_pos
  unfold Location.after
  split
  · exact ⟨by rw [hoffset], by simp only; omega, by simp only; omega⟩
  · exact ⟨by rw [hoffset], by simp only; omega, by simp only; omega⟩

theorem after64?_eq (h : l.Fits n) (hn : n + c.utf8Size + 1 ≤ Decimal.largestCount) :
    l.after64? c = some (l.after c) := by
  obtain ⟨hoffset, hline, hcolumn⟩ := h
  have hsize := c.utf8Size_pos
  have hbytes : l.offset + c.utf8Size ≤ Decimal.largestCount := by omega
  have hlines : l.line + 1 ≤ Decimal.largestCount := by omega
  have hcolumns : l.column + 1 ≤ Decimal.largestCount := by omega
  simp only [after64?, sum64?_eq hbytes, sum64?_eq hlines, sum64?_eq hcolumns, Location.after,
    Option.bind_eq_bind, Option.bind_some]
  split <;> rfl

theorem Fits.afterAll (h : l.Fits n) (cs : List Char) :
    (l.afterAll cs).Fits (n + String.utf8Len cs) := by
  induction cs generalizing l n with
  | nil => exact h
  | cons c cs ih =>
    have hall := ih (h.after c)
    rwa [Nat.add_assoc, Nat.add_comm c.utf8Size] at hall

/-- Walking over characters passes no place that is too large. -/
theorem afterAll64?_eq (h : l.Fits n) (hn : n + String.utf8Len cs + 1 ≤ Decimal.largestCount) :
    l.afterAll64? cs = some (l.afterAll cs) := by
  induction cs generalizing l n with
  | nil => rfl
  | cons c cs ih =>
    rw [String.utf8Len_cons] at hn
    have hfirst := after64?_eq (c := c) h (by omega)
    have hrest := ih (h.after c) (by omega)
    rw [afterAll64?] at hrest ⊢
    rw [List.foldlM_cons, hfirst]
    exact hrest

end Location

/-- The text between the bytes of a span, if it begins and ends between characters. -/
def Span.lexeme? (source : String) (span : Span) : Option String :=
  let start : String.Pos.Raw := ⟨span.start.offset⟩
  let stop : String.Pos.Raw := ⟨span.stop.offset⟩
  if start.isValid source && stop.isValid source && decide (start ≤ stop) then
    some (start.extract source stop)
  else none

section Pieces

variable {source : String} {front piece back : List Char} {place : Location}

theorem isValid_utf8Len (front back : List Char) :
    String.Pos.Raw.isValid (String.ofList (front ++ back)) ⟨String.utf8Len front⟩ = true := by
  rw [String.Pos.Raw.isValid_eq_true_iff, String.Pos.Raw.isValid_iff_exists_append]
  exact ⟨String.ofList front, String.ofList back, String.ofList_append, by simp⟩

theorem fits_afterAll_start (front : List Char) :
    (Location.start.afterAll front).Fits (String.utf8Len front) := by
  have hall := Location.fits_start.afterAll front
  rwa [Nat.zero_add] at hall

theorem afterAll64?_of_append (h : source.toList = front ++ piece ++ back)
    (hsource : source.utf8ByteSize + 1 ≤ Decimal.largestCount)
    (hplace : place = Location.start.afterAll front) :
    place.afterAll64? piece = some (place.afterAll piece) := by
  have hsize := congrArg String.utf8Len h
  rw [String.utf8Len_toList, String.utf8Len_append, String.utf8Len_append] at hsize
  subst hplace
  exact Location.afterAll64?_eq (fits_afterAll_start front) (by omega)

theorem lexeme?_of_append (h : source.toList = front ++ piece ++ back)
    (hplace : place = Location.start.afterAll front) :
    Span.lexeme? source ⟨place, place.afterAll piece⟩ = some (String.ofList piece) := by
  have hsource : source = String.ofList (front ++ piece ++ back) := by
    rw [← h, String.ofList_toList]
  have hstart := isValid_utf8Len front (piece ++ back)
  have hstop := isValid_utf8Len (front ++ piece) back
  have hextract := String.extract_of_valid front piece back
  rw [← List.append_assoc, ← hsource] at hstart
  rw [String.utf8Len_append, ← hsource] at hstop
  rw [← hsource] at hextract
  have hle : (⟨String.utf8Len front⟩ : String.Pos.Raw) ≤
      ⟨String.utf8Len front + String.utf8Len piece⟩ := Nat.le_add_right _ _
  have hfits := hplace ▸ fits_afterAll_start front
  simp only [Span.lexeme?, hfits.offset, (hfits.afterAll piece).offset, hstart, hstop, hle,
    hextract, Bool.and_self, decide_true, if_true]

end Pieces

namespace Scanner

/-- The next item, with the text of a token cut out of the source. -/
def next64? (source : String) (s : Scanner) : Option (Except LexError Token × Scanner) := do
  let start ← s.place.afterAll64? (gap false s.rest)
  match afterGap false s.rest with
  | [] => do
    let lexeme ← Span.lexeme? source (.point start)
    some (.ok ⟨.finish, .point start, lexeme, s.onNewLine, none⟩, ⟨[], start, false⟩)
  | c :: cs =>
    match Cut.ofChars? c cs with
    | none => do
      let stop ← start.afterAll64? [c]
      some (.error ⟨.unexpectedChar c, ⟨start, stop⟩⟩, ⟨cs, stop, s.onNewLine⟩)
    | some cut => do
      let stop ← start.afterAll64? (c :: cut.tail)
      let lexeme ← Span.lexeme? source ⟨start, stop⟩
      let behind : Scanner := ⟨cut.rest, stop, false⟩
      if cut.kind = .integer then
        match Decimal.integer? lexeme.toList with
        | none => some (.error ⟨.invalidNumber lexeme, ⟨start, stop⟩⟩, behind)
        | some value =>
          some (.ok ⟨.integer, ⟨start, stop⟩, lexeme, s.onNewLine, some value⟩, behind)
      else some (.ok ⟨cut.kind, ⟨start, stop⟩, lexeme, s.onNewLine, none⟩, behind)

/-- Whether a scanner is somewhere in a text: its place is the one behind the text before it. -/
def IsIn (source : String) (s : Scanner) : Prop :=
  ∃ front, source.toList = front ++ s.rest ∧ s.place = Location.start.afterAll front

variable {source : String} {s s' : Scanner}

theorem isIn_ofString (source : String) : (ofString source).IsIn source := ⟨[], rfl, rfl⟩

theorem IsIn.next (h : s.IsIn source) : s.next.2.IsIn source := by
  obtain ⟨front, hsource, hplace⟩ := h
  have hgap := gap_append false s.rest
  cases hg : afterGap false s.rest with
  | nil =>
    rw [hg, List.append_nil] at hgap
    refine ⟨front ++ gap false s.rest, ?_, ?_⟩
    · simpa [Scanner.next, hg, hgap] using hsource
    · simp [Scanner.next, hg, hplace, Location.afterAll_append]
  | cons c cs =>
    rw [hg] at hgap
    cases hc : Cut.ofChars? c cs with
    | none =>
      refine ⟨front ++ gap false s.rest ++ [c], ?_, ?_⟩
      · simpa [Scanner.next, hg, hc, hgap] using hsource
      · simp [Scanner.next, hg, hc, hplace, Location.afterAll_append]
    | some cut =>
      have htail := Cut.append_of_ofChars? hc
      rw [next_of_cut hg hc]
      refine ⟨front ++ gap false s.rest ++ c :: cut.tail, ?_, ?_⟩
      · simpa [htail, hgap] using hsource
      · simp [start, hplace, Location.afterAll_append]

theorem isIn_iterate (source : String) (n : Nat) :
    IsIn source ((fun scanner : Scanner => scanner.next.2)^[n] (.ofString source)) := by
  induction n with
  | zero => exact isIn_ofString source
  | succ n ih =>
    rw [Function.iterate_succ_apply']
    exact ih.next

/-- Somewhere in a text scanning counts no place too far and cuts out what it has seen. -/
theorem next64?_eq (h : s.IsIn source) (hsource : source.utf8ByteSize + 1 ≤ Decimal.largestCount) :
    s.next64? source = some s.next := by
  obtain ⟨front, hfront, hplace⟩ := h
  have hsplit : source.toList = front ++ gap false s.rest ++ afterGap false s.rest := by
    rw [hfront, List.append_assoc, gap_append]
  have hstart : s.start = Location.start.afterAll (front ++ gap false s.rest) := by
    rw [start, hplace, Location.afterAll_append]
  have hskip : s.place.afterAll64? (gap false s.rest) = some s.start :=
    afterAll64?_of_append hsplit hsource hplace
  cases hg : afterGap false s.rest with
  | nil =>
    have hend : source.toList = front ++ gap false s.rest ++ [] ++ [] := by
      rw [hsplit, hg, List.append_nil, List.append_nil]
    have hlexeme := lexeme?_of_append hend hstart
    simp only [start, Location.afterAll_nil] at hskip hlexeme
    simp [next64?, hskip, hg, Span.point, hlexeme, next, onNewLine]
  | cons c cs =>
    cases hc : Cut.ofChars? c cs with
    | none =>
      have hchar : source.toList = front ++ gap false s.rest ++ [c] ++ cs := by
        rw [hsplit, hg, List.append_assoc _ [c], List.singleton_append]
      have hstop := afterAll64?_of_append hchar hsource hstart
      simp only [start] at hskip hstop
      simp [next64?, hskip, hg, hc, hstop, next, onNewLine]
    | some cut =>
      have hchars : source.toList = front ++ gap false s.rest ++ (c :: cut.tail) ++ cut.rest := by
        rw [hsplit, hg, List.append_assoc _ (c :: cut.tail), List.cons_append,
          Cut.append_of_ofChars? hc]
      have hstop := afterAll64?_of_append hchars hsource hstart
      have hlexeme := lexeme?_of_append hchars hstart
      rw [next_of_cut hg hc]
      simp only [next64?, hskip, hg, hc, hstop, hlexeme, Option.bind_eq_bind, Option.bind_some,
        String.toList_ofList, Cut.item]
      by_cases hk : cut.kind = .integer
      · simp only [if_pos hk]
        cases Decimal.integer? (c :: cut.tail) <;> rfl
      · simp only [if_neg hk]

end Scanner

theorem Decimal.exists_natural? {cs : List Char} (hne : cs ≠ [])
    (h : ∀ c ∈ cs, c.isDigit = true) : ∃ n, natural? cs = some n :=
  ⟨value cs, if_pos (by simpa [isNumeral, hne] using h)⟩

namespace Cut

variable {c : Char} {cs : List Char} {cut : Cut}

theorem number_of_integer (h : ofChars? c cs = some cut) (hk : cut.kind = .integer) :
    cut = number cs ∧ (c = '-' ∧ cs.head?.any Char.isDigit = true ∨ c.isDigit = true) := by
  unfold ofChars? at h
  split at h
  · rename_i kind hs
    obtain rfl := Option.some.inj h
    have hkind : ∀ p ∈ symbols, p.2 ≠ .integer := by decide
    exact absurd hk (hkind _ (mem_symbols hs))
  · repeat' split at h
    all_goals try obtain rfl := Option.some.inj h
    · unfold dash at hk ⊢
      split at hk
      · rename_i hminus hdigit
        rw [if_pos hdigit]
        exact ⟨rfl, .inl ⟨hminus, hdigit⟩⟩
      · rcases kind_pair '>' .minus .arrow cs with h' | h' <;> simp [h'] at hk
    · rcases kind_pair '=' .less .lessEqual cs with h' | h' <;> simp [h'] at hk
    · rcases kind_pair '=' .greater .greaterEqual cs with h' | h' <;> simp [h'] at hk
    · exact ⟨rfl, .inr ‹_›⟩
    · have hword := kind_word c cs
      rw [hk] at hword
      exact absurd hword (by decide)
    · simp at h

theorem exists_integer? (h : ofChars? c cs = some cut) (hk : cut.kind = .integer) :
    ∃ value, Decimal.integer? (c :: cut.tail) = some value := by
  have hdigits : ∀ a ∈ cs.takeWhile Char.isDigit, a.isDigit = true :=
    fun a ha => List.mem_takeWhile_imp ha
  obtain ⟨rfl, ⟨rfl, hfirst⟩ | hc⟩ := number_of_integer h hk
  · obtain ⟨d, hd, hdigit⟩ := (Option.any_eq_true _ _).mp hfirst
    obtain ⟨ds, rfl⟩ := List.head?_eq_some_iff.mp hd
    have hne : (d :: ds).takeWhile Char.isDigit ≠ [] := by simp [hdigit]
    obtain ⟨n, hn⟩ := Decimal.exists_natural? hne hdigits
    exact ⟨-n, by simp [Decimal.integer?, number, hn]⟩
  · have hall : ∀ a ∈ c :: cs.takeWhile Char.isDigit, a.isDigit = true :=
      List.forall_mem_cons.mpr ⟨hc, hdigits⟩
    obtain ⟨n, hn⟩ := Decimal.exists_natural? (List.cons_ne_nil _ _) hall
    exact ⟨n, by simp [Decimal.integer?, number, hn, ne_of_isDigit hc (d := '-') (by decide)]⟩

end Cut

/-- Whether a token has a value if it is an integer. -/
def Token.HasValue (t : Token) : Prop := t.kind = .integer → ∃ value, t.value = some value

/-- The error of a character that begins no lexeme. -/
def LexError.IsUnexpectedChar (e : LexError) : Prop := ∃ c, e.problem = .unexpectedChar c

namespace Scanner

def IsSoundItem : Except LexError Token → Prop
  | .ok t => t.HasValue
  | .error e => e.IsUnexpectedChar

theorem isSoundItem_next (s : Scanner) : IsSoundItem s.next.1 := by
  cases hg : afterGap false s.rest with
  | nil =>
    simp only [next, hg]
    exact fun hk => absurd hk (by simp)
  | cons c cs =>
    cases hc : Cut.ofChars? c cs with
    | none =>
      simp only [next, hg, hc]
      exact ⟨c, rfl⟩
    | some cut =>
      rw [next_of_cut hg hc]
      by_cases hk : cut.kind = .integer
      · obtain ⟨value, hv⟩ := Cut.exists_integer? hc hk
        simp only [Cut.item, if_pos hk, hv]
        exact fun _ => ⟨value, rfl⟩
      · simp only [Cut.item, if_neg hk]
        exact fun h => absurd h hk

theorem isSoundItem_of_mem {s : Scanner} {item : Except LexError Token} (h : item ∈ s.items) :
    IsSoundItem item := by
  fun_induction items s with
  | case1 s hg =>
    rw [List.mem_singleton.mp h]
    exact s.isSoundItem_next
  | case2 s hg ih =>
    rcases List.mem_cons.mp h with rfl | h
    · exact s.isSoundItem_next
    · exact ih h

theorem length_items_le (s : Scanner) : s.items.length ≤ s.rest.length + 1 := by
  fun_induction items s with
  | case1 s hg => simp
  | case2 s hg ih =>
    have hlt := next_rest_lt hg
    rw [List.length_cons]
    omega

theorem prefix_leadingTokens (items : List (Except LexError Token)) :
    (leadingTokens items).map .ok <+: items := by
  fun_induction leadingTokens items with
  | case1 t items ht => exact List.nil_prefix
  | case2 t items ht ih => exact (List.prefix_cons_inj _).mpr ih
  | case3 items h => exact List.nil_prefix

theorem mem_of_stopOf {items : List (Except LexError Token)} {e : LexError}
    (h : stopOf items = .error e) : .error e ∈ items := by
  fun_induction stopOf items with
  | case1 => simp at h
  | case2 e' items =>
    obtain rfl := Except.error.inj h
    exact List.mem_cons_self
  | case3 t items ht => simp at h
  | case4 t items ht ih => exact List.mem_cons_of_mem _ (ih h)

theorem hasValue_of_leading {s : Scanner} {t : Token} (h : t ∈ s.leading) : t.HasValue := by
  have hmem := (prefix_leadingTokens s.items).subset (List.mem_map_of_mem h)
  exact isSoundItem_of_mem hmem

theorem length_leading_le (s : Scanner) : s.leading.length ≤ s.rest.length + 1 := by
  have hle := (prefix_leadingTokens s.items).length_le
  rw [List.length_map] at hle
  exact hle.trans s.length_items_le

/-- What stops a scanner before the end of its text is a character that begins no lexeme. -/
theorem isUnexpectedChar_of_stop {s : Scanner} {e : LexError} (h : s.stop = .error e) :
    e.IsUnexpectedChar :=
  isSoundItem_of_mem (mem_of_stopOf h)

end Scanner

theorem length_le_utf8Len (cs : List Char) : cs.length ≤ String.utf8Len cs := by
  induction cs with
  | nil => rfl
  | cons c cs ih =>
    have hsize := c.utf8Size_pos
    rw [List.length_cons, String.utf8Len_cons]
    omega

theorem length_tokens_ofString (source : String) :
    (TokenStream.ofString source).tokens.length ≤ source.utf8ByteSize + 1 := by
  have hle := (Scanner.ofString source).length_leading_le
  have hbytes := length_le_utf8Len source.toList
  rw [String.utf8Len_toList] at hbytes
  exact hle.trans (Nat.succ_le_succ hbytes)

end ConstraintText

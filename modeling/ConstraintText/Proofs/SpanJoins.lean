import ConstraintText.Proofs.TupleErrors

/-!
# Joined spans of one text

Spans are joined by comparing lines and columns, and they cut out bytes. For places of one text both
orders agree, so joining the spans that a scanner tells of is the join of byte ranges: from the
smaller start to the larger stop. A refused tuple is spanned by such a join, which therefore reaches
from its opening bracket to its closing one, however many lines and bytes are between them.
-/
namespace ConstraintText

/-- The places that a scanner tells of a source: those it comes to, and those where an item of it
begins and ends. -/
inductive Location.IsReported (source : String) : Location → Prop
  | place (n : Nat) : IsReported source ((Scanner.ofString source).skip n).place
  | start (n : Nat) :
      IsReported source (Scanner.itemSpan ((Scanner.ofString source).skip n).next.1).start
  | stop (n : Nat) :
      IsReported source (Scanner.itemSpan ((Scanner.ofString source).skip n).next.1).stop

/-- A span between places that a scanner tells. -/
structure Span.IsReported (span : Span) (source : String) : Prop where
  start : span.start.IsReported source
  stop : span.stop.IsReported source

theorem Scanner.IsIn.isPlaced_itemSpan {source : String} {s : Scanner} (h : s.IsIn source) :
    (itemSpan s.next.1).IsPlaced source := by
  have hpoints := h.pointsInto_next
  cases hitem : s.next.1 with
  | ok t =>
    rw [hitem] at hpoints
    exact hpoints.1
  | error e =>
    rw [hitem] at hpoints
    obtain ⟨c, -, hshows⟩ := hpoints
    exact hshows.placed

theorem Span.isReported_item (source : String) (n : Nat) :
    (Scanner.itemSpan ((Scanner.ofString source).skip n).next.1).IsReported source :=
  ⟨.start n, .stop n⟩

theorem Location.IsReported.isPlaceOf {source : String} {l : Location} (h : l.IsReported source) :
    l.IsPlaceOf source := by
  have hin : ∀ n, ((Scanner.ofString source).skip n).IsIn source :=
    (Scanner.isIn_ofString source).skip
  cases h with
  | place n => exact (hin n).isPlaceOf
  | start n => exact (hin n).isPlaced_itemSpan.start
  | stop n => exact (hin n).isPlaced_itemSpan.stop

theorem prefix_of_utf8Len_le {cs ds text : List Char} (hc : cs <+: text) (hd : ds <+: text)
    (h : String.utf8Len cs ≤ String.utf8Len ds) : cs <+: ds := by
  rcases List.prefix_or_prefix_of_prefix hc hd with hpre | ⟨rest, rfl⟩
  · exact hpre
  · cases rest with
    | nil => simp
    | cons c rest =>
      have hpos := c.utf8Size_pos
      rw [String.utf8Len_append, String.utf8Len_cons] at h
      omega

namespace Span

variable {source : String} {a b : Span}

theorem IsReported.isPlaced (h : a.IsReported source) : a.IsPlaced source :=
  ⟨h.start.isPlaceOf, h.stop.isPlaceOf⟩

theorem IsReported.merge (ha : a.IsReported source) (hb : b.IsReported source) :
    (a.merge b).IsReported source := by
  obtain ⟨hstart, hstop⟩ := merge_cases a b
  constructor
  · rcases hstart with h | h <;> rw [h]
    · exact ha.start
    · exact hb.start
  · rcases hstop with h | h <;> rw [h]
    · exact ha.stop
    · exact hb.stop

/-- Two pieces of a source one behind the other, with what is between them. -/
theorem Cuts.join {front piece back front' piece' back' : List Char}
    (ha : a.Cuts source front piece back) (hb : b.Cuts source front' piece' back')
    (h : a.stop.offset ≤ b.start.offset) :
    ∃ between, Span.Cuts source ⟨a.start, b.stop⟩ front (piece ++ between ++ piece') back' := by
  have hle : String.utf8Len (front ++ piece) ≤ String.utf8Len front' := by
    rw [← ha.offset_stop]
    rwa [hb.start_eq, Location.offset_afterAll, Location.start, Nat.zero_add] at h
  have hsource : source.toList = front' ++ (piece' ++ back') := by
    rw [hb.source_eq, List.append_assoc]
  obtain ⟨between, hbetween⟩ : front ++ piece <+: front' :=
    prefix_of_utf8Len_le (ha.source_eq ▸ List.prefix_append _ back)
      (hsource ▸ List.prefix_append front' _) hle
  refine ⟨between, ?_, ha.start_eq, ?_⟩
  · rw [hb.source_eq, ← hbetween]
    simp
  · rw [hb.stop_eq, hb.start_eq, ← hbetween, ha.start_eq]
    simp only [Location.afterAll_append]

end Span

/-- Joining the spans of a source as the join of their byte ranges. -/
structure MergeJoins (source : String) : Prop where
  /-- Reading order is the order of bytes. -/
  order : ∀ a b : Location, a.IsReported source → b.IsReported source →
    (a.reaches b = true ↔ a.offset ≤ b.offset)
  comm : ∀ a b : Span, a.IsReported source → b.IsReported source → a.merge b = b.merge a
  assoc : ∀ a b c : Span, a.IsReported source → b.IsReported source → c.IsReported source →
    (a.merge b).merge c = a.merge (b.merge c)
  idem : ∀ a : Span, a.IsReported source → a.merge a = a
  reported : ∀ a b : Span, a.IsReported source → b.IsReported source →
    (a.merge b).IsReported source
  /-- The joined span is the only one from the smaller start to the larger stop. -/
  range : ∀ a b span : Span, a.IsReported source → b.IsReported source → span.IsReported source →
    (span = a.merge b ↔ span.start.offset = min a.start.offset b.start.offset ∧
      span.stop.offset = max a.stop.offset b.stop.offset)

theorem mergeJoins (source : String) : MergeJoins source where
  order _ _ ha hb := ha.isPlaceOf.reaches_iff hb.isPlaceOf
  comm _ _ ha hb := ha.isPlaced.merge_comm hb.isPlaced
  assoc _ _ _ ha hb hc := ha.isPlaced.merge_assoc hb.isPlaced hc.isPlaced
  idem a ha := by
    rw [ha.isPlaced.merge_of_le ha.isPlaced le_rfl le_rfl]
  reported _ _ ha hb := ha.merge hb
  range a b span ha hb hspan := by
    have hstart := ha.isPlaced.offset_start_merge hb.isPlaced
    have hstop := ha.isPlaced.offset_stop_merge hb.isPlaced
    constructor
    · rintro rfl
      exact ⟨hstart, hstop⟩
    · rintro ⟨hs, he⟩
      exact hspan.isPlaced.eq_of_offsets (ha.isPlaced.merge hb.isPlaced) (hs.trans hstart.symm)
        (he.trans hstop.symm)

namespace TokenStream

/-- Whether a stream has the tokens to come that a scanner has: it has that scanner, or it holds back
the token that the scanner yields next. -/
def StandsAt (s : TokenStream) (scanner : Scanner) : Prop :=
  match s.pending with
  | none => s.scanner = scanner
  | some t => t.isFinish = false ∧ scanner.next = (.ok t, s.scanner)

variable {source : String} {s s' : TokenStream} {scanner : Scanner}

theorem StandsAt.tokens (h : s.StandsAt scanner) : s.tokens = scanner.leading := by
  obtain ⟨scanner', pending⟩ := s
  cases pending with
  | none =>
    obtain rfl : scanner' = scanner := h
    rfl
  | some t =>
    obtain ⟨ht, hn⟩ : t.isFinish = false ∧ scanner.next = (.ok t, scanner') := h
    rw [Scanner.leading_of_token hn ht]
    rfl

theorem StandsAt.next (h : s.StandsAt scanner) :
    s.next.2 = ⟨scanner.next.2, none⟩ ∧
      ∀ t, s.next.1 = .ok (some t) → t.isFinish = false ∧ scanner.next.1 = .ok t := by
  obtain ⟨scanner', pending⟩ := s
  cases pending with
  | none =>
    obtain rfl : scanner' = scanner := h
    rcases hn : scanner'.next with ⟨item, s'⟩
    cases item with
    | error e => simp [TokenStream.next, scan, hn]
    | ok t => cases ht : t.isFinish <;> simp_all [TokenStream.next, scan]
  | some t =>
    obtain ⟨ht, hn⟩ : t.isFinish = false ∧ scanner.next = (.ok t, scanner') := h
    refine ⟨by rw [hn]; rfl, fun u hu => ?_⟩
    obtain rfl : t = u := by simpa [TokenStream.next] using hu
    exact ⟨ht, by rw [hn]⟩

/-- Wherever a stream of a source is moved, it stands at a scanner in the source. -/
theorem Moves.standsAt (h : s.Moves s') (hs : ∃ scanner, scanner.IsIn source ∧ s.StandsAt scanner) :
    ∃ scanner, scanner.IsIn source ∧ s'.StandsAt scanner := by
  induction h with
  | refl => exact hs
  | next _ ih =>
    obtain ⟨scanner, hin, hstands⟩ := ih
    refine ⟨scanner.next.2, hin.next, ?_⟩
    rw [hstands.next.1]
    rfl
  | @hold s' s'' t _ hn ih =>
    obtain ⟨scanner, hin, hstands⟩ := ih
    obtain ⟨hbehind, hitem⟩ := hstands.next
    rw [hn] at hbehind hitem
    obtain ⟨ht, hyields⟩ := hitem t rfl
    obtain rfl : s'' = ⟨scanner.next.2, none⟩ := hbehind
    exact ⟨scanner, hin, ht, Prod.ext hyields rfl⟩

theorem IsReached.exists_leading (h : s.IsReached source) :
    ∃ scanner : Scanner, scanner.IsIn source ∧ s.tokens = scanner.leading := by
  have hstart : (ofString source).StandsAt (Scanner.ofString source) := rfl
  obtain ⟨scanner, hin, hstands⟩ := h.moves.standsAt ⟨_, Scanner.isIn_ofString source, hstart⟩
  exact ⟨scanner, hin, hstands.tokens⟩

end TokenStream

/-- A span of a source from the opening bracket of a tuple to its closing one. -/
structure Span.Encloses (source : String) (span : Span) (opening : Token) (names : List Token)
    (closing : Token) : Prop where
  span_eq : span = ⟨opening.span.start, closing.span.stop⟩
  brackets : opening.lexeme = "[" ∧ closing.lexeme = "]"
  /-- The bytes of the span are the brackets and what is between them. -/
  text : ∃ between, span.lexeme? source = some ("[" ++ between ++ "]")
  inside : ∀ t ∈ opening :: names ++ [closing],
    span.start.offset ≤ t.span.start.offset ∧ t.span.stop.offset ≤ span.stop.offset

namespace Scanner

variable {source : String} {s s' : Scanner} {t : Token}

theorem lexeme_of_symbol {c : Char} (h : s.next = (.ok t, s')) (hk : (c, t.kind) ∈ Cut.symbols) :
    t.lexeme = String.ofList [c] := by
  have hsymbols : ∀ p ∈ Cut.symbols, p.2 ≠ .finish ∧ p.2 ∉ Cut.longKinds ∧
      ∀ q ∈ Cut.symbols, q.2 = p.2 → q.1 = p.1 := by decide
  obtain ⟨hfinish, hshort, hchar⟩ := hsymbols _ hk
  rcases s.next_cases with ⟨-, hn⟩ | ⟨d, cs, -, -, hn⟩ | ⟨d, cs, cut, value, -, hc, -, hn⟩ <;>
    rw [hn, Prod.mk.injEq] at h
  · obtain rfl := Except.ok.inj h.1
    exact absurd rfl hfinish
  · simp at h
  · obtain rfl := Except.ok.inj h.1
    obtain ⟨hmem, hcut⟩ := Cut.mem_symbols_of_kind hc hshort
    obtain rfl : d = c := hchar _ hmem rfl
    rw [hcut]

theorem lexeme_of_leading {c : Char} (h : t ∈ s.leading) (hk : (c, t.kind) ∈ Cut.symbols) :
    t.lexeme = String.ofList [c] := by
  obtain ⟨n, s', hn⟩ := exists_next_of_leading h
  exact lexeme_of_symbol hn hk

theorem IsIn.cuts_of_leading (h : s.IsIn source) (ht : t ∈ s.leading) :
    ∃ front back, t.span.Cuts source front t.lexeme.toList back := by
  obtain ⟨n, s', hn⟩ := exists_next_of_leading ht
  obtain ⟨front, hcuts⟩ := (h.skip n).cuts_next
  rw [hn] at hcuts
  exact ⟨front, _, hcuts⟩

theorem proper_of_leading (h : t ∈ s.leading) : t.span.start.offset ≤ t.span.stop.offset := by
  have hmem := (prefix_leadingTokens s.items).subset (List.mem_map_of_mem h)
  exact proper_itemSpan _ hmem

section Tuple

variable {front names rest : List Token} {opening closing : Token}

/-- Two tokens, one behind the other, have the tokens between them from the start of the first one
to the stop of the second one. -/
theorem inside_of_leading (hts : s.leading = front ++ opening :: names ++ closing :: rest) :
    opening.span.stop.offset ≤ closing.span.start.offset ∧
      ∀ t ∈ opening :: names ++ [closing], opening.span.start.offset ≤ t.span.start.offset ∧
        t.span.stop.offset ≤ closing.span.stop.offset := by
  have hopening : opening.span.start.offset ≤ opening.span.stop.offset :=
    proper_of_leading (s := s) (by simp [hts])
  have hclosing : closing.span.start.offset ≤ closing.span.stop.offset :=
    proper_of_leading (s := s) (by simp [hts])
  have hordered := pairwise_leading s.pairwise_items
  rw [hts, List.append_assoc, List.cons_append, List.pairwise_append, List.pairwise_cons,
    List.pairwise_append] at hordered
  obtain ⟨-, ⟨hfirst, -, -, hlast⟩, -⟩ := hordered
  have hbrackets : opening.span.stop.offset ≤ closing.span.start.offset := hfirst closing (by simp)
  refine ⟨hbrackets, fun t ht => ?_⟩
  rcases List.mem_cons.mp ht with rfl | ht
  · omega
  · rcases List.mem_append.mp ht with ht | ht
    · have hbehind : opening.span.stop.offset ≤ t.span.start.offset := hfirst t (by simp [ht])
      have hbefore : t.span.stop.offset ≤ closing.span.start.offset := hlast t ht closing (by simp)
      omega
    · obtain rfl := List.mem_singleton.mp ht
      omega

theorem IsIn.encloses (h : s.IsIn source)
    (hts : s.leading = front ++ opening :: names ++ closing :: rest)
    (ho : opening.kind = .leftBracket) (hc : closing.kind = .rightBracket) :
    (opening.span.merge closing.span).Encloses source opening names closing := by
  have hopening : opening ∈ s.leading := by simp [hts]
  have hclosing : closing ∈ s.leading := by simp [hts]
  obtain ⟨hbrackets, hinside⟩ := inside_of_leading hts
  obtain ⟨before, _, hcuts⟩ := h.cuts_of_leading hopening
  obtain ⟨_, after, hcuts'⟩ := h.cuts_of_leading hclosing
  have hleft : opening.lexeme = "[" := lexeme_of_leading (c := '[') hopening (by rw [ho]; decide)
  have hright : closing.lexeme = "]" := lexeme_of_leading (c := ']') hclosing (by rw [hc]; decide)
  rw [hcuts.isPlaced.merge_of_le hcuts'.isPlaced (hinside closing (by simp)).1
    (hinside opening (by simp)).2]
  refine ⟨rfl, ⟨hleft, hright⟩, ?_, hinside⟩
  obtain ⟨between, hjoined⟩ := hcuts.join hcuts' hbrackets
  refine ⟨String.ofList between, ?_⟩
  rw [hjoined.lexeme?, hleft, hright]
  simp [String.append_assoc]

end Tuple

end Scanner

/-- Joining the spans that a scanner tells of a source is the join of their byte ranges. Whatever
calls have been made on a source before, a call that is refused for the parameters points from the
opening bracket to the closing one of the tuple that does not fit them. -/
theorem Span.merge_joins (source : String) :
    MergeJoins source ∧
    ∀ s, TokenStream.IsReached source s → ∀ (config : ReadConfig) (call : Call) (r : Refusal),
      (call.read config s).result = .error (.refused r) → r.problem.kind = .parameterMismatch →
      ∃ front opening names closing rest ids,
        s.tokens = front ++ opening :: names ++ closing :: rest ∧
        Formula.DerivesTuple ids (opening :: names ++ [closing]) ∧
        Formula.Mismatch call.wanted front ids.length r.problem ∧
        r.span.Encloses source opening names closing := by
  refine ⟨mergeJoins source, fun s hs config call r hr hk => ?_⟩
  obtain ⟨scanner, hin, hleading⟩ := hs.exists_leading
  have hrefuses := Call.refusesTuple_of_read hr hk
  generalize hts : s.tokens = ts at hrefuses
  cases hrefuses with
  | @intro front ids names rest opening closing problem ho hn hc hm =>
    exact ⟨front, opening, names, closing, rest, ids, rfl, .intro ho hn hc, hm,
      hin.encloses (hleading.symm.trans hts) ho hc⟩

/-- Two parameters where one is wanted, behind a comment and on two lines. -/
theorem Span.merge_joins_lines :
    let source := "# é\n[n,\n m] -> \x7b [i] \x7d"
    let first : Span := ⟨⟨2, 1, 5⟩, ⟨2, 2, 6⟩⟩
    let last : Span := ⟨⟨3, 3, 11⟩, ⟨3, 4, 12⟩⟩
    let r : Refusal := ⟨.parameterCount 1 2, ⟨⟨2, 1, 5⟩, ⟨3, 4, 12⟩⟩, none⟩
    let s := TokenStream.ofString source
    (first.IsReported source ∧ last.IsReported source ∧ first.merge last = last.merge first) ∧
    (Call.read .standard (.map (some 1)) s).result = .error (.refused r) ∧
      ∃ front opening names closing rest ids,
        s.tokens = front ++ opening :: names ++ closing :: rest ∧
        Formula.DerivesTuple ids (opening :: names ++ [closing]) ∧
        Formula.Mismatch (some 1) front ids.length r.problem ∧
        r.span.Encloses source opening names closing := by
  intro source first last r s
  have hfirst : first.IsReported source := by
    have hitem : Scanner.itemSpan ((Scanner.ofString source).skip 0).next.1 = first := by
      unfold source first
      cbv
    exact hitem ▸ Span.isReported_item source 0
  have hlast : last.IsReported source := by
    have hitem : Scanner.itemSpan ((Scanner.ofString source).skip 4).next.1 = last := by
      unfold source last
      cbv
    exact hitem ▸ Span.isReported_item source 4
  have hread : (Call.read .standard (.map (some 1)) s).result = .error (.refused r) := by
    unfold s source r
    cbv
  obtain ⟨hmerge, hrefused⟩ := Span.merge_joins source
  exact ⟨⟨hfirst, hlast, hmerge.comm first last hfirst hlast⟩, hread,
    hrefused s .start .standard (.map (some 1)) r hread rfl⟩

end ConstraintText

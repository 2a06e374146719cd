import ConstraintText.Proofs.Items

/-!
# Places of a text

A place of a text is its offset in bytes together with the line and the column of that offset, both
counted from one and the column in characters. Places that are counted on character by character
are places of the text, and the excerpt of a span that begins at one exists. If the span cuts out
characters that end no line, the carets stand below these characters.
-/
namespace ConstraintText

def lastLine (cs : List Char) : List Char := cs.rtakeWhile (· != '\n')

theorem lastLine_concat (cs : List Char) (c : Char) :
    lastLine (cs ++ [c]) = if c = '\n' then [] else lastLine cs ++ [c] := by
  rw [lastLine, List.rtakeWhile_concat]
  by_cases hc : c = '\n' <;> simp [hc, lastLine]

theorem not_mem_lastLine (cs : List Char) : '\n' ∉ lastLine cs := by
  intro h
  simpa using List.mem_rtakeWhile_imp h

theorem exists_append_lastLine (cs : List Char) :
    cs = lastLine cs ∨ ∃ lines, cs = lines ++ '\n' :: lastLine cs := by
  have hsplit := List.rdropWhile_append_rtakeWhile (p := (· != '\n')) (l := cs)
  rcases List.eq_nil_or_concat (cs.rdropWhile (· != '\n')) with hnil | ⟨lines, c, hlines⟩
  · rw [hnil, List.nil_append] at hsplit
    exact .inl hsplit.symm
  · have hlast := List.rdropWhile_last_not (p := (· != '\n')) (l := cs) (by simp [hlines])
    obtain rfl : c = '\n' := by simpa [hlines] using hlast
    refine .inr ⟨lines, ?_⟩
    rw [hlines] at hsplit
    simpa [lastLine] using hsplit.symm

/-- A place of a text: an offset between two characters, its line and its column. -/
def Location.IsPlaceOf (l : Location) (source : String) : Prop :=
  ∃ front back, source.toList = front ++ back ∧ l.offset = String.utf8Len front ∧
    l.line = 1 + front.count '\n' ∧ l.column = 1 + (lastLine front).length

namespace Location

theorem line_afterAll_start (cs : List Char) : (start.afterAll cs).line = 1 + cs.count '\n' := by
  induction cs using List.reverseRecOn with
  | nil => rfl
  | append_singleton cs c ih =>
    rw [afterAll_append, afterAll_cons, afterAll_nil, List.count_append]
    by_cases hc : c = '\n' <;> simp [after, hc, ih]
    omega

theorem column_afterAll_start (cs : List Char) :
    (start.afterAll cs).column = 1 + (lastLine cs).length := by
  induction cs using List.reverseRecOn with
  | nil => rfl
  | append_singleton cs c ih =>
    rw [afterAll_append, afterAll_cons, afterAll_nil, lastLine_concat]
    by_cases hc : c = '\n' <;> simp [after, hc, ih]
    omega

theorem isPlaceOf_afterAll {source : String} {front back : List Char}
    (h : source.toList = front ++ back) : (start.afterAll front).IsPlaceOf source :=
  ⟨front, back, h, by simp [offset_afterAll, start], line_afterAll_start front,
    column_afterAll_start front⟩

def endOf (source : String) : Location := start.afterAll source.toList

theorem isPlaceOf_endOf (source : String) : (endOf source).IsPlaceOf source :=
  isPlaceOf_afterAll (List.append_nil _).symm

theorem offset_endOf (source : String) : (endOf source).offset = source.utf8ByteSize := by
  rw [endOf, offset_afterAll, start, Nat.zero_add, String.utf8Len_toList]

theorem afterAll_of_not_mem {l : Location} {cs : List Char} (h : '\n' ∉ cs) :
    (l.afterAll cs).line = l.line ∧ (l.afterAll cs).column = l.column + cs.length := by
  induction cs generalizing l with
  | nil => simp
  | cons c cs ih =>
    obtain ⟨hc, hcs⟩ : '\n' ≠ c ∧ '\n' ∉ cs := by simpa using h
    obtain ⟨hline, hcolumn⟩ := ih (l := l.after c) hcs
    rw [afterAll_cons, hline, hcolumn, after, if_neg hc.symm, List.length_cons]
    exact ⟨rfl, by simp only; omega⟩

end Location

structure Span.IsPlaced (span : Span) (source : String) : Prop where
  start : span.start.IsPlaceOf source
  stop : span.stop.IsPlaceOf source

namespace Span

variable {source : String}

theorem isPlaced_point {place : Location} (h : place.IsPlaceOf source) :
    (point place).IsPlaced source :=
  ⟨h, h⟩

/-- A joined span begins where one of the two does, and it stops where one of them does. -/
theorem merge_cases (a b : Span) :
    ((a.merge b).start = a.start ∨ (a.merge b).start = b.start) ∧
      ((a.merge b).stop = a.stop ∨ (a.merge b).stop = b.stop) := by
  unfold Span.merge
  dsimp only
  constructor
  · split
    · exact .inl rfl
    · exact .inr rfl
  · split
    · exact .inl rfl
    · exact .inr rfl

theorem IsPlaced.merge {a b : Span} (ha : a.IsPlaced source) (hb : b.IsPlaced source) :
    (a.merge b).IsPlaced source := by
  obtain ⟨hstart, hstop⟩ := merge_cases a b
  constructor
  · rcases hstart with h | h <;> rw [h]
    · exact ha.start
    · exact hb.start
  · rcases hstop with h | h <;> rw [h]
    · exact ha.stop
    · exact hb.stop

theorem Cuts.isPlaced {span : Span} {front piece back : List Char}
    (h : span.Cuts source front piece back) : span.IsPlaced source := by
  obtain ⟨hsource, hstart, hstop⟩ := h
  constructor
  · rw [hstart]
    exact Location.isPlaceOf_afterAll (hsource.trans (List.append_assoc _ _ _))
  · rw [hstop, hstart, ← Location.afterAll_append]
    exact Location.isPlaceOf_afterAll hsource

end Span

namespace Location

variable {source : String} {a b : Location}

theorem IsPlaceOf.eq_afterAll (h : a.IsPlaceOf source) :
    ∃ front back, source.toList = front ++ back ∧ a = start.afterAll front := by
  obtain ⟨front, back, hsource, hoffset, hline, hcolumn⟩ := h
  refine ⟨front, back, hsource, ?_⟩
  obtain ⟨line, column, offset⟩ := a
  rw [mk.injEq, line_afterAll_start, column_afterAll_start, offset_afterAll]
  exact ⟨hline, hcolumn, hoffset.trans (Nat.zero_add _).symm⟩

theorem IsPlaceOf.total (ha : a.IsPlaceOf source) (hb : b.IsPlaceOf source) :
    (∃ cs, b = a.afterAll cs) ∨ ∃ cs, a = b.afterAll cs := by
  obtain ⟨front, back, hsource, rfl⟩ := ha.eq_afterAll
  obtain ⟨front', back', hsource', rfl⟩ := hb.eq_afterAll
  rcases List.prefix_or_prefix_of_prefix (hsource ▸ List.prefix_append front back)
    (hsource' ▸ List.prefix_append front' back') with ⟨cs, rfl⟩ | ⟨cs, rfl⟩
  · exact .inl ⟨cs, afterAll_append ..⟩
  · exact .inr ⟨cs, afterAll_append ..⟩

theorem lt_afterAll (l : Location) (c : Char) (cs : List Char) :
    l.line < (l.afterAll (c :: cs)).line ∨
      l.line = (l.afterAll (c :: cs)).line ∧ l.column < (l.afterAll (c :: cs)).column := by
  induction cs generalizing l c with
  | nil => by_cases hc : c = '\n' <;> simp [after, hc]
  | cons d cs ih =>
    have hlast := ih (l.after c) d
    rw [afterAll_cons]
    by_cases hc : c = '\n'
    · have hline : (l.after c).line = l.line + 1 := by simp [after, hc]
      omega
    · have hline : (l.after c).line = l.line := by simp [after, hc]
      have hcolumn : (l.after c).column = l.column + 1 := by simp [after, hc]
      omega

theorem offset_lt_afterAll (l : Location) (c : Char) (cs : List Char) :
    l.offset < (l.afterAll (c :: cs)).offset := by
  have hpos := c.utf8Size_pos
  rw [offset_afterAll, String.utf8Len_cons]
  omega

/-- Places of a text stand in the order of their offsets. -/
theorem IsPlaceOf.reaches_iff (ha : a.IsPlaceOf source) (hb : b.IsPlaceOf source) :
    a.reaches b = true ↔ a.offset ≤ b.offset := by
  have hreaches : a.reaches b = true ↔ a.line < b.line ∨ a.line = b.line ∧ a.column ≤ b.column := by
    simp [reaches]
  rw [hreaches]
  rcases ha.total hb with ⟨cs, rfl⟩ | ⟨cs, rfl⟩
  · cases cs with
    | nil => simp
    | cons c cs =>
      have hlt := lt_afterAll a c cs
      have hoffset := offset_lt_afterAll a c cs
      omega
  · cases cs with
    | nil => simp
    | cons c cs =>
      have hlt := lt_afterAll b c cs
      have hoffset := offset_lt_afterAll b c cs
      omega

theorem IsPlaceOf.eq_of_offset (ha : a.IsPlaceOf source) (hb : b.IsPlaceOf source)
    (h : a.offset = b.offset) : a = b := by
  rcases ha.total hb with ⟨cs, rfl⟩ | ⟨cs, rfl⟩
  · cases cs with
    | nil => rfl
    | cons c cs => exact absurd h (offset_lt_afterAll a c cs).ne
  · cases cs with
    | nil => rfl
    | cons c cs => exact absurd h (offset_lt_afterAll b c cs).ne'

end Location

namespace Span

variable {source : String} {a b c : Span}

/-- The byte ranges of spans of a text tell them apart. -/
theorem IsPlaced.eq_of_offsets (ha : a.IsPlaced source) (hb : b.IsPlaced source)
    (hstart : a.start.offset = b.start.offset) (hstop : a.stop.offset = b.stop.offset) : a = b := by
  obtain ⟨start, stop⟩ := a
  obtain ⟨start', stop'⟩ := b
  obtain rfl : start = start' := ha.start.eq_of_offset hb.start hstart
  obtain rfl : stop = stop' := ha.stop.eq_of_offset hb.stop hstop
  rfl

theorem IsPlaced.offset_start_merge (ha : a.IsPlaced source) (hb : b.IsPlaced source) :
    (a.merge b).start.offset = min a.start.offset b.start.offset := by
  have hreaches := ha.start.reaches_iff hb.start
  unfold Span.merge
  dsimp only
  split <;> rename_i h
  · rw [min_eq_left (hreaches.mp h)]
  · rw [min_eq_right (Nat.le_of_not_le fun hle => h (hreaches.mpr hle))]

theorem IsPlaced.offset_stop_merge (ha : a.IsPlaced source) (hb : b.IsPlaced source) :
    (a.merge b).stop.offset = max a.stop.offset b.stop.offset := by
  have hreaches := hb.stop.reaches_iff ha.stop
  unfold Span.merge
  dsimp only
  split <;> rename_i h
  · rw [max_eq_left (hreaches.mp h)]
  · rw [max_eq_right (Nat.le_of_not_le fun hle => h (hreaches.mpr hle))]

theorem IsPlaced.merge_comm (ha : a.IsPlaced source) (hb : b.IsPlaced source) :
    a.merge b = b.merge a := by
  refine (ha.merge hb).eq_of_offsets (hb.merge ha) ?_ ?_
  · rw [ha.offset_start_merge hb, hb.offset_start_merge ha, min_comm]
  · rw [ha.offset_stop_merge hb, hb.offset_stop_merge ha, max_comm]

theorem IsPlaced.merge_assoc (ha : a.IsPlaced source) (hb : b.IsPlaced source)
    (hc : c.IsPlaced source) : (a.merge b).merge c = a.merge (b.merge c) := by
  refine ((ha.merge hb).merge hc).eq_of_offsets (ha.merge (hb.merge hc)) ?_ ?_
  · rw [(ha.merge hb).offset_start_merge hc, ha.offset_start_merge hb,
      ha.offset_start_merge (hb.merge hc), hb.offset_start_merge hc, min_assoc]
  · rw [(ha.merge hb).offset_stop_merge hc, ha.offset_stop_merge hb,
      ha.offset_stop_merge (hb.merge hc), hb.offset_stop_merge hc, max_assoc]

/-- A span joined with one that begins and ends no earlier runs from the first to the second. -/
theorem IsPlaced.merge_of_le (ha : a.IsPlaced source) (hb : b.IsPlaced source)
    (hstart : a.start.offset ≤ b.start.offset) (hstop : a.stop.offset ≤ b.stop.offset) :
    a.merge b = ⟨a.start, b.stop⟩ := by
  refine (ha.merge hb).eq_of_offsets ⟨ha.start, hb.stop⟩ ?_ ?_
  · rw [ha.offset_start_merge hb, min_eq_left hstart]
  · rw [ha.offset_stop_merge hb, max_eq_right hstop]

theorem IsPlaced.merge_of_ge (ha : a.IsPlaced source) (hb : b.IsPlaced source)
    (hstart : b.start.offset ≤ a.start.offset) (hstop : b.stop.offset ≤ a.stop.offset) :
    a.merge b = ⟨b.start, a.stop⟩ := by
  rw [ha.merge_comm hb, hb.merge_of_le ha hstart hstop]

end Span

namespace Excerpt

theorem splitLines_append (cs ds : List Char) :
    splitLines (cs ++ '\n' :: ds) = splitLines cs ++ splitLines ds := by
  induction cs with
  | nil => simp [splitLines]
  | cons c cs ih =>
    by_cases hc : c = '\n'
    · simp [splitLines, hc, ih]
    · obtain ⟨line, lines, hcs⟩ := List.exists_cons_of_ne_nil (splitLines_ne_nil cs)
      simp [splitLines, hc, ih, hcs]

theorem length_splitLines (cs : List Char) : (splitLines cs).length = cs.count '\n' + 1 := by
  induction cs with
  | nil => rfl
  | cons c cs ih =>
    by_cases hc : c = '\n'
    · simp [splitLines, hc, ih]
    · obtain ⟨line, lines, hcs⟩ := List.exists_cons_of_ne_nil (splitLines_ne_nil cs)
      rw [hcs] at ih
      simpa [splitLines, hc, hcs] using ih

theorem head?_splitLines (cs : List Char) :
    (splitLines cs).head? = some (cs.takeWhile (· != '\n')) := by
  induction cs with
  | nil => rfl
  | cons c cs ih =>
    by_cases hc : c = '\n'
    · simp [splitLines, hc]
    · obtain ⟨line, lines, hcs⟩ := List.exists_cons_of_ne_nil (splitLines_ne_nil cs)
      obtain rfl : line = cs.takeWhile (· != '\n') := by simpa [hcs] using ih
      simp [splitLines, hc, hcs]

theorem takeWhile_append_of_not_mem {last : List Char} (h : '\n' ∉ last) (back : List Char) :
    (last ++ back).takeWhile (· != '\n') = last ++ back.takeWhile (· != '\n') := by
  refine List.takeWhile_append_of_pos fun c hc => ?_
  simpa using fun he : c = '\n' => h (he ▸ hc)

/-- The line of a text around an offset: what stands in front of the offset and what follows. -/
theorem getElem?_splitLines (front back : List Char) :
    (splitLines (front ++ back))[front.count '\n']? =
      some (lastLine front ++ back.takeWhile (· != '\n')) := by
  have hnot := not_mem_lastLine front
  rcases exists_append_lastLine front with h | ⟨lines, h⟩
  · generalize lastLine front = last at h hnot
    subst h
    rw [List.count_eq_zero_of_not_mem hnot, ← List.head?_eq_getElem?, head?_splitLines,
      takeWhile_append_of_not_mem hnot]
  · generalize lastLine front = last at h hnot
    subst h
    have hcount : (lines ++ '\n' :: last).count '\n' = (splitLines lines).length := by
      simp [length_splitLines, List.count_eq_zero_of_not_mem hnot]
    rw [hcount, List.append_assoc, List.cons_append, splitLines_append,
      List.getElem?_append_right (Nat.le_refl _), Nat.sub_self, ← List.head?_eq_getElem?,
      head?_splitLines, takeWhile_append_of_not_mem hnot]

theorem line?_of_isPlaceOf {source : String} {l : Location} (h : l.IsPlaceOf source) :
    ∃ line, line? source l.line = some line := by
  obtain ⟨front, back, hsource, -, hline, -⟩ := h
  rw [hline, Nat.add_comm, line?, hsource, getElem?_splitLines]
  exact ⟨_, rfl⟩

theorem isSome_excerpt? {source : String} {span : Span} (h : span.IsPlaced source) :
    (excerpt? source span).isSome = true := by
  obtain ⟨line, hline⟩ := line?_of_isPlaceOf h.start
  simp [excerpt?, hline]

theorem trimReturns_append {cs : List Char} (h : cs.getLast? ≠ some '\r') (ds : List Char) :
    trimReturns (cs ++ ds) = cs ++ trimReturns ds := by
  change (cs ++ ds).rdropWhile (· == '\r') = cs ++ ds.rdropWhile (· == '\r')
  induction ds using List.reverseRecOn with
  | nil =>
    rw [List.append_nil, List.rdropWhile_nil, List.append_nil, List.rdropWhile_eq_self_iff]
    intro hne he
    exact h (by rw [List.getLast?_eq_getLast_of_ne_nil hne, LawfulBEq.eq_of_beq he])
  | append_singleton ds d ih =>
    rw [← List.append_assoc, List.rdropWhile_concat, List.rdropWhile_concat]
    split
    · exact ih
    · rw [List.append_assoc]

/-- An excerpt of one line with carets below a piece of it and nowhere else. -/
def Marks (text : String) (piece : List Char) : Prop :=
  ∃ before after, '\n' ∉ before ++ piece ++ after ∧ text.toList = before ++ piece ++ after ++
    '\n' :: (List.replicate before.length ' ' ++ List.replicate piece.length '^')

theorem marks_of_cuts {source : String} {span : Span} {front piece back : List Char}
    (h : span.Cuts source front piece back) (hne : piece ≠ [])
    (hplain : ∀ c ∈ piece, c ≠ '\n' ∧ c ≠ '\r') :
    ∃ text, excerpt? source span = some text ∧ Marks text piece := by
  obtain ⟨hsource, hstart, hstop⟩ := h
  have hpiece : '\n' ∉ piece := fun hmem => (hplain _ hmem).1 rfl
  have hline : span.start.line = front.count '\n' + 1 := by
    rw [hstart, Location.line_afterAll_start, Nat.add_comm]
  have hcolumn : span.start.column = (lastLine front).length + 1 := by
    rw [hstart, Location.column_afterAll_start, Nat.add_comm]
  have hwidth : caretWidth span = piece.length := by
    obtain ⟨hl, hc⟩ := Location.afterAll_of_not_mem (l := span.start) hpiece
    have hpos := List.length_pos_iff.mpr hne
    rw [caretWidth, hstop, if_pos hl, hc]
    omega
  have hlast : (lastLine front ++ piece).getLast? ≠ some '\r' := by
    rw [List.getLast?_append_of_ne_nil _ hne]
    exact fun he => (hplain _ (List.mem_of_getLast? he)).2 rfl
  have htext : line? source span.start.line = some (String.ofList
      (lastLine front ++ piece ++ trimReturns (back.takeWhile (· != '\n')))) := by
    rw [hline, line?, hsource, List.append_assoc, getElem?_splitLines,
      takeWhile_append_of_not_mem hpiece, ← List.append_assoc, Option.map_some,
      trimReturns_append hlast]
  refine ⟨_, by rw [excerpt?, htext, Option.map_some], lastLine front,
    trimReturns (back.takeWhile (· != '\n')), ?_, ?_⟩
  · have hafter : '\n' ∉ trimReturns (back.takeWhile (· != '\n')) := by
      intro hmem
      have hmem' := (List.rdropWhile_prefix (· == '\r') _).subset hmem
      simpa using List.mem_takeWhile_imp hmem'
    simp [not_mem_lastLine, hpiece, hafter]
  · simp [carets, hcolumn, hwidth]

end Excerpt
end ConstraintText

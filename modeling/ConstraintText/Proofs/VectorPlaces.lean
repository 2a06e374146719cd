import ConstraintText.Proofs.VectorText

/-!
# Where vector errors point

The line and the offset of an error about a line of a vector text are those of the text, but its
columns count bytes. So such an error points into its text exactly if the line has no character of
more than one byte up to the end of the error. An error about a missing line stands at the beginning
of the line behind the last one, with the offset of the end of the text; that is a place of the text
exactly if the text ends with a line.
-/
namespace ConstraintText

theorem utf8Len_eq_length_iff {cs : List Char} :
    String.utf8Len cs = cs.length ↔ ∀ c ∈ cs, c.utf8Size = 1 := by
  induction cs with
  | nil => simp
  | cons c cs ih =>
    have hle := length_le_utf8Len cs
    have hpos := c.utf8Size_pos
    rw [List.forall_mem_cons, ← ih, String.utf8Len_cons, List.length_cons]
    omega

namespace Excerpt

theorem not_mem_of_mem_splitLines {cs line : List Char} (h : line ∈ splitLines cs) :
    '\n' ∉ line := by
  induction cs generalizing line with
  | nil => simp_all [splitLines]
  | cons c cs ih =>
    obtain ⟨first, rest, hcs⟩ := List.exists_cons_of_ne_nil (splitLines_ne_nil cs)
    rw [hcs] at ih
    by_cases hc : c = '\n'
    · rw [splitLines, if_pos hc, hcs] at h
      rcases List.mem_cons.mp h with rfl | h
      · simp
      · exact ih h
    · rw [splitLines, if_neg hc, hcs] at h
      rcases List.mem_cons.mp h with rfl | h
      · simpa [Ne.symm hc] using ih (List.mem_cons_self ..)
      · exact ih (List.mem_cons_of_mem _ h)

theorem getLast?_splitLines (cs : List Char) : (splitLines cs).getLast? = some (lastLine cs) := by
  have hline := getElem?_splitLines cs []
  rw [List.append_nil, List.takeWhile_nil, List.append_nil] at hline
  rw [List.getLast?_eq_getElem?, length_splitLines, Nat.add_sub_cancel, hline]

end Excerpt

namespace IntVector

theorem byteLength_eq (cs : List Char) : byteLength cs = String.utf8Len cs := by
  induction cs with
  | nil => rfl
  | cons c cs ih =>
    rw [String.utf8Len_cons, ← ih, Nat.add_comm]
    rfl

theorem linesText_append (lines lines' : List (List Char)) :
    linesText (lines ++ lines') = linesText lines ++ linesText lines' :=
  List.flatMap_append ..

theorem linesText_singleton (line : List Char) : linesText [line] = line ++ ['\n'] :=
  List.flatMap_singleton ..

theorem lastLine_linesText (lines : List (List Char)) : lastLine (linesText lines) = [] := by
  induction lines using List.reverseRecOn with
  | nil => rfl
  | append_singleton lines line ih =>
    rw [linesText_append, linesText_singleton, ← List.append_assoc, lastLine_concat, if_pos rfl]

theorem count_linesText {lines : List (List Char)} (h : ∀ line ∈ lines, '\n' ∉ line) :
    (linesText lines).count '\n' = lines.length := by
  induction lines with
  | nil => rfl
  | cons line lines ih =>
    obtain ⟨hline, hlines⟩ := List.forall_mem_cons.mp h
    have hcount := ih hlines
    unfold linesText at hcount ⊢
    rw [List.flatMap_cons, List.count_append, List.count_append, hcount,
      List.count_eq_zero_of_not_mem hline, List.length_cons]
    simp [Nat.add_comm]

theorem exists_intercalate_append (before : List (List Char)) (piece : List Char)
    (after : List (List Char)) : ∃ back,
      ['\n'].intercalate (before ++ piece :: after) = linesText before ++ piece ++ back := by
  induction before with
  | nil =>
    cases after with
    | nil => exact ⟨[], by simp [linesText]⟩
    | cons piece' after =>
      exact ⟨'\n' :: ['\n'].intercalate (piece' :: after),
        by simp [linesText, List.intercalate_cons_cons]⟩
  | cons line before ih =>
    obtain ⟨back, hback⟩ := ih
    obtain ⟨first, rest, hrest⟩ : ∃ first rest, before ++ piece :: after = first :: rest :=
      List.exists_cons_of_ne_nil (by simp)
    refine ⟨back, ?_⟩
    rw [List.cons_append, hrest, List.intercalate_cons_cons, ← hrest, hback]
    simp [linesText]

theorem exists_of_mem_numberLines {number offset : Nat} {pieces : List (List Char)} {l : Line}
    (h : l ∈ numberLines number offset pieces) : ∃ before piece after,
      pieces = before ++ piece :: after ∧
      l = ⟨number + before.length, offset + String.utf8Len (linesText before),
        Excerpt.trimReturns piece⟩ := by
  fun_induction numberLines number offset pieces with
  | case1 number offset => simp at h
  | case2 number offset => simp at h
  | case3 number offset piece hp =>
    exact ⟨[], piece, [], rfl, by simpa [linesText] using h⟩
  | case4 number offset piece pieces hp ih =>
    rcases List.mem_cons.mp h with rfl | h
    · exact ⟨[], piece, pieces, rfl, by simp [linesText]⟩
    · obtain ⟨before, piece', after, hpieces, rfl⟩ := ih h
      refine ⟨piece :: before, piece', after, by rw [hpieces, List.cons_append], ?_⟩
      have hoffset : String.utf8Len (linesText (piece :: before)) =
          byteLength piece + 1 + String.utf8Len (linesText before) := by
        rw [← List.singleton_append, linesText_append, linesText_singleton,
          String.utf8Len_append, String.utf8Len_append, byteLength_eq]
        rfl
      rw [hoffset, List.length_cons]
      simp only [Line.mk.injEq, and_true]
      omega

/-- A line of a text behind whole lines, with its number and its offset there. -/
structure Line.StandsIn (l : Line) (source : String) (before : List (List Char))
    (back : List Char) : Prop where
  text : source.toList = linesText before ++ l.chars ++ back
  unbroken : '\n' ∉ l.chars
  number : l.number = (linesText before).count '\n' + 1
  offset : l.offset = String.utf8Len (linesText before)

theorem exists_standsIn {source : String} {l : Line} (h : l ∈ lines source) :
    ∃ before back, l.StandsIn source before back := by
  obtain ⟨before, piece, after, hpieces, rfl⟩ := exists_of_mem_numberLines h
  have hunbroken : ∀ line ∈ before ++ piece :: after, '\n' ∉ line := fun line hline =>
    Excerpt.not_mem_of_mem_splitLines (hpieces ▸ hline)
  obtain ⟨back, hback⟩ := exists_intercalate_append before piece after
  have htext : source.toList = linesText before ++ piece ++ back := by
    rw [← hback, ← hpieces, splitLines_eq_splitOn, List.intercalate_splitOn]
  have hpiece : Excerpt.trimReturns piece ++ piece.rtakeWhile (· == '\r') = piece :=
    List.rdropWhile_append_rtakeWhile ..
  refine ⟨before, piece.rtakeWhile (· == '\r') ++ back, ?_, ?_, ?_, by simp⟩
  · rw [htext, List.append_assoc _ (Excerpt.trimReturns piece), ← List.append_assoc _ _ back,
      hpiece, List.append_assoc]
  · intro hmem
    exact hunbroken piece (by simp) ((List.rdropWhile_prefix _ piece).subset hmem)
  · rw [count_linesText fun line hline => hunbroken line (by simp [hline]), Nat.add_comm]

theorem length_numberLines {pieces : List (List Char)} (hne : pieces ≠ []) (number offset : Nat) :
    (numberLines number offset pieces).length + 1 =
      pieces.length + if pieces.getLast? = some [] then 0 else 1 := by
  fun_induction numberLines number offset pieces with
  | case1 number offset => exact absurd rfl hne
  | case2 number offset => rfl
  | case3 number offset piece hp => simp [hp]
  | case4 number offset piece pieces hp ih =>
    obtain ⟨first, rest, rfl⟩ := List.exists_cons_of_ne_nil hp
    rw [List.length_cons, ih hp, List.getLast?_cons_cons, List.length_cons (a := piece)]
    omega

/-- What stands behind the last line feed of a text is a line if it is not empty. -/
theorem length_lines (source : String) :
    (lines source).length =
      source.toList.count '\n' + if lastLine source.toList = [] then 0 else 1 := by
  have hlength := length_numberLines (Excerpt.splitLines_ne_nil source.toList) 1 0
  rw [Excerpt.length_splitLines, Excerpt.getLast?_splitLines] at hlength
  simp only [Option.some.injEq] at hlength
  rw [lines]
  omega

structure Word.StandsIn (w : Word) (line before after : List Char) : Prop where
  text : line = before ++ w.chars ++ after
  start : w.start = String.utf8Len before
  stop : w.stop = String.utf8Len (before ++ w.chars)
  nonempty : w.chars ≠ []
  unbroken : ∀ c ∈ w.chars, Character.isBlank c = false

/-- A word that was begun behind `before` is a word if it ends here. -/
theorem standsIn_of_mem_ended {before begun after : List Char} {offset : Nat} {w : Word}
    (hoffset : offset = String.utf8Len (before ++ begun.reverse))
    (hbegun : ∀ c ∈ begun, Character.isBlank c = false)
    (h : w ∈ if begun = [] then [] else [⟨begun.reverse, offset - byteLength begun, offset⟩]) :
    w.StandsIn (before ++ begun.reverse ++ after) before after := by
  split at h
  · simp at h
  · rename_i hne
    obtain rfl := List.mem_singleton.mp h
    refine ⟨rfl, ?_, hoffset, by simpa using hne, by simpa using hbegun⟩
    simp [hoffset, byteLength_eq]

theorem exists_standsIn_of_mem_wordsFrom {done begun cs : List Char} {offset : Nat} {w : Word}
    (hoffset : offset = String.utf8Len (done ++ begun.reverse))
    (hbegun : ∀ c ∈ begun, Character.isBlank c = false)
    (h : w ∈ Line.wordsFrom offset begun cs) :
    ∃ before after, w.StandsIn (done ++ begun.reverse ++ cs) before after := by
  fun_induction Line.wordsFrom offset begun cs generalizing done with
  | case1 offset => simp at h
  | case2 offset begun hb =>
    exact ⟨done, [], standsIn_of_mem_ended hoffset hbegun (by rwa [if_neg hb])⟩
  | case3 offset begun c cs hc ih =>
    rcases List.mem_append.mp h with h | h
    · exact ⟨done, c :: cs, standsIn_of_mem_ended hoffset hbegun h⟩
    · have hnext : offset + c.utf8Size =
          String.utf8Len (done ++ begun.reverse ++ [c] ++ [].reverse) := by
        simp [hoffset, Nat.add_assoc]
      simpa using ih hnext (by simp) h
  | case4 offset begun c cs hc ih =>
    have hnext : offset + c.utf8Size = String.utf8Len (done ++ (c :: begun).reverse) := by
      simp [hoffset, Nat.add_assoc]
    simpa using ih hnext (by simpa using ⟨by simpa using hc, hbegun⟩) h

theorem Line.exists_standsIn_of_mem_words {l : Line} {w : Word} (h : w ∈ l.words) :
    ∃ before after, w.StandsIn l.chars before after := by
  have hstart : 0 = String.utf8Len ([] ++ [].reverse) := rfl
  exact exists_standsIn_of_mem_wordsFrom hstart (by simp) h

namespace Line.StandsIn

variable {source : String} {l : Line} {before : List (List Char)} {back front rest : List Char}

theorem afterAll_eq (h : l.StandsIn source before back) (hl : l.chars = front ++ rest) :
    Location.start.afterAll (linesText before ++ front) =
      ⟨l.number, front.length + 1, l.offset + String.utf8Len front⟩ := by
  have hunbroken : '\n' ∉ front := fun hmem => h.unbroken (hl ▸ List.mem_append_left rest hmem)
  obtain ⟨hline, hcolumn⟩ := Location.afterAll_of_not_mem
    (l := Location.start.afterAll (linesText before)) hunbroken
  have hoffset := Location.offset_afterAll Location.start (linesText before ++ front)
  rw [Location.line_afterAll_start] at hline
  rw [Location.column_afterAll_start, lastLine_linesText] at hcolumn
  rw [Location.afterAll_append] at hoffset ⊢
  rw [h.number, h.offset]
  generalize (Location.start.afterAll (linesText before)).afterAll front = place at *
  obtain ⟨line, column, offset⟩ := place
  simp only [Location.start, List.length_nil, String.utf8Len_append] at hline hcolumn hoffset
  simp only [Location.mk.injEq]
  omega

theorem toList_eq (h : l.StandsIn source before back) (hl : l.chars = front ++ rest) :
    source.toList = linesText before ++ front ++ (rest ++ back) := by
  rw [h.text, hl]
  simp

theorem isPlaceOf (h : l.StandsIn source before back) (hl : l.chars = front ++ rest) :
    Location.IsPlaceOf ⟨l.number, front.length + 1, l.offset + String.utf8Len front⟩ source :=
  h.afterAll_eq hl ▸ Location.isPlaceOf_afterAll (h.toList_eq hl)

/-- A column that counts bytes is right exactly if the characters take a byte each. -/
theorem isPlaceOf_iff (h : l.StandsIn source before back) (hl : l.chars = front ++ rest) :
    Location.IsPlaceOf
        ⟨l.number, String.utf8Len front + 1, l.offset + String.utf8Len front⟩ source ↔
      ∀ c ∈ front, c.utf8Size = 1 := by
  rw [← utf8Len_eq_length_iff]
  constructor
  · intro hplace
    have heq := hplace.eq_of_offset (h.isPlaceOf hl) rfl
    simpa using congrArg Location.column heq
  · intro hlength
    have hplace := h.isPlaceOf hl
    rwa [← hlength] at hplace

theorem isSome_excerpt? (h : l.StandsIn source before back) (start stop : Nat) :
    (Excerpt.excerpt? source (l.span start stop)).isSome = true := by
  obtain ⟨line, hline⟩ := Excerpt.line?_of_isPlaceOf (h.isPlaceOf (List.nil_append l.chars).symm)
  have hnumber : Excerpt.line? source (l.span start stop).start.line = some line := hline
  simp [Excerpt.excerpt?, hnumber]

theorem pointsInto_finish_iff (h : l.StandsIn source before back) (problem : Problem) :
    (ReadError.refused ⟨problem, l.finish, none⟩).PointsInto source ↔
      ∀ c ∈ l.chars, c.utf8Size = 1 := by
  have hl : l.chars = l.chars ++ [] := (List.append_nil _).symm
  have hplace := h.isPlaceOf_iff hl
  have hfinish : l.finish = .point
      ⟨l.number, String.utf8Len l.chars + 1, l.offset + String.utf8Len l.chars⟩ := by
    rw [Line.finish, byteLength_eq]
    rfl
  constructor
  · intro hpoints
    have hplaced := hpoints.placed l.finish rfl
    rw [hfinish] at hplaced
    exact hplace.mp hplaced.stop
  · intro hbytes
    rw [hfinish]
    exact ReadError.pointsInto_refused (Span.isPlaced_point (hplace.mpr hbytes)) (by simp)

/-- If the characters up to the end of a word take a byte each, the span of the word cuts it out. -/
theorem cuts_word (h : l.StandsIn source before back) {w : Word}
    (hw : w.StandsIn l.chars front rest) (hbytes : ∀ c ∈ front ++ w.chars, c.utf8Size = 1) :
    (l.span w.start w.stop).Cuts source (linesText before ++ front) w.chars (rest ++ back) := by
  have hl : l.chars = front ++ (w.chars ++ rest) := by rw [hw.text, List.append_assoc]
  have hfront : String.utf8Len front = front.length :=
    utf8Len_eq_length_iff.mpr fun c hc => hbytes c (by simp [hc])
  have hall := utf8Len_eq_length_iff.mpr hbytes
  refine ⟨?_, ?_, ?_⟩
  · rw [h.text, hw.text]
    simp
  · rw [h.afterAll_eq hl, ← hfront, ← hw.start]
    rfl
  · have hstart : (l.span w.start w.stop).start =
        Location.start.afterAll (linesText before ++ front) := by
      rw [h.afterAll_eq hl, ← hfront, ← hw.start]
      rfl
    rw [hstart, ← Location.afterAll_append, List.append_assoc, h.afterAll_eq hw.text, ← hall,
      ← hw.stop]
    rfl

theorem pointsInto_word_iff (h : l.StandsIn source before back) {w : Word}
    (hw : w.StandsIn l.chars front rest) (problem : Problem) :
    (wordRefusal problem l w).PointsInto source ↔ ∀ c ∈ front ++ w.chars, c.utf8Size = 1 := by
  constructor
  · intro hpoints
    have hstop := (hpoints.placed (l.span w.start w.stop) rfl).stop
    rw [Line.span, hw.stop] at hstop
    exact (h.isPlaceOf_iff hw.text).mp hstop
  · intro hbytes
    have hcuts := h.cuts_word hw hbytes
    have hplain : ∀ c ∈ w.chars, c ≠ '\n' ∧ c ≠ '\r' := fun c hc =>
      isPlain_of (p := fun c => !Character.isBlank c) (by decide) (by decide)
        (by simpa using hw.unbroken c hc)
    refine ReadError.pointsInto_refused hcuts.isPlaced ?_
    simpa using hcuts.shows hw.nonempty hplain

end Line.StandsIn

/-- Where an error about a missing line stands. -/
def endPlace (source : String) : Location := ⟨(lines source).length + 1, 1, source.utf8ByteSize⟩

theorem isPlaceOf_endPlace_iff (source : String) :
    (endPlace source).IsPlaceOf source ↔ lastLine source.toList = [] := by
  have hend := Location.isPlaceOf_endOf source
  have hline : (Location.endOf source).line = 1 + source.toList.count '\n' :=
    Location.line_afterAll_start _
  have hcolumn : (Location.endOf source).column = 1 + (lastLine source.toList).length :=
    Location.column_afterAll_start _
  have hoffset := Location.offset_endOf source
  constructor
  · intro hplace
    have heq := hplace.eq_of_offset hend hoffset.symm
    have hzero : 1 + 0 = 1 + (lastLine source.toList).length :=
      (congrArg Location.column heq).trans hcolumn
    exact List.length_eq_zero_iff.mp (Nat.add_left_cancel hzero).symm
  · intro hlast
    have heq : endPlace source = Location.endOf source := by
      generalize Location.endOf source = place at *
      obtain ⟨line, column, offset⟩ := place
      simp only [hlast, List.length_nil] at hline hcolumn hoffset
      rw [endPlace, length_lines, if_pos hlast, Location.mk.injEq]
      omega
    exact heq ▸ hend

theorem isSome_excerpt?_endPlace_iff (source : String) :
    (Excerpt.excerpt? source (.point (endPlace source))).isSome = true ↔
      lastLine source.toList = [] := by
  have hlines := Excerpt.length_splitLines source.toList
  have hsome : (Excerpt.excerpt? source (.point (endPlace source))).isSome = true ↔
      (lines source).length < (Excerpt.splitLines source.toList).length := by
    simp [Excerpt.excerpt?, Excerpt.line?, Span.point, endPlace]
  rw [hsome, hlines, length_lines]
  split <;> simp_all

theorem pointsInto_endRefusal_iff (source : String) :
    (endRefusal source).PointsInto source ↔ lastLine source.toList = [] := by
  rw [← isPlaceOf_endPlace_iff]
  exact ⟨fun h => (h.placed (.point (endPlace source)) rfl).start, fun h =>
    ReadError.pointsInto_atPlace h .unexpectedEnd⟩

/-- An error about a missing line points into its text exactly if that is empty or ends with a line
feed. Any other error is about a line, has an excerpt, and points into its text exactly if the
characters of the line up to the end of the error take a byte each. -/
theorem read_error_pointsInto_iff {source : String} {e : ReadError} (h : read source = .error e) :
    ∃ span, e.span? = some span ∧
      (e = endRefusal source ∧ (e.PointsInto source ↔ lastLine source.toList = []) ∧
          ((Excerpt.excerpt? source span).isSome = true ↔ lastLine source.toList = []) ∨
        ∃ before line back, source.toList = linesText before ++ line ++ back ∧ '\n' ∉ line ∧
          span.stop.offset = String.utf8Len (linesText before ++ line) ∧
          (e.PointsInto source ↔ ∀ c ∈ line, c.utf8Size = 1) ∧
          (Excerpt.excerpt? source span).isSome = true) := by
  rcases read_eq_error h with rfl | ⟨l, hl, ⟨w, hw, problem, rfl⟩ | ⟨n, found, rfl⟩⟩
  · exact ⟨.point (endPlace source), rfl, .inl ⟨rfl, pointsInto_endRefusal_iff source,
      isSome_excerpt?_endPlace_iff source⟩⟩
  · obtain ⟨before, back, hstands⟩ := exists_standsIn hl
    obtain ⟨front, rest, hword⟩ := l.exists_standsIn_of_mem_words hw
    refine ⟨l.span w.start w.stop, rfl, .inr ⟨before, front ++ w.chars, rest ++ back,
      hstands.toList_eq hword.text, ?_, ?_, hstands.pointsInto_word_iff hword problem,
      hstands.isSome_excerpt? ..⟩⟩
    · intro hmem
      exact hstands.unbroken (hword.text ▸ List.mem_append_left rest hmem)
    · rw [String.utf8Len_append, ← hword.stop, ← hstands.offset]
      rfl
  · obtain ⟨before, back, hstands⟩ := exists_standsIn hl
    refine ⟨l.finish, rfl, .inr ⟨before, l.chars, back, hstands.text, hstands.unbroken, ?_,
      hstands.pointsInto_finish_iff _, hstands.isSome_excerpt? ..⟩⟩
    rw [String.utf8Len_append, ← hstands.offset, ← byteLength_eq]
    rfl

/-- The third of three elements is no integer but a remark: the error points at its first word. -/
theorem read_error_pointsInto_iff_third_word :
    let source := "3\n1 2 # two\n"
    let e : ReadError := .refused ⟨.expectedInteger, ⟨⟨2, 5, 6⟩, ⟨2, 6, 7⟩⟩, some "#"⟩
    read source = .error e ∧ e.PointsInto source := by
  intro source e
  have he : read source = .error e := by
    unfold source e
    cbv
  have hbytes : ∀ c ∈ source.toList, c.utf8Size = 1 := by
    rw [← utf8Len_eq_length_iff, String.utf8Len_toList]
    unfold source
    cbv
  obtain ⟨span, -, ⟨hend, -⟩ | ⟨before, line, back, hsource, -, -, hiff, -⟩⟩ :=
    read_error_pointsInto_iff he
  · simp [e, endRefusal, Refusal.atPlace] at hend
  · exact ⟨he, hiff.mpr fun c hc => hbytes c (by simp [hsource, hc])⟩

/-- Not every error points into its text: behind a letter of two bytes a column is one too many. -/
theorem not_forall_read_error_pointsInto :
    ¬ ∀ (source : String) (e : ReadError), read source = .error e → e.PointsInto source := by
  intro hall
  let e : ReadError := .refused ⟨.expectedInteger, ⟨⟨2, 1, 2⟩, ⟨2, 3, 4⟩⟩, some "é"⟩
  have he : read "1\né" = .error e := by
    unfold e
    cbv
  have hstop := ((hall _ e he).placed ⟨⟨2, 1, 2⟩, ⟨2, 3, 4⟩⟩ rfl).stop
  have heq := hstop.eq_of_offset (Location.isPlaceOf_endOf "1\né") (by decide)
  exact absurd heq (by decide)

end IntVector
end ConstraintText

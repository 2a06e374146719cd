import ConstraintText.IntVector.Reading
import ConstraintText.Proofs.Diagnostics

/-!
# Lines and words of a vector text

A vector text is split at its line feeds, and a line at its blanks. A line has content if its first
character that is no blank does not begin a comment; then it has a word. The lines and words that
are numbered and measured on the way through a text are the pieces of these splits.
-/
namespace ConstraintText.IntVector

/-- The pieces of a line between its blanks, empty ones aside. -/
def wordsOf (line : List Char) : List (List Char) :=
  (line.splitOnP Character.isBlank).filter (· ≠ [])

theorem wordsOf_append_cons {c : Char} (hc : Character.isBlank c = true) (cs ds : List Char) :
    wordsOf (cs ++ c :: ds) = wordsOf cs ++ wordsOf ds := by
  rw [wordsOf, List.splitOnP_append_cons cs ds hc, List.filter_append]
  rfl

theorem wordsOf_nil : wordsOf [] = [] := by simp [wordsOf, List.splitOnP_nil]

theorem wordsOf_of_blanks {cs : List Char} (h : ∀ c ∈ cs, Character.isBlank c = true) :
    wordsOf cs = [] := by
  induction cs with
  | nil => exact wordsOf_nil
  | cons c cs ih =>
    obtain ⟨hc, hcs⟩ := List.forall_mem_cons.mp h
    simpa [wordsOf_nil, ih hcs] using wordsOf_append_cons hc [] cs

theorem wordsOf_append_blanks {ds : List Char} (h : ∀ c ∈ ds, Character.isBlank c = true)
    (cs : List Char) : wordsOf (cs ++ ds) = wordsOf cs := by
  cases ds with
  | nil => rw [List.append_nil]
  | cons d ds =>
    obtain ⟨hd, hds⟩ := List.forall_mem_cons.mp h
    rw [wordsOf_append_cons hd, wordsOf_of_blanks hds, List.append_nil]

theorem wordsOf_word {cs : List Char} (hne : cs ≠ [])
    (h : ∀ c ∈ cs, Character.isBlank c = false) : wordsOf cs = [cs] := by
  rw [wordsOf, List.splitOnP_eq_singleton h]
  simp [hne]

theorem wordsOf_append {w cs : List Char} (hne : w ≠ [])
    (hw : ∀ c ∈ w, Character.isBlank c = false) (hcs : ∀ c ∈ cs.head?, Character.isBlank c = true) :
    wordsOf (w ++ cs) = w :: wordsOf cs := by
  cases cs with
  | nil => rw [List.append_nil, wordsOf_word hne hw, wordsOf_nil]
  | cons c cs =>
    have hc := hcs c (by simp)
    have hblank := wordsOf_append_cons hc [] cs
    rw [List.nil_append, wordsOf_nil, List.nil_append] at hblank
    rw [wordsOf_append_cons hc, wordsOf_word hne hw, hblank, List.singleton_append]

theorem wordsOf_intercalate {ws : List (List Char)} {cs : List Char}
    (hws : ∀ w ∈ ws, w ≠ [] ∧ ∀ c ∈ w, Character.isBlank c = false)
    (hcs : ∀ c ∈ cs.head?, Character.isBlank c = true) :
    wordsOf ([' '].intercalate ws ++ cs) = ws ++ wordsOf cs := by
  induction ws with
  | nil => rfl
  | cons w ws ih =>
    obtain ⟨⟨hne, hw⟩, hrest⟩ := List.forall_mem_cons.mp hws
    cases ws with
    | nil => simpa using wordsOf_append hne hw hcs
    | cons w' ws =>
      have hspace := wordsOf_append_cons (c := ' ') (by decide) w
        ([' '].intercalate (w' :: ws) ++ cs)
      rw [wordsOf_word hne hw, ih hrest] at hspace
      rw [List.intercalate_cons_cons]
      simpa using hspace

theorem wordsOf_ne_nil {cs : List Char} {c : Char} (hc : c ∈ cs)
    (hb : Character.isBlank c = false) : wordsOf cs ≠ [] := by
  induction cs with
  | nil => simp at hc
  | cons d cs ih =>
    cases hd : Character.isBlank d with
    | false =>
      obtain ⟨piece, pieces, hp⟩ :=
        List.exists_cons_of_ne_nil (List.splitOnP_ne_nil Character.isBlank cs)
      simp [wordsOf, List.splitOnP_cons_eq_if_modifyHead, hd, hp]
    | true =>
      have hmem : c ∈ cs := by
        rcases List.mem_cons.mp hc with rfl | hmem
        · simp [hb] at hd
        · exact hmem
      have hsplit := wordsOf_append_cons hd [] cs
      rw [List.nil_append, wordsOf_nil, List.nil_append] at hsplit
      rw [hsplit]
      exact ih hmem

namespace Line

theorem map_chars_wordsFrom (offset : Nat) (begun cs : List Char) :
    (wordsFrom offset begun cs).map Word.chars =
      ((cs.splitOnP Character.isBlank).modifyHead (begun.reverse ++ ·)).filter (· ≠ []) := by
  fun_induction wordsFrom offset begun cs with
  | case1 offset => simp [List.splitOnP_nil]
  | case2 offset begun hb => simp [List.splitOnP_nil, hb]
  | case3 offset begun c cs hc ih =>
    rw [List.map_append, ih, List.splitOnP_cons_eq_if_modifyHead, if_pos hc]
    obtain ⟨piece, pieces, hp⟩ :=
      List.exists_cons_of_ne_nil (List.splitOnP_ne_nil Character.isBlank cs)
    by_cases hb : begun = [] <;> simp [hb, hp]
  | case4 offset begun c cs hc ih =>
    rw [ih, List.splitOnP_cons_eq_if_modifyHead, if_neg hc]
    obtain ⟨piece, pieces, hp⟩ :=
      List.exists_cons_of_ne_nil (List.splitOnP_ne_nil Character.isBlank cs)
    simp [hp]

/-- The words of a line are the words of its characters. -/
theorem map_chars_words (l : Line) : l.words.map Word.chars = wordsOf l.chars := by
  obtain ⟨piece, pieces, hp⟩ :=
    List.exists_cons_of_ne_nil (List.splitOnP_ne_nil Character.isBlank l.chars)
  rw [words, map_chars_wordsFrom, wordsOf, hp]
  rfl

end Line

/-- Whether the first character of a line that is no blank is there and begins no comment. -/
def isContent (line : List Char) : Bool :=
  (line.find? fun c => !Character.isBlank c).any (· != '#')

/-- The lines of a text, without the carriage returns at their ends, that have content. -/
def contentLines (text : List Char) : List (List Char) :=
  ((text.splitOn '\n').map (·.rdropWhile (· == '\r'))).filter isContent

theorem isContent_iff {line : List Char} :
    isContent line = true ↔ ∃ before c after, line = before ++ c :: after ∧
      (∀ b ∈ before, Character.isBlank b = true) ∧ Character.isBlank c = false ∧ c ≠ '#' := by
  simp only [isContent, Option.any_eq_true, List.find?_eq_some_iff_append]
  constructor
  · rintro ⟨c, ⟨hc, before, after, hline, hbefore⟩, hcomment⟩
    exact ⟨before, c, after, hline, by simpa using hbefore, by simpa using hc,
      by simpa using hcomment⟩
  · rintro ⟨before, c, after, hline, hbefore, hc, hcomment⟩
    exact ⟨c, ⟨by simpa using hc, before, after, hline, by simpa using hbefore⟩,
      by simpa using hcomment⟩

theorem wordsOf_ne_nil_of_isContent {line : List Char} (h : isContent line = true) :
    wordsOf line ≠ [] := by
  obtain ⟨before, c, after, rfl, -, hc, -⟩ := isContent_iff.mp h
  exact wordsOf_ne_nil (by simp) hc

theorem isContent_append_blanks {ds : List Char} (h : ∀ c ∈ ds, Character.isBlank c = true)
    (cs : List Char) : isContent (cs ++ ds) = isContent cs := by
  have hnone : ds.find? (fun c => !Character.isBlank c) = none := by
    simpa using h
  rw [isContent, isContent, List.find?_append, hnone, Option.or_none]

theorem isBlank_of_mem_returns {line : List Char} :
    ∀ c ∈ line.rtakeWhile (· == '\r'), Character.isBlank c = true := by
  intro c hc
  obtain rfl : c = '\r' := by simpa using List.mem_rtakeWhile_imp hc
  decide

theorem isContent_rdropWhile (line : List Char) :
    isContent (line.rdropWhile (· == '\r')) = isContent line := by
  rw [← isContent_append_blanks isBlank_of_mem_returns, List.rdropWhile_append_rtakeWhile]

theorem wordsOf_rdropWhile (line : List Char) :
    wordsOf (line.rdropWhile (· == '\r')) = wordsOf line := by
  rw [← wordsOf_append_blanks isBlank_of_mem_returns, List.rdropWhile_append_rtakeWhile]

theorem isContent_cons {c : Char} (h : Scanner.endsGap c = true) (cs : List Char) :
    isContent (c :: cs) = true := by
  obtain ⟨⟨-, hcomment⟩, hblank⟩ : (c ≠ '\n' ∧ c ≠ '#') ∧ Character.isBlank c = false := by
    simpa [Scanner.endsGap] using h
  exact isContent_iff.mpr ⟨[], c, cs, rfl, by simp, hblank, hcomment⟩

/-- A line is content or not whatever the lines behind it are. -/
theorem contentLines_append {line : List Char} (h : '\n' ∉ line) (text : List Char) :
    contentLines (line ++ '\n' :: text) =
      [line.rdropWhile (· == '\r')].filter isContent ++ contentLines text := by
  have hsplit : (line ++ '\n' :: text).splitOn '\n' = line :: text.splitOn '\n' := by
    rw [List.splitOn_eq_splitOnP, List.splitOn_eq_splitOnP,
      List.splitOnP_append_cons line text (by simp), List.splitOnP_eq_singleton]
    · rfl
    · intro c hc
      simpa using fun he : c = '\n' => h (he ▸ hc)
  rw [contentLines, hsplit, List.map_cons, ← List.singleton_append, List.filter_append]
  rfl

theorem contentLines_of_not_mem {line : List Char} (h : '\n' ∉ line) :
    contentLines line = [line.rdropWhile (· == '\r')].filter isContent := by
  rw [contentLines, List.splitOn_eq_splitOnP, List.splitOnP_eq_singleton]
  · rfl
  · intro c hc
    simpa using fun he : c = '\n' => h (he ▸ hc)

def linesText (lines : List (List Char)) : List Char := lines.flatMap (· ++ ['\n'])

/-- Lines without content in front of a text change nothing. -/
theorem contentLines_skip {skipped : List (List Char)} (text : List Char)
    (h : ∀ line ∈ skipped, '\n' ∉ line ∧ isContent line = false) :
    contentLines (linesText skipped ++ text) = contentLines text := by
  induction skipped with
  | nil => rfl
  | cons line skipped ih =>
    obtain ⟨⟨hline, hcontent⟩, hrest⟩ := List.forall_mem_cons.mp h
    have hnone : [line.rdropWhile (· == '\r')].filter isContent = [] := by
      simp [isContent_rdropWhile, hcontent]
    rw [linesText, List.flatMap_cons, List.append_assoc, List.append_assoc, List.singleton_append,
      contentLines_append hline, hnone, List.nil_append]
    exact ih hrest

theorem contentLines_of_isContent {line text : List Char} (h : '\n' ∉ line)
    (hc : isContent line = true) (ht : ∀ c ∈ text.head?, c = '\n') :
    ∃ lines, contentLines (line ++ text) = line.rdropWhile (· == '\r') :: lines := by
  have hself : [line.rdropWhile (· == '\r')].filter isContent =
      [line.rdropWhile (· == '\r')] := by
    simp [isContent_rdropWhile, hc]
  cases text with
  | nil => exact ⟨[], by rw [List.append_nil, contentLines_of_not_mem h, hself]⟩
  | cons c text =>
    obtain rfl : c = '\n' := ht c (by simp)
    exact ⟨contentLines text, by rw [contentLines_append h, hself, List.singleton_append]⟩

theorem splitLines_eq_splitOn (text : List Char) :
    Excerpt.splitLines text = text.splitOn '\n' := by
  induction text with
  | nil => rfl
  | cons c cs ih =>
    obtain ⟨line, lines, hcs⟩ := List.exists_cons_of_ne_nil (Excerpt.splitLines_ne_nil cs)
    rw [List.splitOn_eq_splitOnP] at ih ⊢
    rw [Excerpt.splitLines, List.splitOnP_cons_eq_if_modifyHead, ← ih, hcs]
    by_cases hc : c = '\n' <;> simp [hc]

theorem Line.hasContent_eq (l : Line) : l.hasContent = isContent l.chars := by
  rw [isContent, List.find?_eq_head?_dropWhile_not]
  simp only [Bool.not_not, hasContent]
  cases l.chars.dropWhile Character.isBlank <;> rfl

theorem Line.map_chars_filter (ls : List Line) :
    (ls.filter hasContent).map chars = (ls.map chars).filter isContent := by
  have hcomp : hasContent = isContent ∘ chars := funext hasContent_eq
  rw [List.filter_map, ← hcomp]

theorem filter_map_chars_numberLines (number offset : Nat) (pieces : List (List Char)) :
    ((numberLines number offset pieces).map Line.chars).filter isContent =
      (pieces.map (·.rdropWhile (· == '\r'))).filter isContent := by
  fun_induction numberLines number offset pieces with
  | case1 number offset => rfl
  | case2 number offset => rfl
  | case3 number offset piece hp => rfl
  | case4 number offset piece pieces hp ih =>
    rw [List.map_cons, List.map_cons, List.filter_cons, List.filter_cons, ih]
    rfl

/-- The lines that are read are the lines of content. -/
theorem map_chars_lines (source : String) :
    ((lines source).filter Line.hasContent).map Line.chars = contentLines source.toList := by
  rw [Line.map_chars_filter, lines, filter_map_chars_numberLines, splitLines_eq_splitOn,
    contentLines]

end ConstraintText.IntVector

import ConstraintText.Proofs.VectorLines

/-!
# Reading a vector text

A vector is read exactly if the first line of content begins with its size and the next line of
content with that many integers. So what a vector is written as is read back, and lines without
content in front of either line, anything behind the words of either line and anything behind both
lines change nothing.
-/
namespace ConstraintText

namespace Decimal

theorem count?_toString {n : Nat} (h : n ≤ largestCount) :
    count? (toString n).toList = some n := by
  have hfirst : (Nat.toDigits 10 n).head? ≠ some '+' := by
    intro hhead
    have hdigit := Nat.isDigit_of_mem_toDigits (by decide) (by decide) (List.mem_of_head? hhead)
    exact absurd hdigit (by decide)
  rw [Nat.toString_eq_repr, Nat.toList_repr, count?, if_neg hfirst, natural?_toDigits,
    Option.bind_some, if_pos h]

theorem toList_toString_int (i : Int) :
    (∃ n : Nat, i = n ∧ (toString i).toList = Nat.toDigits 10 n) ∨
      ∃ n : Nat, i = -(n : Int) ∧ (toString i).toList = '-' :: Nat.toDigits 10 n := by
  cases i with
  | ofNat n => exact .inl ⟨n, rfl, Nat.toList_repr⟩
  | negSucc n =>
    refine .inr ⟨n + 1, rfl, ?_⟩
    rw [Int.toString_eq_repr, Int.repr, String.toList_append, Nat.toList_repr]
    rfl

theorem endsGap_of_mem_toDigits {n : Nat} {c : Char} (h : c ∈ Nat.toDigits 10 n) :
    Scanner.endsGap c = true :=
  Character.endsGap_of_isDigit (Nat.isDigit_of_mem_toDigits (by decide) (by decide) h)

theorem endsGap_of_mem_toString {i : Int} {c : Char} (h : c ∈ (toString i).toList) :
    Scanner.endsGap c = true := by
  rcases toList_toString_int i with ⟨n, -, htext⟩ | ⟨n, -, htext⟩ <;> rw [htext] at h
  · exact endsGap_of_mem_toDigits h
  · rcases List.mem_cons.mp h with rfl | h
    · decide
    · exact endsGap_of_mem_toDigits h

end Decimal

theorem Scanner.isBlank_of_endsGap {c : Char} (h : endsGap c = true) :
    Character.isBlank c = false := by
  have hand := (Bool.and_eq_true_iff.mp h).2
  simpa using hand

namespace IntVector

/-- What a text has to say for a vector to be read from it: its size, and, if that is not zero, its
elements. -/
def SaysVector (text : List Char) (v : IntVector) : Prop :=
  ∃ header lines word words n, contentLines text = header :: lines ∧
    wordsOf header = word :: words ∧ Decimal.count? word = some n ∧
    (n = 0 ∧ v.elements = [] ∨
      ∃ line rest, lines = line :: rest ∧ n ≤ (wordsOf line).length ∧
        List.Forall₂ (fun word value => element? word = some value)
          ((wordsOf line).take n) v.elements)

theorem readSize_eq_ok {l : Line} {n : Nat} :
    readSize l = .ok n ↔
      ∃ word words, wordsOf l.chars = word :: words ∧ Decimal.count? word = some n := by
  rw [readSize, ← l.map_chars_words]
  cases l.words with
  | nil => simp
  | cons w ws => cases h : Decimal.count? w.chars <;> simp [h]

theorem readElement_eq_ok {l : Line} {w : Word} {i : Int} :
    readElement l w = .ok i ↔ element? w.chars = some i := by
  rw [readElement]
  cases element? w.chars <;> simp

theorem mapM_eq_ok {α β ε : Type} {f : α → Except ε β} {as : List α} {bs : List β} :
    as.mapM f = .ok bs ↔ List.Forall₂ (fun a b => f a = .ok b) as bs := by
  induction as generalizing bs with
  | nil => cases bs <;> simp [pure, Except.pure]
  | cons a as ih =>
    rw [List.mapM_cons]
    cases ha : f a with
    | error e => cases bs <;> simp [bind, Except.bind, ha]
    | ok b =>
      cases has : as.mapM f with
      | error e => cases bs <;> simp [bind, Except.bind, ← ih, ha, has]
      | ok bs' => cases bs <;> simp [bind, Except.bind, pure, Except.pure, ← ih, ha, has]

theorem readElements_eq_ok {l : Line} {n : Nat} {v : IntVector} :
    readElements l n = .ok v ↔ n ≤ (wordsOf l.chars).length ∧
      List.Forall₂ (fun word value => element? word = some value)
        ((wordsOf l.chars).take n) v.elements := by
  have hlength : (wordsOf l.chars).length = l.words.length := by
    rw [← l.map_chars_words, List.length_map]
  have hread : (l.words.take n).mapM (readElement l) = .ok v.elements ↔
      List.Forall₂ (fun word value => element? word = some value)
        ((wordsOf l.chars).take n) v.elements := by
    simp only [mapM_eq_ok, readElement_eq_ok, ← l.map_chars_words, ← List.map_take,
      List.forall₂_map_left_iff]
  rw [readElements, hlength, ← hread]
  obtain ⟨elements⟩ := v
  split
  · simp only [reduceCtorEq, false_iff]
    omega
  · cases (l.words.take n).mapM (readElement l) <;> simp [Except.map]
    omega

theorem read_eq_ok {source : String} {v : IntVector} :
    read source = .ok v ↔ SaysVector source.toList v := by
  have hlines := map_chars_lines source
  unfold read SaysVector
  cases hl : (lines source).filter Line.hasContent with
  | nil => simp [← hlines, hl]
  | cons header rest =>
    simp only [hl, List.map_cons] at hlines
    constructor
    · intro h
      cases hs : readSize header with
      | error e => simp [hs] at h
      | ok n =>
        obtain ⟨word, words, hwords, hcount⟩ := readSize_eq_ok.mp hs
        refine ⟨header.chars, rest.map Line.chars, word, words, n, hlines.symm, hwords, hcount, ?_⟩
        cases n with
        | zero =>
          obtain rfl : zeros 0 = v := by simpa [hs] using h
          exact .inl ⟨rfl, rfl⟩
        | succ n =>
          cases rest with
          | nil => simp [hs] at h
          | cons l rest =>
            exact .inr ⟨l.chars, rest.map Line.chars, rfl,
              readElements_eq_ok.mp (by simpa [hs] using h)⟩
    · rintro ⟨header', lines', word, words, n, hheader, hwords, hcount, hv⟩
      rw [← hlines, List.cons.injEq] at hheader
      obtain ⟨rfl, rfl⟩ := hheader
      have hs : readSize header = .ok n := readSize_eq_ok.mpr ⟨word, words, hwords, hcount⟩
      dsimp only
      rw [hs]
      obtain ⟨elements⟩ := v
      rcases hv with ⟨rfl, rfl⟩ | ⟨line, lines, hrest, hv⟩
      · rfl
      · obtain ⟨l, rest, rfl, rfl, rfl⟩ := List.map_eq_cons_iff.mp hrest
        cases n with
        | zero =>
          obtain rfl : elements = [] := by simpa using hv.2
          rfl
        | succ n => exact readElements_eq_ok.mpr hv

theorem exists_of_mapM_eq_error {α β ε : Type} {f : α → Except ε β} {as : List α} {e : ε}
    (h : as.mapM f = .error e) : ∃ a ∈ as, f a = .error e := by
  induction as with
  | nil => simp [pure, Except.pure] at h
  | cons a as ih =>
    rw [List.mapM_cons] at h
    cases ha : f a with
    | error e' =>
      obtain rfl : e' = e := by simpa [ha, bind, Except.bind] using h
      exact ⟨a, by simp, ha⟩
    | ok b =>
      cases has : as.mapM f with
      | error e' =>
        obtain rfl : e' = e := by simpa [ha, has, bind, Except.bind] using h
        obtain ⟨a', ha', he⟩ := ih has
        exact ⟨a', by simp [ha'], he⟩
      | ok bs => simp [ha, has, bind, Except.bind, pure, Except.pure] at h

theorem readSize_eq_error {l : Line} {e : ReadError} (hl : l.hasContent = true)
    (h : readSize l = .error e) : ∃ w ∈ l.words, e = wordRefusal .vectorSize l w := by
  have hne := wordsOf_ne_nil_of_isContent (l.hasContent_eq ▸ hl)
  rw [← l.map_chars_words] at hne
  cases hw : l.words with
  | nil => simp [hw] at hne
  | cons w ws =>
    rw [readSize, hw] at h
    dsimp only at h
    split at h
    · exact ⟨w, by simp, (Except.error.inj h).symm⟩
    · simp at h

theorem readElements_eq_error {l : Line} {n : Nat} {e : ReadError}
    (h : readElements l n = .error e) :
    (∃ w ∈ l.words, e = wordRefusal .expectedInteger l w) ∨
      e = .refused ⟨.tooFewValues n l.words.length, l.finish, none⟩ := by
  rw [readElements] at h
  split at h
  · exact .inr (Except.error.inj h).symm
  · cases hm : (l.words.take n).mapM (readElement l) with
    | ok is => simp [hm, Except.map] at h
    | error e' =>
      obtain rfl : e' = e := by simpa [hm, Except.map] using h
      obtain ⟨w, hw, he⟩ := exists_of_mapM_eq_error hm
      refine .inl ⟨w, List.mem_of_mem_take hw, ?_⟩
      rw [readElement] at he
      split at he
      · exact (Except.error.inj he).symm
      · simp at he

/-- A text is refused because a line is missing, at a word of a line, or at the end of a line with
too few words. -/
theorem read_eq_error {source : String} {e : ReadError} (h : read source = .error e) :
    e = endRefusal source ∨ ∃ l ∈ lines source,
      (∃ w ∈ l.words, ∃ problem, e = wordRefusal problem l w) ∨
      ∃ n found, e = .refused ⟨.tooFewValues n found, l.finish, none⟩ := by
  have hmem : ∀ l ∈ (lines source).filter Line.hasContent,
      l ∈ lines source ∧ l.hasContent = true := fun l hl => by simpa using hl
  unfold read at h
  split at h
  · exact .inl (Except.error.inj h).symm
  · rename_i header rest hl
    rw [hl] at hmem
    split at h
    · rename_i hs
      obtain ⟨hheader, hcontent⟩ := hmem header (by simp)
      obtain ⟨w, hw, he⟩ := readSize_eq_error hcontent hs
      exact .inr ⟨header, hheader, .inl ⟨w, hw, _, (Except.error.inj h).symm.trans he⟩⟩
    · simp at h
    · split at h
      · exact .inl (Except.error.inj h).symm
      · rename_i l _
        refine .inr ⟨l, (hmem l (by simp)).1, ?_⟩
        rcases readElements_eq_error h with ⟨w, hw, he⟩ | he
        · exact .inl ⟨w, hw, _, he⟩
        · exact .inr ⟨_, _, he⟩

/-- A size that is missing is never refused at the end of its line: there is a word. -/
theorem read_ne_vectorSize_at_end (source : String) (span : Span) :
    read source ≠ .error (.refused ⟨.vectorSize, span, none⟩) := by
  intro h
  rcases read_eq_error h with he | ⟨l, -, ⟨w, -, problem, he⟩ | ⟨n, found, he⟩⟩
  · simp [endRefusal, Refusal.atPlace] at he
  · simp [wordRefusal] at he
  · simp at he

theorem groupedNatural?_toDigits (n : Nat) : groupedNatural? (Nat.toDigits 10 n) = some n := by
  have hdigit : ∀ c ∈ Nat.toDigits 10 n, c ≠ '_' := fun c hc =>
    Cut.ne_of_isDigit (Nat.isDigit_of_mem_toDigits (by decide) (by decide) hc) (by decide)
  have hfirst : (Nat.toDigits 10 n).head? ≠ some '_' :=
    fun hhead => hdigit _ (List.mem_of_head? hhead) rfl
  have hall : (Nat.toDigits 10 n).filter (· ≠ '_') = Nat.toDigits 10 n := by
    rw [List.filter_eq_self]
    exact fun c hc => by simpa using hdigit c hc
  rw [groupedNatural?, if_neg hfirst, hall, Decimal.natural?_toDigits]

theorem element?_toString (i : Int) : element? (toString i).toList = some i := by
  rcases Decimal.toList_toString_int i with ⟨n, rfl, htext⟩ | ⟨n, rfl, htext⟩ <;> rw [htext]
  · have hfirst : ∀ d : Char, d.isDigit = false → (Nat.toDigits 10 n).head? ≠ some d :=
      fun d hd hhead => Cut.ne_of_isDigit (Nat.isDigit_of_mem_toDigits (by decide) (by decide)
        (List.mem_of_head? hhead)) hd rfl
    rw [element?, if_neg (hfirst '-' (by decide)), if_neg (hfirst '+' (by decide)),
      groupedNatural?_toDigits]
    rfl
  · rw [element?, if_pos List.head?_cons, List.tail_cons, groupedNatural?_toDigits]
    rfl

/-- What is written of the elements of a vector. -/
def elementTexts (v : IntVector) : List (List Char) :=
  v.elements.map fun i => (toString i).toList

theorem toList_text (v : IntVector) :
    v.text.toList = (toString v.size).toList ++ '\n' :: [' '].intercalate v.elementTexts := by
  simp [text, elementTexts, String.toList_intercalate, Function.comp_def]

/-- What may stand behind the last word of a line that counts: nothing, or a blank and then
anything. -/
def IsRemark (cs : List Char) : Prop :=
  '\n' ∉ cs ∧ ∀ c ∈ cs.head?, Character.isBlank c = true

/-- A vector text with lines without content in front of both lines, remarks behind the size and
behind the last element, and more lines behind. -/
def IsTextOf (text : List Char) (v : IntVector) : Prop :=
  ∃ before sizeRemark between elementRemark rest,
    (∀ line ∈ before ++ between, '\n' ∉ line ∧ isContent line = false) ∧
    IsRemark sizeRemark ∧ IsRemark elementRemark ∧ (∀ c ∈ rest.head?, c = '\n') ∧
    text = linesText before ++ ((toString v.size).toList ++ sizeRemark ++
      '\n' :: (linesText between ++ ([' '].intercalate v.elementTexts ++ elementRemark ++ rest)))

theorem isTextOf_text (v : IntVector) : IsTextOf v.text.toList v :=
  ⟨[], [], [], [], [], by simp, by simp [IsRemark], by simp [IsRemark], by simp,
    by simp [toList_text, linesText]⟩

theorem exists_cons_toString (i : Int) :
    ∃ c cs, (toString i).toList = c :: cs ∧ Scanner.endsGap c = true := by
  have hne : (toString i).toList ≠ [] := by
    rcases Decimal.toList_toString_int i with ⟨n, -, htext⟩ | ⟨n, -, htext⟩ <;> rw [htext]
    · exact Nat.toDigits_ne_nil
    · exact List.cons_ne_nil _ _
  obtain ⟨c, cs, htext⟩ := List.exists_cons_of_ne_nil hne
  exact ⟨c, cs, htext, Decimal.endsGap_of_mem_toString (by rw [htext]; simp)⟩

theorem isWord_of_mem_elementTexts {v : IntVector} :
    ∀ w ∈ v.elementTexts, w ≠ [] ∧ ∀ c ∈ w, Character.isBlank c = false := by
  intro w hw
  obtain ⟨i, -, rfl⟩ := List.mem_map.mp hw
  obtain ⟨c, cs, htext, -⟩ := exists_cons_toString i
  exact ⟨by rw [htext]; exact List.cons_ne_nil _ _, fun c hc =>
    Scanner.isBlank_of_endsGap (Decimal.endsGap_of_mem_toString hc)⟩

theorem not_mem_intercalate {ws : List (List Char)}
    (h : ∀ w ∈ ws, ∀ c ∈ w, Character.isBlank c = false) : '\n' ∉ [' '].intercalate ws := by
  have hword : ∀ w ∈ ws, '\n' ∉ w := fun w hw hmem => absurd (h w hw _ hmem) (by decide)
  induction ws with
  | nil => simp
  | cons w ws ih =>
    obtain ⟨hw, hws⟩ := List.forall_mem_cons.mp hword
    cases ws with
    | nil => simpa using hw
    | cons w' ws =>
      rw [List.intercalate_cons_cons]
      simp [hw, ih (fun w hw => h w (by simp [hw])) hws]

theorem sizeLine_spec (n : Nat) {remark : List Char} (h : IsRemark remark) :
    '\n' ∉ (toString n).toList ++ remark ∧ isContent ((toString n).toList ++ remark) = true ∧
      wordsOf ((toString n).toList ++ remark) = (toString n).toList :: wordsOf remark := by
  obtain ⟨c, cs, htext, hc⟩ := exists_cons_toString n
  have hgap : ∀ d ∈ (toString n).toList, Scanner.endsGap d = true := fun d hd =>
    Decimal.endsGap_of_mem_toString (i := n) hd
  replace htext : (toString n).toList = c :: cs := htext
  refine ⟨?_, ?_, wordsOf_append (by rw [htext]; exact List.cons_ne_nil _ _)
    (fun d hd => Scanner.isBlank_of_endsGap (hgap d hd)) h.2⟩
  · rw [List.mem_append]
    rintro (hmem | hmem)
    · exact absurd (hgap _ hmem) (by decide)
    · exact h.1 hmem
  · rw [htext, List.cons_append]
    exact isContent_cons hc _

theorem elementLine_spec {v : IntVector} (hv : v.elements ≠ []) {remark : List Char}
    (h : IsRemark remark) :
    '\n' ∉ [' '].intercalate v.elementTexts ++ remark ∧
      isContent ([' '].intercalate v.elementTexts ++ remark) = true ∧
      wordsOf ([' '].intercalate v.elementTexts ++ remark) = v.elementTexts ++ wordsOf remark := by
  refine ⟨?_, ?_, wordsOf_intercalate isWord_of_mem_elementTexts h.2⟩
  · rw [List.mem_append]
    rintro (hmem | hmem)
    · exact not_mem_intercalate (fun w hw => (isWord_of_mem_elementTexts w hw).2) hmem
    · exact h.1 hmem
  · obtain ⟨i, is, his⟩ := List.exists_cons_of_ne_nil hv
    obtain ⟨c, cs, htext, hc⟩ := exists_cons_toString i
    rw [elementTexts, his, List.map_cons, htext]
    cases is with
    | nil => simpa using isContent_cons hc _
    | cons j js =>
      rw [List.map_cons, List.intercalate_cons_cons]
      simpa using isContent_cons hc _

/-- A text of a vector says the vector. -/
theorem IsTextOf.saysVector {text : List Char} {v : IntVector}
    (hsize : v.size ≤ Decimal.largestCount) (h : IsTextOf text v) : SaysVector text v := by
  obtain ⟨before, sizeRemark, between, elementRemark, rest, hskip, hsizeRemark, helementRemark,
    hrest, rfl⟩ := h
  obtain ⟨hbefore, hbetween⟩ := List.forall_mem_append.mp hskip
  obtain ⟨hheader, hcontent, hwords⟩ := sizeLine_spec v.size hsizeRemark
  refine ⟨((toString v.size).toList ++ sizeRemark).rdropWhile (· == '\r'),
    contentLines (linesText between ++ ([' '].intercalate v.elementTexts ++ elementRemark ++ rest)),
    (toString v.size).toList, wordsOf sizeRemark, v.size, ?_, ?_,
    Decimal.count?_toString hsize, ?_⟩
  · rw [contentLines_skip _ hbefore, contentLines_append hheader]
    simp only [List.filter_singleton, isContent_rdropWhile, hcontent]
    rfl
  · rw [wordsOf_rdropWhile, hwords]
  · by_cases hv : v.elements = []
    · exact .inl ⟨by simp [size, hv], hv⟩
    · obtain ⟨hline, hcontent', hwords'⟩ := elementLine_spec hv helementRemark
      obtain ⟨lines, hlines⟩ := contentLines_of_isContent hline hcontent' hrest
      have hlength : v.elementTexts.length = v.size := by simp [elementTexts, size]
      refine .inr ⟨([' '].intercalate v.elementTexts ++ elementRemark).rdropWhile (· == '\r'),
        lines, by rw [contentLines_skip _ hbetween, hlines], ?_, ?_⟩
      · rw [wordsOf_rdropWhile, hwords', List.length_append, hlength]
        omega
      · rw [wordsOf_rdropWhile, hwords', List.take_left' hlength, elementTexts,
          List.forall₂_map_left_iff]
        exact List.forall₂_same.mpr fun i _ => element?_toString i

/-- A vector is read exactly from the texts that say it. A text without a size is never refused at
the end of a line. What a vector is written as is read back, also with lines without content in
front of its lines, remarks behind its words and more lines behind. -/
theorem read_vectorText :
    (∀ source v, read source = .ok v ↔ SaysVector source.toList v) ∧
    (∀ source span, read source ≠ .error (.refused ⟨.vectorSize, span, none⟩)) ∧
    ∀ v : IntVector, v.size ≤ Decimal.largestCount → read v.text = .ok v ∧
      ∀ source : String, IsTextOf source.toList v → read source = .ok v :=
  ⟨fun _ _ => read_eq_ok, read_ne_vectorSize_at_end, fun v hv =>
    ⟨read_eq_ok.mpr ((isTextOf_text v).saysVector hv),
      fun _ h => read_eq_ok.mpr (h.saysVector hv)⟩⟩

/-- Two elements with comments in front of both lines, and behind them remarks and another line. -/
theorem read_vectorText_remarks :
    let v : IntVector := ⟨[-3, 7]⟩
    let source := "# shift\r\n\n2 entries\r\n  # values\n-3 7 9\nx"
    v.size ≤ Decimal.largestCount ∧ IsTextOf source.toList v ∧ read source = .ok v := by
  intro v source
  have hsize : v.size ≤ Decimal.largestCount := by decide
  have htext : IsTextOf source.toList v := by
    refine ⟨["# shift\r".toList, []], " entries\r".toList, ["  # values".toList], " 9".toList,
      "\nx".toList, by decide +kernel, ⟨by simp, ?_⟩, ⟨by simp, ?_⟩, by simp, by decide +kernel⟩
    all_goals
      simp only [String.reduceToList, List.head?_cons, Option.mem_some, forall_eq']
      decide
  exact ⟨hsize, htext, (read_vectorText.2.2 v hsize).2 source htext⟩

end IntVector
end ConstraintText

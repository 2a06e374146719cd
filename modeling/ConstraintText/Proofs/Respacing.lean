import ConstraintText.Proofs.TrailingText

/-!
# Lexemes with other gaps between them

Scanning looks for the longest lexeme, so where a lexeme ends is up to the character behind it. Blanks
and comments go on with no lexeme: between them each lexeme is cut off as a whole, and makes the same
token, whatever stood around it in the text that it comes from.
-/
namespace ConstraintText

namespace Character

theorem inRanges_eq_false {ranges others : List (Nat × Nat)} {c : Char}
    (hapart : ∀ r ∈ ranges, ∀ q ∈ others, r.2 < q.1 ∨ q.2 < r.1) (h : inRanges ranges c = true) :
    inRanges others c = false := by
  simp only [inRanges, List.any_eq_true, Bool.and_eq_true, decide_eq_true_eq] at h
  obtain ⟨r, hr, hle, hge⟩ := h
  simp only [inRanges, List.any_eq_false, Bool.and_eq_true, decide_eq_true_eq]
  intro q hq hin
  have := hapart r hr q hq
  omega

theorem continuesIdentifier_of_isBlank {c : Char} (h : isBlank c = true) :
    continuesIdentifier c = false := by
  have hunderscore : c ≠ '_' := by
    rintro rfl
    exact absurd h (by decide)
  by_cases ha : isAscii c = true
  · have hle : c.toNat ≤ 32 := by
      simp only [isBlank, if_pos ha, Bool.or_eq_true, beq_iff_eq, Bool.and_eq_true,
        decide_eq_true_eq] at h
      rcases h with rfl | ⟨-, hle⟩
      · decide
      · omega
    have halnum : c.isAlphanum = false := by
      have hval : c.val.toNat = c.toNat := rfl
      simp [Char.isAlphanum, Char.isAlpha, Char.isUpper, Char.isLower, Char.isDigit,
        UInt32.le_iff_toNat_le]
      omega
    simp [continuesIdentifier, isWordPart, ha, halnum, hunderscore]
  · rw [isBlank, if_neg ha] at h
    have hstart : inRanges identifierStartRanges c = false :=
      inRanges_eq_false (by decide +kernel) h
    have hextra : inRanges identifierExtraRanges c = false :=
      inRanges_eq_false (by decide +kernel) h
    simp [continuesIdentifier, isWordPart, ha, hstart, hextra, hunderscore]

end Character

theorem TokenKind.goesOn_of_endsGap {c : Char} (h : Scanner.endsGap c = false) (kind : TokenKind) :
    kind.goesOn c = false := by
  have hc : c = '#' ∨ Character.isBlank c = true := by
    by_cases hline : c = '\n'
    · exact .inr (by rw [hline]; decide)
    · simpa [Scanner.endsGap, hline, or_iff_not_imp_left] using h
  have hword : Character.continuesIdentifier c = false := by
    rcases hc with rfl | hblank
    · decide
    · exact Character.continuesIdentifier_of_isBlank hblank
  have hdigit : c.isDigit = false := Bool.eq_false_iff.mpr fun hd => by
    simp [Character.continuesIdentifier_of_isDigit hd] at hword
  have hgreater : c ≠ '>' := by
    rintro rfl
    exact absurd h (by decide)
  have hequal : c ≠ '=' := by
    rintro rfl
    exact absurd h (by decide)
  cases kind <;> simp [goesOn, hword, hdigit, hgreater, hequal]

theorem IsGap.goesOn_head {between : List Char} (h : IsGap false between) (hne : between ≠ [])
    (cs : List Char) (kind : TokenKind) : ∀ c ∈ (between ++ cs).head?, kind.goesOn c = false := by
  intro c hc
  refine TokenKind.goesOn_of_endsGap ?_ kind
  cases h with
  | nil => exact absurd rfl hne
  | @blank d ds hd _ =>
    obtain rfl : d = c := by simpa using hc
    simp [Scanner.endsGap, hd]
  | @comment body ds _ _ _ =>
    obtain rfl : '#' = c := by simpa using hc
    rfl

/-- What a token is, wherever it stands. -/
def Token.content (t : Token) : TokenKind × String × Option Int := (t.kind, t.lexeme, t.value)

theorem Cut.content_of_item {cut : Cut} {c : Char} {start : Location} {newLine : Bool} {t : Token}
    (h : cut.item c start newLine = .ok t) : t.content = (cut.kind, String.ofList (c :: cut.tail),
      if cut.kind = .integer then Decimal.integer? (c :: cut.tail) else none) := by
  by_cases hk : cut.kind = .integer
  · simp only [item, if_pos hk] at h
    cases hv : Decimal.integer? (c :: cut.tail) with
    | none => simp [hv] at h
    | some value =>
      simp only [hv, Except.ok.injEq] at h
      simp [← h, Token.content, hk]
  · simp only [item, if_neg hk, Except.ok.injEq] at h
    simp [← h, Token.content, hk]

namespace Scanner

/-- Where a scanned lexeme stands in front of something that does not go on with it, it is scanned
again as the same token. -/
theorem Faces.rescan {s₀ s₁ s : Scanner} {t : Token} (hn : s₀.next = (.ok t, s₁))
    (ht : t.isFinish = false) {rest : List Char} (hr : ∀ d ∈ rest.head?, t.kind.goesOn d = false)
    (h : s.Faces (t.lexeme.toList ++ rest)) :
    ∃ u s', s.Scans [u] s' ∧ u.content = t.content ∧ s'.Faces rest := by
  obtain ⟨c, cs, cut, hg, hc⟩ := exists_cut hn ht
  rw [next_of_cut hg hc, Prod.mk.injEq] at hn
  have hkind := Cut.kind_of_item hn.1
  have hcontent := Cut.content_of_item hn.1
  have hlexeme : t.lexeme = String.ofList (c :: cut.tail) := congrArg (·.2.1) hcontent
  have hcut := Cut.ofChars?_append_of_goesOn hc (hkind ▸ hr)
  rw [hlexeme, String.toList_ofList, List.cons_append, Faces,
    afterGap_of_endsGap (endsGap_of_afterGap hg)] at h
  obtain ⟨value, hitem, -⟩ := Cut.exists_item hcut s.start s.onNewLine
  have hnext := next_of_cut h hcut
  rw [hitem] at hnext
  refine ⟨_, _, .cons hnext ?_ (.nil _), ?_, rfl⟩
  · simpa [Token.isFinish, hkind] using ht
  · rw [Cut.content_of_item hitem, hcontent]

def finishToken (s : Scanner) : Token := ⟨.finish, .point s.start, "", s.onNewLine, none⟩

theorem items_of_faces_nil {s : Scanner} (h : s.Faces []) : s.items = [.ok s.finishToken] := by
  have hg : afterGap false s.rest = [] := h
  rw [items, if_pos hg]
  simp [next, hg, finishToken, start, onNewLine]

theorem exists_scans_of_items {s : Scanner} {ts : List Token} (h : s.items = ts.map .ok) :
    ∃ us s', s.Scans us s' ∧ s'.Faces [] ∧ ts = us ++ [s'.finishToken] := by
  induction ts generalizing s with
  | nil =>
    obtain ⟨items, hitems⟩ := s.items_eq
    rw [hitems] at h
    cases h
  | cons t ts ih =>
    have hfirst : s.next = (.ok t, s.next.2) := by
      obtain ⟨items, hitems⟩ := s.items_eq
      rw [hitems, List.map_cons, List.cons.injEq] at h
      exact Prod.ext h.1 rfl
    cases ht : t.isFinish with
    | true =>
      have hfaces : s.Faces [] := (isFinish_next hfirst).mp ht
      rw [items_of_faces_nil hfaces, List.map_cons, List.cons.injEq, Except.ok.injEq] at h
      obtain ⟨rfl, hnil⟩ := h
      exact ⟨[], s, .nil s, hfaces, by rw [List.map_eq_nil_iff.mp hnil.symm, List.nil_append]⟩
    | false =>
      rw [items_of_token hfirst ht, List.map_cons, List.cons.injEq] at h
      obtain ⟨us, s', hs, hf, rfl⟩ := ih h.2
      exact ⟨t :: us, s', .cons hfirst ht hs, hf, rfl⟩

theorem Scans.isFinish {s s' : Scanner} {ts : List Token} (h : s.Scans ts s') :
    ∀ t ∈ ts, t.isFinish = false := by
  induction h with
  | nil s => simp
  | cons _ ht _ ih => exact List.forall_mem_cons.mpr ⟨ht, ih⟩

theorem tokens_of_items {s : Scanner} {ts : List Token} (h : s.items = ts.map .ok) :
    s.tokens = .ok ts := by
  rw [tokens, h]
  clear h
  induction ts with
  | nil => rfl
  | cons t ts ih => rw [List.map_cons, List.mapM_cons, ih]; rfl

/-- Lexemes in a row with a gap between any two. -/
inductive Joins : List String → List Char → Prop
  | nil : Joins [] []
  | single (lexeme : String) : Joins [lexeme] lexeme.toList
  | cons (lexeme : String) {between : List Char} (hne : between ≠ []) (hg : IsGap false between)
      {second : String} {lexemes : List String} {cs : List Char} (h : Joins (second :: lexemes) cs) :
      Joins (lexeme :: second :: lexemes) (lexeme.toList ++ (between ++ cs))

/-- Tokens that have been scanned one after the other are scanned again from their lexemes, whatever
gaps are between these. -/
theorem Scans.rescan {s₀ s₁ : Scanner} {ts : List Token} (h : s₀.Scans ts s₁) {s : Scanner}
    {cs : List Char} (hj : Joins (ts.map (·.lexeme)) cs) (hs : s.Faces cs) :
    ∃ us s', s.Scans us s' ∧ us.map (·.content) = ts.map (·.content) ∧ s'.Faces [] := by
  induction h generalizing s cs with
  | nil s₀ =>
    cases hj
    exact ⟨[], s, .nil s, rfl, hs⟩
  | @cons s₀ s₀' s₁ t ts hn ht _ ih =>
    cases ts with
    | nil =>
      cases hj
      rw [← List.append_nil t.lexeme.toList] at hs
      obtain ⟨u, s', hu, hcontent, hf⟩ := hs.rescan hn ht (by simp)
      exact ⟨[u], s', hu, by simp [hcontent], hf⟩
    | cons second ts =>
      cases hj with
      | @cons _ between hne hg _ _ cs hj =>
        obtain ⟨u, s', hu, hcontent, hf⟩ := hs.rescan hn ht (hg.goesOn_head hne cs t.kind)
        rw [Faces, afterGap_append hg (by simp)] at hf
        obtain ⟨us, s'', hus, hcontents, hf'⟩ := ih hj hf
        exact ⟨u :: us, s'', hu.append hus, by simp [hcontent, ← hcontents], hf'⟩

/-- Let a text have tokens, and let another text be made up of their lexemes in order, with blanks and
comments between any two of them, at least one character each time. It has tokens of the same kinds,
lexemes and values in the same order. -/
theorem tokens_rejoined {source joined : String} {ts : List Token}
    (h : (ofString source).tokens = .ok ts)
    (hj : Joins ((ts.filter (!·.isFinish)).map (·.lexeme)) joined.toList) :
    ∃ us, (ofString joined).tokens = .ok us ∧ us.map (·.content) = ts.map (·.content) := by
  obtain ⟨ts, s, hs, -, rfl⟩ := exists_scans_of_items (items_of_tokens h)
  have hwords : (ts ++ [s.finishToken]).filter (!·.isFinish) = ts := by
    rw [List.filter_append, List.filter_eq_self.mpr (by simpa using hs.isFinish)]
    exact List.append_nil ts
  rw [hwords] at hj
  obtain ⟨us, s', hus, hcontents, hf⟩ := hs.rescan hj (faces_rest (ofString joined))
  refine ⟨us ++ [s'.finishToken], tokens_of_items ?_, ?_⟩
  · rw [hus.items, items_of_faces_nil hf, List.map_append]
    rfl
  · rw [List.map_append, List.map_append, hcontents]
    rfl

set_option maxRecDepth 4000 in
/-- The lexemes of a text without blanks, among them a word of two bytes right behind a number and a
negative number right behind an operator, with a comment and an ideographic space between them. -/
theorem tokens_rejoined_comment :
    let source := "[é]:2é>=-1"
    let joined := "[ é # a name\n]\t:\n\n2\u3000é >= -1"
    let contents : List (TokenKind × String × Option Int) :=
      [(.leftBracket, "[", none), (.identifier, "é", none), (.rightBracket, "]", none),
        (.colon, ":", none), (.integer, "2", some 2), (.identifier, "é", none),
        (.greaterEqual, ">=", none), (.integer, "-1", some (-1)), (.finish, "", none)]
    ∃ ts us, (ofString source).tokens = .ok ts ∧ ts.map (·.content) = contents ∧
      (ofString joined).tokens = .ok us ∧ us.map (·.content) = ts.map (·.content) := by
  intro source joined contents
  let ts := (ofString source).tokens.toOption.getD []
  have h : (ofString source).tokens = .ok ts := by
    unfold ts source
    cbv
  have hcontents : ts.map (·.content) = contents := by
    unfold ts source contents
    cbv
  have hlexemes : (ts.filter (!·.isFinish)).map (·.lexeme) =
      ["[", "é", "]", ":", "2", "é", ">=", "-1"] := by
    unfold ts source
    cbv
  have hblank : ∀ c, Character.isBlank c = true → IsGap false [c] := fun c hc => .blank hc .nil
  have hbody : '\n' ∉ " a name".toList := by decide
  have hcomment : IsGap false " # a name\n".toList :=
    .blank rfl (.comment hbody (.inl rfl) (hblank '\n' rfl))
  have hlines : IsGap false "\n\n".toList := .blank rfl (hblank '\n' rfl)
  have hjoined : joined.toList = "[".toList ++ ([' '] ++ ("é".toList ++ (" # a name\n".toList ++
      ("]".toList ++ (['\t'] ++ (":".toList ++ ("\n\n".toList ++ ("2".toList ++ (['\u3000'] ++
        ("é".toList ++ ([' '] ++ (">=".toList ++ ([' '] ++ "-1".toList))))))))))))) := by
    unfold joined
    cbv
  have hj : Joins ["[", "é", "]", ":", "2", "é", ">=", "-1"] joined.toList := by
    rw [hjoined]
    refine .cons _ (by simp) (hblank ' ' rfl) ?_
    refine .cons _ (by decide) hcomment ?_
    refine .cons _ (by simp) (hblank '\t' rfl) ?_
    refine .cons _ (by decide) hlines ?_
    refine .cons _ (by simp) (hblank '\u3000' rfl) ?_
    refine .cons _ (by simp) (hblank ' ' rfl) ?_
    exact .cons _ (by simp) (hblank ' ' rfl) (.single _)
  rw [← hlexemes] at hj
  obtain ⟨us, hus, hsame⟩ := tokens_rejoined h hj
  exact ⟨ts, us, h, hcontents, hus, hsame⟩

end Scanner
end ConstraintText

import ConstraintText.Proofs.Scanning

/-!
# Lexemes that are read back

What a lexeme is cut off as depends on its characters and on the one behind it. A scanner faces a
text when that is what it has left behind a gap: then it yields the tokens of the text, lexeme by
lexeme, wherever it stands.
-/
namespace ConstraintText

def TokenKind.words : List TokenKind := [.identifier, .andWord, .existsWord]

namespace Cut

def opensWord (c : Char) : Bool :=
  (symbol? c).isNone && c != '-' && c != '<' && c != '>' && !c.isDigit &&
    Character.beginsIdentifier c

theorem ofChars?_of_opensWord {c : Char} (h : opensWord c = true) (cs : List Char) :
    ofChars? c cs = some (word c cs) := by
  simp only [opensWord, Bool.and_eq_true, Option.isNone_iff_eq_none, bne_iff_ne, ne_eq,
    Bool.not_eq_true'] at h
  simp [ofChars?, h]

theorem word_of_kind {c : Char} {cs : List Char} {cut : Cut} (h : ofChars? c cs = some cut)
    (hk : cut.kind ∈ TokenKind.words) : opensWord c = true ∧ cut = word c cs := by
  unfold ofChars? at h
  split at h
  · rename_i kind hs
    obtain rfl := Option.some.inj h
    have hkind : ∀ p ∈ symbols, p.2 ∉ TokenKind.words := by decide
    exact absurd hk (hkind _ (mem_symbols hs))
  · rename_i hs
    have hnumber : TokenKind.integer ∉ TokenKind.words := by decide
    have hminus : TokenKind.minus ∉ TokenKind.words ∧ TokenKind.arrow ∉ TokenKind.words := by decide
    have hless : TokenKind.less ∉ TokenKind.words ∧ TokenKind.lessEqual ∉ TokenKind.words := by
      decide
    have hgreater : TokenKind.greater ∉ TokenKind.words ∧
        TokenKind.greaterEqual ∉ TokenKind.words := by decide
    repeat' split at h
    all_goals try obtain rfl := Option.some.inj h
    · unfold dash at hk
      split at hk
      · exact absurd hk hnumber
      · rcases kind_pair '>' .minus .arrow cs with h' | h' <;> simp_all
    · rcases kind_pair '=' .less .lessEqual cs with h' | h' <;> simp_all
    · rcases kind_pair '=' .greater .greaterEqual cs with h' | h' <;> simp_all
    · exact absurd hk hnumber
    · simp_all [opensWord]
    · simp at h

theorem ne_of_isDigit {c d : Char} (h : c.isDigit = true) (hd : d.isDigit = false) : c ≠ d := by
  rintro rfl
  simp [h] at hd

theorem ofChars?_of_digits {d : Char} {ds rest : List Char} (h : ∀ c ∈ d :: ds, c.isDigit = true)
    (hr : ∀ c ∈ rest.head?, c.isDigit = false) :
    ofChars? d (ds ++ rest) = some ⟨.integer, ds, rest⟩ := by
  rw [List.forall_mem_cons] at h
  have hs : symbol? d = none := by
    unfold symbol?
    repeat rw [if_neg (ne_of_isDigit h.1 (by decide))]
  have hnumber : number (ds ++ rest) = ⟨.integer, ds, rest⟩ := by
    obtain ⟨htake, hdrop⟩ := takeWhile_append_of_head? h.2 hr
    rw [number, htake, hdrop]
  simp only [ofChars?, hs, if_neg (ne_of_isDigit h.1 (d := '-') (by decide)),
    if_neg (ne_of_isDigit h.1 (d := '<') (by decide)),
    if_neg (ne_of_isDigit h.1 (d := '>') (by decide)), if_pos h.1, hnumber]

end Cut

theorem TokenKind.keyword?_ne_identifier (word : String) :
    keyword? word ≠ some .identifier := by
  unfold keyword?
  repeat' split
  all_goals simp

/-- Whether a lexeme may begin with a character, as a gap ends in front of it. -/
def Scanner.endsGap (c : Char) : Bool := c != '\n' && c != '#' && !Character.isBlank c

/-- Names that the scanner takes for identifiers. -/
def IsIdentifier (name : String) : Prop :=
  ∃ c cs, name.toList = c :: cs ∧ Scanner.endsGap c = true ∧ Cut.opensWord c = true ∧
    (∀ d ∈ cs, Character.continuesIdentifier d = true) ∧ TokenKind.keyword? name = none

/-- Whether a text does not go on with a word or a number. -/
def Breaks (cs : List Char) : Prop := ∀ c ∈ cs.head?, Character.continuesIdentifier c = false

theorem breaks_cons {c : Char} (h : Character.continuesIdentifier c = false) (cs : List Char) :
    Breaks (c :: cs) := by
  intro d hd
  simp only [List.head?_cons, Option.mem_def, Option.some.injEq] at hd
  exact hd ▸ h

namespace Character

theorem toNat_of_isDigit {c : Char} (h : c.isDigit = true) : 48 ≤ c.toNat ∧ c.toNat ≤ 57 := by
  simpa [Char.isDigit, UInt32.le_iff_toNat_le] using h

theorem continuesIdentifier_of_isDigit {c : Char} (h : c.isDigit = true) :
    continuesIdentifier c = true := by
  have hnat := toNat_of_isDigit h
  have hascii : isAscii c = true := by simp only [isAscii, decide_eq_true_eq]; omega
  simp [continuesIdentifier, isWordPart, hascii, Char.isAlphanum, h]

theorem endsGap_of_isDigit {c : Char} (h : c.isDigit = true) : Scanner.endsGap c = true := by
  have hnat := toNat_of_isDigit h
  have hascii : isAscii c = true := by simp only [isAscii, decide_eq_true_eq]; omega
  have hline : c ≠ '\n' := Cut.ne_of_isDigit h (by decide)
  have hcomment : c ≠ '#' := Cut.ne_of_isDigit h (by decide)
  have hspace : c ≠ ' ' := Cut.ne_of_isDigit h (by decide)
  have hcontrol : ¬ c.toNat ≤ 13 := by omega
  simp [Scanner.endsGap, isBlank, hascii, hline, hcomment, hspace, hcontrol]

end Character

theorem Breaks.isDigit {cs : List Char} (h : Breaks cs) : ∀ c ∈ cs.head?, c.isDigit = false := by
  intro c hc
  by_contra hd
  have := Character.continuesIdentifier_of_isDigit (c := c) (by simpa using hd)
  simp [h c hc] at this

theorem Cut.ofChars?_of_word {c : Char} {cs rest : List Char} (hc : opensWord c = true)
    (hcs : ∀ d ∈ cs, Character.continuesIdentifier d = true) (hr : Breaks rest) :
    ofChars? c (cs ++ rest) =
      some ⟨(TokenKind.keyword? (String.ofList (c :: cs))).getD .identifier, cs, rest⟩ := by
  obtain ⟨htake, hdrop⟩ := takeWhile_append_of_head? hcs hr
  rw [ofChars?_of_opensWord hc, word, htake, hdrop]

namespace Scanner

theorem afterGap_of_endsGap {c : Char} (h : endsGap c = true) (cs : List Char) :
    afterGap false (c :: cs) = c :: cs := by
  simp only [endsGap, Bool.and_eq_true, bne_iff_ne, ne_eq, Bool.not_eq_true'] at h
  simp [afterGap, h]

theorem endsGap_of_afterGap {inComment : Bool} {cs : List Char} {c : Char} {ds : List Char}
    (h : afterGap inComment cs = c :: ds) : endsGap c = true := by
  fun_induction afterGap inComment cs <;> simp_all [endsGap]

@[simp] theorem afterGap_space (cs : List Char) :
    afterGap false (' ' :: cs) = afterGap false cs := by
  rw [afterGap, if_neg (by decide), if_neg (by decide), if_pos (by decide)]

/-- The scanner has this text left, up to a gap. -/
def Faces (s : Scanner) (cs : List Char) : Prop := afterGap false s.rest = afterGap false cs

theorem faces_rest (s : Scanner) : s.Faces s.rest := rfl

@[simp] theorem faces_space (s : Scanner) (cs : List Char) : s.Faces (' ' :: cs) ↔ s.Faces cs := by
  simp [Faces]

/-- Whoever faces a lexeme takes its token and faces what is behind it. -/
theorem Faces.scan {s : Scanner} {c : Char} {cs : List Char} {cut : Cut} (h : s.Faces (c :: cs))
    (hg : endsGap c = true) (hc : Cut.ofChars? c cs = some cut) (hk : cut.kind ≠ .integer) :
    ∃ t s', s.Scans [t] s' ∧ t.kind = cut.kind ∧ t.lexeme = String.ofList (c :: cut.tail) ∧
      s'.Faces cut.rest := by
  rw [Faces, afterGap_of_endsGap hg] at h
  have hn := next_of_cut h hc
  rw [Cut.item, if_neg hk] at hn
  exact ⟨_, _, .cons hn (by simpa [Token.isFinish] using Cut.kind_ofChars? hc) (.nil _), rfl, rfl,
    rfl⟩

theorem Faces.identifier {s : Scanner} {name : String} (hn : IsIdentifier name)
    {rest : List Char} (hr : Breaks rest) (h : s.Faces (name.toList ++ rest)) :
    ∃ t s', s.Scans [t] s' ∧ t.kind = .identifier ∧ t.lexeme = name ∧ s'.Faces rest := by
  obtain ⟨c, cs, hname, hg, hc, hcs, hword⟩ := hn
  have hlexeme : String.ofList (c :: cs) = name := by rw [← hname, String.ofList_toList]
  have hcut := Cut.ofChars?_of_word hc hcs hr
  rw [hlexeme, hword, Option.getD_none] at hcut
  rw [hname, List.cons_append] at h
  obtain ⟨t, s', hs, hk, hl, hf⟩ := h.scan hg hcut (by simp)
  exact ⟨t, s', hs, hk, hl.trans hlexeme, hf⟩

theorem endsGap_of_symbol? {c : Char} {kind : TokenKind} (h : Cut.symbol? c = some kind) :
    endsGap c = true ∧ kind ≠ .integer := by
  have htable : ∀ p ∈ Cut.symbols, endsGap p.1 = true ∧ p.2 ≠ .integer := by decide
  exact htable _ (Cut.mem_symbols h)

theorem Faces.symbol {s : Scanner} {c : Char} {rest : List Char} (h : s.Faces (c :: rest))
    {kind : TokenKind} (hc : Cut.symbol? c = some kind) :
    ∃ t s', s.Scans [t] s' ∧ t.kind = kind ∧ s'.Faces rest := by
  obtain ⟨hg, hk⟩ := endsGap_of_symbol? hc
  have hcut : Cut.ofChars? c rest = some ⟨kind, [], rest⟩ := by simp [Cut.ofChars?, hc]
  obtain ⟨t, s', hs, hk, -, hf⟩ := h.scan hg hcut hk
  exact ⟨t, s', hs, hk, hf⟩

theorem Faces.number {s : Scanner} {n : Nat} {rest : List Char}
    (hr : ∀ c ∈ rest.head?, c.isDigit = false) (h : s.Faces ((toString n).toList ++ rest)) :
    ∃ t s', s.Scans [t] s' ∧ t.kind = .integer ∧ t.value = some (n : Int) ∧ s'.Faces rest := by
  have hdigits : ∀ c ∈ Nat.toDigits 10 n, c.isDigit = true := fun c hc =>
    Nat.isDigit_of_mem_toDigits (by decide) (by decide) hc
  obtain ⟨d, ds, hd⟩ := List.exists_cons_of_ne_nil (Nat.toDigits_ne_nil (n := n) (b := 10))
  rw [Nat.toString_eq_ofList_toDigits, String.toList_ofList, hd, List.cons_append] at h
  rw [hd] at hdigits
  have hfirst := hdigits d List.mem_cons_self
  have hvalue : Decimal.integer? (d :: ds) = some (n : Int) := by
    rw [Decimal.integer?, if_neg (Cut.ne_of_isDigit hfirst (by decide)), ← hd,
      Decimal.natural?_toDigits]
    rfl
  rw [Faces, afterGap_of_endsGap (Character.endsGap_of_isDigit hfirst)] at h
  have hn := next_of_cut h (Cut.ofChars?_of_digits hdigits hr)
  rw [Cut.item, if_pos rfl] at hn
  simp only [hvalue] at hn
  exact ⟨_, _, .cons hn rfl (.nil _), rfl, rfl, rfl⟩

theorem Faces.arrow {s : Scanner} {rest : List Char} (h : s.Faces ('-' :: '>' :: rest)) :
    ∃ t s', s.Scans [t] s' ∧ t.kind = .arrow ∧ s'.Faces rest := by
  have hcut : Cut.ofChars? '-' ('>' :: rest) = some ⟨.arrow, ['>'], rest⟩ := rfl
  obtain ⟨t, s', hs, hk, -, hf⟩ := h.scan (by decide) hcut (by simp)
  exact ⟨t, s', hs, hk, hf⟩

theorem Faces.greaterEqual {s : Scanner} {rest : List Char} (h : s.Faces ('>' :: '=' :: rest)) :
    ∃ t s', s.Scans [t] s' ∧ t.kind = .greaterEqual ∧ s'.Faces rest := by
  have hcut : Cut.ofChars? '>' ('=' :: rest) = some ⟨.greaterEqual, ['='], rest⟩ := rfl
  obtain ⟨t, s', hs, hk, -, hf⟩ := h.scan (by decide) hcut (by simp)
  exact ⟨t, s', hs, hk, hf⟩

theorem Faces.keyword {s : Scanner} (c : Char) (cs : List Char) {kind : TokenKind}
    (hg : endsGap c = true) (hc : Cut.opensWord c = true)
    (hcs : cs.all Character.continuesIdentifier = true)
    (hk : TokenKind.keyword? (String.ofList (c :: cs)) = some kind) (hi : kind ≠ .integer)
    {rest : List Char} (hr : Breaks rest) (h : s.Faces (c :: (cs ++ rest))) :
    ∃ t s', s.Scans [t] s' ∧ t.kind = kind ∧ s'.Faces rest := by
  have hcut := Cut.ofChars?_of_word hc (List.all_eq_true.mp hcs) hr
  rw [hk, Option.getD_some] at hcut
  obtain ⟨t, s', hs, hk, -, hf⟩ := h.scan hg hcut hi
  exact ⟨t, s', hs, hk, hf⟩

theorem Faces.andWord {s : Scanner} {rest : List Char} (hr : Breaks rest)
    (h : s.Faces ('a' :: 'n' :: 'd' :: rest)) :
    ∃ t s', s.Scans [t] s' ∧ t.kind = .andWord ∧ s'.Faces rest :=
  Faces.keyword 'a' ['n', 'd'] (by decide) (by decide) (by cbv) (by cbv) (by decide) hr h

theorem Faces.existsWord {s : Scanner} {rest : List Char} (hr : Breaks rest)
    (h : s.Faces ('e' :: 'x' :: 'i' :: 's' :: 't' :: 's' :: rest)) :
    ∃ t s', s.Scans [t] s' ∧ t.kind = .existsWord ∧ s'.Faces rest :=
  Faces.keyword 'e' ['x', 'i', 's', 't', 's'] (by decide) (by decide) (by cbv) (by cbv)
    (by decide) hr h

theorem isIdentifier_of_next {s s' : Scanner} {t : Token} (h : s.next = (.ok t, s'))
    (hk : t.kind = .identifier) : IsIdentifier t.lexeme := by
  have ht : t.isFinish = false := by simp [Token.isFinish, hk]
  obtain ⟨c, cs, cut, hg, hc⟩ := exists_cut h ht
  rw [next_of_cut hg hc, Prod.mk.injEq] at h
  have hcut := Cut.kind_of_item h.1 ▸ hk
  obtain ⟨hopens, rfl⟩ := Cut.word_of_kind hc (hcut ▸ List.mem_cons_self)
  obtain ⟨hitem, -⟩ := h
  rw [Cut.item, if_neg (by rw [hcut]; decide), Except.ok.injEq] at hitem
  subst hitem
  refine ⟨c, _, String.toList_ofList, endsGap_of_afterGap hg, hopens,
    fun d hd => List.mem_takeWhile_imp hd, ?_⟩
  simp only [Cut.word] at hcut ⊢
  cases hword : TokenKind.keyword? (String.ofList (c :: cs.takeWhile _)) with
  | none => rfl
  | some kind =>
    rw [hword, Option.getD_some] at hcut
    exact absurd (hcut ▸ hword) (TokenKind.keyword?_ne_identifier _)

end Scanner
end ConstraintText

import ConstraintText.Json.Print
import ConstraintText.Json.Token
import ConstraintText.Proofs.JsonLiterals

/-!
# Layouts of documents

A document has one sequence of tokens. Its compact text and its pretty text both spell it, as they
differ in blanks alone. This is shown of documents whose numbers are integers and whose strings are
texts, as are those of all objects.
-/
namespace ConstraintText.Json

theorem lexemes?_cons {c : Char} {cs rest : List Char} {t : Lexeme} (hs : isSpace c = false)
    (h : lexeme? c cs = some (t, rest)) :
    lexemes? (c :: cs) = (lexemes? rest).map (t :: ·) := by
  rw [lexemes?]
  simp only [hs, Bool.false_eq_true, if_false]
  split <;> simp_all

theorem lexemes?_blanks {blanks : List Char} (h : ∀ c ∈ blanks, isSpace c = true)
    (cs : List Char) : lexemes? (blanks ++ cs) = lexemes? cs := by
  induction blanks with
  | nil => rfl
  | cons c blanks ih =>
    rw [List.forall_mem_cons] at h
    rw [List.cons_append, lexemes?, if_pos h.1, ih h.2]

theorem not_blank_of_mark {c : Char} {t : Lexeme} (h : mark? c = some t) :
    isSpace c = false ∧ c.isDigit = false ∧ c ≠ '.' ∧ c ≠ 'e' ∧ c ≠ 'E' := by
  unfold mark? at h
  split_ifs at h with hbrace hbrace' hbracket hbracket' hcomma hcolon
  all_goals
    subst c
    decide

theorem lexemes?_mark {c : Char} {t : Lexeme} (h : mark? c = some t) (cs : List Char) :
    lexemes? (c :: cs) = (lexemes? cs).map (t :: ·) :=
  lexemes?_cons (not_blank_of_mark h).1 (by simp [lexeme?, h])

theorem endsNumber_mark {c : Char} {t : Lexeme} (h : mark? c = some t) (cs : List Char) :
    EndsNumber (c :: cs) := by
  simpa [EndsNumber] using (not_blank_of_mark h).2

theorem endsNumber_blanks {blanks cs : List Char} (h : ∀ c ∈ blanks, isSpace c = true)
    (hcs : EndsNumber cs) : EndsNumber (blanks ++ cs) := by
  cases blanks with
  | nil => exact hcs
  | cons c blanks =>
    have hc : c = ' ' ∨ c = '\n' ∨ c = '\t' ∨ c = '\r' := by
      simpa [isSpace, or_assoc] using h c (by simp)
    rcases hc with rfl | rfl | rfl | rfl <;> simp [EndsNumber]

theorem lexemes?_word {c : Char} {word : List Char} {t : Lexeme} (h : word? c = some (word, t))
    (cs : List Char) : lexemes? (c :: word ++ cs) = (lexemes? cs).map (t :: ·) := by
  have hc : isSpace c = false ∧ mark? c = none := by
    unfold word? at h
    split_ifs at h with hn ht hf
    · subst hn; decide
    · subst ht; decide
    · subst hf; decide
  refine lexemes?_cons hc.1 ?_
  simp [lexeme?, hc.2, h, afterWord?, List.isPrefixOf_iff_prefix]

theorem first_of_isDigit {c : Char} (h : c.isDigit = true) :
    isSpace c = false ∧ mark? c = none ∧ word? c = none ∧ c ≠ '"' := by
  have hne : ∀ d : Char, d.isDigit = false → c ≠ d := by
    rintro d hd rfl
    simp [h] at hd
  simp (disch := decide) [isSpace, mark?, word?, hne]

/-- A number literal begins with a minus sign or a digit, which no other token does. -/
theorem lexemes?_number {n : NumberLiteral} (hn : n.rest = []) {cs : List Char}
    (hcs : EndsNumber cs) :
    lexemes? ((numberText n).toList ++ cs) = (lexemes? cs).map (.number n :: ·) := by
  have hread := number?_numberText hn hcs
  obtain ⟨c, text, htext, hc⟩ :
      ∃ c text, (numberText n).toList = c :: text ∧ (c = '-' ∨ c.isDigit = true) := by
    rw [toList_numberText hn]
    cases n.negative with
    | true => exact ⟨'-', _, rfl, .inl rfl⟩
    | false =>
      obtain ⟨d, ds, hd⟩ :=
        List.exists_cons_of_ne_nil (Nat.toDigits_ne_nil (b := 10) (n := n.whole))
      have hdigit : d.isDigit = true :=
        Nat.isDigit_of_mem_toDigits (by decide) (by decide) (hd ▸ List.mem_cons_self)
      exact ⟨d, ds, hd, .inr hdigit⟩
  have hfirst : isSpace c = false ∧ mark? c = none ∧ word? c = none ∧ c ≠ '"' := by
    rcases hc with rfl | hc
    · decide
    · exact first_of_isDigit hc
  rw [htext, List.cons_append] at hread ⊢
  obtain ⟨hs, hm, hw, hq⟩ := hfirst
  refine lexemes?_cons hs ?_
  simp only [lexeme?, hm, hw, if_neg hq, hread, Option.map_some]

theorem lexemes?_string (s : String) (cs : List Char) :
    lexemes? ((stringText (some s)).toList ++ cs) =
      (lexemes? cs).map (.string (some s) :: ·) := by
  rw [stringText, Option.getD_some, toList_quote]
  refine lexemes?_cons (by decide) ?_
  have hm : mark? '"' = none := by decide
  have hw : word? '"' = none := by decide
  simp [lexeme?, hm, hw, stringLexeme?, stringBody?_flatMap_escape, unitsText?_map_char]

mutual
def tokens : Json → List Lexeme
  | .null => [.null]
  | .bool b => [.bool b]
  | .number n => [.number n]
  | .string s => [.string s]
  | .array items => .openBracket :: [.comma].intercalate (itemTokens items) ++ [.closeBracket]
  | .object members => .openBrace :: [.comma].intercalate (memberTokens members) ++ [.closeBrace]

def itemTokens : List Json → List (List Lexeme)
  | [] => []
  | v :: vs => tokens v :: itemTokens vs

def memberTokens : List (Option String × Json) → List (List Lexeme)
  | [] => []
  | (key, v) :: rest => (.string key :: .colon :: tokens v) :: memberTokens rest
end

/-- The tokens of one member of an object. -/
def pairTokens (m : Option String × Json) : List Lexeme := .string m.1 :: .colon :: tokens m.2

theorem itemTokens_eq (vs : List Json) : itemTokens vs = vs.map tokens := by
  induction vs with
  | nil => rfl
  | cons v vs ih => rw [itemTokens, ih, List.map_cons]

theorem memberTokens_eq (ms : List (Option String × Json)) :
    memberTokens ms = ms.map pairTokens := by
  induction ms with
  | nil => rfl
  | cons m ms ih => rw [memberTokens, ih, List.map_cons, pairTokens]

theorem compactItems_eq (vs : List Json) : compactItems vs = vs.map compact := by
  induction vs with
  | nil => rfl
  | cons v vs ih => rw [compactItems, ih, List.map_cons]

theorem compactMembers_eq (ms : List (Option String × Json)) :
    compactMembers ms = ms.map fun m => stringText m.1 ++ ":" ++ compact m.2 := by
  induction ms with
  | nil => rfl
  | cons m ms ih => rw [compactMembers, ih, List.map_cons]

theorem prettyItems_eq (level : Nat) (vs : List Json) :
    prettyItems level vs = vs.map (prettyAt level) := by
  induction vs with
  | nil => rfl
  | cons v vs ih => rw [prettyItems, ih, List.map_cons]

theorem prettyMembers_eq (level : Nat) (ms : List (Option String × Json)) :
    prettyMembers level ms = ms.map fun m => stringText m.1 ++ ": " ++ prettyAt level m.2 := by
  induction ms with
  | nil => rfl
  | cons m ms ih => rw [prettyMembers, ih, List.map_cons]

/-- Documents whose numbers are integers and whose strings are texts. -/
inductive IsPlain : Json → Prop
  | null : IsPlain .null
  | bool (b : Bool) : IsPlain (.bool b)
  | number {n : NumberLiteral} (hn : n.rest = []) : IsPlain (.number n)
  | string (s : String) : IsPlain (.string (some s))
  | array {items : List Json} (h : ∀ v ∈ items, IsPlain v) : IsPlain (.array items)
  | object {members : List (Option String × Json)} (hk : ∀ m ∈ members, m.1.isSome = true)
      (hv : ∀ m ∈ members, IsPlain m.2) : IsPlain (.object members)

/-- A text that is read as given tokens in front of all that does not go on with a number. -/
def Spells (text : String) (ts : List Lexeme) : Prop :=
  ∀ cs, EndsNumber cs → lexemes? (text.toList ++ cs) = (lexemes? cs).map (ts ++ ·)

theorem Spells.empty : Spells "" [] := by simp [Spells]

theorem Spells.number {n : NumberLiteral} (hn : n.rest = []) :
    Spells (numberText n) [.number n] := fun _ hcs => lexemes?_number hn hcs

theorem Spells.string (s : String) : Spells (stringText (some s)) [.string (some s)] :=
  fun cs _ => lexemes?_string s cs

theorem Spells.word {c : Char} {word : List Char} {t : Lexeme} {text : String}
    (h : word? c = some (word, t)) (htext : text.toList = c :: word) : Spells text [t] := by
  intro cs _
  rw [htext]
  exact lexemes?_word h cs

theorem Spells.null : Spells "null" [.null] := .word (c := 'n') rfl rfl

theorem Spells.bool (b : Bool) : Spells (toString b) [.bool b] := by
  cases b with
  | false => exact .word (c := 'f') rfl rfl
  | true => exact .word (c := 't') rfl rfl

theorem Spells.pair {key : Option String} (hk : key.isSome = true) {sep : String}
    (gap : List Char) (hsep : sep.toList = ':' :: gap) (hgap : ∀ c ∈ gap, isSpace c = true)
    {text : String} {v : Json} (h : Spells text (tokens v)) :
    Spells (stringText key ++ sep ++ text) (pairTokens (key, v)) := by
  obtain ⟨s, rfl⟩ := Option.isSome_iff_exists.mp hk
  intro cs hcs
  rw [String.toList_append, String.toList_append, hsep, List.append_assoc, List.append_assoc,
    lexemes?_string, List.cons_append, lexemes?_mark (t := .colon) rfl, lexemes?_blanks hgap,
    h cs hcs]
  simp [pairTokens, Function.comp_def]

theorem Spells.intercalate {α : Type} (sep : String) (gap : List Char)
    (hsep : sep.toList = ',' :: gap) (hgap : ∀ c ∈ gap, isSpace c = true) {text : α → String}
    {ts : α → List Lexeme} {items : List α} (h : ∀ a ∈ items, Spells (text a) (ts a)) :
    Spells (sep.intercalate (items.map text)) ([.comma].intercalate (items.map ts)) := by
  induction items with
  | nil => exact Spells.empty
  | cons a items ih =>
    rw [List.forall_mem_cons] at h
    cases items with
    | nil => simpa using h.1
    | cons b items =>
      intro cs hcs
      have hrest := ih h.2 cs hcs
      simp only [List.map_cons] at hrest ⊢
      rw [String.intercalate_cons_cons, List.intercalate_cons_cons, String.toList_append,
        String.toList_append, hsep, List.append_assoc, List.append_assoc, List.cons_append,
        h.1 _ (endsNumber_mark (t := .comma) rfl _), lexemes?_mark (t := .comma) rfl,
        lexemes?_blanks hgap, hrest]
      simp [Function.comp_def]

theorem Spells.enclose {o c : Char} {t t' : Lexeme} (ho : mark? o = some t)
    (hc : mark? c = some t') (lead trail : List Char) (hlead : ∀ c ∈ lead, isSpace c = true)
    (htrail : ∀ c ∈ trail, isSpace c = true) {body text : String} {ts : List Lexeme}
    (h : Spells body ts) (htext : text.toList = o :: lead ++ body.toList ++ trail ++ [c]) :
    Spells text (t :: ts ++ [t']) := by
  intro cs hcs
  have hend : EndsNumber (trail ++ c :: cs) := endsNumber_blanks htrail (endsNumber_mark hc cs)
  have hsplit : text.toList ++ cs = o :: (lead ++ (body.toList ++ (trail ++ c :: cs))) := by
    simp [htext]
  rw [hsplit, lexemes?_mark ho, lexemes?_blanks hlead, h _ hend, lexemes?_blanks htrail,
    lexemes?_mark hc]
  simp [Function.comp_def]

theorem isSpace_indentation (level : Nat) :
    ∀ c ∈ '\n' :: (indentation level).toList, isSpace c = true := by
  intro c hc
  have : c = '\n' ∨ c = ' ' := by
    rw [List.mem_cons, indentation, String.toList_ofList] at hc
    exact hc.imp_right List.eq_of_mem_replicate
  rcases this with rfl | rfl <;> rfl

theorem Spells.block {α : Type} {opening closing : String} {o c : Char} {t t' : Lexeme}
    (ho : mark? o = some t) (hc : mark? c = some t') (hopening : opening.toList = [o])
    (hclosing : closing.toList = [c]) (level : Nat) {text : α → String} {ts : α → List Lexeme}
    {items : List α} (h : ∀ a ∈ items, Spells (text a) (ts a)) :
    Spells (block opening closing level (items.map text))
      (t :: [.comma].intercalate (items.map ts) ++ [t']) := by
  cases items with
  | nil =>
    exact Spells.enclose ho hc [] [] (by simp) (by simp) .empty
      (by simp [Json.block, hopening, hclosing])
  | cons a items =>
    have hbody := Spells.intercalate ("," ++ ("\n" ++ indentation (level + 1))) _ (by simp)
      (isSpace_indentation (level + 1)) h
    exact .enclose ho hc _ _ (isSpace_indentation (level + 1)) (isSpace_indentation level) hbody
      (by simp [Json.block, hopening, hclosing])

theorem spells_compact {v : Json} (hv : v.IsPlain) : Spells (compact v) (tokens v) := by
  induction hv with
  | null => exact .null
  | bool b => exact .bool b
  | number hn => exact .number hn
  | string s => exact .string s
  | array _ ih =>
    rw [compact, tokens, compactItems_eq, itemTokens_eq]
    have hbody := Spells.intercalate "," [] rfl (by simp) ih
    exact .enclose (o := '[') (c := ']') rfl rfl [] [] (by simp) (by simp) hbody (by simp)
  | object hk _ ih =>
    rw [compact, tokens, compactMembers_eq, memberTokens_eq]
    have hpairs := fun m hm => Spells.pair (hk m hm) [] (show ":".toList = _ from rfl) (by simp)
      (ih m hm)
    have hbody := Spells.intercalate "," [] rfl (by simp) hpairs
    exact .enclose (o := '\x7b') (c := '\x7d') rfl rfl [] [] (by simp) (by simp) hbody (by simp)

theorem spells_prettyAt {v : Json} (hv : v.IsPlain) (level : Nat) :
    Spells (prettyAt level v) (tokens v) := by
  induction hv generalizing level with
  | null => exact .null
  | bool b => exact .bool b
  | number hn => exact .number hn
  | string s => exact .string s
  | array _ ih =>
    rw [prettyAt, tokens, prettyItems_eq, itemTokens_eq]
    exact Spells.block rfl rfl rfl rfl level fun v hv => ih v hv (level + 1)
  | object hk _ ih =>
    rw [prettyAt, tokens, prettyMembers_eq, memberTokens_eq]
    exact Spells.block rfl rfl rfl rfl level fun m hm =>
      .pair (hk m hm) [' '] rfl (by simp [isSpace]) (ih m hm (level + 1))

/-- A text that spells some tokens has these tokens. -/
theorem Spells.lexemes? {text : String} {ts : List Lexeme} (h : Spells text ts) :
    Json.lexemes? text.toList = some ts := by
  have := h [] endsNumber_nil
  simpa [Json.lexemes?] using this

end ConstraintText.Json

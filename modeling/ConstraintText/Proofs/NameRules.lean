import ConstraintText.Proofs.Places
import ConstraintText.Proofs.RoundTrip
import ConstraintText.Proofs.ScanningSafety

/-!
# Which name a formula is refused for

Apart from its names a formula can be read. It is refused for the first of them, in the order of the
text, that is declared a second time or used where nothing in front has declared it. What counts is
all that stands in front, tuples and blocks alike: a block ends, but its names stay declared.
-/
namespace ConstraintText

namespace Scanner

theorem offset_start_lt_next {s : Scanner} (h : afterGap false s.rest ≠ []) :
    s.start.offset < s.next.2.place.offset := by
  rcases s.next_cases with ⟨hg, -⟩ | ⟨c, cs, -, -, hn⟩ | ⟨c, cs, cut, value, -, -, -, hn⟩
  · exact absurd hg h
  · rw [hn]
    exact Location.offset_lt_afterAll ..
  · rw [hn]
    exact Location.offset_lt_afterAll ..

theorem pairwise_start_items (s : Scanner) :
    s.items.Pairwise fun a b => (itemSpan a).start.offset < (itemSpan b).start.offset := by
  fun_induction items s with
  | case1 s hg => exact List.pairwise_singleton _ _
  | case2 s hg ih =>
    refine List.pairwise_cons.mpr ⟨fun item hitem => ?_, ih⟩
    rw [start_itemSpan_next]
    exact (offset_start_lt_next hg).trans_le (offset_place_le_of_mem item hitem)

theorem pairwise_start_leading (s : Scanner) :
    s.leading.Pairwise fun t u => t.span.start.offset < u.span.start.offset :=
  pairwise_leading s.pairwise_start_items

end Scanner

namespace Formula

namespace Occurrence

@[simp] theorem token_comp_declares : token ∘ declares = id := rfl

@[simp] theorem token_comp_uses : token ∘ uses = id := rfl

/-- Whether an occurrence offends behind `before`, and none of these does. -/
structure IsFirstOffender (before : List Occurrence) (o : Occurrence) : Prop where
  offends : o.Offends (declared before)
  first : ∀ front o' back, before = front ++ o' :: back → ¬ o'.Offends (declared front)

/-- What is refused is the first occurrence that offends. -/
theorem offence?_eq_some_iff {os : List Occurrence} {refusal : Refusal} :
    offence? [] os = some refusal ↔
      ∃ (before : List Occurrence) (o : Occurrence) (after : List Occurrence),
        os = before ++ o :: after ∧ IsFirstOffender before o ∧
          refusal = .atToken o.problem o.token := by
  constructor
  · intro h
    obtain ⟨before, o, after, he, hnone, ho, hrefusal⟩ := exists_of_offence? h
    exact ⟨before, o, after, he, ⟨ho, offence?_eq_none_iff.mp hnone⟩, hrefusal⟩
  · rintro ⟨before, o, after, rfl, ⟨ho, hfirst⟩, rfl⟩
    exact offence?_of_offends (offence?_eq_none_iff.mpr hfirst) ho after

theorem exists_offence?_iff {os : List Occurrence} :
    (∃ refusal, offence? [] os = some refusal) ↔
      ∃ before o after, os = before ++ o :: after ∧ o.Offends (declared before) := by
  rw [← Option.ne_none_iff_exists', Ne, offence?_eq_none_iff]
  push Not
  rfl

end Occurrence

def identifiers (ts : List Token) : List Token := ts.filter (·.kind = .identifier)

@[simp] theorem identifiers_nil : identifiers [] = [] := rfl

@[simp] theorem identifiers_append (ts us : List Token) :
    identifiers (ts ++ us) = identifiers ts ++ identifiers us :=
  List.filter_append ..

theorem identifiers_cons (t : Token) (ts : List Token) :
    identifiers (t :: ts) =
      if t.kind = .identifier then t :: identifiers ts else identifiers ts := by
  simp [identifiers, List.filter_cons]

theorem DerivesNames.identifiers_eq {ids ts : List Token} (h : DerivesNames ids ts) :
    identifiers ts = ids := by
  induction h with
  | empty => rfl
  | last ht => simp [identifiers_cons, ht]
  | more ht hc _ ih => simp [identifiers_cons, ht, hc, ih]

theorem DerivesSide.identifiers_eq {terms : List Term} {ts : List Token}
    (h : DerivesSide terms ts) : identifiers ts = usedBy terms := by
  induction h with
  | empty => rfl
  | name ht _ ih => simp [identifiers_cons, usedBy, Term.used, ht, ih]
  | number ht _ _ _ ih => simp [identifiers_cons, usedBy, Term.used, ht, ih]
  | multiple ht _ hu _ ih => simp [identifiers_cons, usedBy, Term.used, ht, hu, ih]
  | plus ht _ ih => simp [identifiers_cons, usedBy, Term.used, ht, ih]

theorem Operator.kind_ne_identifier (operator : Operator) : operator.kind ≠ .identifier := by
  cases operator <;> decide

theorem Condition.Derives.identifiers_eq {c : Condition} {ts : List Token} (h : c.Derives ts) :
    identifiers ts = c.occurrences.map Occurrence.token := by
  induction h with
  | comparison hl ho hr =>
    simp [identifiers_cons, ho, Operator.kind_ne_identifier, hl.identifiers_eq, hr.identifiers_eq,
      occurrences, Comparison.used]
  | block hw hn hc _ ih =>
    simp [identifiers_cons, hw, hc, hn.identifiers_eq, ih, occurrences]
  | parens hw ho hn hc _ he ih =>
    simp [identifiers_cons, hw, ho, hc, he, hn.identifiers_eq, ih, occurrences]
  | both _ _ hw _ ihf ihr => simp [identifiers_cons, hw, ihf, ihr, occurrences]

theorem DerivesTuple.identifiers_eq {ids ts : List Token} (h : DerivesTuple ids ts) :
    identifiers ts = ids := by
  obtain ⟨ho, hn, hc⟩ := h
  simp [identifiers_cons, ho, hc, hn.identifiers_eq]

theorem DerivesParams.identifiers_eq {params : Option (List Token)} {ts : List Token}
    (h : DerivesParams params ts) : identifiers ts = params.getD [] := by
  cases h with
  | absent => rfl
  | present ht ha => simp [identifiers_cons, ha, ht.identifiers_eq]

theorem DerivesSecond.identifiers_eq {second : Option (List Token)} {ts : List Token}
    (h : DerivesSecond second ts) : identifiers ts = second.getD [] := by
  cases h with
  | absent => rfl
  | present ha ht => simp [identifiers_cons, ha, ht.identifiers_eq]

theorem DerivesClause.identifiers_eq {condition : Option Condition} {ts : List Token}
    (h : DerivesClause condition ts) :
    identifiers ts = ((condition.map Condition.occurrences).getD []).map Occurrence.token := by
  cases h with
  | absent => rfl
  | present hc h => simp [identifiers_cons, hc, h.identifiers_eq]

/-- The identifiers of a formula are the names it declares and uses, in the order of the text. -/
theorem Tree.Derives.identifiers_eq {f : Tree} {fs : List Token} (h : f.Derives fs) :
    identifiers fs = f.occurrences.map Occurrence.token := by
  obtain ⟨hp, ho, hf, hs, hc, he⟩ := h
  simp [identifiers_cons, ho, he, hp.identifiers_eq, hf.identifiers_eq, hs.identifiers_eq,
    hc.identifiers_eq, occurrences]

end Formula

namespace Reading
open Formula Occurrence

variable {source : String} {f : Tree} {fs rest : List Token}

/-- Nothing but its names is wrong about a formula. -/
theorem readMap_error_iff (he : (TokenStream.ofString source).tokens = fs ++ rest)
    (h : f.Derives fs) (config : ReadConfig) (e : ReadError) :
    (readMap config none (.ofString source)).result = .error e ↔
      ∃ refusal, offence? [] f.occurrences = some refusal ∧ e = .refused refusal := by
  obtain ⟨front, closing, hfs, hfront, -⟩ := h.exists_front
  have hi := beginsWithInteger_of_front hfront (by rw [he, hfs, List.append_assoc])
  have hfit : f.ParamsFit none := fun _ hn => by cases hn
  rw [(readMap_eq_drafts config none _).1, drafts_result_of_formula hi, he,
    Tree.outcome_derives h hfit]
  cases offence? [] f.occurrences with
  | none => simp [Outcome.result, Except.map]
  | some refusal => simp [Outcome.result, Except.map, eq_comm]

theorem readMap_error_iff_isFirstOffender
    (he : (TokenStream.ofString source).tokens = fs ++ rest) (h : f.Derives fs)
    (config : ReadConfig) (e : ReadError) :
    (readMap config none (.ofString source)).result = .error e ↔
      ∃ (before : List Occurrence) (o : Occurrence) (after : List Occurrence),
        f.occurrences = before ++ o :: after ∧ IsFirstOffender before o ∧
          e = .refused ⟨o.problem, o.token.span, some o.token.lexeme⟩ := by
  rw [readMap_error_iff he h config]
  constructor
  · rintro ⟨refusal, hoffence, rfl⟩
    obtain ⟨before, o, after, hsplit, hfirst, rfl⟩ := offence?_eq_some_iff.mp hoffence
    exact ⟨before, o, after, hsplit, hfirst, rfl⟩
  · rintro ⟨before, o, after, hsplit, hfirst, rfl⟩
    exact ⟨_, offence?_eq_some_iff.mpr ⟨before, o, after, hsplit, hfirst, rfl⟩, rfl⟩

theorem exists_readMap_error_iff (he : (TokenStream.ofString source).tokens = fs ++ rest)
    (h : f.Derives fs) (config : ReadConfig) :
    (∃ e, (readMap config none (.ofString source)).result = .error e) ↔
      ∃ (before : List Occurrence) (o : Occurrence) (after : List Occurrence),
        f.occurrences = before ++ o :: after ∧ o.Offends (declared before) := by
  rw [← exists_offence?_iff]
  constructor
  · rintro ⟨e, herror⟩
    obtain ⟨refusal, hoffence, -⟩ := (readMap_error_iff he h config e).mp herror
    exact ⟨refusal, hoffence⟩
  · rintro ⟨refusal, hoffence⟩
    exact ⟨_, (readMap_error_iff he h config _).mpr ⟨refusal, hoffence, rfl⟩⟩

theorem pairwise_start_occurrences (he : (TokenStream.ofString source).tokens = fs ++ rest)
    (h : f.Derives fs) :
    f.occurrences.Pairwise fun o o' => o.token.span.start.offset < o'.token.span.start.offset := by
  have htokens := (TokenStream.ofString source).scanner.pairwise_start_leading
  rw [← TokenStream.tokens_of_pending_none rfl, he] at htokens
  have hnames : (identifiers fs).Pairwise fun t u => t.span.start.offset < u.span.start.offset :=
    (List.pairwise_append.mp htokens).1.sublist List.filter_sublist
  rw [h.identifiers_eq, List.pairwise_map] at hnames
  exact hnames

theorem eq_of_start_eq (he : (TokenStream.ofString source).tokens = fs ++ rest) (h : f.Derives fs)
    {before before' after after' : List Occurrence} {o o' : Occurrence}
    (hsplit : f.occurrences = before ++ o :: after)
    (hsplit' : f.occurrences = before' ++ o' :: after')
    (hstart : o.token.span.start = o'.token.span.start) : before = before' ∧ o = o' := by
  have hordered := pairwise_start_occurrences he h
  rw [hsplit] at hordered hsplit'
  obtain ⟨-, hbehind, hfront⟩ := List.pairwise_append.mp hordered
  have hbefore : o' ∉ before := by
    intro hm
    have hlt := hfront o' hm o List.mem_cons_self
    rw [hstart] at hlt
    exact lt_irrefl _ hlt
  have hafter : o' ∉ after := by
    intro hm
    have hlt := (List.pairwise_cons.mp hbehind).1 o' hm
    rw [hstart] at hlt
    exact lt_irrefl _ hlt
  obtain ⟨hb, ho, -⟩ := (List.append_cons_inj_of_notMem hbefore hafter).mp hsplit'
  exact ⟨hb, ho⟩

/-- Let the tokens of a text begin with those of a formula, whatever its names. Its identifiers are
the names that it declares and uses, in the order of the text. It is refused exactly if one of them
is declared again or used where nothing in front has declared it, and then for the first such one: at
its token, with the lexeme found there, as a duplicate or as an unknown name. A name stays declared
whatever block ends behind it: to declare it again is an error, and it is never refused where it is
used. -/
theorem readMap_refuses_first_offender (he : (TokenStream.ofString source).tokens = fs ++ rest)
    (h : f.Derives fs) (config : ReadConfig) :
    identifiers fs = f.occurrences.map Occurrence.token ∧
    ((∃ e, (readMap config none (.ofString source)).result = .error e) ↔
      ∃ (before : List Occurrence) (o : Occurrence) (after : List Occurrence),
        f.occurrences = before ++ o :: after ∧ o.Offends (declared before)) ∧
    (∀ e, (readMap config none (.ofString source)).result = .error e ↔
      ∃ (before : List Occurrence) (o : Occurrence) (after : List Occurrence),
        f.occurrences = before ++ o :: after ∧ IsFirstOffender before o ∧
          e = .refused ⟨o.problem, o.token.span, some o.token.lexeme⟩) ∧
    ∀ (before middle after : List Occurrence) (t u : Token), u.lexeme = t.lexeme →
      (f.occurrences = before ++ .declares t :: middle ++ .declares u :: after →
        ∃ e, (readMap config none (.ofString source)).result = .error e) ∧
      (f.occurrences = before ++ .declares t :: middle ++ .uses u :: after →
        (readMap config none (.ofString source)).result ≠
          .error (.refused ⟨.unknownName, u.span, some u.lexeme⟩)) := by
  have hany := exists_readMap_error_iff he h config
  have hfirst := readMap_error_iff_isFirstOffender he h config
  refine ⟨h.identifiers_eq, hany, hfirst, fun before middle after t u hu => ⟨?_, ?_⟩⟩
  · intro hsplit
    refine hany.mpr ⟨_, _, _, hsplit, ?_⟩
    change u.lexeme ∈ declared (before ++ .declares t :: middle)
    simp [hu]
  · intro hsplit herror
    obtain ⟨before', o, after', hsplit', ⟨hoffends, -⟩, heq⟩ := (hfirst _).mp herror
    simp only [ReadError.refused.injEq, Refusal.mk.injEq] at heq
    obtain ⟨rfl, rfl⟩ := eq_of_start_eq he h hsplit hsplit' (by rw [← heq.2.1]; rfl)
    refine hoffends ?_
    simp [hu]

/-- The name of a block is used behind the block; it is the other name that is refused. -/
theorem readMap_refuses_first_offender_behind_block :
    let source := "\x7b[i] : exists (k : i = k) and k = j\x7d"
    let token (kind : TokenKind) (lexeme : String) (offset : Nat) : Token :=
      ⟨kind, ⟨⟨1, offset + 1, offset⟩, ⟨1, offset + lexeme.length + 1, offset + lexeme.length⟩⟩,
        lexeme, offset == 0, none⟩
    let i := token .identifier "i"
    let j := token .identifier "j"
    let k := token .identifier "k"
    let f : Tree := ⟨none, [i 2], none, some (.both
      (.block true [k 15] (.comparison ⟨[.name (i 19)], .equal, [.name (k 23)]⟩))
      (.comparison ⟨[.name (k 30)], .equal, [.name (j 34)]⟩))⟩
    (∃ fs, (TokenStream.ofString source).tokens = fs ++ [] ∧ f.Derives fs) ∧
      (readMap .standard none (.ofString source)).result =
        .error (.refused ⟨.unknownName, (j 34).span, some "j"⟩) := by
  intro source token i j k f
  let inner := [i 19] ++ token .equal "=" 21 :: [k 23]
  let block := token .existsWord "exists" 7 :: token .leftParen "(" 14 :: [k 15] ++
    token .colon ":" 17 :: inner ++ [token .rightParen ")" 24]
  let both := block ++ token .andWord "and" 26 :: ([k 30] ++ token .equal "=" 32 :: [j 34])
  let tuple := token .leftBracket "[" 1 :: [i 2] ++ [token .rightBracket "]" 3]
  let fs := [] ++ token .leftBrace "\x7b" 0 :: tuple ++ [] ++ (token .colon ":" 5 :: both) ++
    [token .rightBrace "\x7d" 35]
  have hinner : Condition.Derives (.comparison ⟨[.name (i 19)], .equal, [.name (k 23)]⟩) inner :=
    .comparison (.name rfl .empty) rfl (.name rfl .empty)
  have hblock : Condition.Derives (.block true [k 15] _) block :=
    .parens rfl rfl (.last rfl) rfl hinner rfl
  have hboth : Condition.Derives (.both _ (.comparison ⟨[.name (k 30)], .equal, [.name (j 34)]⟩))
      both :=
    .both (by trivial) hblock rfl (.comparison (.name rfl .empty) rfl (.name rfl .empty))
  have h : f.Derives fs :=
    .intro .absent rfl (.intro rfl (.last rfl) rfl) .absent (.present rfl hboth) rfl
  have htokens : (TokenStream.ofString source).tokens = fs ++ [] := by
    unfold source fs both block inner tuple i j k token
    cbv
  refine ⟨⟨fs, htokens, h⟩, ?_⟩
  let before := [i 2, k 15].map declares ++ [i 19, k 23, k 30].map uses
  have hnone : offence? [] before = none := by
    unfold before i k token
    cbv
  have hoffends : (uses (j 34)).Offends (declared before) := by
    change "j" ∉ ["i", "k"]
    decide
  exact ((readMap_refuses_first_offender htokens h .standard).2.2.1 _).mpr
    ⟨before, uses (j 34), [], rfl, ⟨hoffends, offence?_eq_none_iff.mp hnone⟩, rfl⟩

end Reading
end ConstraintText

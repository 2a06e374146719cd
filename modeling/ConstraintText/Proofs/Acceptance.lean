import ConstraintText.Proofs.Drafts
import ConstraintText.Proofs.Scanning

/-!
# Which formulas are accepted

A text that does not begin with an integer is read exactly when its tokens begin with those of a
formula with the wanted parameters, distinct names and no name used before it is declared. The
reading ends behind the closing brace, and nothing that stands there matters.
-/
namespace ConstraintText

namespace Machine

variable {σ α : Type}

/-- Where an object is read with its last token used, the stream has taken the object's tokens. -/
theorem run_takes {m : Machine σ α}
    (hm : ∀ q t value, (m.onToken q t).next = .done value → (m.onToken q t).token = .take)
    {s : TokenStream} {q : σ} {value : α} {rest : List Token}
    (h : m.outcome q s.tokens = .done value rest) :
    ∃ ts, ts ≠ [] ∧ s.tokens = ts ++ rest ∧ s.Takes ts (m.run s q).stream := by
  generalize hts : s.tokens = us at h
  fun_induction outcome m q us generalizing s with
  | case1 q problem hq => simp at h
  | case2 q events q' hq ih =>
    obtain ⟨problem, hp⟩ := m.exists_short q'
    simp [hp] at h
  | case3 q t ts e hq => simp at h
  | case4 q t ts v hq =>
    obtain ⟨s', hn, -, -, -⟩ := TokenStream.next_of_tokens_cons hts
    have ht := hm q t v hq
    rw [Outcome.done.injEq, if_pos ht] at h
    obtain ⟨rfl, rfl⟩ := h
    refine ⟨[t], by simp, rfl, .cons hn ?_⟩
    simp only [run_of_token m q hn, ht, TokenStream.dispose, hq]
    exact .nil _
  | case5 q t ts q' hq ht ih =>
    obtain ⟨s', hn, -, hs', -⟩ := TokenStream.next_of_tokens_cons hts
    obtain ⟨us, -, rfl, htakes⟩ := ih hs' h
    refine ⟨t :: us, by simp, rfl, .cons hn ?_⟩
    simpa only [run_of_token m q hn, ht, TokenStream.dispose, hq, Reading.after] using htakes
  | case6 q t ts q' hq ht ih =>
    obtain ⟨s', hn, hp, hs', -⟩ := TokenStream.next_of_tokens_cons hts
    obtain ⟨events, hd⟩ := TokenStream.dispose_of_ne_take hp ht t
    rw [TokenStream.tokens_of_pending_none hp] at hs'
    have htokens : (⟨s'.scanner, some t⟩ : TokenStream).tokens = t :: ts := by
      simp [TokenStream.tokens, hs']
    obtain ⟨us, hne, he, htakes⟩ := ih htokens h
    refine ⟨us, hne, he, .of_pushed hn ?_ hne⟩
    simpa only [run_of_token m q hn, hd, hq, Reading.after] using htakes

end Machine

namespace Formula

theorem token_of_done {q : State} {t : Token} {m : BasicMap}
    (h : (machine.onToken q t).next = .done m) : (machine.onToken q t).token = .take := by
  obtain ⟨names, point⟩ := q
  revert h
  cases point <;> simp only [machine, onToken, token_expect, imp_true_iff]
  case terms body sum =>
    unfold onTerm
    repeat' split
    all_goals simp [token_addNamed, Move.fault, Move.take, Move.refuse, Move.leave]
  case coefficientName body sum value =>
    unfold addConstant
    repeat' split
    all_goals simp [token_addNamed]
  all_goals
    repeat' split
    all_goals simp [token_expect, Move.take, Move.refuse, Move.leave]

end Formula

namespace Reading
open Formula

theorem drafts_takes {wanted : Option Nat} {s : TokenStream} (hi : s.beginsWithInteger = false)
    {m : BasicMap} {rest : List Token}
    (h : machine.outcome ⟨⟨[]⟩, .beginning wanted⟩ s.tokens = .done m rest) :
    ∃ ts, s.tokens = ts ++ rest ∧ s.Takes ts (drafts wanted s).stream := by
  obtain ⟨t, ts, hts⟩ := Machine.exists_cons_of_done h
  obtain ⟨s', hp, ht, -⟩ := TokenStream.peek_of_tokens_cons hts
  have hk : t.kind ≠ .integer := by simpa [TokenStream.beginsWithInteger, hts] using hi
  rw [← ht] at h
  obtain ⟨us, hne, he, htakes⟩ := Machine.run_takes (fun _ _ _ => token_of_done) h
  have hread : (Formula.read wanted s').result = .ok m := Machine.run_ok_iff.mpr ⟨rest, h⟩
  have hstream : (drafts wanted s).stream = (Formula.read wanted s').stream := by
    simp only [drafts, hp, if_neg hk, bind, hread, ok, after]
  refine ⟨us, by rw [← ht, he], .of_peek hp ?_ hne⟩
  rw [hstream]
  exact htakes

theorem drafts_scans {wanted : Option Nat} {source : String}
    (hi : (TokenStream.ofString source).beginsWithInteger = false) {m : BasicMap}
    {fs rest : List Token} (h : machine.outcome ⟨⟨[]⟩, .beginning wanted⟩
      (TokenStream.ofString source).tokens = .done m rest)
    (he : (TokenStream.ofString source).tokens = fs ++ rest) :
    (TokenStream.ofString source).scanner.Scans fs
        (drafts wanted (.ofString source)).stream.scanner ∧
      (drafts wanted (.ofString source)).stream.pending = none := by
  obtain ⟨ts, hts, htakes⟩ := drafts_takes hi h
  obtain rfl : ts = fs := List.append_cancel_right (hts.symm.trans he)
  exact htakes.scans rfl

theorem kind_getLast?_of_derives {f : Tree} {fs : List Token} (h : f.Derives fs) :
    fs ≠ [] ∧ ∀ t ∈ fs.getLast?, t.kind = .rightBrace := by
  obtain ⟨-, -, -, -, -, he⟩ := h
  refine ⟨by simp, fun t ht => ?_⟩
  rw [List.getLast?_concat, Option.mem_def, Option.some.injEq] at ht
  exact ht ▸ he

/-- A text that begins alike, up to the closing brace of a formula, is read alike. -/
theorem drafts_append_rest {wanted : Option Nat} {source : String}
    (hi : (TokenStream.ofString source).beginsWithInteger = false) {v : MapUnion}
    (h : (drafts wanted (.ofString source)).result = .ok v) :
    ∃ head, source.toList = head ++ (drafts wanted (.ofString source)).stream.scanner.rest ∧
      (drafts wanted (.ofString source)).stream.pending = none ∧ head.getLast? = some '}' ∧
      ∀ tail, (drafts wanted (.ofString (String.ofList (head ++ tail)))).result = .ok v := by
  obtain ⟨m, rest, ho, rfl⟩ := (drafts_ok_iff_of_formula hi).mp h
  obtain ⟨f, fs, hd, he, hw, hoff, rfl⟩ := Tree.outcome_done_iff.mp ho
  obtain ⟨hscans, hpending⟩ := drafts_scans hi ho he
  obtain ⟨hne, hlast⟩ := kind_getLast?_of_derives hd
  obtain ⟨head, hhead, -, hbrace⟩ := hscans.append_rest
  obtain ⟨hend, hagain⟩ := hbrace hlast
  refine ⟨head, hhead, hpending, hend hne, fun tail => ?_⟩
  have hstart : (TokenStream.ofString (String.ofList (head ++ tail))).scanner =
      ⟨head ++ tail, (TokenStream.ofString source).scanner.place,
        (TokenStream.ofString source).scanner.newLine⟩ := by
    simp [TokenStream.ofString, Scanner.ofString]
  obtain ⟨us, htokens⟩ : ∃ us,
      (TokenStream.ofString (String.ofList (head ++ tail))).tokens = fs ++ us :=
    ⟨_, by rw [TokenStream.tokens_of_pending_none rfl, hstart, (hagain tail).leading]⟩
  have hfirst : (TokenStream.ofString (String.ofList (head ++ tail))).beginsWithInteger = false := by
    rw [TokenStream.beginsWithInteger, he, List.head?_append_of_ne_nil _ hne] at hi
    rw [TokenStream.beginsWithInteger, htokens, List.head?_append_of_ne_nil _ hne, hi]
  exact (drafts_ok_iff_of_formula hfirst).mpr ⟨f.system wanted, us,
    Tree.outcome_done_iff.mpr ⟨f, fs, hd, htokens, hw, hoff, rfl⟩, rfl⟩

/-- Without an integer in front a text is read exactly when its tokens begin with those of a formula
that respects the rules for parameters and names. The reading stops behind a closing brace, and the
text up to there is read alike whatever follows it and whatever the settings are. -/
theorem readMap_accepts {wanted : Option Nat} {source : String}
    (hi : (TokenStream.ofString source).beginsWithInteger = false) (config : ReadConfig) :
    ((∃ u, (readMap config wanted (.ofString source)).result = .ok u) ↔
      ∃ (f : Tree) (fs rest : List Token), (TokenStream.ofString source).tokens = fs ++ rest ∧
        f.Derives fs ∧ f.declared.Nodup ∧ f.UsesDeclared ∧ f.ParamsFit wanted) ∧
    ∀ u, (readMap config wanted (.ofString source)).result = .ok u →
      ∃ head left : List Char, source.toList = head ++ left ∧ head.getLast? = some '}' ∧
        (readMap config wanted (.ofString source)).stream.scanner.rest = left ∧
        (readMap config wanted (.ofString source)).stream.pending = none ∧
        ∀ (tail : List Char) (config' : ReadConfig), ∃ u',
          (readMap config' wanted (.ofString source)).result = .ok u' ∧
          (readMap config' wanted (.ofString (String.ofList (head ++ tail)))).result = .ok u' := by
  constructor
  · simp only [readMap_ok_iff_drafts, drafts_ok_iff_of_formula hi, Tree.outcome_done_iff]
    constructor
    · rintro ⟨u, v, ⟨m, rest, ⟨f, fs, hd, he, hw, ho, -⟩, -⟩, -⟩
      obtain ⟨hn, hu⟩ := (Tree.offence?_eq_none_iff f).mp ho
      exact ⟨f, fs, rest, he, hd, hn, hu, hw⟩
    · rintro ⟨f, fs, rest, he, hd, hn, hu, hw⟩
      have ho := (Tree.offence?_eq_none_iff f).mpr ⟨hn, hu⟩
      exact ⟨_, _, ⟨f.system wanted, rest, ⟨f, fs, hd, he, hw, ho, rfl⟩, rfl⟩, rfl⟩
  · intro u h
    obtain ⟨v, hv, -⟩ := readMap_ok_iff_drafts.mp h
    obtain ⟨head, hhead, hpending, hbrace, hagain⟩ := drafts_append_rest hi hv
    have hstream := (readMap_eq_drafts config wanted (.ofString source)).2
    refine ⟨head, _, hhead, hbrace, by rw [hstream], by rw [hstream, hpending],
      fun tail config' => ⟨v.complete config', ?_, ?_⟩⟩
    · exact readMap_ok_iff_drafts.mpr ⟨v, hv, rfl⟩
    · exact readMap_ok_iff_drafts.mpr ⟨v, hagain tail, rfl⟩

/-- Behind its closing brace a set may be followed by anything. -/
theorem readMap_accepts_set : ∃ head : List Char, head.getLast? = some '}' ∧
    ∀ tail, ∃ u, (readMap .standard none (.ofString (String.ofList (head ++ tail)))).result =
      .ok u := by
  have h : (readMap .standard none (.ofString "\x7b [i] : i = 2 \x7d \x7d")).result =
      .ok ⟨⟨0, 0, 1, [], [], [some "i"]⟩, [⟨⟨0, 0, 1, [], [], [some "i"]⟩, 0, [[-2, 1]], [], [],
        ⟨false, true⟩⟩]⟩ := by cbv
  have hi : (TokenStream.ofString "\x7b [i] : i = 2 \x7d \x7d").beginsWithInteger = false := by
    cbv
  obtain ⟨head, left, -, hbrace, -, -, hagain⟩ := (readMap_accepts hi .standard).2 _ h
  exact ⟨head, hbrace, fun tail => by
    obtain ⟨u, -, hu⟩ := hagain tail .standard
    exact ⟨u, hu⟩⟩

end Reading
end ConstraintText

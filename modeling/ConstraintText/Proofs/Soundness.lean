import ConstraintText.Proofs.System

/-!
# What is read is derived

Where reading comes to the end of a formula, the grammar derives the tokens it has used. The run is
followed from point to point and a tree of the tokens is built along the way; the blocks that are
still open are told from those with a parenthesis to close.
-/
namespace ConstraintText

namespace Outcome

variable {α : Type}

theorem refusedOr_eq_done {r : Option Refusal} {o : Outcome α} {value : α} {rest : List Token} :
    refusedOr r o = .done value rest ↔ r = none ∧ o = .done value rest := by
  cases r <;> simp

end Outcome

namespace Machine

theorem exists_cons_of_done {σ α : Type} {m : Machine σ α} {q : σ} {ts rest : List Token}
    {value : α} (h : m.outcome q ts = .done value rest) : ∃ t ts', ts = t :: ts' := by
  cases ts with
  | nil =>
    obtain ⟨problem, hp⟩ := m.exists_short q
    simp [hp] at h
  | cons t ts => exact ⟨t, ts, rfl⟩

theorem onToken_ne_refuse {σ α : Type} {m : Machine σ α} {q : σ} {t : Token}
    {ts rest : List Token} {value : α} (h : m.outcome q (t :: ts) = .done value rest)
    {problem : Problem} : m.onToken q t ≠ .refuse problem t := by
  intro hr
  simp [outcome_of_refuse hr] at h

end Machine

namespace Formula
open Occurrence

variable {t : Token} {ts rest : List Token} {system : BasicMap}

theorem expect_of_done {q q' : State} (kind : TokenKind)
    (h : machine.outcome q (t :: ts) = .done system rest)
    (hq : machine.onToken q t = expect kind t q') :
    t.kind = kind ∧ machine.outcome q' ts = .done system rest := by
  rw [outcome_expect kind hq] at h
  split at h
  · rename_i hk
    exact ⟨hk, h⟩
  · simp at h

theorem names_of_done {names : List String} {role : ListRole} {ts : List Token}
    (h : machine.outcome ⟨⟨names⟩, .name role⟩ ts = .done system rest) :
    ∃ ids ns ts' names', DerivesNames ids ns ∧ ts = ns ++ ts' ∧
      machine.outcome ⟨⟨names'⟩, (afterNames ⟨names'⟩ role).2⟩ ts' = .done system rest := by
  obtain ⟨t, us, rfl⟩ := Machine.exists_cons_of_done h
  by_cases ht : t.kind = .identifier
  · rw [outcome_name role ht, Outcome.refusedOr_eq_done] at h
    obtain ⟨-, h⟩ := h
    obtain ⟨u, vs, rfl⟩ := Machine.exists_cons_of_done h
    by_cases hu : u.kind = .comma
    · rw [outcome_comma role hu] at h
      obtain ⟨ids, ns, ts', names', hn, rfl, hd⟩ := names_of_done h
      exact ⟨t :: ids, t :: u :: ns, ts', names', .more ht hu hn, rfl, hd⟩
    · rw [outcome_comma_end role hu] at h
      exact ⟨[t], [t], u :: vs, _, .last ht, rfl, h⟩
  · rw [outcome_name_end role ht] at h
    exact ⟨[], [], t :: us, _, .empty, rfl, h⟩
termination_by ts.length

theorem kind_of_add? {sum sum' : Sum} {column : Nat} {amount : Int}
    (h : sum.add? column amount = some sum') : sum'.kind = sum.kind := by
  simp only [Sum.add?, Option.map_eq_some_iff] at h
  obtain ⟨row, -, rfl⟩ := h
  rfl

theorem addNamed_of_done {names : List String} {body : Body} {sum : Sum} {q : State}
    {value : Int} (h : machine.outcome q (t :: ts) = .done system rest)
    (hq : machine.onToken q t = addNamed ⟨names⟩ body sum t value) :
    ∃ sum', sum'.kind = sum.kind ∧
      machine.outcome ⟨⟨names⟩, .terms body sum'⟩ ts = .done system rest := by
  unfold addNamed addTerm at hq
  split at hq
  · simp [Machine.outcome_of_refuse hq] at h
  · split at hq
    · simp [Machine.outcome_of_fault hq] at h
    · rename_i sum' hs
      rw [Machine.outcome_of_take hq] at h
      exact ⟨sum', kind_of_add? hs, h⟩

theorem coefficient_of_done {names : List String} {body : Body} {sum : Sum} {value : Int}
    (h : machine.outcome ⟨⟨names⟩, .coefficientName body sum value⟩ (t :: ts) =
      .done system rest) :
    ∃ sum', sum'.kind = sum.kind ∧ machine.outcome ⟨⟨names⟩, .terms body sum'⟩
      (if t.kind = .identifier then ts else t :: ts) = .done system rest := by
  by_cases ht : t.kind = .identifier
  · rw [if_pos ht]
    have hq : machine.onToken ⟨⟨names⟩, .coefficientName body sum value⟩ t =
        addNamed ⟨names⟩ body sum t value := by simp [machine, onToken, ht]
    exact addNamed_of_done h hq
  · rw [if_neg ht]
    have hq : machine.onToken ⟨⟨names⟩, .coefficientName body sum value⟩ t =
        ⟨.pushBack, [], addConstant ⟨names⟩ body sum value⟩ := by simp [machine, onToken, ht]
    cases hs : sum.add? 0 value with
    | none =>
      rw [Machine.outcome_fail (e := .fault (.columnOutOfRange 0))
        (by simp [hq, addConstant, hs])] at h
      simp at h
    | some sum' =>
      have hn : (machine.onToken ⟨⟨names⟩, .coefficientName body sum value⟩ t).next =
          .go ⟨⟨names⟩, .terms body sum'⟩ := by simp [hq, addConstant, hs]
      rw [Machine.outcome_leave hn (by simp [hq])] at h
      exact ⟨sum', kind_of_add? hs, h⟩

/-- The tokens of a side end at the first one that is no part of any. -/
theorem side_of_done {names : List String} {body : Body} {sum : Sum} {ts : List Token}
    (h : machine.outcome ⟨⟨names⟩, .terms body sum⟩ ts = .done system rest) :
    ∃ terms ls t ts' sum', DerivesSide terms ls ∧ ts = ls ++ t :: ts' ∧
      isTermPart t.kind = false ∧ sum'.kind = sum.kind ∧
      machine.outcome ⟨⟨names⟩, .terms body sum'⟩ (t :: ts') = .done system rest := by
  obtain ⟨t, us, rfl⟩ := Machine.exists_cons_of_done h
  by_cases hi : t.kind = .identifier
  · have hq : machine.onToken ⟨⟨names⟩, .terms body sum⟩ t =
        addNamed ⟨names⟩ body sum t 1 := by simp [machine, onToken, onTerm, hi]
    obtain ⟨sum₁, hk, h⟩ := addNamed_of_done h hq
    obtain ⟨terms, ls, u, ts', sum', hs, rfl, hu, hk', hd⟩ := side_of_done h
    exact ⟨.name t :: terms, t :: ls, u, ts', sum', .name hi hs, rfl, hu, hk'.trans hk, hd⟩
  by_cases hn : t.kind = .integer
  · cases hv : t.value with
    | none =>
      have hq : machine.onToken ⟨⟨names⟩, .terms body sum⟩ t =
          .fault (.integerWithoutValue t) := by simp [machine, onToken, onTerm, hn, hv]
      simp [Machine.outcome_of_fault hq] at h
    | some value =>
      rw [outcome_term_integer hn hv] at h
      obtain ⟨u, vs, rfl⟩ := Machine.exists_cons_of_done h
      obtain ⟨sum₁, hk, h⟩ := coefficient_of_done h
      by_cases hu : u.kind = .identifier
      · rw [if_pos hu] at h
        obtain ⟨terms, ls, w, ts', sum', hs, rfl, hw, hk', hd⟩ := side_of_done h
        exact ⟨.multiple value u :: terms, t :: u :: ls, w, ts', sum',
          .multiple hn hv hu hs, rfl, hw, hk'.trans hk, hd⟩
      · rw [if_neg hu] at h
        obtain ⟨terms, ls, w, ts', sum', hs, he, hw, hk', hd⟩ := side_of_done h
        have hhead : ∀ x ∈ ls.head?, x.kind ≠ .identifier := by
          intro x hx
          cases ls with
          | nil => simp at hx
          | cons y ys =>
            simp only [List.head?_cons, Option.mem_def, Option.some.injEq] at hx
            simp only [List.cons_append, List.cons.injEq] at he
            rwa [← hx, ← he.1]
        exact ⟨.number value :: terms, t :: ls, w, ts', sum', .number hn hv hhead hs,
          by rw [he]; rfl, hw, hk'.trans hk, hd⟩
  by_cases hp : t.kind = .plus
  · rw [outcome_term_plus hp] at h
    obtain ⟨terms, ls, u, ts', sum', hs, rfl, hu, hk', hd⟩ := side_of_done h
    exact ⟨.plus :: terms, t :: ls, u, ts', sum', .plus hp hs, rfl, hu, hk', hd⟩
  · exact ⟨[], [], t, us, sum, .empty, rfl, by simp [isTermPart, hi, hn, hp], rfl, h⟩
termination_by ts.length

theorem exists_operator {kind : TokenKind} (h : kind.isRelation = true) :
    ∃ o : Operator, kind = o.kind := by
  cases kind <;> first
    | exact absurd h (by decide)
    | exact ⟨.lessEqual, rfl⟩
    | exact ⟨.greaterEqual, rfl⟩
    | exact ⟨.equal, rfl⟩

theorem isSome_kind_compare (sum : Sum) (kind : TokenKind) :
    (sum.compare kind).kind.isSome = true := by
  cases kind <;> rfl

theorem operator_of_done {names : List String} {body : Body} {sum : Sum}
    (ht : isTermPart t.kind = false) (hk : sum.kind = none)
    (h : machine.outcome ⟨⟨names⟩, .terms body sum⟩ (t :: ts) = .done system rest) :
    t.kind.isRelation = true ∧
      machine.outcome ⟨⟨names⟩, .terms body (sum.compare t.kind)⟩ ts = .done system rest := by
  have hon : machine.onToken ⟨⟨names⟩, .terms body sum⟩ t = _ := onTerm_of_not_isTermPart ht
  rw [hk] at hon
  by_cases hr : t.kind.isRelation = true
  · rw [if_pos hr, if_neg (by simp)] at hon
    rw [Machine.outcome_of_take hon] at h
    exact ⟨hr, h⟩
  · rw [if_neg hr] at hon
    simp [Machine.outcome_of_refuse hon] at h

theorem sum_end_of_done {names : List String} {body : Body} {sum : Sum}
    (ht : isTermPart t.kind = false) (hk : sum.kind.isSome = true)
    (h : machine.outcome ⟨⟨names⟩, .terms body sum⟩ (t :: ts) = .done system rest) :
    ∃ grown, machine.outcome ⟨⟨names⟩, .conjunction ⟨grown, body.blocks⟩⟩ (t :: ts) =
      .done system rest := by
  have hon : machine.onToken ⟨⟨names⟩, .terms body sum⟩ t = _ := onTerm_of_not_isTermPart ht
  obtain ⟨kind, hkind⟩ := Option.isSome_iff_exists.mp hk
  rw [hkind] at hon
  by_cases hr : t.kind.isRelation = true
  · rw [if_pos hr, Option.isSome_some, if_pos rfl] at hon
    simp [Machine.outcome_of_refuse hon] at h
  · rw [if_neg hr] at hon
    cases ha : body.system.appendRow? kind sum.row with
    | none =>
      simp only [ha] at hon
      simp [Machine.outcome_of_fault hon] at h
    | some grown =>
      simp only [ha] at hon
      rw [Machine.outcome_of_leave hon] at h
      exact ⟨grown, h⟩

theorem comparison_of_done {names : List String} {body : Body} {sum : Sum} {ts : List Token}
    (hk : sum.kind = none)
    (h : machine.outcome ⟨⟨names⟩, .terms body sum⟩ ts = .done system rest) :
    ∃ c cs t ts' grown, (Condition.comparison c).Derives cs ∧ ts = cs ++ t :: ts' ∧
      machine.outcome ⟨⟨names⟩, .conjunction ⟨grown, body.blocks⟩⟩ (t :: ts') =
        .done system rest := by
  obtain ⟨left, ls, o, us, sum₁, hl, rfl, ho, hk₁, h⟩ := side_of_done h
  obtain ⟨hr, h⟩ := operator_of_done ho (hk₁.trans hk) h
  obtain ⟨operator, hop⟩ := exists_operator hr
  obtain ⟨right, rs, t, ts', sum₂, hright, rfl, ht, hk₂, h⟩ := side_of_done h
  obtain ⟨grown, h⟩ := sum_end_of_done ht (by rw [hk₂]; exact isSome_kind_compare _ _) h
  refine ⟨⟨left, operator, right⟩, ls ++ o :: rs, t, ts', grown, ?_, by simp, h⟩
  exact .comparison hl hop hright

theorem block_names_of_done {names : List String} {paren : Bool} {before : Nat} {body : Body}
    (h : machine.outcome ⟨⟨names⟩, .name (.block paren before body)⟩ ts = .done system rest) :
    ∃ ids ns colon ts' names' grown, DerivesNames ids ns ∧ colon.kind = .colon ∧
      ts = ns ++ colon :: ts' ∧
      machine.outcome ⟨⟨names'⟩, .constraint ⟨grown, paren :: body.blocks⟩⟩ ts' =
        .done system rest := by
  obtain ⟨ids, ns, us, names', hn, he, h⟩ := names_of_done h
  obtain ⟨colon, ts', rfl⟩ := Machine.exists_cons_of_done h
  obtain ⟨hc, h⟩ := expect_of_done .colon h rfl
  exact ⟨ids, ns, colon, ts', names', _, hn, hc, he, h⟩

theorem paren_of_done {names : List String} {k : Nat} {blocks : List Bool} {grown : BasicMap}
    (ht : t.kind ≠ .andWord)
    (h : machine.outcome ⟨⟨names⟩, .conjunction ⟨grown, List.replicate k false ++ true :: blocks⟩⟩
      (t :: ts) = .done system rest) :
    t.kind = .rightParen ∧ machine.outcome ⟨⟨names⟩, .conjunction ⟨grown, blocks⟩⟩ ts =
      .done system rest := by
  rw [outcome_open_blocks _ _ _ ht, outcome_conjunction_end _ ht, afterConjunction] at h
  exact expect_of_done .rightParen h rfl

/-- A conjunction ends at a token other than `and`, with blocks left open that need no
parenthesis. -/
theorem condition_of_done {names : List String} {body : Body} {ts : List Token}
    (h : machine.outcome ⟨⟨names⟩, .constraint body⟩ ts = .done system rest) :
    ∃ (c : Condition) (cs : List Token) (t : Token) (ts' : List Token) (names' : List String)
      (grown : BasicMap) (k : Nat), c.Derives cs ∧ ts = cs ++ t :: ts' ∧ t.kind ≠ .andWord ∧
      machine.outcome ⟨⟨names'⟩, .conjunction ⟨grown, List.replicate k false ++ body.blocks⟩⟩
        (t :: ts') = .done system rest := by
  -- A single constraint is followed by a token; at an `and` the conjunction goes on.
  have single : ∀ (c : Condition) (cs us : List Token) (names' : List String)
      (grown : BasicMap), c.Derives cs → c.IsSingle → ts = cs ++ us → cs ≠ [] →
      machine.outcome ⟨⟨names'⟩, .conjunction ⟨grown, body.blocks⟩⟩ us = .done system rest →
      ∃ (c : Condition) (cs : List Token) (t : Token) (ts' : List Token) (names' : List String)
        (grown : BasicMap) (k : Nat), c.Derives cs ∧ ts = cs ++ t :: ts' ∧ t.kind ≠ .andWord ∧
        machine.outcome ⟨⟨names'⟩, .conjunction ⟨grown, List.replicate k false ++ body.blocks⟩⟩
          (t :: ts') = .done system rest := by
    intro c cs us names' grown hc hs he hne h
    obtain ⟨t, vs, rfl⟩ := Machine.exists_cons_of_done h
    by_cases ht : t.kind = .andWord
    · rw [outcome_and _ ht] at h
      have hlt : vs.length < ts.length := by
        rw [he, List.length_append, List.length_cons]
        omega
      obtain ⟨c', cs', t', ts', names'', grown', k, hc', rfl, ht', hd⟩ := condition_of_done h
      exact ⟨.both c c', cs ++ t :: cs', t', ts', names'', grown', k, .both hs hc ht hc',
        by simp [he], ht', hd⟩
    · exact ⟨c, cs, t, vs, names', grown, 0, hc, he, ht, h⟩
  obtain ⟨t, us, rfl⟩ := Machine.exists_cons_of_done h
  by_cases ht : t.kind = .existsWord
  · rw [outcome_exists _ ht] at h
    obtain ⟨u, vs, rfl⟩ := Machine.exists_cons_of_done h
    by_cases hu : u.kind = .leftParen
    · rw [outcome_blockParen _ hu] at h
      obtain ⟨ids, ns, colon, ws, names', grown, hn, hc, rfl, hb⟩ := block_names_of_done h
      have hlt : ws.length < (t :: u :: (ns ++ colon :: ws)).length := by
        simp only [List.length_cons, List.length_append]
        omega
      obtain ⟨c, cs, closing, ts', names'', grown', k, hd, rfl, hand, hk⟩ := condition_of_done hb
      obtain ⟨he, hp⟩ := paren_of_done hand hk
      exact single (.block true ids c) (t :: u :: ns ++ colon :: cs ++ [closing]) ts' names''
        grown' (.parens ht hu hn hc hd he) trivial (by simp) (by simp) hp
    · rw [outcome_blockParen_none _ hu] at h
      obtain ⟨ids, ns, colon, ws, names', grown, hn, hc, he, h⟩ := block_names_of_done h
      have hlt : ws.length < (t :: u :: vs).length := by
        rw [List.length_cons, he, List.length_append, List.length_cons]
        omega
      obtain ⟨c, cs, t', ts', names'', grown', k, hd, rfl, hand, h⟩ := condition_of_done h
      refine ⟨.block false ids c, t :: ns ++ colon :: cs, t', ts', names'', grown', k + 1,
        .block ht hn hc hd, by simp [he], hand, ?_⟩
      rw [List.replicate_succ', List.append_assoc]
      exact h
  · rw [outcome_constraint _ ht] at h
    obtain ⟨c, cs, t', ts', grown, hc, he, h⟩ := comparison_of_done rfl h
    refine single (.comparison c) cs (t' :: ts') names grown hc trivial he ?_ h
    cases hc
    simp
termination_by ts.length

theorem afterTuple_ne_done (names : Names) (span : Span) (role : TupleRole) (m : BasicMap) :
    afterTuple names span role ≠ .done m := by
  unfold afterTuple
  repeat' split
  all_goals simp

theorem tuple_of_done {names : List String} {role : TupleRole}
    (h : machine.outcome ⟨⟨names⟩, .openBracket role⟩ ts = .done system rest) :
    ∃ ids tuple ts' names' span q, DerivesTuple ids tuple ∧ ts = tuple ++ ts' ∧
      afterTuple ⟨names'⟩ span role = .go q ∧ machine.outcome q ts' = .done system rest := by
  obtain ⟨opening, us, rfl⟩ := Machine.exists_cons_of_done h
  obtain ⟨ho, h⟩ := expect_of_done .leftBracket h rfl
  obtain ⟨ids, ns, vs, names', hn, rfl, hb⟩ := names_of_done h
  obtain ⟨closing, ts', rfl⟩ := Machine.exists_cons_of_done hb
  simp only [afterNames] at hb
  by_cases hc : closing.kind = .rightBracket
  · cases hq : afterTuple ⟨names'⟩ (opening.span.merge closing.span) role with
    | go q =>
      rw [outcome_closeBracket hc hq] at hb
      exact ⟨ids, opening :: ns ++ [closing], ts', names', _, q, .intro ho hn hc, by simp, hq, hb⟩
    | fail e => simp [outcome_closeBracket_fail hc hq] at hb
    | done m => exact absurd hq (afterTuple_ne_done _ _ _ _)
  · exact (Machine.onToken_ne_refuse hb (if_neg hc)).elim

theorem params_of_done {names : List String} {wanted : Option Nat}
    (h : machine.outcome ⟨⟨names⟩, .beginning wanted⟩ ts = .done system rest) :
    ∃ params ps opening ts' names' n, DerivesParams params ps ∧ opening.kind = .leftBrace ∧
      ts = ps ++ opening :: ts' ∧
      machine.outcome ⟨⟨names'⟩, .openBracket (.first n)⟩ ts' = .done system rest := by
  obtain ⟨t, us, rfl⟩ := Machine.exists_cons_of_done h
  by_cases ht : t.kind = .leftBracket
  · rw [outcome_beginning_params wanted ht] at h
    obtain ⟨ids, tuple, vs, names', span, q, hd, he, hq, h⟩ := tuple_of_done h
    have hpoint : q = ⟨⟨names'⟩, .paramArrow⟩ := by
      simp only [afterTuple] at hq
      repeat' split at hq
      all_goals simp_all
    subst hpoint
    obtain ⟨arrow, ws, rfl⟩ := Machine.exists_cons_of_done h
    obtain ⟨ha, h⟩ := expect_of_done .arrow h rfl
    obtain ⟨opening, ts', rfl⟩ := Machine.exists_cons_of_done h
    obtain ⟨ho, h⟩ := expect_of_done .leftBrace h rfl
    exact ⟨some ids, tuple ++ [arrow], opening, ts', names', _, .present hd ha, ho, by simp [he], h⟩
  · rw [outcome_beginning wanted ht] at h
    split at h
    · rename_i ho
      exact ⟨none, [], t, us, names, _, .absent, ho, rfl, h⟩
    · simp at h

theorem tuples_of_done {names : List String} {n : Nat}
    (h : machine.outcome ⟨⟨names⟩, .openBracket (.first n)⟩ ts = .done system rest) :
    ∃ first fs second ss ts' names' start, DerivesTuple first fs ∧ DerivesSecond second ss ∧
      ts = fs ++ ss ++ ts' ∧
      machine.outcome ⟨⟨names'⟩, .condition start⟩ ts' = .done system rest := by
  obtain ⟨first, fs, us, names₁, span, q, hf, rfl, hq, hb⟩ := tuple_of_done h
  have hpoint : q = ⟨⟨names₁⟩, .secondTuple n⟩ := by
    simp only [afterTuple] at hq
    split at hq
    all_goals simp_all
  subst hpoint
  obtain ⟨t, vs, rfl⟩ := Machine.exists_cons_of_done hb
  by_cases ht : t.kind = .arrow
  · rw [outcome_secondTuple n ht] at hb
    obtain ⟨second, ss, ts', names₂, span', q', hs, rfl, hq', hc⟩ := tuple_of_done hb
    simp only [afterTuple, Next.go.injEq] at hq'
    subst hq'
    exact ⟨first, fs, some second, t :: ss, ts', names₂, _, hf, .present ht hs, by simp, hc⟩
  · rw [outcome_secondTuple_none n ht] at hb
    exact ⟨first, fs, none, [], t :: vs, names₁, _, hf, .absent, by simp, hb⟩

theorem clause_of_done {names : List String} {start : BasicMap}
    (h : machine.outcome ⟨⟨names⟩, .condition start⟩ ts = .done system rest) :
    ∃ condition cs closing, DerivesClause condition cs ∧ closing.kind = .rightBrace ∧
      ts = cs ++ closing :: rest := by
  obtain ⟨t, us, rfl⟩ := Machine.exists_cons_of_done h
  by_cases hc : t.kind = .colon
  · rw [outcome_condition start hc] at h
    obtain ⟨c, cs, closing, ts', names', grown, k, hd, rfl, hand, hb⟩ := condition_of_done h
    rw [outcome_open_blocks _ _ _ hand, outcome_conjunction_end _ hand, afterConjunction] at hb
    by_cases he : closing.kind = .rightBrace
    · rw [outcome_closeBrace _ he, Outcome.done.injEq] at hb
      exact ⟨some c, t :: cs, closing, .present hc hd, he, by simp [hb.2]⟩
    · exact (Machine.onToken_ne_refuse hb (if_neg he)).elim
  by_cases he : t.kind = .rightBrace
  · rw [outcome_condition_none start he, Outcome.done.injEq] at h
    exact ⟨none, [], t, .absent, he, by simp [h.2]⟩
  · exact (Machine.onToken_ne_refuse h ((if_neg hc).trans (if_neg he))).elim

namespace Tree

/-- Tokens that are read to the end are those of a formula. -/
theorem exists_derives {names : List String} {wanted : Option Nat}
    (h : machine.outcome ⟨⟨names⟩, .beginning wanted⟩ ts = .done system rest) :
    ∃ (f : Tree) (fs : List Token), f.Derives fs ∧ ts = fs ++ rest := by
  obtain ⟨params, ps, opening, us, names₁, n, hp, ho, rfl, h₁⟩ := params_of_done h
  obtain ⟨first, fs, second, ss, vs, names₂, start, hf, hs, rfl, h₂⟩ := tuples_of_done h₁
  obtain ⟨condition, cs, closing, hc, he, rfl⟩ := clause_of_done h₂
  exact ⟨⟨params, first, second, condition⟩, _, .intro hp ho hf hs hc he, by simp⟩

/-- Reading gives a system exactly where the tokens begin with those of a formula that has the
wanted parameters and no offence. It is the system of the formula, and what follows is left. -/
theorem outcome_done_iff {wanted : Option Nat} :
    machine.outcome ⟨⟨[]⟩, .beginning wanted⟩ ts = .done system rest ↔
      ∃ (f : Tree) (fs : List Token), f.Derives fs ∧ ts = fs ++ rest ∧ f.ParamsFit wanted ∧
        offence? [] f.occurrences = none ∧ system = f.system wanted := by
  constructor
  · intro h
    obtain ⟨f, fs, hd, rfl⟩ := exists_derives h
    by_cases hw : f.ParamsFit wanted
    · rw [outcome_derives hd hw, Outcome.refusedOr_eq_done, Outcome.done.injEq] at h
      exact ⟨f, fs, hd, rfl, hw, h.1, h.2.1.symm⟩
    · obtain ⟨e, he⟩ := outcome_derives_fail hd hw rest
      simp [he] at h
  · rintro ⟨f, fs, hd, rfl, hw, ho, rfl⟩
    rw [outcome_derives hd hw, ho, Outcome.refusedOr_none]

end Tree
end Formula
end ConstraintText

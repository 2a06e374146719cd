import ConstraintText.Proofs.Steps

/-!
# What becomes of derived tokens

On tokens that the grammar derives a reading fails with the first name that offends, or comes to
the point behind them with the names declared and the rows of the comparisons appended. The names
and comparisons are those of any tree of the tokens.
-/
namespace ConstraintText.Formula
open Occurrence

variable {names : List String} {t : Token} {ts rest : List Token}

theorem refusedOr_offence?_cons {α : Type} (names : List String) (o : Occurrence)
    (os : List Occurrence) (r : Outcome α) :
    Outcome.refusedOr (offence? names (o :: os)) r = .refusedOr (offence? names [o])
      (.refusedOr (offence? (names ++ declared [o]) os) r) := by
  rw [← Outcome.refusedOr_or, ← offence?_append, List.singleton_append]

theorem outcome_names {ids : List Token} (h : DerivesNames ids ts) (role : ListRole)
    (hi : t.kind ≠ .identifier) (hc : t.kind ≠ .comma) :
    machine.outcome ⟨⟨names⟩, .name role⟩ (ts ++ t :: rest) =
      .refusedOr (offence? names (ids.map .declares))
        (machine.outcome ⟨⟨names ++ ids.map (·.lexeme)⟩,
          (afterNames ⟨names ++ ids.map (·.lexeme)⟩ role).2⟩ (t :: rest)) := by
  induction h generalizing names with
  | empty => simp [outcome_name_end role hi, offence?]
  | @last u hu =>
    rw [List.singleton_append, outcome_name role hu, outcome_comma_end role hc]
    rfl
  | @more u comma ids ts hu hcomma _ ih =>
    rw [List.cons_append, List.cons_append, outcome_name role hu, outcome_comma role hcomma, ih,
      List.map_cons]
    conv_rhs => rw [refusedOr_offence?_cons]
    simp

theorem isTermPart_of_derivesSide {terms : List Term} (h : DerivesSide terms ts) :
    ∀ t ∈ ts, isTermPart t.kind = true := by
  induction h with
  | empty => simp
  | name ht _ ih => exact List.forall_mem_cons.mpr ⟨by rw [ht]; rfl, ih⟩
  | number ht _ _ _ ih => exact List.forall_mem_cons.mpr ⟨by rw [ht]; rfl, ih⟩
  | multiple ht _ hu _ ih =>
    exact List.forall_mem_cons.mpr
      ⟨by rw [ht]; rfl, List.forall_mem_cons.mpr ⟨by rw [hu]; rfl, ih⟩⟩
  | plus ht _ ih => exact List.forall_mem_cons.mpr ⟨by rw [ht]; rfl, ih⟩

section Side

variable {body : Body} {sign : Int} {kind : Option ConstraintKind}

theorem outcome_terms_congr {k k' : Int} {g g' : String → Int} (hk : k = k')
    (hg : ∀ n, g n = g' n) :
    machine.outcome ⟨⟨names⟩, .terms body ⟨k :: names.map g, sign, kind⟩⟩ ts =
      machine.outcome ⟨⟨names⟩, .terms body ⟨k' :: names.map g', sign, kind⟩⟩ ts := by
  rw [hk, funext hg]

/-- The terms of a side join the sum with its sign. -/
theorem outcome_side {terms : List Term} (h : DerivesSide terms ts) (hn : names.Nodup)
    (ht : t.kind ≠ .identifier) (k : Int) (g : String → Int) :
    machine.outcome ⟨⟨names⟩, .terms body ⟨k :: names.map g, sign, kind⟩⟩ (ts ++ t :: rest) =
      .refusedOr (offence? names ((usedBy terms).map .uses))
        (machine.outcome ⟨⟨names⟩, .terms body ⟨(k + sign * sideConstant terms) ::
          names.map fun n => g n + sign * sideCoefficient n terms, sign, kind⟩⟩
          (t :: rest)) := by
  induction h generalizing k g with
  | empty => simp [usedBy, offence?, sideConstant, sideCoefficient]
  | @name u terms ts hu _ ih =>
    rw [List.cons_append, outcome_term_name hn hu, ih]
    simp only [usedBy, List.flatMap_cons, Term.used, List.map_cons, List.singleton_append]
    conv_rhs => rw [refusedOr_offence?_cons, declared_cons_uses, declared_nil, List.append_nil]
    congr 2
    refine outcome_terms_congr ?_ fun n => ?_
    · simp [sideConstant, Term.constant]
    · simp only [sideCoefficient, List.map_cons, List.sum_cons, Term.coefficient]
      split <;> ring
  | @number u value terms ts hu hv hnext _ ih =>
    have hhead : ∃ x xs, ts ++ t :: rest = x :: xs ∧ x.kind ≠ .identifier := by
      cases ts with
      | nil => exact ⟨t, rest, rfl, ht⟩
      | cons x xs => exact ⟨x, xs ++ t :: rest, rfl, hnext x (by simp)⟩
    obtain ⟨x, xs, hx, hxi⟩ := hhead
    rw [List.cons_append, outcome_term_integer hu hv, hx, outcome_coefficient_end hxi, ← hx, ih]
    simp only [usedBy, List.flatMap_cons, Term.used, List.nil_append]
    congr 1
    refine outcome_terms_congr ?_ fun n => ?_
    · simp only [sideConstant, List.map_cons, List.sum_cons, Term.constant]
      ring
    · simp [sideCoefficient, Term.coefficient]
  | @multiple u v value terms ts hu hval hvk _ ih =>
    rw [List.cons_append, List.cons_append, outcome_term_integer hu hval,
      outcome_coefficient_name hn hvk, ih]
    simp only [usedBy, List.flatMap_cons, Term.used, List.map_cons, List.singleton_append]
    conv_rhs => rw [refusedOr_offence?_cons, declared_cons_uses, declared_nil, List.append_nil]
    congr 2
    refine outcome_terms_congr ?_ fun n => ?_
    · simp [sideConstant, Term.constant]
    · simp only [sideCoefficient, List.map_cons, List.sum_cons, Term.coefficient]
      split <;> ring
  | @plus u terms ts hu _ ih =>
    rw [List.cons_append, outcome_term_plus hu, ih]
    simp only [usedBy, List.flatMap_cons, Term.used, List.nil_append]
    congr 1
    refine outcome_terms_congr ?_ fun n => ?_
    · simp [sideConstant, Term.constant]
    · simp [sideCoefficient, Term.coefficient]

end Side

theorem Operator.isRelation_kind (o : Operator) : o.kind.isRelation = true := by
  cases o <;> rfl

theorem outcome_compare (c : Comparison) {operator : Token}
    (ho : operator.kind = c.operator.kind) {rs : List Token} (hr : DerivesSide c.right rs)
    (hn : names.Nodup) (ht : t.kind ≠ .identifier) (body : Body) :
    machine.outcome ⟨⟨names⟩, .terms body (Sum.compare ⟨sideConstant c.left ::
        names.map fun n => sideCoefficient n c.left, 1, none⟩ operator.kind)⟩
        (rs ++ t :: rest) =
      .refusedOr (offence? names ((usedBy c.right).map .uses))
        (machine.outcome ⟨⟨names⟩, .terms body
          ⟨c.row names, if c.operator = .lessEqual then 1 else -1, some c.kind⟩⟩
          (t :: rest)) := by
  rw [ho]
  cases hop : c.operator with
  | lessEqual =>
    simp only [Operator.kind, Sum.compare, Row.negate, List.map_cons, List.map_map,
      Function.comp_def]
    rw [outcome_side hr hn ht]
    simp only [Comparison.kind, hop, Operator.constraintKind, Comparison.row, if_true]
    congr 1
    exact outcome_terms_congr (by simp only [Operator.excess]; ring)
      fun n => by simp only [Operator.excess]; ring
  | greaterEqual =>
    simp only [Operator.kind, Sum.compare]
    rw [outcome_side hr hn ht]
    simp only [Comparison.kind, hop, Operator.constraintKind, Comparison.row, reduceCtorEq,
      if_false]
    congr 1
    exact outcome_terms_congr (by simp only [Operator.excess]; ring)
      fun n => by simp only [Operator.excess]; ring
  | equal =>
    simp only [Operator.kind, Sum.compare]
    rw [outcome_side hr hn ht]
    simp only [Comparison.kind, hop, Operator.constraintKind, Comparison.row, reduceCtorEq,
      if_false]
    congr 1
    exact outcome_terms_congr (by simp only [Operator.excess]; ring)
      fun n => by simp only [Operator.excess]; ring

theorem ne_of_endsSum {kind : TokenKind} (h : endsSum kind = true) : kind ≠ .identifier := by
  rintro rfl
  exact absurd h (by decide)

theorem ne_identifier_of_operator {c : Comparison} {operator : Token}
    (ho : operator.kind = c.operator.kind) : operator.kind ≠ .identifier := by
  rw [ho]
  cases c.operator <;> decide

theorem outcome_comparison_start {terms : List Term} {ls rest : List Token} {operator : Token}
    (hl : DerivesSide terms ls) (ho : operator.kind.isRelation = true) (body : Body) :
    machine.outcome ⟨⟨names⟩, .constraint body⟩ (ls ++ operator :: rest) =
      machine.outcome ⟨⟨names⟩, .terms body (.start body.system)⟩ (ls ++ operator :: rest) := by
  cases ls with
  | nil =>
    refine outcome_constraint body fun h => ?_
    rw [h] at ho
    exact absurd ho (by decide)
  | cons x xs =>
    refine outcome_constraint body fun h => ?_
    have := isTermPart_of_derivesSide hl x (by simp)
    rw [h] at this
    exact absurd this (by decide)

theorem outcome_comparison {space : Space} {cs : List Comparison} {c : Comparison}
    {operator : Token} {ls rs : List Token} (hl : DerivesSide c.left ls)
    (ho : operator.kind = c.operator.kind) (hr : DerivesSide c.right rs) (hn : names.Nodup)
    (hs : space.totalDim ≤ names.length) (ht : endsSum t.kind = true) (blocks : List Bool) :
    machine.outcome ⟨⟨names⟩, .constraint ⟨draft space names cs, blocks⟩⟩
        (ls ++ operator :: rs ++ t :: rest) =
      .refusedOr (offence? names (c.used.map .uses))
        (machine.outcome ⟨⟨names⟩, .conjunction ⟨draft space names (cs ++ [c]), blocks⟩⟩
          (t :: rest)) := by
  have hrel : operator.kind.isRelation = true := ho ▸ c.operator.isRelation_kind
  have hstart : Sum.start (draft space names cs) = ⟨0 :: names.map fun _ => 0, 1, none⟩ := by
    simp [Sum.start, rowLength_draft hs, Row.zeros, List.replicate_succ]
  have hused : (c.used.map uses : List Occurrence) =
      (usedBy c.left).map uses ++ (usedBy c.right).map uses := by simp [Comparison.used]
  rw [List.append_assoc, List.cons_append, outcome_comparison_start hl hrel, hstart,
    outcome_side hl hn (ne_identifier_of_operator ho), hused, offence?_append, declared_uses,
    List.append_nil, Outcome.refusedOr_or]
  congr 1
  simp only [zero_add, one_mul]
  rw [outcome_operator hrel, outcome_compare c ho hr hn (ne_of_endsSum ht)]
  congr 1
  exact outcome_sum_end ht (appendRow?_draft hs cs c)

/-- The blocks without parentheses that are still open behind a condition. -/
def Condition.openBlocks : Condition → Nat
  | comparison _ => 0
  | block true _ _ => 0
  | block false _ body => body.openBlocks + 1
  | both first rest => rest.openBlocks + first.openBlocks

theorem usesDeclared_of_offence? {cs : List Comparison} {c : Condition}
    (hcs : ∀ d ∈ cs, ∀ u ∈ d.used, u.lexeme ∈ names)
    (ho : offence? names c.occurrences = none) :
    ∀ d ∈ cs ++ c.comparisons, ∀ u ∈ d.used, u.lexeme ∈ names ++ c.declared := by
  intro d hd u hu
  rw [List.mem_append] at hd
  rcases hd with hd | hd
  · exact List.mem_append_left _ (hcs d hd u hu)
  · clear hcs
    induction c generalizing names with
    | comparison e =>
      rw [Condition.comparisons, List.mem_singleton] at hd
      subst hd
      obtain ⟨before, after, he⟩ := List.append_of_mem (List.mem_map_of_mem (f := uses) hu)
      rw [Condition.occurrences, he] at ho
      have hm := mem_of_offence? ho
      have hb : declared before = [] := by
        have := congrArg declared he
        rw [declared_uses, declared_append] at this
        exact (List.append_eq_nil_iff.mp this.symm).1
      rw [hb, List.append_nil] at hm
      exact List.mem_append_left _ hm
    | block parens ids body ih =>
      rw [Condition.occurrences, offence?_append, Option.or_eq_none_iff] at ho
      have := ih ho.2 hd
      simpa [Condition.declared, Condition.occurrences] using this
    | both first rest ihf ihr =>
      rw [Condition.occurrences, offence?_append, Option.or_eq_none_iff] at ho
      rw [Condition.comparisons, List.mem_append] at hd
      simp only [Condition.declared, Condition.occurrences, declared_append,
        ← List.append_assoc]
      rcases hd with hd | hd
      · exact List.mem_append_left _ (ihf ho.1 hd)
      · exact ihr ho.2 hd

theorem afterNames_block (names ids : List String) {space : Space} {cs : List Comparison}
    (hs : space.totalDim ≤ names.length) (hcs : ∀ d ∈ cs, ∀ u ∈ d.used, u.lexeme ∉ ids)
    (parens : Bool) (blocks : List Bool) :
    (afterNames ⟨names ++ ids⟩
      (.block parens names.length ⟨draft space names cs, blocks⟩)).2 =
        .blockColon parens ⟨draft space (names ++ ids) cs, blocks⟩ := by
  have hsize : (⟨names ++ ids⟩ : Names).size - names.length = ids.length := by
    simp [Names.size]
  simp only [afterNames, hsize, extend_draft hs hcs]

theorem outcome_block_names {ids ns : List Token} (hni : DerivesNames ids ns) {colon : Token}
    (hc : colon.kind = .colon) {space : Space} {cs : List Comparison} (hn : names.Nodup)
    (hs : space.totalDim ≤ names.length) (hcs : ∀ d ∈ cs, ∀ u ∈ d.used, u.lexeme ∈ names)
    (parens : Bool) (blocks : List Bool) :
    machine.outcome ⟨⟨names⟩, .name (.block parens names.length ⟨draft space names cs, blocks⟩)⟩
        (ns ++ colon :: ts) =
      .refusedOr (offence? names (ids.map .declares))
        (machine.outcome ⟨⟨names ++ ids.map (·.lexeme)⟩,
          .constraint ⟨draft space (names ++ ids.map (·.lexeme)) cs, parens :: blocks⟩⟩ ts) := by
  rw [outcome_names hni _ (by rw [hc]; decide) (by rw [hc]; decide)]
  refine Outcome.refusedOr_congr fun ho => ?_
  have hnodup := nodup_of_offence? ho hn
  rw [declared_declares] at hnodup
  have hfresh : ∀ d ∈ cs, ∀ u ∈ d.used, u.lexeme ∉ ids.map (·.lexeme) := fun d hd u hu hm =>
    (List.nodup_append.mp hnodup).2.2 _ (hcs d hd u hu) _ hm rfl
  have hpoint : (afterNames ⟨names ++ ids.map (·.lexeme)⟩
      (.block parens names.length ⟨draft space names cs, blocks⟩)).2 =
        .blockColon parens ⟨draft space (names ++ ids.map (·.lexeme)) cs, blocks⟩ :=
    afterNames_block names _ hs hfresh parens blocks
  rw [hpoint, outcome_expect .colon rfl, if_pos hc]

theorem head_names {ids ns : List Token} (h : DerivesNames ids ns) {colon : Token}
    (hc : colon.kind = .colon) (ts : List Token) :
    ∃ x xs, ns ++ colon :: ts = x :: xs ∧ x.kind ≠ .leftParen := by
  cases h with
  | empty => exact ⟨colon, ts, rfl, by rw [hc]; decide⟩
  | last hu => exact ⟨_, _, rfl, by rw [hu]; decide⟩
  | more hu _ _ => exact ⟨_, _, rfl, by rw [hu]; decide⟩

/-- Reading on behind a condition: its names are declared and its rows appended. -/
theorem outcome_condition_derived {c : Condition} (h : c.Derives ts) {space : Space}
    {cs : List Comparison} (hn : names.Nodup) (hs : space.totalDim ≤ names.length)
    (hcs : ∀ d ∈ cs, ∀ u ∈ d.used, u.lexeme ∈ names) (ht : endsSum t.kind = true)
    (blocks : List Bool) :
    machine.outcome ⟨⟨names⟩, .constraint ⟨draft space names cs, blocks⟩⟩ (ts ++ t :: rest) =
      .refusedOr (offence? names c.occurrences)
        (machine.outcome ⟨⟨names ++ c.declared⟩, .conjunction
          ⟨draft space (names ++ c.declared) (cs ++ c.comparisons),
            List.replicate c.openBlocks false ++ blocks⟩⟩ (t :: rest)) := by
  induction h generalizing names cs blocks t rest with
  | @comparison c operator ls rs hl ho hr =>
    rw [outcome_comparison hl ho hr hn hs ht]
    simp [Condition.occurrences, Condition.declared, Condition.comparisons,
      Condition.openBlocks]
  | @block word colon ids ns ts body hw hni hc _ ih =>
    obtain ⟨x, xs, hx, hxk⟩ := head_names hni hc (ts ++ t :: rest)
    rw [List.append_assoc, List.cons_append, List.cons_append, outcome_exists _ hw, hx,
      outcome_blockParen_none _ hxk, ← hx, outcome_block_names hni hc hn hs hcs,
      Condition.occurrences, offence?_append, Outcome.refusedOr_or]
    refine Outcome.refusedOr_congr fun ho => ?_
    have hnodup := nodup_of_offence? ho hn
    rw [declared_declares] at hnodup ⊢
    rw [ih hnodup (by simp only [List.length_append]; omega)
      (fun d hd u hu => List.mem_append_left _ (hcs d hd u hu)) ht]
    simp only [Condition.declared, Condition.occurrences, declared_append, declared_declares,
      Condition.comparisons, Condition.openBlocks, List.replicate_succ', List.append_assoc,
      List.singleton_append]
  | @parens word opening colon closing ids ns ts body hw ho hni hc _ he ih =>
    have hand : closing.kind ≠ .andWord := by rw [he]; decide
    rw [List.append_assoc, List.append_assoc, List.cons_append, List.cons_append,
      outcome_exists _ hw, outcome_blockParen _ ho, List.cons_append,
      outcome_block_names hni hc hn hs hcs, Condition.occurrences, offence?_append,
      Outcome.refusedOr_or]
    refine Outcome.refusedOr_congr fun ho => ?_
    have hnodup := nodup_of_offence? ho hn
    rw [declared_declares] at hnodup ⊢
    rw [List.singleton_append, ih hnodup (by simp only [List.length_append]; omega)
      (fun d hd u hu => List.mem_append_left _ (hcs d hd u hu)) (by rw [he]; decide)]
    congr 1
    rw [outcome_open_blocks _ _ _ hand, outcome_conjunction_end _ hand, afterConjunction,
      outcome_expect .rightParen rfl, if_pos he]
    simp only [Condition.declared, Condition.occurrences, declared_append, declared_declares,
      Condition.comparisons, Condition.openBlocks, List.replicate_zero, List.append_assoc,
      List.nil_append]
  | @both word first last fs rs _ _ hw _ ihf ihr =>
    rw [List.append_assoc, List.cons_append, ihf hn hs hcs (by rw [hw]; decide),
      Condition.occurrences, offence?_append, Outcome.refusedOr_or]
    refine Outcome.refusedOr_congr fun ho => ?_
    have hnodup : (names ++ first.declared).Nodup := nodup_of_offence? ho hn
    rw [outcome_and _ hw, ihr hnodup (by simp only [List.length_append]; omega)
      (usesDeclared_of_offence? hcs ho) ht]
    simp only [Condition.declared, Condition.occurrences, declared_append,
      Condition.comparisons, Condition.openBlocks, List.replicate_add, List.append_assoc]

end ConstraintText.Formula

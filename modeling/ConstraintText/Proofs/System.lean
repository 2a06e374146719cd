import ConstraintText.Proofs.Completeness

/-!
# The system of a whole formula

A formula whose tokens the grammar derives is read to the end exactly when its parameters are as
many as are wanted and no name offends. The system that is read has the tuples' names in its space
and the row of each comparison over all names that are declared.
-/
namespace ConstraintText.Formula
open Occurrence

/-- The space of a formula whose tuples in front of the second one declare `names`. -/
def tupleSpace (names : List String) (nParam : Nat) (second : Option (List Token)) : Space :=
  match second with
  | none => setSpace ⟨names⟩ nParam
  | some ids => mapSpace ⟨names ++ ids.map (·.lexeme)⟩ nParam (names.length - nParam)

namespace Tree

def space (f : Tree) (wanted : Option Nat) : Space :=
  tupleSpace ((f.params.getD [] ++ f.first).map (·.lexeme)) (f.nParam wanted) f.second

/-- The system that a formula means. -/
def system (f : Tree) (wanted : Option Nat) : BasicMap :=
  draft (f.space wanted) f.declared f.comparisons

theorem nParam_le {f : Tree} {wanted : Option Nat} (h : f.ParamsFit wanted) :
    f.nParam wanted ≤ (f.params.getD []).length + f.first.length := by
  obtain ⟨params, first, second, condition⟩ := f
  cases params with
  | some ids => simp [nParam, paramCount]
  | none =>
    cases wanted with
    | none => simp [nParam, paramCount]
    | some n => simpa [nParam, paramCount] using h n rfl

theorem length_tupleNames (f : Tree) : f.tupleNames.length =
    (f.params.getD []).length + f.first.length + (f.second.getD []).length := by
  simp only [tupleNames, List.length_map, List.length_append]

theorem totalDim_space {f : Tree} {wanted : Option Nat} (h : f.ParamsFit wanted) :
    (f.space wanted).totalDim = f.tupleNames.length := by
  have hle := nParam_le h
  have hlength := f.length_tupleNames
  cases hs : f.second with
  | none =>
    simp only [hs, Option.getD_none, List.length_nil] at hlength
    simp only [space, tupleSpace, hs, setSpace, Names.toSpace, Names.size, Space.totalDim,
      List.length_map, List.length_append]
    omega
  | some ids =>
    simp only [hs, Option.getD_some] at hlength
    simp only [space, tupleSpace, hs, mapSpace, Names.toSpace, Names.size, Space.totalDim,
      List.length_map, List.length_append]
    omega

end Tree

variable {names : List String} {t : Token} {ts rest : List Token}

theorem ne_of_rightBracket (h : t.kind = .rightBracket) :
    t.kind ≠ .identifier ∧ t.kind ≠ .comma := by
  rw [h]
  decide

/-- A tuple declares its names and goes on where its role says. -/
theorem outcome_tuple {ids : List Token} (h : DerivesTuple ids ts) {role : TupleRole} {q : State}
    (hq : ∀ span, afterTuple ⟨names ++ ids.map (·.lexeme)⟩ span role = .go q) :
    machine.outcome ⟨⟨names⟩, .openBracket role⟩ (ts ++ rest) =
      .refusedOr (offence? names (ids.map .declares)) (machine.outcome q rest) := by
  obtain ⟨ho, hn, hc⟩ := h
  obtain ⟨hi, hcomma⟩ := ne_of_rightBracket hc
  rw [List.append_assoc, List.cons_append, outcome_expect .leftBracket rfl, if_pos ho,
    List.singleton_append, outcome_names hn _ hi hcomma]
  congr 1
  exact outcome_closeBracket hc (hq _)

theorem outcome_tuple_fail {ids : List Token} (h : DerivesTuple ids ts) {role : TupleRole}
    (hq : ∀ span, ∃ e, afterTuple ⟨names ++ ids.map (·.lexeme)⟩ span role = .fail e) :
    ∃ e, machine.outcome ⟨⟨names⟩, .openBracket role⟩ (ts ++ rest) = .failed e := by
  obtain ⟨ho, hn, hc⟩ := h
  obtain ⟨hi, hcomma⟩ := ne_of_rightBracket hc
  rw [List.append_assoc, List.cons_append, outcome_expect .leftBracket rfl, if_pos ho,
    List.singleton_append, outcome_names hn _ hi hcomma]
  cases offence? names (ids.map .declares) with
  | some r => exact ⟨_, rfl⟩
  | none =>
    obtain ⟨e, he⟩ := hq _
    exact ⟨e, outcome_closeBracket_fail hc he⟩

theorem head_tuple {ids : List Token} (h : DerivesTuple ids ts) (rest : List Token) :
    ∃ x xs, ts ++ rest = x :: xs ∧ x.kind = .leftBracket := by
  obtain ⟨ho, hn, hc⟩ := h
  exact ⟨_, _, rfl, ho⟩

theorem outcome_params {params : Option (List Token)} (h : DerivesParams params ts)
    {opening : Token} (ho : opening.kind = .leftBrace) {wanted : Option Nat}
    (hw : ∀ n ∈ wanted, ∀ ids ∈ params, n = ids.length) :
    machine.outcome ⟨⟨[]⟩, .beginning wanted⟩ (ts ++ opening :: rest) =
      .refusedOr (offence? [] ((params.getD []).map .declares))
        (machine.outcome ⟨⟨(params.getD []).map (·.lexeme)⟩,
          .openBracket (.first (paramCount params wanted))⟩ rest) := by
  cases h with
  | absent =>
    rw [List.nil_append, outcome_beginning wanted (by rw [ho]; decide), if_pos ho]
    rfl
  | @present arrow ids ts ht ha =>
    obtain ⟨x, xs, hx, hxk⟩ := head_tuple ht (arrow :: opening :: rest)
    have hq : ∀ span, afterTuple ⟨[] ++ ids.map (·.lexeme)⟩ span (.params wanted) =
        .go ⟨⟨ids.map (·.lexeme)⟩, .paramArrow⟩ := by
      intro span
      cases wanted with
      | none => rfl
      | some n =>
        have : n = ids.length := hw n rfl ids rfl
        simp [afterTuple, Names.size, this]
    rw [List.append_assoc, List.singleton_append, hx, outcome_beginning_params wanted hxk, ← hx,
      outcome_tuple ht hq]
    simp only [Option.getD_some]
    congr 1
    rw [outcome_expect .arrow rfl, if_pos ha, outcome_expect .leftBrace rfl,
      if_pos ho]
    simp [Names.size, paramCount]

theorem outcome_params_fail {ids : List Token} (h : DerivesParams (some ids) ts) {n : Nat}
    (hn : n ≠ ids.length) :
    ∃ e, machine.outcome ⟨⟨[]⟩, .beginning (some n)⟩ (ts ++ rest) = .failed e := by
  cases h with
  | @present arrow ids ts ht ha =>
    obtain ⟨x, xs, hx, hxk⟩ := head_tuple ht ([arrow] ++ rest)
    rw [List.append_assoc, hx, outcome_beginning_params _ hxk, ← hx]
    exact outcome_tuple_fail ht fun span => by simp [afterTuple, Names.size, hn]

theorem outcome_tuples {first : List Token} {second : Option (List Token)} {fs ss : List Token}
    (hf : DerivesTuple first fs) (hs : DerivesSecond second ss) (ht : t.kind ≠ .arrow)
    {nParam : Nat} (hp : nParam ≤ names.length + first.length) :
    machine.outcome ⟨⟨names⟩, .openBracket (.first nParam)⟩ (fs ++ ss ++ t :: rest) =
      .refusedOr (offence? names ((first ++ second.getD []).map .declares))
        (machine.outcome ⟨⟨names ++ (first ++ second.getD []).map (·.lexeme)⟩,
          .condition (.unconstrained (tupleSpace (names ++ first.map (·.lexeme)) nParam second))⟩
          (t :: rest)) := by
  have hq : ∀ span, afterTuple ⟨names ++ first.map (·.lexeme)⟩ span (.first nParam) =
      .go ⟨⟨names ++ first.map (·.lexeme)⟩, .secondTuple nParam⟩ := by
    intro span
    simp [afterTuple, Names.size, Nat.not_lt.mpr hp]
  rw [List.append_assoc, outcome_tuple hf hq]
  cases hs with
  | absent =>
    rw [List.nil_append, outcome_secondTuple_none nParam ht]
    simp [tupleSpace]
  | @present arrow ids ss ha hs =>
    rw [List.cons_append, outcome_secondTuple nParam ha, outcome_tuple hs (fun _ => rfl),
      ← Outcome.refusedOr_or, Option.getD_some, List.map_append, List.map_append, offence?_append,
      declared_declares]
    simp [tupleSpace]

/-- Tokens that a formula does not go on with behind its tuples or its condition. -/
def endsBody (kind : TokenKind) : Bool :=
  endsSum kind && kind != .andWord && kind != .colon && kind != .arrow

theorem endsBody_iff {kind : TokenKind} : endsBody kind = true ↔
    endsSum kind = true ∧ kind ≠ .andWord ∧ kind ≠ .colon ∧ kind ≠ .arrow := by
  simp [endsBody, and_assoc]

/-- Where the body of a formula ends: behind its condition, or where it might have one. -/
def lastPoint (condition : Option Condition) (system : BasicMap) : Point :=
  match condition with
  | none => .condition system
  | some _ => .closeBrace system

theorem outcome_lastPoint (condition : Option Condition) (system : BasicMap)
    (ht : t.kind = .rightBrace) :
    machine.outcome ⟨⟨names⟩, lastPoint condition system⟩ (t :: rest) = .done system rest := by
  cases condition with
  | none => exact outcome_condition_none system ht
  | some c => exact outcome_closeBrace system ht

theorem outcome_lastPoint_refuse (condition : Option Condition) (system : BasicMap)
    (ht : endsBody t.kind = true) (hb : t.kind ≠ .rightBrace) :
    machine.outcome ⟨⟨names⟩, lastPoint condition system⟩ (t :: rest) =
      .failed (.refused (.atToken .unexpectedToken t)) := by
  obtain ⟨-, -, hcolon, -⟩ := endsBody_iff.mp ht
  cases condition with
  | none => exact Machine.outcome_of_refuse (by simp [machine, lastPoint, onToken, hcolon, hb])
  | some c => exact Machine.outcome_of_refuse (by simp [machine, lastPoint, onToken, hb])

theorem outcome_clause {condition : Option Condition} {cs : List Token}
    (h : DerivesClause condition cs) (ht : endsBody t.kind = true) {space : Space}
    (hn : names.Nodup) (hs : space.totalDim = names.length) :
    machine.outcome ⟨⟨names⟩, .condition (.unconstrained space)⟩ (cs ++ t :: rest) =
      .refusedOr (offence? names ((condition.map Condition.occurrences).getD []))
        (machine.outcome ⟨⟨names ++ (condition.map Condition.declared).getD []⟩,
          lastPoint condition (draft space (names ++ (condition.map Condition.declared).getD [])
            ((condition.map Condition.comparisons).getD []))⟩ (t :: rest)) := by
  obtain ⟨hsum, hand, -, -⟩ := endsBody_iff.mp ht
  rw [draft_unconstrained hs]
  cases h with
  | absent => simp [offence?, lastPoint]
  | @present colon c cs hc h =>
    rw [List.cons_append, outcome_condition _ hc,
      outcome_condition_derived h hn hs.le (by simp) hsum]
    simp only [Option.map_some, Option.getD_some]
    congr 1
    rw [outcome_open_blocks _ _ _ hand, outcome_conjunction_end _ hand, afterConjunction,
      List.nil_append, lastPoint]

theorem head_clause {condition : Option Condition} {cs : List Token}
    (h : DerivesClause condition cs) (ht : t.kind ≠ .arrow) (rest : List Token) :
    ∃ x xs, cs ++ t :: rest = x :: xs ∧ x.kind ≠ .arrow := by
  cases h with
  | absent => exact ⟨_, _, rfl, ht⟩
  | present hc _ => exact ⟨_, _, rfl, by rw [hc]; decide⟩

namespace Tree

theorem occurrences_eq (f : Tree) : f.occurrences = (f.params.getD []).map .declares ++
    ((f.first ++ f.second.getD []).map .declares ++
      (f.condition.map Condition.occurrences).getD []) := by
  simp [occurrences]

theorem outcome_front {f : Tree} (h : f.DerivesFront ts) (ht : endsBody t.kind = true)
    {wanted : Option Nat} (hw : f.ParamsFit wanted) :
    machine.outcome ⟨⟨[]⟩, .beginning wanted⟩ (ts ++ t :: rest) =
      .refusedOr (offence? [] f.occurrences) (machine.outcome
        ⟨⟨f.declared⟩, lastPoint f.condition (f.system wanted)⟩ (t :: rest)) := by
  have hle := nParam_le hw
  have htotal := totalDim_space hw
  obtain ⟨-, -, -, harrow⟩ := endsBody_iff.mp ht
  obtain ⟨hp, ho, hf, hs, hc⟩ := h
  rename_i opening ps fs ss cs
  have hparams : ∀ n ∈ wanted, ∀ ids ∈ f.params, n = ids.length := by
    intro n hn ids hi
    have := hw n hn
    rwa [Option.mem_def.mp hi] at this
  obtain ⟨x, xs, hx, hxk⟩ := head_clause hc harrow rest
  have hsplit : ps ++ opening :: fs ++ ss ++ cs ++ t :: rest =
      ps ++ opening :: (fs ++ ss ++ (cs ++ t :: rest)) := by simp
  rw [hsplit, outcome_params hp ho hparams, hx,
    outcome_tuples hf hs hxk (by rw [List.length_map]; exact hle), ← hx, occurrences_eq,
    offence?_append, Outcome.refusedOr_or, offence?_append, Outcome.refusedOr_or,
    declared_declares, declared_declares, List.nil_append]
  refine Outcome.refusedOr_congr fun h₁ => Outcome.refusedOr_congr fun h₂ => ?_
  have hfront := nodup_of_offence? h₁ List.nodup_nil
  rw [declared_declares, List.nil_append] at hfront
  have hnodup := nodup_of_offence? h₂ hfront
  rw [declared_declares] at hnodup
  have hnames : f.tupleNames = (f.params.getD []).map (·.lexeme) ++
      (f.first ++ f.second.getD []).map (·.lexeme) := by simp [tupleNames]
  have hspace : tupleSpace ((f.params.getD []).map (·.lexeme) ++ f.first.map (·.lexeme))
      (paramCount f.params wanted) f.second = f.space wanted := by
    rw [space, nParam, List.map_append]
  rw [hspace, outcome_clause hc ht hnodup (by rw [htotal, hnames]), ← hnames]
  rfl

/-- A formula with as many parameters as are wanted is read as its system, unless a name
offends. -/
theorem outcome_derives {f : Tree} (h : f.Derives ts) {wanted : Option Nat}
    (hw : f.ParamsFit wanted) :
    machine.outcome ⟨⟨[]⟩, .beginning wanted⟩ (ts ++ rest) =
      .refusedOr (offence? [] f.occurrences) (.done (f.system wanted) rest) := by
  obtain ⟨front, closing, rfl, hfront, he⟩ := h.exists_front
  rw [List.append_assoc, List.singleton_append, outcome_front hfront (by rw [he]; decide) hw,
    outcome_lastPoint _ _ he]

theorem outcome_derives_fail {f : Tree} (h : f.Derives ts) {wanted : Option Nat}
    (hw : ¬ f.ParamsFit wanted) (rest : List Token) :
    ∃ e, machine.outcome ⟨⟨[]⟩, .beginning wanted⟩ (ts ++ rest) = .failed e := by
  obtain ⟨hp, ho, hf, hs, hc, he⟩ := h
  rename_i opening closing ps fs ss cs
  obtain ⟨params, first, second, condition⟩ := f
  simp only [ParamsFit, not_forall] at hw
  obtain ⟨n, hn, hfit⟩ := hw
  obtain rfl : wanted = some n := hn
  simp only [List.append_assoc, List.cons_append]
  cases params with
  | some ids => exact outcome_params_fail hp hfit
  | none =>
    rw [outcome_params hp ho (by simp)]
    have hq : ∀ span, ∃ e, afterTuple ⟨[] ++ first.map (·.lexeme)⟩ span
        (.first (paramCount none (some n))) = .fail e :=
      fun span => by simp [afterTuple, Names.size, paramCount, Nat.not_le.mp hfit]
    simpa [offence?] using outcome_tuple_fail hf hq

end Tree
end ConstraintText.Formula

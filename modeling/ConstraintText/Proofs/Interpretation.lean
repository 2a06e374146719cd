import ConstraintText.Proofs.Drafts

/-!
# The meaning of a formula

A formula that is read means one system: its dimensions are named after the tuples, it has an
existential for each name of a block, and for each comparison a row that holds where the comparison
does, at every assignment to the declared names.
-/
namespace ConstraintText

namespace Names

theorem slice_eq {names : List String} {start n : Nat} (h : start + n ≤ names.length) :
    slice ⟨names⟩ start n = ((names.drop start).take n).map some := by
  refine List.ext_getElem (by simp [slice]; omega) fun i hi hi' => ?_
  have hlt : start + i < names.length := by
    simp only [slice, List.length_map, List.length_range] at hi
    omega
  simp [slice, name?, List.getElem?_eq_getElem hlt]

theorem names_toSpace {names : List String} {nParam nIn nOut : Nat}
    (h : nParam + nIn + nOut = names.length) :
    (toSpace ⟨names⟩ nParam nIn nOut).paramNames ++ (toSpace ⟨names⟩ nParam nIn nOut).inNames ++
      (toSpace ⟨names⟩ nParam nIn nOut).outNames = names.map some := by
  simp only [toSpace]
  rw [slice_eq (by omega), slice_eq (by omega), slice_eq (by omega), ← List.map_append,
    ← List.map_append]
  congr 1
  rw [List.drop_zero, ← List.take_add, ← List.take_add, List.take_of_length_le h.ge]

end Names

namespace Formula
open Occurrence

/-- The inputs are the names in front of the second tuple that are no parameters. -/
def Tree.nIn (f : Tree) (wanted : Option Nat) : Nat :=
  match f.second with
  | none => 0
  | some _ => (f.params.getD []).length + f.first.length - f.nParam wanted

/-- A row over the declared names that holds at an assignment exactly where the comparison does. -/
def Tree.HasRow (f : Tree) (kind : ConstraintKind) (row : Row) (c : Comparison) : Prop :=
  row.length = f.declared.length + 1 ∧
    ∀ ρ : String → Int, row.Holds kind (f.declared.map ρ) ↔ c.Holds ρ

/-- What a system says when it says what a formula does. -/
structure Tree.Means (f : Tree) (wanted : Option Nat) (m : BasicMap) : Prop where
  nParam : m.space.nParam = f.nParam wanted
  nIn : m.space.nIn = f.nIn wanted
  paramNames : m.space.paramNames.length = m.space.nParam
  inNames : m.space.inNames.length = m.space.nIn
  outNames : m.space.outNames.length = m.space.nOut
  tupleNames : m.space.paramNames ++ m.space.inNames ++ m.space.outNames = f.tupleNames.map some
  nDiv : m.nDiv = f.existentials.length
  distinct : f.declared.Nodup
  equalities : List.Forall₂ (f.HasRow .equality) m.equalities
    (f.comparisons.filter (·.operator = .equal))
  inequalities : List.Forall₂ (f.HasRow .inequality) m.inequalities
    (f.comparisons.filter (·.operator ≠ .equal))

theorem Tree.mem_declared_of_used {f : Tree} (h : offence? [] f.occurrences = none)
    {c : Comparison} (hc : c ∈ f.comparisons) {t : Token} (ht : t ∈ c.used) :
    t.lexeme ∈ f.declared := by
  rw [occurrences, offence?_append, Option.or_eq_none_iff, declared_declares, List.nil_append] at h
  obtain ⟨params, first, second, condition⟩ := f
  cases condition with
  | none => simp [comparisons] at hc
  | some condition =>
    have hused : ∀ d ∈ [] ++ condition.comparisons, ∀ u ∈ d.used, u.lexeme ∈ _ :=
      usesDeclared_of_offence? (by simp) h.2
    exact hused c hc t ht

theorem Tree.hasRow {f : Tree} (h : offence? [] f.occurrences = none) {c : Comparison}
    (hc : c ∈ f.comparisons) : f.HasRow c.kind (c.row f.declared) c :=
  ⟨Comparison.length_row _ _, Comparison.holds_row_iff ((offence?_eq_none_iff f).mp h).1
    fun _ ht => mem_declared_of_used h hc ht⟩

theorem Tree.forall₂_rows {f : Tree} (h : offence? [] f.occurrences = none)
    {kind : ConstraintKind} {cs : List Comparison}
    (hcs : ∀ c ∈ cs, c ∈ f.comparisons ∧ c.kind = kind) :
    List.Forall₂ (f.HasRow kind) (cs.map (Comparison.row f.declared)) cs := by
  induction cs with
  | nil => exact .nil
  | cons c cs ih =>
    rw [List.forall_mem_cons] at hcs
    refine .cons ?_ (ih hcs.2)
    obtain ⟨hc, rfl⟩ := hcs.1
    exact hasRow h hc

theorem kind_eq_equality_iff (c : Comparison) : c.kind = .equality ↔ c.operator = .equal := by
  cases ho : c.operator <;> simp [Comparison.kind, Operator.constraintKind, ho]

theorem kind_eq_inequality_iff (c : Comparison) : c.kind = .inequality ↔ c.operator ≠ .equal := by
  cases ho : c.operator <;> simp [Comparison.kind, Operator.constraintKind, ho]

theorem Tree.space_eq (f : Tree) (wanted : Option Nat) :
    f.space wanted = Names.toSpace ⟨f.tupleNames⟩ (f.nParam wanted) (f.nIn wanted)
      (f.tupleNames.length - f.nIn wanted - f.nParam wanted) := by
  cases hs : f.second with
  | none => simp [space, tupleSpace, setSpace, Names.size, tupleNames, nIn, hs]
  | some ids => simp [space, tupleSpace, mapSpace, Names.size, tupleNames, nIn, hs]

theorem Tree.nParam_add_nIn_le {f : Tree} {wanted : Option Nat} (h : f.ParamsFit wanted) :
    f.nParam wanted + f.nIn wanted ≤ f.tupleNames.length := by
  have hle := nParam_le h
  rw [length_tupleNames, nIn]
  split <;> omega

theorem Tree.means_system {f : Tree} {wanted : Option Nat} (hw : f.ParamsFit wanted)
    (h : offence? [] f.occurrences = none) : f.Means wanted (f.system wanted).finalize := by
  have hspace : (f.system wanted).finalize.space = _ := space_eq f wanted
  have hle := nParam_add_nIn_le hw
  have hfilter : ∀ kind, ∀ c ∈ f.comparisons.filter (·.kind = kind),
      c ∈ f.comparisons ∧ c.kind = kind := fun kind c hc => by simpa using hc
  exact {
    nParam := by rw [hspace]; rfl
    nIn := by rw [hspace]; rfl
    paramNames := by rw [hspace]; simp [Names.toSpace, Names.slice]
    inNames := by rw [hspace]; simp [Names.toSpace, Names.slice]
    outNames := by rw [hspace]; simp [Names.toSpace, Names.slice]
    tupleNames := by
      rw [hspace]
      exact Names.names_toSpace (by omega)
    nDiv := by
      have hdiv : (f.system wanted).finalize.nDiv =
          f.declared.length - (f.space wanted).totalDim := rfl
      rw [hdiv, totalDim_space hw, declared, List.length_append]
      omega
    distinct := ((offence?_eq_none_iff f).mp h).1
    equalities := by
      simp only [← kind_eq_equality_iff]
      exact forall₂_rows h (hfilter .equality)
    inequalities := by
      simp only [← kind_eq_inequality_iff]
      exact forall₂_rows h (hfilter .inequality) }

end Formula

namespace Reading

/-- What a text that does not begin with an integer is read as, without simplification, is what
the formula in front of it means: the tokens have a formula in front, and any such formula will
do. -/
theorem readMap_means {strict : Bool} {wanted : Option Nat} {source : String} {u : MapUnion}
    (hi : (TokenStream.ofString source).beginsWithInteger = false)
    (h : (readMap ⟨false, strict⟩ wanted (.ofString source)).result = .ok u) :
    (∃ (f : Formula.Tree) (fs rest : List Token),
      (TokenStream.ofString source).tokens = fs ++ rest ∧ f.Derives fs) ∧
    ∀ (f : Formula.Tree) (fs rest : List Token),
      (TokenStream.ofString source).tokens = fs ++ rest → f.Derives fs →
        ∃ m, u = ⟨m.space, [m]⟩ ∧ f.Means wanted m := by
  obtain ⟨v, hv, rfl⟩ := readMap_ok_iff_drafts.mp h
  obtain ⟨m, rest, ho, rfl⟩ := (drafts_ok_iff_of_formula hi).mp hv
  constructor
  · obtain ⟨f, fs, hd, he, -⟩ := Formula.Tree.outcome_done_iff.mp ho
    exact ⟨f, fs, rest, he, hd⟩
  · intro f fs rest' he hd
    have hw : f.ParamsFit wanted := by
      by_contra hw
      obtain ⟨e, hfail⟩ := Formula.Tree.outcome_derives_fail hd hw rest'
      rw [he, hfail] at ho
      simp at ho
    rw [he, Formula.Tree.outcome_derives hd hw, Outcome.refusedOr_eq_done, Outcome.done.injEq] at ho
    obtain ⟨hoff, rfl, rfl⟩ := ho
    refine ⟨(f.system wanted).finalize, ?_, Formula.Tree.means_system hw hoff⟩
    rfl

/-- The row in front of a block gets a zero column for the name of the block. -/
theorem readMap_means_even : ∃ m : BasicMap,
    m.inequalities = [[4, -1, 0]] ∧ m.equalities = [[0, 1, -2]] ∧
      ∃ f : Formula.Tree, f.Means none m := by
  have h : (readMap ⟨false, false⟩ none
      (.ofString "\x7b [i] : i <= 4 and exists k : i = 2k \x7d")).result =
        .ok ⟨⟨0, 0, 1, [], [], [some "i"]⟩, [⟨⟨0, 0, 1, [], [], [some "i"]⟩, 1,
          [[0, 1, -2]], [[4, -1, 0]], [[0, 0, 0, 0]], ⟨false, true⟩⟩]⟩ := by cbv
  obtain ⟨⟨f, fs, rest, he, hd⟩, hall⟩ := readMap_means (by cbv) h
  obtain ⟨m, hu, hm⟩ := hall f fs rest he hd
  simp only [MapUnion.mk.injEq, List.cons.injEq, and_true] at hu
  obtain ⟨-, rfl⟩ := hu
  exact ⟨_, rfl, rfl, f, hm⟩

end Reading
end ConstraintText

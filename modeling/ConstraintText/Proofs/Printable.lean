import ConstraintText.Proofs.Acceptance
import ConstraintText.Proofs.DimensionNames
import ConstraintText.Proofs.Interpretation
import ConstraintText.Proofs.Items

/-!
# What is read can be printed

The dimensions of a formula are named after its tuples: these names are identifiers and differ from
each other. Matrices have default names. A condition has a comparison however deep in blocks, so a
formula with existentials has a row.
-/
namespace ConstraintText

namespace Space

theorem groupNames_of_storedNames {s : Space} {kind : DimKind} {names : List String}
    (h : s.storedNames kind = names.map some) (hl : names.length = s.dim kind) :
    s.groupNames kind = names := by
  refine List.ext_getElem (by rw [length_groupNames, hl]) fun i hi hi' => ?_
  simp [groupNames, name?, h, List.getElem?_eq_getElem hi']

end Space

namespace Names

theorem allNames_toSpace {names : List String} {nParam nIn nOut : Nat}
    (h : nParam + nIn + nOut = names.length) :
    (toSpace ⟨names⟩ nParam nIn nOut).allNames = names := by
  have hparam : (toSpace ⟨names⟩ nParam nIn nOut).groupNames .param =
      (names.drop 0).take nParam :=
    Space.groupNames_of_storedNames (slice_eq (by omega)) (by simp [toSpace, Space.dim]; omega)
  have hin : (toSpace ⟨names⟩ nParam nIn nOut).groupNames .input =
      (names.drop nParam).take nIn :=
    Space.groupNames_of_storedNames (slice_eq (by omega)) (by simp [toSpace, Space.dim]; omega)
  have hout : (toSpace ⟨names⟩ nParam nIn nOut).groupNames .output =
      (names.drop (nParam + nIn)).take nOut :=
    Space.groupNames_of_storedNames (slice_eq (by omega)) (by simp [toSpace, Space.dim]; omega)
  rw [Space.allNames, hparam, hin, hout, List.drop_zero, ← List.take_add, ← List.take_add,
    List.take_of_length_le h.ge]

end Names

namespace Formula

theorem DerivesNames.mem {ids ts : List Token} (h : DerivesNames ids ts) :
    ∀ t ∈ ids, t ∈ ts ∧ t.kind = .identifier := by
  induction h with
  | empty => simp
  | last ht => simpa using ht
  | more ht _ _ ih =>
    rw [List.forall_mem_cons]
    exact ⟨⟨by simp, ht⟩, fun t hm => ⟨by simp [(ih t hm).1], (ih t hm).2⟩⟩

theorem DerivesTuple.mem {ids ts : List Token} (h : DerivesTuple ids ts) :
    ∀ t ∈ ids, t ∈ ts ∧ t.kind = .identifier := by
  obtain ⟨-, hn, -⟩ := h
  exact fun t hm => ⟨by simp [(hn.mem t hm).1], (hn.mem t hm).2⟩

theorem Tree.Derives.mem {f : Tree} {fs : List Token} (h : f.Derives fs) :
    ∀ t ∈ f.params.getD [] ++ f.first ++ f.second.getD [], t ∈ fs ∧ t.kind = .identifier := by
  obtain ⟨params, first, second, condition⟩ := f
  obtain ⟨hp, -, hf, hs, -, -⟩ := h
  intro t ht
  rcases List.mem_append.mp ht with ht | ht
  · rcases List.mem_append.mp ht with ht | ht
    · cases hp with
      | absent => simp at ht
      | present hd _ => exact ⟨by simp [(hd.mem t ht).1], (hd.mem t ht).2⟩
    · exact ⟨by simp [(hf.mem t ht).1], (hf.mem t ht).2⟩
  · cases hs with
    | absent => simp at ht
    | present _ hd => exact ⟨by simp [(hd.mem t ht).1], (hd.mem t ht).2⟩

theorem Tree.allNames_space {f : Tree} {wanted : Option Nat} (h : f.ParamsFit wanted) :
    (f.space wanted).allNames = f.tupleNames := by
  have hle := nParam_add_nIn_le h
  rw [space_eq]
  exact Names.allNames_toSpace (by omega)

/-- A formula that is scanned and declares no name twice has a space with proper names. -/
theorem Tree.isNamed_space {f : Tree} {fs : List Token} {wanted : Option Nat} (h : f.Derives fs)
    (hi : ∀ t ∈ fs, t.kind = .identifier → IsIdentifier t.lexeme) (hw : f.ParamsFit wanted)
    (hn : f.declared.Nodup) : (f.space wanted).IsNamed where
  nodup := by
    rw [allNames_space hw]
    exact (List.nodup_append.mp hn).1
  isIdentifier name hm := by
    rw [allNames_space hw] at hm
    obtain ⟨t, ht, rfl⟩ := List.mem_map.mp hm
    obtain ⟨hfs, hk⟩ := h.mem t ht
    exact hi t hfs hk

theorem Condition.comparisons_ne_nil (c : Condition) : c.comparisons ≠ [] := by
  induction c with
  | comparison c => simp [comparisons]
  | block _ _ _ ih => exact ih
  | both _ _ ih _ => simp [comparisons, ih]

theorem constraints_draft_ne_nil {space : Space} {names : List String} {cs : List Comparison}
    (h : cs ≠ []) : (draft space names cs).constraints ≠ [] := by
  obtain ⟨c, cs', rfl⟩ := List.exists_cons_of_ne_nil h
  cases hk : c.kind <;> simp [draft, BasicMap.constraints, rowsOf, hk]

theorem Tree.constrained_system {f : Tree} {wanted : Option Nat} (h : f.ParamsFit wanted) :
    (f.system wanted).nDiv = 0 ∨ (f.system wanted).constraints ≠ [] := by
  cases hc : f.condition with
  | none =>
    left
    have hdiv : (f.system wanted).nDiv = f.declared.length - (f.space wanted).totalDim := rfl
    rw [hdiv, totalDim_space h, declared, existentials, hc]
    simp
  | some c =>
    right
    refine constraints_draft_ne_nil ?_
    rw [comparisons, hc]
    exact c.comparisons_ne_nil

end Formula

namespace BasicMap

/-- A draft that a text can be read as: it has proper names, and a row if it has existentials. -/
structure IsTextual (m : BasicMap) : Prop extends m.IsDraft where
  isNamed : m.space.IsNamed
  constrained : m.nDiv = 0 ∨ m.constraints ≠ []

end BasicMap

theorem Matrix.IsPart.isTextual {nParam : Nat} {m : BasicMap} (h : IsPart nParam m) :
    m.IsTextual where
  toIsDraft := h.isDraft
  isNamed := by
    obtain ⟨dims, hs⟩ := h.space
    rw [hs]
    exact Space.isNamed_unnamed nParam 0 dims
  constrained := .inl h.nDiv

/-- Whether the identifiers among the tokens to come are words as the scanner takes them. -/
def TokenStream.HasIdentifiers (s : TokenStream) : Prop :=
  ∀ t ∈ s.tokens, t.kind = .identifier → IsIdentifier t.lexeme

theorem Scanner.isIdentifier_of_leading {s : Scanner} {t : Token} (h : t ∈ s.leading)
    (hk : t.kind = .identifier) : IsIdentifier t.lexeme := by
  obtain ⟨n, s', hn⟩ := exists_next_of_leading h
  exact isIdentifier_of_next hn hk

theorem TokenStream.hasIdentifiers_of_pending {s : TokenStream}
    (h : ∀ t ∈ s.pending, t.kind = .identifier → IsIdentifier t.lexeme) : s.HasIdentifiers := by
  intro t ht hk
  rcases List.mem_append.mp ht with ht | ht
  · exact h t (Option.mem_toList.mp ht) hk
  · exact Scanner.isIdentifier_of_leading ht hk

theorem TokenStream.hasIdentifiers_ofString (source : String) : (ofString source).HasIdentifiers :=
  hasIdentifiers_of_pending (by simp [ofString])

namespace Reading
open Formula

variable {wanted : Option Nat} {s : TokenStream} {v : MapUnion}

/-- What a formula is read as is the textual draft of its tree. -/
theorem textual_of_formula (hs : s.HasIdentifiers) (hi : s.beginsWithInteger = false)
    (h : (drafts wanted s).result = .ok v) :
    ∃ f : Tree, f.ParamsFit wanted ∧ v = ⟨(f.system wanted).space, [f.system wanted]⟩ ∧
      (f.system wanted).IsTextual := by
  obtain ⟨m, rest, ho, rfl⟩ := (drafts_ok_iff_of_formula hi).mp h
  obtain ⟨f, fs, hd, he, hw, hoff, rfl⟩ := Tree.outcome_done_iff.mp ho
  have hwords : ∀ t ∈ fs, t.kind = .identifier → IsIdentifier t.lexeme :=
    fun t ht => hs t (he ▸ List.mem_append_left rest ht)
  have hn := ((Tree.offence?_eq_none_iff f).mp hoff).1
  exact ⟨f, hw, rfl, Tree.isDraft_system hw, Tree.isNamed_space hd hwords hw hn,
    Tree.constrained_system hw⟩

/-- Every text is read as textual drafts, and their union is named after one of them. -/
theorem textual_of_drafts (hs : s.HasIdentifiers) (h : (drafts wanted s).result = .ok v) :
    (∃ m ∈ v.parts, v.space = m.space) ∧ ∀ m ∈ v.parts, m.IsTextual := by
  cases hb : s.beginsWithInteger with
  | true =>
    obtain ⟨rest, ho⟩ := (drafts_ok_iff_of_matrices hb).mp h
    obtain ⟨hspace, hparts⟩ := Matrix.isSound_of_done ho
    exact ⟨hspace, fun m hm => (hparts m hm).isTextual⟩
  | false =>
    obtain ⟨f, -, rfl, ht⟩ := textual_of_formula hs hb h
    exact ⟨⟨_, List.mem_singleton_self _, rfl⟩, fun m hm => List.mem_singleton.mp hm ▸ ht⟩

end Reading
end ConstraintText

import ConstraintText.Proofs.NameRules
import ConstraintText.Proofs.PrintedMaps

/-!
# Default names that are taken

A dimension without a stored name is printed with a default name, whatever names the others have.
So two dimensions are printed with one name exactly where a stored name is the default name of an
unnamed dimension; existentials never share a name. A text that lists a name twice is refused, so
these are also the systems whose own text is not read.
-/
namespace ConstraintText

namespace Space

def dims (s : Space) : List (DimKind × Nat) :=
  [.param, .input, .output].flatMap fun kind => (List.range (s.dim kind)).map (kind, ·)

def printedName (s : Space) (d : DimKind × Nat) : String :=
  (s.name? d.1 d.2).getD (defaultName d.1 d.2)

theorem allNames_eq (s : Space) : s.allNames = s.dims.map s.printedName := by
  simp [allNames, groupNames, dims, printedName, Function.comp_def]

theorem nodup_dims (s : Space) : s.dims.Nodup := by
  refine List.nodup_flatMap.mpr ⟨fun kind _ => ?_, ?_⟩
  · exact List.nodup_range.map (Prod.mk_right_injective kind)
  · have hdisjoint : ∀ {kind kind' : DimKind}, kind ≠ kind' → ∀ n n' : Nat,
        ((List.range n).map (kind, ·)).Disjoint ((List.range n').map (kind', ·)) := by
      intro kind kind' hk n n' d hd hd'
      obtain ⟨i, -, rfl⟩ := List.mem_map.mp hd
      obtain ⟨j, -, hj⟩ := List.mem_map.mp hd'
      exact hk (congrArg Prod.fst hj).symm
    simp [Function.onFun, hdisjoint]

/-- The stored names of the dimensions are identifiers and differ from each other. -/
structure HasStoredNames (s : Space) : Prop where
  isIdentifier : ∀ d ∈ s.dims, ∀ name, s.name? d.1 d.2 = some name → IsIdentifier name
  inj : ∀ d ∈ s.dims, ∀ e ∈ s.dims, ∀ name, s.name? d.1 d.2 = some name →
    s.name? e.1 e.2 = some name → d = e

/-- A dimension has the default name of another one, which has no name. -/
def HasTakenDefault (s : Space) : Prop :=
  ∃ d ∈ s.dims, ∃ e ∈ s.dims, s.name? d.1 d.2 = none ∧
    s.name? e.1 e.2 = some (defaultName d.1 d.2)

variable {s : Space}

theorem HasStoredNames.isIdentifier_allNames (h : s.HasStoredNames) :
    ∀ name ∈ s.allNames, IsIdentifier name := by
  rw [allNames_eq, List.forall_mem_map]
  intro d hd
  cases hn : s.name? d.1 d.2 with
  | none =>
    rw [printedName, hn]
    exact isIdentifier_defaultName d.1 d.2
  | some name =>
    rw [printedName, hn]
    exact h.isIdentifier d hd name hn

theorem printedName_inj (h : s.HasStoredNames) (ht : ¬ s.HasTakenDefault) {d e : DimKind × Nat}
    (hd : d ∈ s.dims) (he : e ∈ s.dims) (hn : s.printedName d = s.printedName e) : d = e := by
  unfold printedName at hn
  cases hdn : s.name? d.1 d.2 with
  | none =>
    cases hen : s.name? e.1 e.2 with
    | none =>
      rw [hdn, hen] at hn
      exact Prod.ext_iff.mpr (defaultName_inj.mp hn)
    | some name =>
      rw [hdn, hen] at hn
      exact absurd ⟨d, hd, e, he, hdn, hen.trans (congrArg some hn.symm)⟩ ht
  | some name =>
    cases hen : s.name? e.1 e.2 with
    | none =>
      rw [hdn, hen] at hn
      exact absurd ⟨e, he, d, hd, hen, hdn.trans (congrArg some hn)⟩ ht
    | some name' =>
      rw [hdn, hen] at hn
      exact h.inj d hd e he name hdn (hen.trans (congrArg some hn.symm))

/-- Dimensions share a name exactly where a default name is taken. -/
theorem nodup_allNames_iff (h : s.HasStoredNames) : s.allNames.Nodup ↔ ¬ s.HasTakenDefault := by
  rw [allNames_eq, List.nodup_map_iff_inj_on s.nodup_dims]
  constructor
  · rintro hinj ⟨d, hd, e, he, hdn, hen⟩
    obtain rfl := hinj d hd e he (by rw [printedName, printedName, hdn, hen]; rfl)
    rw [hdn] at hen
    cases hen
  · exact fun ht d hd e he => printedName_inj h ht hd he

theorem hasStoredNames_taken : HasStoredNames ⟨1, 1, 1, [some "i0"], [], []⟩ where
  isIdentifier := by
    have hdefault : IsIdentifier "i0" := isIdentifier_defaultName .input 0
    intro d hd name hn
    have hdims : d ∈ [(DimKind.param, 0), (.input, 0), (.output, 0)] := hd
    simp only [List.mem_cons, List.not_mem_nil, or_false] at hdims
    rcases hdims with rfl | rfl | rfl
    · exact Option.some.inj hn ▸ hdefault
    · cases hn
    · cases hn
  inj := by
    intro d hd e he name hdn hen
    have hunnamed : ∀ d ∈ [(DimKind.param, 0), (.input, 0), (.output, 0)],
        name? ⟨1, 1, 1, [some "i0"], [], []⟩ d.1 d.2 ≠ none → d = (.param, 0) := by decide
    rw [hunnamed d hd (by simp [hdn]), hunnamed e he (by simp [hen])]

end Space

namespace BasicMap
open Formula Occurrence Scanner

variable {m : BasicMap}

/-- The names of existentials are in no case the reason why names clash. -/
theorem nodup_columnNames_iff (h : m.space.HasStoredNames) :
    m.columnNames.Nodup ↔ ¬ m.space.HasTakenDefault := by
  rw [← Space.nodup_allNames_iff h]
  constructor
  · exact fun hnodup => (List.nodup_append.mp hnodup).1
  · exact fun hnodup => nodup_columnNames ⟨hnodup, h.isIdentifier_allNames⟩

/-- Different stored names do not make the printed names different: a parameter may bear the default
name of an input. -/
theorem not_forall_nodup_columnNames :
    ¬ ∀ m : BasicMap, m.space.HasStoredNames → m.columnNames.Nodup := by
  intro h
  have hnodup := h ⟨⟨1, 1, 1, [some "i0"], [], []⟩, 0, [], [], [], ⟨false, true⟩⟩
    Space.hasStoredNames_taken
  exact absurd hnodup (by decide)

theorem conditionText_cases (m : BasicMap) :
    m.conditionText = "" ∨ ∃ rest, m.conditionText.toList = ' ' :: ':' :: rest := by
  by_cases hpos : 0 < m.nDiv
  · exact .inr ⟨_, by rw [conditionText_of_pos hpos]; simp; rfl⟩
  · rw [conditionText_of_nDiv_eq_zero (Nat.eq_zero_of_not_pos hpos)]
    split
    · exact .inl rfl
    · exact .inr ⟨_, by simp; rfl⟩

theorem scan_behind_tuples {s : Scanner}
    (h : s.Faces (m.conditionText.toList ++ ' ' :: '}' :: [])) :
    ∃ t s', s.Scans [t] s' ∧ t.kind ≠ .arrow := by
  rcases m.conditionText_cases with hnone | ⟨rest, hrest⟩
  · rw [hnone, String.toList_empty, List.nil_append, faces_space] at h
    obtain ⟨t, s', hs, hk, -⟩ := h.symbol rfl
    exact ⟨t, s', hs, by rw [hk]; decide⟩
  · rw [hrest, List.cons_append, faces_space] at h
    obtain ⟨t, s', hs, hk, -⟩ := h.symbol rfl
    exact ⟨t, s', hs, by rw [hk]; decide⟩

/-- The names of the tuples are declared before anything else is looked at. -/
theorem outcome_text (hi : ∀ name ∈ m.space.allNames, IsIdentifier name) :
    (TokenStream.ofString m.text).beginsWithInteger = false ∧
    ∃ (ids : List Token) (after : Outcome BasicMap), ids.map (·.lexeme) = m.space.allNames ∧
      machine.outcome ⟨⟨[]⟩, .beginning none⟩ (TokenStream.ofString m.text).tokens =
        .refusedOr (offence? [] (ids.map .declares)) after := by
  have h : (TokenStream.ofString m.text).scanner.Faces (m.paramsText.toList ++ '{' :: ' ' ::
      (m.tuplesText.toList ++ (m.conditionText.toList ++ ' ' :: '}' :: []))) := by
    have htext : m.text.toList = m.paramsText.toList ++ '{' :: ' ' ::
        (m.tuplesText.toList ++ (m.conditionText.toList ++ ' ' :: '}' :: [])) := by
      simp [text, bodyText]
    rw [← htext]
    exact faces_rest _
  obtain ⟨params, ps, s₁, hs₁, hf₁, hp, hpnames, -⟩ := scan_params hi h
  obtain ⟨opening, s₂, hs₂, ho, hf₂⟩ := hf₁.symbol rfl
  rw [faces_space] at hf₂
  obtain ⟨first, fs, second, ss, s₃, hs₃, hf₃, hfirst, hsecond, htnames, -⟩ := scan_tuples hi hf₂
  obtain ⟨t, s', hs', ht⟩ := scan_behind_tuples hf₃
  have htokens : (TokenStream.ofString m.text).tokens =
      ps ++ opening :: (fs ++ ss ++ t :: s'.leading) := by
    rw [TokenStream.tokens_of_pending_none rfl,
      (hs₁.append (hs₂.append (hs₃.append hs'))).leading]
    simp
  have hfront : (Tree.mk params first second none).DerivesFront (ps ++ opening :: fs ++ ss ++ []) :=
    .intro hp ho hfirst hsecond .absent
  have hle : paramCount params none ≤ ((params.getD []).map (·.lexeme)).length + first.length := by
    cases params <;> simp [paramCount]
  have hoffence : offence? [] ((params.getD [] ++ (first ++ second.getD [])).map .declares) =
      (offence? [] ((params.getD []).map .declares)).or
        (offence? ((params.getD []).map (·.lexeme)) ((first ++ second.getD []).map .declares)) := by
    rw [List.map_append, offence?_append, declared_declares, List.nil_append]
  have houtcome : machine.outcome ⟨⟨[]⟩, .beginning none⟩
      (ps ++ opening :: (fs ++ ss ++ t :: s'.leading)) = _ := outcome_params hp ho (by simp)
  rw [outcome_tuples hfirst hsecond ht hle, ← Outcome.refusedOr_or, ← hoffence,
    ← htokens] at houtcome
  have hopening : (TokenStream.ofString m.text).tokens =
      (ps ++ opening :: fs ++ ss ++ []) ++ t :: s'.leading := by simp [htokens]
  refine ⟨Reading.beginsWithInteger_of_front hfront hopening, _, _, ?_, houtcome⟩
  rw [List.map_append, hpnames, htnames, Space.allNames, List.append_assoc]

theorem offence?_of_not_nodup {ids : List Token} (h : ¬ (ids.map (·.lexeme)).Nodup) :
    ∃ t, offence? [] (ids.map .declares) = some (.atToken .duplicateName t) ∧
      List.Duplicate t.lexeme (ids.map (·.lexeme)) := by
  cases hoffence : offence? [] (ids.map .declares) with
  | none =>
    have hnodup := nodup_of_offence? hoffence List.nodup_nil
    rw [declared_declares, List.nil_append] at hnodup
    exact absurd hnodup h
  | some refusal =>
    obtain ⟨before, o, after, hsplit, -, hoffends, rfl⟩ := exists_of_offence? hoffence
    have hmem : o ∈ ids.map .declares := by rw [hsplit]; simp
    obtain ⟨t, -, rfl⟩ := List.mem_map.mp hmem
    refine ⟨t, rfl, ?_⟩
    have hlexemes : ids.map (·.lexeme) = declared before ++ t.lexeme :: declared after := by
      rw [← declared_declares, hsplit, declared_append, declared_cons_declares]
    rw [hlexemes, List.duplicate_iff_two_le_count, List.count_append, List.count_cons_self]
    have hcount := List.count_pos_iff.mpr hoffends
    rw [List.nil_append] at hcount
    omega

end BasicMap

namespace Reading
open Formula BasicMap

variable {m : BasicMap}

theorem readMap_text_of_not_nodup (hi : ∀ name ∈ m.space.allNames, IsIdentifier name)
    (h : ¬ m.space.allNames.Nodup) (config : ReadConfig) :
    ∃ t, (readMap config none (.ofString m.text)).result =
        .error (.refused (.atToken .duplicateName t)) ∧ List.Duplicate t.lexeme m.space.allNames := by
  obtain ⟨hint, ids, after, hids, houtcome⟩ := outcome_text hi
  rw [← hids] at h ⊢
  obtain ⟨t, hoffence, ht⟩ := offence?_of_not_nodup h
  refine ⟨t, ?_, ht⟩
  rw [(readMap_eq_drafts config none _).1, drafts_result_of_formula hint, houtcome, hoffence]
  rfl

/-- Let the stored names of a system's dimensions be identifiers that differ from each other. The
names that it is printed with differ, those of existentials included, exactly if no dimension has the
default name of one without a name. Exactly then its text can be read; otherwise it is refused for a
name that two dimensions are printed with. -/
theorem readMap_text_taken_default (h : m.space.HasStoredNames)
    (hrows : ∀ kind, ∀ row ∈ m.rows kind, row.length = m.rowLength) :
    (m.columnNames.Nodup ↔ ¬ m.space.HasTakenDefault) ∧
    ∃ text, m.text? = some text ∧ ∀ config : ReadConfig,
      ((∃ u, (readMap config none (.ofString text)).result = .ok u) ↔
        ¬ m.space.HasTakenDefault) ∧
      (m.space.HasTakenDefault → ∃ t, (readMap config none (.ofString text)).result =
          .error (.refused (.atToken .duplicateName t)) ∧
        List.Duplicate t.lexeme m.space.allNames) := by
  have hlength := length_of_mem_constraints hrows
  have hnodup := Space.nodup_allNames_iff h
  have hrefused : ∀ config, m.space.HasTakenDefault → ∃ t,
      (readMap config none (.ofString m.text)).result =
        .error (.refused (.atToken .duplicateName t)) ∧ List.Duplicate t.lexeme m.space.allNames :=
    fun config ht =>
      readMap_text_of_not_nodup h.isIdentifier_allNames (fun hn => hnodup.mp hn ht) config
  refine ⟨nodup_columnNames_iff h, m.text, text?_of_length hlength, fun config =>
    ⟨⟨?_, fun ht => ?_⟩, hrefused config⟩⟩
  · rintro ⟨u, hu⟩ ht
    obtain ⟨t, herror, -⟩ := hrefused config ht
    rw [hu] at herror
    cases herror
  · have hread := (drafts_text ⟨hnodup.mpr ht, h.isIdentifier_allNames⟩ hlength).1
    rw [(readMap_eq_drafts config none _).1, hread]
    exact ⟨_, rfl⟩

/-- A parameter that bears the default name of the input. -/
theorem readMap_text_taken_default_input :
    let m : BasicMap := ⟨⟨1, 1, 1, [some "i0"], [], []⟩, 1, [], [[0, 1, -1, 0, 2]], [],
      ⟨false, true⟩⟩
    m.text? = some "[i0] -> \x7b [i0] -> [o0] : exists (e0 : i0 + 2e0 >= i0) \x7d" ∧
      ∃ text, m.text? = some text ∧ ∃ t, (readMap .standard none (.ofString text)).result =
          .error (.refused (.atToken .duplicateName t)) ∧
        List.Duplicate t.lexeme ["i0", "i0", "o0"] := by
  intro m
  have hrows : ∀ kind, ∀ row ∈ m.rows kind, row.length = m.rowLength := by
    intro kind
    cases kind <;> decide
  have htaken : m.space.HasTakenDefault :=
    ⟨(.input, 0), by decide, (.param, 0), by decide, rfl, by cbv⟩
  have hall : m.space.allNames = ["i0", "i0", "o0"] := by cbv
  obtain ⟨-, text, htext, hread⟩ := readMap_text_taken_default Space.hasStoredNames_taken hrows
  rw [← hall]
  exact ⟨by cbv, text, htext, (hread .standard).2 htaken⟩

end Reading
end ConstraintText

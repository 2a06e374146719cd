import ConstraintText.Proofs.MatrixReading
import ConstraintText.Proofs.RoundTrip
import ConstraintText.Proofs.Sessions

/-!
# Which unions are read back

A union of at most one system prints as one system, which is read back. Several systems are set
apart by semicolons, and behind the first of them the reader wants a closing brace: so it refuses
the first semicolon, whatever the systems are.
-/
namespace ConstraintText

theorem Space.isCompatible_iff {s t : Space} :
    s.isCompatible t = true ↔ s.nParam = t.nParam ∧ s.nIn = t.nIn ∧ s.nOut = t.nOut := by
  simp [isCompatible, and_assoc]

theorem TokenStream.IsIn.hasIdentifiers {source : String} {s : TokenStream} (h : s.IsIn source) :
    s.HasIdentifiers := by
  refine hasIdentifiers_of_pending fun t ht hk => ?_
  obtain ⟨-, scanner, -, hn⟩ := h.pending t ht
  exact Scanner.isIdentifier_of_next (Prod.ext hn rfl) hk

/-- Unions that are read, by any call on any source, and unions of these. -/
inductive MapUnion.IsObtained : MapUnion → Prop
  | read {source : String} {s : TokenStream} {wanted : Option Nat} {u : MapUnion}
      (hs : s.IsReached source) (h : (Reading.readMap .standard wanted s).result = .ok u) :
      IsObtained u
  | union {u v w : MapUnion} (hu : IsObtained u) (hv : IsObtained v) (h : u.union v = .ok w) :
      IsObtained w

/-- Whether each part of a union is read back from its own text, and fits the space of all. -/
structure MapUnion.IsStable (u : MapUnion) : Prop where
  isNamed : u.space.IsNamed
  part : ∀ m ∈ u.parts, m.IsStable .standard ∧ m.flags.empty = false
  space : ∀ m ∈ u.parts, m.space.isCompatible u.space = true

namespace Reading

/-- The matrices of a text are over one space, as is the only system of a formula. -/
theorem space_of_drafts {wanted : Option Nat} {s : TokenStream} {u : MapUnion}
    (h : (drafts wanted s).result = .ok u) : ∀ m ∈ u.parts, m.space = u.space := by
  cases hb : s.beginsWithInteger with
  | true =>
    obtain ⟨rest, ho⟩ := (drafts_ok_iff_of_matrices hb).mp h
    obtain ⟨columns, ws, ts, -, hd, rfl⟩ := Matrix.outcome_iff.mp ho
    intro m hm
    obtain ⟨w, hw, rfl⟩ := List.mem_map.mp hm
    rw [Matrix.Written.draft, Matrix.system, hd.columns_eq w hw]
  | false =>
    obtain ⟨m, rest, -, rfl⟩ := (drafts_ok_iff_of_formula hb).mp h
    intro part hpart
    rw [List.mem_singleton.mp hpart]

theorem space_of_readMap {config : ReadConfig} {wanted : Option Nat} {s : TokenStream}
    {u : MapUnion} (h : (readMap config wanted s).result = .ok u) :
    ∀ m ∈ u.parts, m.space = u.space := by
  obtain ⟨v, hv, rfl⟩ := readMap_ok_iff_drafts.mp h
  intro m hm
  obtain ⟨d, hd, rfl⟩ := List.mem_map.mp (List.mem_filter.mp hm).1
  rw [space_complete]
  exact space_of_drafts hv d hd

end Reading

namespace MapUnion

variable {u v w : MapUnion}

theorem eq_of_union (h : u.union v = .ok w) :
    u.space.isCompatible v.space = true ∧ w = ⟨u.space, u.parts ++ v.parts⟩ := by
  unfold MapUnion.union at h
  split at h
  · exact ⟨‹_›, (Except.ok.inj h).symm⟩
  · simp at h

theorem IsStable.union (hu : u.IsStable) (hv : v.IsStable) (h : u.union v = .ok w) :
    w.IsStable := by
  obtain ⟨hspace, rfl⟩ := eq_of_union h
  refine ⟨hu.isNamed, fun m hm => ?_, fun m hm => ?_⟩
  · exact (List.mem_append.mp hm).elim (hu.part m) (hv.part m)
  · rcases List.mem_append.mp hm with hm | hm
    · exact hu.space m hm
    · obtain ⟨hparam, hin, hout⟩ := Space.isCompatible_iff.mp hspace
      obtain ⟨hparam', hin', hout'⟩ := Space.isCompatible_iff.mp (hv.space m hm)
      exact Space.isCompatible_iff.mpr
        ⟨hparam'.trans hparam.symm, hin'.trans hin.symm, hout'.trans hout.symm⟩

theorem IsObtained.isStable (h : u.IsObtained) : u.IsStable := by
  induction h with
  | @read source s wanted u hs h =>
    obtain ⟨hnamed, -, hparts⟩ := Reading.isStable_of_readMap hs.isIn.hasIdentifiers h
    refine ⟨hnamed, hparts, fun m hm => ?_⟩
    rw [Reading.space_of_readMap h m hm]
    exact Space.isCompatible_iff.mpr ⟨rfl, rfl, rfl⟩
  | union _ _ h ihu ihv => exact ihu.union ihv h

theorem IsStable.text? (h : u.IsStable) : u.text? = some u.text := by
  rw [MapUnion.text?, if_pos]
  refine List.all_eq_true.mpr fun m hm => ?_
  have htext := BasicMap.text?_of_isStable (h.part m hm).1
  by_contra hprint
  simp [BasicMap.text?, hprint] at htext

end MapUnion

namespace Reading
open Formula

/-- A stable system is read back, unless it is known to be empty: then no system is left. -/
theorem readMap_of_isStable {config : ReadConfig} {m : BasicMap} (h : m.IsStable config) :
    (readMap config none (.ofString m.text)).result =
      .ok ⟨m.printedSpace, if m.flags.empty then [] else [m.renamed]⟩ := by
  obtain ⟨hdrafts, -⟩ := drafts_text h.isNamed h.length
  rw [(readMap_eq_drafts config none (.ofString m.text)).1, hdrafts, Except.map,
    ← ofBasicMap_complete, Except.ok.injEq]
  have hagain := h.again
  have hspace : (m.reread.complete config).space = m.printedSpace := space_complete _ config
  have hflags : m.renamed.flags = m.flags := rfl
  unfold kept at hagain
  split at hagain
  · rename_i hempty
    have hflag : m.flags.empty = true := by rw [← hflags, ← hagain]; rfl
    simp [MapUnion.ofBasicMap, hempty, hflag, hspace]
  · rename_i hempty
    rw [hagain] at hempty ⊢
    simp [MapUnion.ofBasicMap, hempty, ← hflags]
    rfl

theorem fromText_standard {α : Type} (read : TokenStream → Reading α) (text : String) :
    (fromText .standard read text).result = (read (.ofString text)).result := by
  simp only [fromText, bind]
  cases h : (read (.ofString text)).result <;>
    simp [finish, ReadConfig.standard, ok, after]

/-- Behind the body of a system only a closing brace is accepted. -/
theorem readMap_refuses_semicolon {m : BasicMap} (hn : m.space.IsNamed)
    (hl : ∀ c ∈ m.constraints, c.coeffs.length = m.rowLength) (config : ReadConfig)
    {text : String} {rest : List Char}
    (h : text.toList = m.paramsText.toList ++ '{' :: ' ' :: (m.bodyText.toList ++ ';' :: rest)) :
    ∃ r : Refusal, (readMap config none (.ofString text)).result = .error (.refused r) ∧
      r.problem = .unexpectedToken ∧ r.found = some ";" := by
  have hface : (TokenStream.ofString text).scanner.Faces text.toList := Scanner.faces_rest _
  rw [h] at hface
  obtain ⟨f, ts, s₁, hs₁, hf₁, hd, hw, hoff, -⟩ :=
    BasicMap.scan_front hn hl (breaks_cons (by decide) _) hface
  have hcut : Cut.ofChars? ';' rest = some ⟨.semicolon, [], rest⟩ := rfl
  obtain ⟨t, s', hs', hk, hlexeme, -⟩ := hf₁.scan (by decide) hcut (by simp)
  obtain ⟨hends, hbrace⟩ : endsBody t.kind = true ∧ t.kind ≠ .rightBrace := by
    rw [hk]
    exact ⟨rfl, by simp⟩
  have htokens : (TokenStream.ofString text).tokens = ts ++ t :: s'.leading := by
    rw [TokenStream.tokens_of_pending_none rfl, (hs₁.append hs').leading, List.append_assoc,
      List.singleton_append]
  have hi := beginsWithInteger_of_front hd htokens
  have ho : machine.outcome ⟨⟨[]⟩, .beginning none⟩ (TokenStream.ofString text).tokens =
      .failed (.refused (.atToken .unexpectedToken t)) := by
    rw [htokens, Tree.outcome_front hd hends hw, hoff, Outcome.refusedOr_none,
      outcome_lastPoint_refuse _ _ hends hbrace]
  refine ⟨.atToken .unexpectedToken t, ?_, rfl, congrArg some hlexeme⟩
  rw [(readMap_eq_drafts config none (.ofString text)).1, drafts_result_of_formula hi, ho]
  rfl

/-- The text of a union that is read, or joined from unions that are read, is read again exactly
when the union has one part at most. Then the parts are read again, over dimensions that may have
other names. Of several parts the reader refuses the first semicolon. -/
theorem readMap_union_text {u : MapUnion} (h : u.IsObtained) : ∃ text, u.text? = some text ∧
    ((∃ v, (fromText .standard (readMap .standard none) text).result = .ok v) ↔ u.size ≤ 1) ∧
    (∀ v, (fromText .standard (readMap .standard none) text).result = .ok v →
      v.space.isCompatible u.space = true ∧
        List.Forall₂ BasicMap.IsRenamingOf v.parts u.parts) ∧
    (2 ≤ u.size → ∃ r : Refusal,
      (fromText .standard (readMap .standard none) text).result = .error (.refused r) ∧
        r.problem.kind = .unexpectedToken ∧ r.found = some ";") := by
  obtain ⟨hnamed, hpart, hspace⟩ := h.isStable
  refine ⟨u.text, h.isStable.text?, ?_⟩
  rw [fromText_standard]
  obtain ⟨space, parts⟩ := u
  match parts with
  | [] =>
    have hstable : (BasicMap.empty space).finalize.IsStable .standard :=
      BasicMap.isStable_empty hnamed rfl
    have htext : MapUnion.text ⟨space, []⟩ = (BasicMap.empty space).finalize.text := rfl
    have hread := readMap_of_isStable hstable
    have hempty : (BasicMap.empty space).finalize.flags.empty = true := rfl
    rw [hempty] at hread
    simp only [htext, hread]
    refine ⟨by simp [MapUnion.size], ?_, by simp [MapUnion.size]⟩
    rintro v ⟨⟩
    exact ⟨Space.isCompatible_iff.mpr ⟨rfl, rfl, rfl⟩, .nil⟩
  | [m] =>
    obtain ⟨hstable, hempty⟩ := hpart m (List.mem_singleton_self m)
    have htext : MapUnion.text ⟨space, [m]⟩ = m.text := by
      simp [MapUnion.text, BasicMap.text]
    have hread := readMap_of_isStable hstable
    rw [hempty] at hread
    simp only [htext, hread]
    refine ⟨by simp [MapUnion.size], ?_, by simp [MapUnion.size]⟩
    rintro v ⟨⟩
    exact ⟨hspace m (List.mem_singleton_self m), .cons m.isRenamingOf_renamed .nil⟩
  | m :: m' :: ms =>
    obtain ⟨hstable, -⟩ := hpart m List.mem_cons_self
    have htext : (MapUnion.text ⟨space, m :: m' :: ms⟩).toList =
        m.paramsText.toList ++ '{' :: ' ' :: (m.bodyText.toList ++ ';' :: (' ' ::
          ("; ".intercalate ((m' :: ms).map BasicMap.bodyText)).toList ++ [' ', '}'])) := by
      simp [MapUnion.text, String.intercalate_cons_cons]
    obtain ⟨r, hread, hproblem, hfound⟩ :=
      readMap_refuses_semicolon hstable.isNamed hstable.length .standard htext
    simp only [hread]
    refine ⟨by simp [MapUnion.size], by simp, fun _ => ⟨r, rfl, ?_, hfound⟩⟩
    rw [hproblem]
    rfl

/-- A union of what is read in both notations is not read again. -/
theorem readMap_union_text_both : ∃ u : MapUnion, u.IsObtained ∧ u.size = 2 ∧
    ∃ text, u.text? = some text ∧ text = "\x7b [i] : i >= 0; [o0] : 5 >= o0 \x7d" ∧
      ∃ r : Refusal, (fromText .standard (readMap .standard none) text).result =
        .error (.refused r) ∧ r.problem.kind = .unexpectedToken ∧ r.found = some ";" := by
  let m : BasicMap := ⟨⟨0, 0, 1, [], [], [some "i"]⟩, 0, [], [[0, 1]], [], ⟨false, true⟩⟩
  let m' : BasicMap := ⟨.unnamed 0 0 1, 0, [], [[5, -1]], [], ⟨false, true⟩⟩
  have hm : (readMap .standard none (.ofString "\x7b [i] : 0 <= i \x7d")).result =
      .ok ⟨m.space, [m]⟩ := by
    unfold m
    cbv
  have hm' : (readMap .standard none (.ofString "1 3\n1 -1 5")).result = .ok ⟨m'.space, [m']⟩ := by
    unfold m'
    cbv
  have hunion : MapUnion.IsObtained ⟨m.space, [m, m']⟩ :=
    .union (.read .start hm) (.read .start hm') rfl
  obtain ⟨text, htext, -, -, hrefused⟩ := readMap_union_text hunion
  refine ⟨_, hunion, rfl, text, htext, ?_, hrefused (Nat.le_refl 2)⟩
  exact (Option.some.inj htext).symm.trans (by unfold m m'; cbv)

end Reading
end ConstraintText

import ConstraintText.Proofs.FreshNames
import ConstraintText.Proofs.Meaning

/-!
# Printed rows are read back

A row is printed as two sides with the terms of its positive and of its negative coefficients. The
tokens of the text are those of a comparison whose sides differ by the value of the row at any
assignment, and rows with the same values are the same row.
-/
namespace ConstraintText

namespace Row
open Formula

inductive Part
  | multiple (magnitude : Nat) (name : String)
  | constant (magnitude : Nat)

namespace Part

def text : Part → String
  | multiple magnitude name => termText magnitude name
  | constant magnitude => toString magnitude

def value (ρ : String → Int) : Part → Int
  | multiple magnitude name => magnitude * ρ name
  | constant magnitude => magnitude

def IsOver (names : List String) : Part → Prop
  | multiple _ name => name ∈ names
  | constant _ => True

end Part

/-- The terms of one side. -/
def parts (positive : Bool) (row : Row) (names : List String) : List Part :=
  ((row.tail.zip names).filterMap fun (c, name) =>
    if c ≠ 0 ∧ decide (0 < c) = positive then some (.multiple c.natAbs name) else none) ++
  if row.constant ≠ 0 ∧ decide (0 < row.constant) = positive then
    [.constant row.constant.natAbs] else []

theorem map_text_parts (positive : Bool) (row : Row) (names : List String) :
    (parts positive row names).map Part.text =
      variableTerms positive row names ++ constantTerms positive row := by
  rw [parts, List.map_append, List.map_filterMap]
  congr 1
  · refine List.filterMap_congr fun ⟨c, name⟩ _ => ?_
    dsimp only
    split <;> rfl
  · rw [constantTerms]
    split <;> rfl

theorem isOver_of_mem_parts {positive : Bool} {row : Row} {names : List String} {part : Part}
    (h : part ∈ parts positive row names) : part.IsOver names := by
  rcases List.mem_append.mp h with h | h
  · obtain ⟨⟨c, name⟩, hmem, hpart⟩ := List.mem_filterMap.mp h
    simp only [Option.ite_none_right_eq_some, Option.some.injEq] at hpart
    rw [← hpart.2]
    exact (List.of_mem_zip hmem).2
  · split at h
    · rw [List.mem_singleton.mp h]
      trivial
    · simp at h

def partsValue (ρ : String → Int) (ps : List Part) : Int := (ps.map (Part.value ρ)).sum

@[simp] theorem partsValue_nil (ρ : String → Int) : partsValue ρ [] = 0 := rfl

@[simp] theorem partsValue_cons (ρ : String → Int) (part : Part) (ps : List Part) :
    partsValue ρ (part :: ps) = part.value ρ + partsValue ρ ps := by
  simp [partsValue]

@[simp] theorem partsValue_append (ρ : String → Int) (ps qs : List Part) :
    partsValue ρ (ps ++ qs) = partsValue ρ ps + partsValue ρ qs := by
  simp [partsValue]

/-- A number is its positive part less its negative part. -/
theorem sign_cases (c : Int) : c = 0 ∨ (0 < c ∧ (c.natAbs : Int) = c) ∨
    (c ≠ 0 ∧ ¬ 0 < c ∧ (c.natAbs : Int) = -c) := by
  omega

theorem value_constant (k : Int) (ρ : String → Int) :
    partsValue ρ (if k ≠ 0 ∧ decide (0 < k) = true then [.constant k.natAbs] else []) -
      partsValue ρ (if k ≠ 0 ∧ decide (0 < k) = false then [.constant k.natAbs] else []) = k := by
  rcases sign_cases k with rfl | ⟨hk, ha⟩ | ⟨h₀, hk, ha⟩
  · simp
  · simp [hk, hk.ne', Part.value, abs_of_pos hk]
  · simp [h₀, hk, Part.value, abs_of_nonpos (not_lt.mp hk)]

theorem value_variables (cs : List Int) (names : List String) (ρ : String → Int) :
    partsValue ρ ((cs.zip names).filterMap fun (c, name) =>
        if c ≠ 0 ∧ decide (0 < c) = true then some (.multiple c.natAbs name) else none) -
      partsValue ρ ((cs.zip names).filterMap fun (c, name) =>
        if c ≠ 0 ∧ decide (0 < c) = false then some (.multiple c.natAbs name) else none) =
      (cs.zipWith (· * ·) (names.map ρ)).sum := by
  induction cs generalizing names with
  | nil => simp
  | cons c cs ih =>
    cases names with
    | nil => simp
    | cons name names =>
      have hrest := ih names
      rw [List.zip_cons_cons, List.map_cons, List.zipWith_cons_cons, List.sum_cons,
        List.filterMap_cons, List.filterMap_cons, ← hrest]
      rcases sign_cases c with rfl | ⟨hc, ha⟩ | ⟨h₀, hc, ha⟩
      · simp
      · simp only [hc, hc.ne', ne_eq, not_false_eq_true, true_and, decide_true, if_true,
          Bool.true_eq_false, if_false, partsValue_cons, Part.value, ha]
        ring
      · simp only [hc, h₀, ne_eq, not_false_eq_true, true_and, decide_false, if_true,
          Bool.false_eq_true, if_false, partsValue_cons, Part.value, ha]
        ring

/-- What is added less what is subtracted is the value of the row. -/
theorem value_eq_parts (row : Row) (names : List String) (ρ : String → Int) :
    row.value (names.map ρ) =
      partsValue ρ (parts true row names) - partsValue ρ (parts false row names) := by
  have hconstant := value_constant row.constant ρ
  have hvariables := value_variables row.tail names ρ
  rw [parts, parts, partsValue_append, partsValue_append, value, ← hvariables]
  conv_lhs => rw [← hconstant]
  ring

theorem exists_map_eq {names : List String} (hn : names.Nodup) {cs : List Int}
    (h : cs.length = names.length) : ∃ g : String → Int, cs = names.map g := by
  induction names generalizing cs with
  | nil => exact ⟨fun _ => 0, by simpa using h⟩
  | cons name names ih =>
    obtain ⟨c, cs, rfl⟩ := List.exists_cons_of_length_eq_add_one h
    rw [List.nodup_cons] at hn
    obtain ⟨g, rfl⟩ := ih hn.2 (by simpa using h)
    refine ⟨fun n => if n = name then c else g n, ?_⟩
    rw [List.map_cons, if_pos rfl]
    congr 1
    refine List.map_congr_left fun n hmem => ?_
    have hne : n ≠ name := by
      rintro rfl
      exact hn.1 hmem
    rw [if_neg hne]

/-- Rows over distinct names are told apart by their values. -/
theorem eq_of_value_eq {names : List String} (hn : names.Nodup) {a b : Row}
    (ha : a.length = names.length + 1) (hb : b.length = names.length + 1)
    (h : ∀ ρ : String → Int, a.value (names.map ρ) = b.value (names.map ρ)) : a = b := by
  obtain ⟨k, as, rfl⟩ := List.exists_cons_of_length_eq_add_one ha
  obtain ⟨l, bs, rfl⟩ := List.exists_cons_of_length_eq_add_one hb
  obtain ⟨f, rfl⟩ := exists_map_eq hn (by simpa using ha)
  obtain ⟨g, rfl⟩ := exists_map_eq hn (by simpa using hb)
  simp only [value_cons_map] at h
  have hconstant : k = l := by simpa using h fun _ => 0
  have hcoefficient : ∀ name ∈ names, f name = g name := by
    intro name hm
    have hsum : ∀ u : String → Int,
        (names.map fun n => u n * if name = n then 1 else 0).sum = u name := by
      intro u
      have := sum_map_ite hn hm 1 u
      rw [one_mul] at this
      rw [← this]
      simp only [mul_comm]
    have hname := h fun n => if name = n then 1 else 0
    rwa [hsum, hsum, hconstant, add_right_inj] at hname
  rw [hconstant, List.map_congr_left hcoefficient]

def addedText (ps : List Part) : List Char := ps.flatMap fun p => [' ', '+', ' '] ++ p.text.toList

theorem ne_empty_of_isIdentifier {name : String} (h : IsIdentifier name) : name ≠ "" := by
  rintro rfl
  obtain ⟨c, cs, hname, -⟩ := h
  simp at hname

theorem toString_ne_empty (n : Nat) : toString n ≠ "" := by
  intro h
  have := congrArg String.toList h
  simp [Nat.toDigits_ne_nil] at this

variable {names : List String}

theorem text_ne_empty (hi : ∀ name ∈ names, IsIdentifier name) {part : Part}
    (ho : part.IsOver names) : part.text ≠ "" := by
  cases part with
  | constant n => exact toString_ne_empty n
  | multiple n name =>
    have hname := ne_empty_of_isIdentifier (hi name ho)
    simp only [Part.text, termText]
    split
    · exact hname
    · simp

theorem toList_foldl_addTerm (ps : List Part) {side : String} (hs : side ≠ "") :
    ((ps.map Part.text).foldl addTerm side).toList = side.toList ++ addedText ps := by
  induction ps generalizing side with
  | nil => simp [addedText]
  | cons part ps ih =>
    rw [List.map_cons, List.foldl_cons, addTerm, if_neg hs, ih (by simp [hs])]
    simp [addedText]

theorem toList_sideText (hi : ∀ name ∈ names, IsIdentifier name) (positive : Bool) (row : Row) :
    (row.sideText positive names).toList =
      match parts positive row names with
      | [] => ['0']
      | part :: ps => part.text.toList ++ addedText ps := by
  have ho : ∀ part ∈ parts positive row names, part.IsOver names :=
    fun part hp => isOver_of_mem_parts hp
  rw [sideText, ← map_text_parts]
  cases hps : parts positive row names with
  | nil => simp
  | cons part ps =>
    rw [hps, List.forall_mem_cons] at ho
    have hne := text_ne_empty hi ho.1
    have hfold := toList_foldl_addTerm ps hne
    have hfirst : addTerm "" part.text = part.text := by simp [addTerm]
    have hside : (ps.map Part.text).foldl addTerm part.text ≠ "" := by
      intro he
      rw [he] at hfold
      simp [hne] at hfold
    simp only [List.map_cons, List.foldl_cons, hfirst, if_neg hside, hfold]

theorem isDigit_of_isIdentifier {name : String} (h : IsIdentifier name) (rest : List Char) :
    ∀ c ∈ (name.toList ++ rest).head?, c.isDigit = false := by
  obtain ⟨c, cs, hname, -, hc, -⟩ := h
  simp only [Cut.opensWord, Bool.and_eq_true, Bool.not_eq_true'] at hc
  simpa [hname] using hc.1.2

/-- A printed term is read as a term of the same value, if no name follows it. -/
theorem scan_part (hi : ∀ name ∈ names, IsIdentifier name) {part : Part}
    (ho : part.IsOver names) {s : Scanner} {rest : List Char} (hr : Breaks rest)
    (h : s.Faces (part.text.toList ++ rest)) :
    ∃ term ts s', s.Scans ts s' ∧ s'.Faces rest ∧
      (∀ terms us, DerivesSide terms us → (∀ u ∈ us.head?, u.kind ≠ .identifier) →
        DerivesSide (term :: terms) (ts ++ us)) ∧
      (∀ ρ, term.value ρ = part.value ρ) ∧ ∀ t ∈ term.used, t.lexeme ∈ names := by
  cases part with
  | constant n =>
    obtain ⟨t, s', hs, hk, hv, hf⟩ := Scanner.Faces.number hr.isDigit h
    exact ⟨.number n, [t], s', hs, hf, fun terms us hd hu => .number hk hv hu hd, fun ρ => rfl,
      by simp [Term.used]⟩
  | multiple n name =>
    have hmem : name ∈ names := ho
    have hname := hi name hmem
    by_cases hn : n = 1
    · subst hn
      obtain ⟨t, s', hs, hk, hl, hf⟩ := Scanner.Faces.identifier hname hr h
      refine ⟨.name t, [t], s', hs, hf, fun terms us hd _ => .name hk hd, fun ρ => ?_, ?_⟩
      · simp [Term.value, Part.value, hl]
      · simpa [Term.used, hl] using hmem
    · have htext : (Part.multiple n name).text.toList ++ rest =
          (toString n).toList ++ (name.toList ++ rest) := by
        simp only [Part.text, termText, if_neg hn, String.toList_append, List.append_assoc]
      rw [htext] at h
      obtain ⟨t, s₁, hs₁, hk, hv, hf₁⟩ :=
        Scanner.Faces.number (isDigit_of_isIdentifier hname rest) h
      obtain ⟨u, s', hs, hku, hl, hf⟩ := Scanner.Faces.identifier hname hr hf₁
      refine ⟨.multiple n u, [t, u], s', hs₁.append hs, hf,
        fun terms us hd _ => .multiple hk hv hku hd, fun ρ => ?_, ?_⟩
      · simp [Term.value, Part.value, hl]
      · simpa [Term.used, hl] using hmem

theorem breaks_addedText (ps : List Part) {rest : List Char} (hr : Breaks rest) :
    Breaks (addedText ps ++ rest) := by
  cases ps with
  | nil => exact hr
  | cons part ps => exact breaks_cons (by decide) _

theorem sideValue_cons (ρ : String → Int) (term : Term) (terms : List Term) :
    sideValue ρ (term :: terms) = term.value ρ + sideValue ρ terms := by
  simp [sideValue]

theorem scan_addedText (hi : ∀ name ∈ names, IsIdentifier name) {ps : List Part}
    (ho : ∀ part ∈ ps, part.IsOver names) {s : Scanner} {rest : List Char} (hr : Breaks rest)
    (h : s.Faces (addedText ps ++ rest)) :
    ∃ terms ts s', s.Scans ts s' ∧ s'.Faces rest ∧ DerivesSide terms ts ∧
      (∀ u ∈ ts.head?, u.kind ≠ .identifier) ∧ (∀ ρ, sideValue ρ terms = partsValue ρ ps) ∧
      ∀ t ∈ usedBy terms, t.lexeme ∈ names := by
  induction ps generalizing s with
  | nil =>
    exact ⟨[], [], s, .nil s, h, .empty, by simp, fun ρ => by simp [sideValue], by simp [usedBy]⟩
  | cons part ps ih =>
    rw [List.forall_mem_cons] at ho
    have htext : addedText (part :: ps) ++ rest =
        ' ' :: '+' :: ' ' :: (part.text.toList ++ (addedText ps ++ rest)) := by
      simp [addedText]
    rw [htext, Scanner.faces_space] at h
    obtain ⟨plus, s₁, hs₁, hplus, hf₁⟩ := h.symbol rfl
    rw [Scanner.faces_space] at hf₁
    obtain ⟨term, ts, s₂, hs₂, hf₂, hd, hv, hu⟩ :=
      scan_part hi ho.1 (breaks_addedText ps hr) hf₁
    obtain ⟨terms, us, s', hs', hf', hds, hhead, hvs, hus⟩ := ih ho.2 hf₂
    refine ⟨.plus :: term :: terms, plus :: (ts ++ us), s', hs₁.append (hs₂.append hs'), hf',
      .plus hplus (hd terms us hds hhead), ?_, fun ρ => ?_, ?_⟩
    · simp [hplus]
    · rw [sideValue_cons, sideValue_cons, hv, hvs, partsValue_cons, Term.value, zero_add]
    · intro t ht
      simp only [usedBy, List.flatMap_cons, Term.used, List.nil_append, List.mem_append] at ht
      exact ht.elim (hu t) (hus t)

theorem scan_side (hi : ∀ name ∈ names, IsIdentifier name) (positive : Bool) (row : Row)
    {s : Scanner} {rest : List Char} (hr : Breaks rest)
    (h : s.Faces ((row.sideText positive names).toList ++ rest)) :
    ∃ terms ts s', s.Scans ts s' ∧ s'.Faces rest ∧ DerivesSide terms ts ∧
      (∀ ρ, sideValue ρ terms = partsValue ρ (parts positive row names)) ∧
      ∀ t ∈ usedBy terms, t.lexeme ∈ names := by
  have ho : ∀ part ∈ parts positive row names, part.IsOver names :=
    fun part hp => isOver_of_mem_parts hp
  rw [toList_sideText hi] at h
  cases hps : parts positive row names with
  | nil =>
    simp only [hps] at h
    have hzero : s.Faces ((toString 0).toList ++ rest) := h
    obtain ⟨t, s', hs, hk, hv, hf⟩ := Scanner.Faces.number hr.isDigit hzero
    exact ⟨[.number 0], [t], s', hs, hf, .number hk hv (by simp) .empty,
      fun ρ => by simp [sideValue, Term.value], by simp [usedBy, Term.used]⟩
  | cons part ps =>
    simp only [hps, List.append_assoc] at h
    rw [hps, List.forall_mem_cons] at ho
    obtain ⟨term, ts, s₁, hs₁, hf₁, hd, hv, hu⟩ :=
      scan_part hi ho.1 (breaks_addedText ps hr) h
    obtain ⟨terms, us, s', hs', hf', hds, hhead, hvs, hus⟩ := scan_addedText hi ho.2 hr hf₁
    refine ⟨term :: terms, ts ++ us, s', hs₁.append hs', hf', hd terms us hds hhead, fun ρ => ?_,
      fun t ht => ?_⟩
    · rw [sideValue_cons, hv, hvs, partsValue_cons]
    · simp only [usedBy, List.flatMap_cons, List.mem_append] at ht
      exact ht.elim (hu t) (hus t)

def relation : ConstraintKind → Operator
  | .equality => .equal
  | .inequality => .greaterEqual

theorem scan_relation (kind : ConstraintKind) {s : Scanner} {cs : List Char}
    (h : s.Faces ((match kind with | .equality => " = " | .inequality => " >= ").toList ++ cs)) :
    ∃ t s', s.Scans [t] s' ∧ t.kind = (relation kind).kind ∧ s'.Faces cs := by
  cases kind with
  | equality =>
    have hface : s.Faces (' ' :: '=' :: ' ' :: cs) := h
    rw [Scanner.faces_space] at hface
    obtain ⟨t, s', hs, hk, hf⟩ := hface.symbol rfl
    exact ⟨t, s', hs, hk, by simpa using hf⟩
  | inequality =>
    have hface : s.Faces (' ' :: '>' :: '=' :: ' ' :: cs) := h
    rw [Scanner.faces_space] at hface
    obtain ⟨t, s', hs, hk, hf⟩ := hface.greaterEqual
    exact ⟨t, s', hs, hk, by simpa using hf⟩

theorem breaks_relation (kind : ConstraintKind) (cs : List Char) :
    Breaks ((match kind with | .equality => " = " | .inequality => " >= ").toList ++ cs) := by
  cases kind <;> exact breaks_cons (by decide) _

/-- A printed row is read as a comparison with the same row. -/
theorem scan_row (hn : names.Nodup) (hi : ∀ name ∈ names, IsIdentifier name) {row : Row}
    (hl : row.length = names.length + 1) (kind : ConstraintKind) {s : Scanner}
    {rest : List Char} (hr : Breaks rest) (h : s.Faces ((row.text kind names).toList ++ rest)) :
    ∃ c ts s', s.Scans ts s' ∧ s'.Faces rest ∧ (Condition.comparison c).Derives ts ∧
      c.kind = kind ∧ c.row names = row ∧ ∀ t ∈ c.used, t.lexeme ∈ names := by
  simp only [text, String.toList_append, List.append_assoc] at h
  obtain ⟨left, ls, s₁, hs₁, hf₁, hdl, hvl, hul⟩ :=
    scan_side hi true row (breaks_relation kind _) h
  obtain ⟨operator, s₂, hs₂, hk, hf₂⟩ := scan_relation kind hf₁
  obtain ⟨right, rs, s', hs', hf', hdr, hvr, hur⟩ := scan_side hi false row hr hf₂
  have hused : ∀ t ∈ Comparison.used ⟨left, relation kind, right⟩, t.lexeme ∈ names := by
    intro t ht
    rw [Comparison.used, List.mem_append] at ht
    exact ht.elim (hul t) (hur t)
  refine ⟨⟨left, relation kind, right⟩, ls ++ operator :: rs, s', hs₁.append (hs₂.append hs'), hf',
    .comparison hdl hk hdr, by cases kind <;> rfl, ?_, hused⟩
  refine eq_of_value_eq hn (Comparison.length_row _ _) hl fun ρ => ?_
  rw [Comparison.value_row hn hused, value_eq_parts, hvl, hvr]
  cases kind <;> rfl

end Row
end ConstraintText

import ConstraintText.Proofs.Interpretation
import ConstraintText.Proofs.PrintedRows

/-!
# Printed basic maps are read back

The text of a basic map is that of a formula whose tuples and block declare the names of its
columns and whose comparisons have its rows. Where a system with existentials has no rows the text
has the row `0 = 0`, which is read back as a row of zeros.
-/
namespace ConstraintText.BasicMap
open Formula Occurrence Scanner

/-- The space that is read back: counts as before, and a stored name for each dimension. -/
def printedSpace (m : BasicMap) : Space :=
  Names.toSpace ⟨m.space.allNames⟩ m.space.nParam m.space.nIn m.space.nOut

/-- The rows that are printed. -/
def printedConstraints (m : BasicMap) : List Constraint :=
  if 0 < m.nDiv ∧ m.constraints = [] then [⟨.equality, Row.zeros m.rowLength⟩] else m.constraints

/-- The system that is read back. -/
def reread (m : BasicMap) : BasicMap :=
  ⟨m.printedSpace, m.nDiv, if 0 < m.nDiv ∧ m.constraints = [] then [Row.zeros m.rowLength]
    else m.equalities, m.inequalities, List.replicate m.nDiv (Row.zeros (1 + m.rowLength)),
    ⟨false, false⟩⟩

theorem scan_names {ns : List String} (hi : ∀ name ∈ ns, IsIdentifier name) {s : Scanner}
    {rest : List Char} (hr : Breaks rest) (h : s.Faces ((", ".intercalate ns).toList ++ rest)) :
    ∃ ids ts s', s.Scans ts s' ∧ s'.Faces rest ∧ DerivesNames ids ts ∧
      ids.map (·.lexeme) = ns := by
  induction ns generalizing s with
  | nil => exact ⟨[], [], s, .nil s, by simpa using h, .empty, rfl⟩
  | cons name ns ih =>
    rw [List.forall_mem_cons] at hi
    cases ns with
    | nil =>
      rw [String.intercalate_singleton] at h
      obtain ⟨t, s', hs, hk, hl, hf⟩ := Faces.identifier hi.1 hr h
      exact ⟨[t], [t], s', hs, hf, .last hk, by simp [hl]⟩
    | cons second ns =>
      have htext : (", ".intercalate (name :: second :: ns)).toList ++ rest =
          name.toList ++ ',' :: ' ' :: ((", ".intercalate (second :: ns)).toList ++ rest) := by
        simp [String.intercalate_cons_cons]
      rw [htext] at h
      obtain ⟨t, s₁, hs₁, hk, hl, hf₁⟩ := Faces.identifier hi.1 (breaks_cons (by decide) _) h
      obtain ⟨comma, s₂, hs₂, hc, hf₂⟩ := hf₁.symbol rfl
      rw [faces_space] at hf₂
      obtain ⟨ids, ts, s', hs', hf', hd, hids⟩ := ih hi.2 hf₂
      exact ⟨t :: ids, t :: comma :: ts, s', hs₁.append (hs₂.append hs'), hf', .more hk hc hd,
        by simp [hl, hids]⟩

theorem scan_tuple {ns : List String} (hi : ∀ name ∈ ns, IsIdentifier name) {s : Scanner}
    {rest : List Char} (h : s.Faces ((tupleText ns).toList ++ rest)) :
    ∃ ids ts s', s.Scans ts s' ∧ s'.Faces rest ∧ DerivesTuple ids ts ∧
      ids.map (·.lexeme) = ns := by
  have htext : (tupleText ns).toList ++ rest =
      '[' :: ((", ".intercalate ns).toList ++ ']' :: rest) := by
    simp [tupleText]
  rw [htext] at h
  obtain ⟨opening, s₁, hs₁, ho, hf₁⟩ := h.symbol rfl
  obtain ⟨ids, ts, s₂, hs₂, hf₂, hd, hids⟩ := scan_names hi (breaks_cons (by decide) _) hf₁
  obtain ⟨closing, s', hs', hc, hf'⟩ := hf₂.symbol rfl
  exact ⟨ids, opening :: ts ++ [closing], s', hs₁.append (hs₂.append hs'), hf', .intro ho hd hc,
    hids⟩

theorem isIdentifier_groupNames {space : Space} (h : ∀ name ∈ space.allNames, IsIdentifier name)
    {kind : DimKind} (hk : kind ≠ .existential) {name : String}
    (hn : name ∈ space.groupNames kind) : IsIdentifier name := by
  refine h name ?_
  cases kind <;> simp_all [Space.allNames]

variable {m : BasicMap}

theorem scan_params (hi : ∀ name ∈ m.space.allNames, IsIdentifier name) {s : Scanner}
    {rest : List Char} (h : s.Faces (m.paramsText.toList ++ rest)) :
    ∃ params ts s', s.Scans ts s' ∧ s'.Faces rest ∧ DerivesParams params ts ∧
      (params.getD []).map (·.lexeme) = m.space.groupNames .param ∧
      paramCount params none = m.space.nParam := by
  have hlength := m.space.length_groupNames .param
  by_cases h₀ : m.space.nParam = 0
  · rw [paramsText, if_pos h₀] at h
    refine ⟨none, [], s, .nil s, h, .absent, ?_, h₀.symm⟩
    exact (List.eq_nil_of_length_eq_zero (hlength.trans h₀)).symm
  · have htext : m.paramsText.toList ++ rest =
        (tupleText (m.space.groupNames .param)).toList ++ ' ' :: '-' :: '>' :: ' ' :: rest := by
      simp [paramsText, h₀]
    rw [htext] at h
    obtain ⟨ids, ts, s₁, hs₁, hf₁, hd, hids⟩ :=
      scan_tuple (fun _ hm => isIdentifier_groupNames hi (by decide) hm) h
    rw [faces_space] at hf₁
    obtain ⟨arrow, s', hs', ha, hf'⟩ := hf₁.arrow
    refine ⟨some ids, ts ++ [arrow], s', hs₁.append hs', by simpa using hf', .present hd ha,
      hids, ?_⟩
    have hcount := congrArg List.length hids
    rw [List.length_map, hlength] at hcount
    exact hcount

theorem scan_tuples (hi : ∀ name ∈ m.space.allNames, IsIdentifier name) {s : Scanner}
    {rest : List Char} (h : s.Faces (m.tuplesText.toList ++ rest)) :
    ∃ first fs second ss s', s.Scans (fs ++ ss) s' ∧ s'.Faces rest ∧ DerivesTuple first fs ∧
      DerivesSecond second ss ∧
      (first ++ second.getD []).map (·.lexeme) =
        m.space.groupNames .input ++ m.space.groupNames .output ∧
      m.space.nIn = match second with | none => 0 | some _ => first.length := by
  have hinput := m.space.length_groupNames .input
  by_cases h₀ : m.isSet = true
  · have hcount : m.space.nIn = 0 := by simpa [isSet, Space.isSet] using h₀
    have hnil := List.eq_nil_of_length_eq_zero (hinput.trans hcount)
    have htext : m.tuplesText = tupleText (m.space.groupNames .output) := by
      simp [tuplesText, h₀]
    rw [htext] at h
    obtain ⟨ids, ts, s', hs', hf', hd, hids⟩ :=
      scan_tuple (fun _ hm => isIdentifier_groupNames hi (by decide) hm) h
    exact ⟨ids, ts, none, [], s', by simpa using hs', hf', hd, .absent, by simp [hids, hnil],
      hcount⟩
  · have htext : m.tuplesText.toList ++ rest = (tupleText (m.space.groupNames .input)).toList ++
        ' ' :: '-' :: '>' :: ' ' :: ((tupleText (m.space.groupNames .output)).toList ++ rest) := by
      simp [tuplesText, h₀]
    rw [htext] at h
    obtain ⟨ids, ts, s₁, hs₁, hf₁, hd, hids⟩ :=
      scan_tuple (fun _ hm => isIdentifier_groupNames hi (by decide) hm) h
    rw [faces_space] at hf₁
    obtain ⟨arrow, s₂, hs₂, ha, hf₂⟩ := hf₁.arrow
    rw [faces_space] at hf₂
    obtain ⟨ids', ts', s', hs', hf', hd', hids'⟩ :=
      scan_tuple (fun _ hm => isIdentifier_groupNames hi (by decide) hm) hf₂
    have hcount := congrArg List.length hids
    rw [List.length_map, hinput] at hcount
    exact ⟨ids, ts, some ids', arrow :: ts', s', hs₁.append (hs₂.append hs'), hf', hd,
      .present ha hd', by simp [hids, hids'], hcount.symm⟩

def constraintOf (names : List String) (c : Comparison) : Constraint := ⟨c.kind, c.row names⟩

/-- Printed rows are read as a conjunction of comparisons with the same rows. -/
theorem scan_conjunction {names : List String} (hn : names.Nodup)
    (hi : ∀ name ∈ names, IsIdentifier name) {cs : List Constraint} (hne : cs ≠ [])
    (hl : ∀ c ∈ cs, c.coeffs.length = names.length + 1) {s : Scanner} {rest : List Char}
    (hr : Breaks rest)
    (h : s.Faces ((" and ".intercalate (cs.map fun c => c.coeffs.text c.kind names)).toList ++
      rest)) :
    ∃ (condition : Condition) (ts : List Token) (s' : Scanner) (us : List Token),
      s.Scans ts s' ∧ s'.Faces rest ∧ condition.Derives ts ∧
      condition.comparisons.map (constraintOf names) = cs ∧
      condition.occurrences = us.map .uses ∧ ∀ t ∈ us, t.lexeme ∈ names := by
  induction cs generalizing s with
  | nil => exact absurd rfl hne
  | cons c cs ih =>
    rw [List.forall_mem_cons] at hl
    cases cs with
    | nil =>
      rw [List.map_singleton, String.intercalate_singleton] at h
      obtain ⟨d, ts, s', hs', hf', hd, hk, hrow, hu⟩ := Row.scan_row hn hi hl.1 c.kind hr h
      exact ⟨.comparison d, ts, s', d.used, hs', hf', hd,
        by simp [Condition.comparisons, constraintOf, hk, hrow], rfl, hu⟩
    | cons c' cs =>
      have htext : (" and ".intercalate ((c :: c' :: cs).map fun c =>
          c.coeffs.text c.kind names)).toList ++ rest =
          (c.coeffs.text c.kind names).toList ++ ' ' :: 'a' :: 'n' :: 'd' :: ' ' ::
            ((" and ".intercalate ((c' :: cs).map fun c =>
              c.coeffs.text c.kind names)).toList ++ rest) := by
        simp [String.intercalate_cons_cons]
      rw [htext] at h
      obtain ⟨d, ts, s₁, hs₁, hf₁, hd, hk, hrow, hu⟩ :=
        Row.scan_row hn hi hl.1 c.kind (breaks_cons (by decide) _) h
      rw [faces_space] at hf₁
      obtain ⟨word, s₂, hs₂, hw, hf₂⟩ := hf₁.andWord (breaks_cons (by decide) _)
      rw [faces_space] at hf₂
      obtain ⟨condition, ts', s', us, hs', hf', hd', hcs, ho, hus⟩ := ih (by simp) hl.2 hf₂
      refine ⟨.both (.comparison d) condition, ts ++ word :: ts', s', d.used ++ us,
        hs₁.append (hs₂.append hs'), hf', .both trivial hd hw hd', ?_, ?_, ?_⟩
      · simp [Condition.comparisons, constraintOf, hk, hrow, ← hcs]
      · simp [Condition.occurrences, ho]
      · simpa [or_imp, forall_and] using ⟨hu, hus⟩

theorem text_zeros (n : Nat) (names : List String) :
    (Row.zeros n).text .equality names = "0 = 0" := by
  have hconstant : (Row.zeros n).constant = 0 := by cases n <;> rfl
  have hvariables : ∀ positive, Row.variableTerms positive (Row.zeros n) names = [] := by
    intro positive
    refine List.filterMap_eq_nil_iff.mpr fun ⟨c, name⟩ hc => ?_
    have hzero : c = 0 := by
      have hmem := List.mem_of_mem_tail (List.of_mem_zip hc).1
      exact List.eq_of_mem_replicate hmem
    simp [hzero]
  simp [Row.text, Row.sideText, hvariables, Row.constantTerms, hconstant]

def rowsText (m : BasicMap) : String :=
  " and ".intercalate (m.printedConstraints.map fun c => c.coeffs.text c.kind m.columnNames)

theorem conditionText_of_pos (h : 0 < m.nDiv) : m.conditionText =
    " : exists (" ++ ", ".intercalate m.existentialNames ++ " : " ++ m.rowsText ++ ")" := by
  by_cases h₀ : m.constraints = []
  · simp [conditionText, rowsText, printedConstraints, rowTexts, h, h₀, text_zeros]
  · simp [conditionText, rowsText, printedConstraints, rowTexts, h, h₀]

theorem conditionText_of_nDiv_eq_zero (h : m.nDiv = 0) : m.conditionText =
    if m.constraints = [] then "" else " : " ++ m.rowsText := by
  by_cases h₀ : m.constraints = []
  · simp [conditionText, rowTexts, h, h₀]
  · simp [conditionText, rowsText, printedConstraints, rowTexts, h, h₀]

theorem length_of_mem_printedConstraints
    (hl : ∀ c ∈ m.constraints, c.coeffs.length = m.rowLength) :
    ∀ c ∈ m.printedConstraints, c.coeffs.length = m.columnNames.length + 1 := by
  intro c hc
  have hlength : m.columnNames.length + 1 = m.rowLength := by
    rw [length_columnNames, rowLength, Nat.add_comm]
  rw [hlength]
  rw [printedConstraints] at hc
  split at hc
  · rw [List.mem_singleton.mp hc]
    simp [Row.zeros]
  · exact hl c hc

theorem printedConstraints_ne_nil (h : 0 < m.nDiv ∨ m.constraints ≠ []) :
    m.printedConstraints ≠ [] := by
  rw [printedConstraints]
  split
  · simp
  · rename_i hc
    exact h.elim (fun hpos he => hc ⟨hpos, he⟩) id

/-- What the printed condition is read as: the names of the existentials are declared in front of
comparisons that have the printed rows. -/
structure IsPrintedAs (m : BasicMap) (condition : Option Condition) (ids us : List Token) :
    Prop where
  comparisons : ((condition.map Condition.comparisons).getD []).map (constraintOf m.columnNames) =
    m.printedConstraints
  occurrences : (condition.map Condition.occurrences).getD [] = ids.map .declares ++ us.map .uses
  names : ids.map (·.lexeme) = m.existentialNames
  used : ∀ t ∈ us, t.lexeme ∈ m.columnNames

theorem scan_rows (hn : m.space.IsNamed) (hl : ∀ c ∈ m.constraints, c.coeffs.length = m.rowLength)
    (hne : 0 < m.nDiv ∨ m.constraints ≠ []) {s : Scanner} {rest : List Char} (hr : Breaks rest)
    (h : s.Faces (m.rowsText.toList ++ rest)) :
    ∃ (condition : Condition) (ts : List Token) (s' : Scanner) (us : List Token),
      s.Scans ts s' ∧ s'.Faces rest ∧ condition.Derives ts ∧
      condition.comparisons.map (constraintOf m.columnNames) = m.printedConstraints ∧
      condition.occurrences = us.map .uses ∧ ∀ t ∈ us, t.lexeme ∈ m.columnNames :=
  scan_conjunction (nodup_columnNames hn) (fun _ hm => isIdentifier_columnNames hn hm)
    (printedConstraints_ne_nil hne) (length_of_mem_printedConstraints hl) hr h

theorem scan_block (hn : m.space.IsNamed)
    (hl : ∀ c ∈ m.constraints, c.coeffs.length = m.rowLength) (hpos : 0 < m.nDiv) {s : Scanner}
    {rest : List Char} (h : s.Faces (m.conditionText.toList ++ rest)) :
    ∃ (condition : Option Condition) (ts : List Token) (s' : Scanner) (ids us : List Token),
      s.Scans ts s' ∧ s'.Faces rest ∧ DerivesClause condition ts ∧
      m.IsPrintedAs condition ids us := by
  have htext : m.conditionText.toList ++ rest = ' ' :: ':' :: ' ' :: 'e' :: 'x' :: 'i' :: 's' ::
      't' :: 's' :: ' ' :: '(' :: ((", ".intercalate m.existentialNames).toList ++
        ' ' :: ':' :: ' ' :: (m.rowsText.toList ++ ')' :: rest)) := by
    simp [conditionText_of_pos hpos]
  rw [htext, faces_space] at h
  obtain ⟨colon, s₁, hs₁, hc, hf₁⟩ := h.symbol rfl
  rw [faces_space] at hf₁
  obtain ⟨word, s₂, hs₂, hw, hf₂⟩ := hf₁.existsWord (breaks_cons (by decide) _)
  rw [faces_space] at hf₂
  obtain ⟨opening, s₃, hs₃, ho, hf₃⟩ := hf₂.symbol rfl
  obtain ⟨ids, ns, s₄, hs₄, hf₄, hd, hids⟩ :=
    scan_names (fun _ hm => isIdentifier_existentialNames hm) (breaks_cons (by decide) _) hf₃
  rw [faces_space] at hf₄
  obtain ⟨colon', s₅, hs₅, hc', hf₅⟩ := hf₄.symbol rfl
  rw [faces_space] at hf₅
  obtain ⟨body, ts, s₆, us, hs₆, hf₆, hb, hcs, hos, hus⟩ :=
    scan_rows hn hl (.inl hpos) (breaks_cons (by decide) _) hf₅
  obtain ⟨closing, s', hs', he, hf'⟩ := hf₆.symbol rfl
  have hscans := hs₁.append (hs₂.append (hs₃.append (hs₄.append (hs₅.append
    (hs₆.append hs')))))
  refine ⟨some (.block true ids body), _, s', ids, us, hscans, hf', ?_, hcs, ?_, hids, hus⟩
  · have := DerivesClause.present hc (.parens hw ho hd hc' hb he)
    simpa using this
  · simp [Condition.occurrences, hos]

theorem scan_rows_clause (hn : m.space.IsNamed)
    (hl : ∀ c ∈ m.constraints, c.coeffs.length = m.rowLength) (hzero : m.nDiv = 0) {s : Scanner}
    {rest : List Char} (hr : Breaks rest) (h : s.Faces (m.conditionText.toList ++ rest)) :
    ∃ (condition : Option Condition) (ts : List Token) (s' : Scanner) (ids us : List Token),
      s.Scans ts s' ∧ s'.Faces rest ∧ DerivesClause condition ts ∧
      m.IsPrintedAs condition ids us := by
  have hnames : m.existentialNames = [] :=
    List.eq_nil_of_length_eq_zero ((length_freshNames _ _).trans hzero)
  rw [conditionText_of_nDiv_eq_zero hzero] at h
  by_cases h₀ : m.constraints = []
  · rw [if_pos h₀] at h
    refine ⟨none, [], s, [], [], .nil s, by simpa using h, .absent, ?_, rfl, by simp [hnames],
      by simp⟩
    simp [printedConstraints, hzero, h₀]
  · have htext : (" : " ++ m.rowsText).toList ++ rest =
        ' ' :: ':' :: ' ' :: (m.rowsText.toList ++ rest) := by simp
    rw [if_neg h₀, htext, faces_space] at h
    obtain ⟨colon, s₁, hs₁, hc, hf₁⟩ := h.symbol rfl
    rw [faces_space] at hf₁
    obtain ⟨body, ts, s', us, hs', hf', hb, hcs, hos, hus⟩ := scan_rows hn hl (.inr h₀) hr hf₁
    exact ⟨some body, colon :: ts, s', [], us, hs₁.append hs', hf', .present hc hb, hcs,
      by simp [hos], by simp [hnames], hus⟩

theorem scan_condition (hn : m.space.IsNamed)
    (hl : ∀ c ∈ m.constraints, c.coeffs.length = m.rowLength) {s : Scanner} {rest : List Char}
    (hr : Breaks rest) (h : s.Faces (m.conditionText.toList ++ rest)) :
    ∃ (condition : Option Condition) (ts : List Token) (s' : Scanner) (ids us : List Token),
      s.Scans ts s' ∧ s'.Faces rest ∧ DerivesClause condition ts ∧
      m.IsPrintedAs condition ids us := by
  by_cases hzero : m.nDiv = 0
  · exact scan_rows_clause hn hl hzero hr h
  · exact scan_block hn hl (Nat.pos_of_ne_zero hzero) h

theorem rowsOf_eq (kind : ConstraintKind) (names : List String) (cs : List Comparison) :
    rowsOf kind names cs =
      ((cs.map (constraintOf names)).filter (·.kind = kind)).map (·.coeffs) := by
  rw [List.filter_map, List.map_map, rowsOf]
  rfl

theorem filter_constraints (m : BasicMap) (kind : ConstraintKind) :
    (m.constraints.filter (·.kind = kind)).map (·.coeffs) = m.rows kind := by
  cases kind <;> simp [constraints, rows, List.filter_map, Function.comp_def]

theorem filter_printedConstraints (m : BasicMap) (kind : ConstraintKind) :
    (m.printedConstraints.filter (·.kind = kind)).map (·.coeffs) = m.reread.rows kind := by
  by_cases h : 0 < m.nDiv ∧ m.constraints = []
  · have hnil : m.inequalities = [] := by
      have := h.2
      simp only [constraints, List.append_eq_nil_iff, List.map_eq_nil_iff] at this
      exact this.2
    cases kind <;> simp [printedConstraints, reread, rows, h, hnil]
  · have hfilter := filter_constraints m kind
    rw [printedConstraints, if_neg h, hfilter]
    cases kind <;> simp [reread, rows, h]

theorem offence?_declares {ids : List Token} (h : (ids.map (·.lexeme)).Nodup) :
    offence? [] (ids.map .declares) = none := by
  refine offence?_eq_none_iff.mpr fun before o after he ho => ?_
  cases o with
  | declares t =>
    rw [← declared_declares, he] at h
    exact not_offends_declares h ho
  | uses t =>
    have hmem : uses t ∈ ids.map declares := by rw [he]; simp
    simp at hmem

theorem offence?_uses {names : List String} {us : List Token} (h : ∀ t ∈ us, t.lexeme ∈ names) :
    offence? names (us.map .uses) = none := by
  induction us with
  | nil => rfl
  | cons t us ih =>
    rw [List.forall_mem_cons] at h
    rw [List.map_cons, offence?, if_pos h.1, ih h.2]

theorem offence?_occurrences {f : Tree} {ids us : List Token}
    (h : f.occurrences = ids.map .declares ++ us.map .uses) (hn : f.declared.Nodup)
    (hu : ∀ t ∈ us, t.lexeme ∈ f.declared) : offence? [] f.occurrences = none := by
  have hdeclared : f.declared = ids.map (·.lexeme) := by
    rw [← Tree.declared_occurrences, h, declared_append, declared_declares, declared_uses,
      List.append_nil]
  rw [hdeclared] at hn hu
  rw [h, offence?_append, offence?_declares hn, declared_declares, Option.none_or]
  exact offence?_uses hu

/-- A formula that declares the columns of a system and has its rows means what is read back. -/
theorem system_eq_reread {f : Tree} (hnames : f.tupleNames = m.space.allNames)
    (hdeclared : f.declared = m.columnNames) (hparam : f.nParam none = m.space.nParam)
    (hin : f.nIn none = m.space.nIn)
    (hcs : f.comparisons.map (constraintOf m.columnNames) = m.printedConstraints) :
    f.system none = m.reread := by
  have hlength := m.space.length_allNames
  have hspace : f.space none = m.printedSpace := by
    rw [Tree.space_eq, hnames, hparam, hin, hlength, printedSpace]
    congr 1
    simp only [Space.totalDim]
    omega
  have hdim : m.printedSpace.totalDim = m.space.totalDim := rfl
  have hrows : ∀ kind, rowsOf kind f.declared f.comparisons = m.reread.rows kind := by
    intro kind
    rw [hdeclared, rowsOf_eq, hcs, filter_printedConstraints]
  have hdiv : f.declared.length - m.printedSpace.totalDim = m.nDiv := by
    rw [hdeclared, length_columnNames, hdim, totalDim]
    omega
  have hrow : 2 + f.declared.length = 1 + m.rowLength := by
    rw [hdeclared, length_columnNames, rowLength]
    omega
  rw [Tree.system, draft, hspace, hdiv, hrow, hrows, hrows]
  rfl

/-- Parameters, tuples and condition of a system are scanned as those of a formula that means what
is read back, whatever stands behind them. -/
theorem scan_front (hn : m.space.IsNamed)
    (hl : ∀ c ∈ m.constraints, c.coeffs.length = m.rowLength) {s : Scanner} {rest : List Char}
    (hr : Breaks rest)
    (h : s.Faces (m.paramsText.toList ++ '{' :: ' ' :: (m.bodyText.toList ++ rest))) :
    ∃ (f : Tree) (ts : List Token) (s' : Scanner), s.Scans ts s' ∧ s'.Faces rest ∧
      f.DerivesFront ts ∧ f.ParamsFit none ∧ offence? [] f.occurrences = none ∧
      f.system none = m.reread := by
  have htext : m.paramsText.toList ++ '{' :: ' ' :: (m.bodyText.toList ++ rest) =
      m.paramsText.toList ++ '{' :: ' ' ::
        (m.tuplesText.toList ++ (m.conditionText.toList ++ rest)) := by
    simp [bodyText]
  rw [htext] at h
  obtain ⟨params, ps, s₁, hs₁, hf₁, hp, hpnames, hpcount⟩ := scan_params hn.isIdentifier h
  obtain ⟨opening, s₂, hs₂, ho, hf₂⟩ := hf₁.symbol rfl
  rw [faces_space] at hf₂
  obtain ⟨first, fs, second, ss, s₃, hs₃, hf₃, hfirst, hsecond, htnames, hin⟩ :=
    scan_tuples hn.isIdentifier hf₂
  obtain ⟨condition, cs, s', ids, us, hs', hf', hc, hcs, hos, hids, hus⟩ :=
    scan_condition hn hl hr hf₃
  let f : Tree := ⟨params, first, second, condition⟩
  have hnames : f.tupleNames = m.space.allNames := by
    simp only [f, Tree.tupleNames, List.append_assoc, List.map_append, hpnames, Space.allNames]
    rw [← htnames, List.map_append]
  have hexistentials : f.existentials = m.existentialNames := by
    have hd := congrArg declared hos
    rw [declared_append, declared_declares, declared_uses, hids, List.append_nil] at hd
    cases condition with
    | none => exact hd
    | some c => exact hd
  have hdeclared : f.declared = m.columnNames := by
    rw [Tree.declared, hnames, hexistentials, columnNames]
  have hnIn : f.nIn none = m.space.nIn := by
    have hlength := congrArg List.length hpnames
    rw [List.length_map, Space.length_groupNames] at hlength
    rw [hin]
    cases second with
    | none => rfl
    | some second =>
      simp only [f, Tree.nIn, Tree.nParam, hpcount, hlength, Space.dim]
      omega
  have hocc : f.occurrences = (params.getD [] ++ first ++ second.getD [] ++ ids).map .declares ++
      us.map .uses := by
    simp [f, Tree.occurrences, hos]
  have hoffence : offence? [] f.occurrences = none :=
    offence?_occurrences hocc (hdeclared ▸ nodup_columnNames hn) (hdeclared ▸ hus)
  refine ⟨f, _, s', hs₁.append (hs₂.append (hs₃.append hs')), hf', ?_, fun n hm => by simp at hm,
    hoffence, system_eq_reread hnames hdeclared hpcount hnIn hcs⟩
  have := Tree.DerivesFront.intro (f := f) hp ho hfirst hsecond hc
  simpa using this

theorem scan_text (hn : m.space.IsNamed)
    (hl : ∀ c ∈ m.constraints, c.coeffs.length = m.rowLength) {s : Scanner} {rest : List Char}
    (h : s.Faces (m.text.toList ++ rest)) :
    ∃ (f : Tree) (fs : List Token) (s' : Scanner), s.Scans fs s' ∧ s'.Faces rest ∧
      f.Derives fs ∧ f.ParamsFit none ∧ offence? [] f.occurrences = none ∧
      f.system none = m.reread := by
  have htext : m.text.toList ++ rest = m.paramsText.toList ++ '{' :: ' ' ::
      (m.bodyText.toList ++ ' ' :: '}' :: rest) := by
    simp [text]
  rw [htext] at h
  obtain ⟨f, ts, s₁, hs₁, hf₁, hd, hw, ho, hsystem⟩ := scan_front hn hl (breaks_cons (by decide) _) h
  rw [faces_space] at hf₁
  obtain ⟨closing, s', hs', he, hf'⟩ := hf₁.symbol rfl
  exact ⟨f, ts ++ [closing], s', hs₁.append hs', hf', hd.derives he, hw, ho, hsystem⟩

end ConstraintText.BasicMap

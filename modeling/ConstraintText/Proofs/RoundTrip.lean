import ConstraintText.Proofs.NormalForms
import ConstraintText.Proofs.Printable
import ConstraintText.Proofs.PrintedText
import ConstraintText.Proofs.Simplification

/-!
# What is read can be printed and read again

Whatever a text is read as, its own text is read as the same system again. Completing a system
leaves rows that completing leaves as they are: so the row printed for existentials without any
disappears again, and the system known to be empty is found empty again.
-/
namespace ConstraintText

namespace Scanner

theorem Scans.unique {s s₁ s₂ : Scanner} {ts : List Token} (h₁ : s.Scans ts s₁)
    (h₂ : s.Scans ts s₂) : s₁ = s₂ := by
  induction h₁ with
  | nil s => cases h₂; rfl
  | cons hn _ _ ih =>
    cases h₂ with
    | cons hn' _ hs' =>
      rw [hn, Prod.mk.injEq] at hn'
      exact ih (hn'.2 ▸ hs')

end Scanner

namespace Reading
open Formula

theorem beginsWithInteger_of_front {s : TokenStream} {f : Tree} {ts rest : List Token}
    (h : f.DerivesFront ts) (hs : s.tokens = ts ++ rest) : s.beginsWithInteger = false := by
  obtain ⟨params, first, second, condition⟩ := f
  obtain ⟨hp, ho, -, -, -⟩ := h
  rw [TokenStream.beginsWithInteger, hs]
  cases hp with
  | absent => simp [ho]
  | present ht _ =>
    obtain ⟨hb, -, -⟩ := ht
    simp [hb]

theorem finish_of_faces_nil (config : ReadConfig) {s : TokenStream} (hp : s.pending = none)
    (h : s.scanner.Faces []) : (finish config s).result = .ok () := by
  obtain ⟨scanner, pending⟩ := s
  obtain rfl : pending = none := hp
  have hgap : Scanner.afterGap false scanner.rest = [] := h
  unfold finish
  split
  · simp [TokenStream.expectEnd, TokenStream.next, TokenStream.scan, Scanner.next, hgap,
      Token.isFinish]
  · rfl

theorem drafts_text {m : BasicMap} (hn : m.space.IsNamed)
    (hl : ∀ c ∈ m.constraints, c.coeffs.length = m.rowLength) :
    (drafts none (.ofString m.text)).result = .ok ⟨m.reread.space, [m.reread]⟩ ∧
      ∀ config, (finish config (drafts none (.ofString m.text)).stream).result = .ok () := by
  have hface : (TokenStream.ofString m.text).scanner.Faces (m.text.toList ++ []) := by
    rw [List.append_nil]
    exact Scanner.faces_rest _
  obtain ⟨f, fs, s', hscans, hf', hd, hw, hoff, hsystem⟩ := BasicMap.scan_text hn hl hface
  have htokens : (TokenStream.ofString m.text).tokens = fs ++ s'.leading := by
    rw [TokenStream.tokens_of_pending_none rfl, hscans.leading]
  obtain ⟨front, closing, hfs, hfront, -⟩ := hd.exists_front
  have hi : (TokenStream.ofString m.text).beginsWithInteger = false :=
    beginsWithInteger_of_front hfront (by rw [htokens, hfs, List.append_assoc])
  have ho : machine.outcome ⟨⟨[]⟩, .beginning none⟩ (TokenStream.ofString m.text).tokens =
      .done m.reread s'.leading :=
    Tree.outcome_done_iff.mpr ⟨f, fs, hd, htokens, hw, hoff, hsystem.symm⟩
  refine ⟨(drafts_ok_iff_of_formula hi).mpr ⟨_, _, ho, rfl⟩, fun config => ?_⟩
  obtain ⟨hagain, hpending⟩ := drafts_scans hi ho htokens
  exact finish_of_faces_nil config hpending (hscans.unique hagain ▸ hf')

def kept (m : BasicMap) : BasicMap :=
  if m.flags.empty then (BasicMap.empty m.space).finalize else m

theorem onlyPart_ofBasicMap (m : BasicMap) (s : TokenStream) :
    onlyPart (.ofBasicMap m) s = ok (kept m) s := by
  cases he : m.flags.empty <;> simp [onlyPart, MapUnion.ofBasicMap, kept, he]

/-- A system's text is read as the completion of the system that is read back. -/
theorem fromText_text {m : BasicMap} (hn : m.space.IsNamed)
    (hl : ∀ c ∈ m.constraints, c.coeffs.length = m.rowLength) (config : ReadConfig) :
    (fromText config (readBasicMap config none) m.text).result =
      .ok (kept (m.reread.complete config)) := by
  obtain ⟨hdrafts, hfinish⟩ := drafts_text hn hl
  obtain ⟨hresult, hstream⟩ := readMap_eq_drafts config none (.ofString m.text)
  rw [hdrafts] at hresult
  have hunion : (readMap config none (.ofString m.text)).result =
      .ok (.ofBasicMap (m.reread.complete config)) := by
    rw [hresult, ofBasicMap_complete]
    rfl
  rw [fromText, bind_ok_iff]
  refine ⟨kept (m.reread.complete config), ?_, ?_⟩
  · rw [readBasicMap, bind_ok_iff]
    exact ⟨_, hunion, by rw [onlyPart_ofBasicMap]; rfl⟩
  · have hbehind : (readBasicMap config none (.ofString m.text)).stream =
        (drafts none (.ofString m.text)).stream := by
      simp only [readBasicMap, bind, hunion, onlyPart_ofBasicMap, ok, after, hstream]
    rw [hbehind, bind_ok_iff]
    exact ⟨(), hfinish config, rfl⟩

end Reading

namespace BasicMap

/-- What is printed and read back of a system: all of it, but for the names of its dimensions. -/
def renamed (m : BasicMap) : BasicMap :=
  ⟨m.printedSpace, m.nDiv, m.equalities, m.inequalities, m.divs, m.flags⟩

/-- Two systems that differ in the names of their dimensions at most. -/
structure IsRenamingOf (m' m : BasicMap) : Prop where
  nParam : m'.space.nParam = m.space.nParam
  nIn : m'.space.nIn = m.space.nIn
  nOut : m'.space.nOut = m.space.nOut
  nDiv : m'.nDiv = m.nDiv
  equalities : m'.equalities = m.equalities
  inequalities : m'.inequalities = m.inequalities
  divs : m'.divs = m.divs
  flags : m'.flags = m.flags

theorem isRenamingOf_renamed (m : BasicMap) : m.renamed.IsRenamingOf m :=
  ⟨rfl, rfl, rfl, rfl, rfl, rfl, rfl, rfl⟩

theorem renamed_eq_self {m : BasicMap} (h : m.printedSpace = m.space) : m.renamed = m := by
  rw [renamed, h]

/-- A system that can be printed and is read back as it is. -/
structure IsStable (config : ReadConfig) (m : BasicMap) : Prop where
  isNamed : m.space.IsNamed
  length : ∀ c ∈ m.constraints, c.coeffs.length = m.rowLength
  again : Reading.kept (m.reread.complete config) = m.renamed

variable {config : ReadConfig} {m : BasicMap}

/-- A system that is complete and not known to be empty is stable if completing what is read back
completes it. -/
theorem isStable_of_reread (hn : m.space.IsNamed)
    (hl : ∀ kind, ∀ row ∈ m.rows kind, row.length = m.rowLength) (he : m.flags.empty = false)
    (h : m.reread.complete config = m.renamed) : m.IsStable config where
  isNamed := hn
  length := length_of_mem_constraints hl
  again := by
    have hflag : m.renamed.flags.empty = false := he
    rw [h, Reading.kept, hflag]
    rfl

/-- Without simplification a draft keeps all its rows, so no row is added in the text. -/
theorem IsTextual.isStable_finalize (h : m.IsTextual) (hs : config.simplify = false) :
    m.finalize.IsStable config := by
  have hflags := h.flags
  refine isStable_of_reread h.isNamed (fun kind => ?_) (by simp [finalize, withFlags, hflags]) ?_
  · have hrows := h.rows kind
    cases kind <;> exact hrows
  · have hrow : ¬ (0 < m.finalize.nDiv ∧ m.finalize.constraints = []) := by
      rintro ⟨hpos, hnil⟩
      exact h.constrained.elim (fun hzero => hpos.ne' hzero) (fun hne => hne hnil)
    have hdivs : m.finalize.divs =
        List.replicate m.finalize.nDiv (Row.zeros (1 + m.finalize.rowLength)) := h.divs
    simp only [complete, hs, Bool.false_eq_true, if_false, reread, if_neg hrow, renamed, ← hdivs]
    simp [finalize, withFlags, hflags]

/-- The row that is printed for existentials without any is dropped again. -/
theorem simplify_reread (hi : m.hasInfeasibleRow = false)
    (hr : ∀ kind, simplifyRows kind (m.rows kind) = m.rows kind) :
    m.reread.simplify = ⟨m.printedSpace, m.nDiv, m.equalities, m.inequalities,
      List.replicate m.nDiv (Row.zeros (1 + m.rowLength)), ⟨false, false⟩⟩ := by
  have hequalities : simplifyRows .equality m.equalities = m.equalities := hr .equality
  have hinequalities : simplifyRows .inequality m.inequalities = m.inequalities := hr .inequality
  by_cases hrow : 0 < m.nDiv ∧ m.constraints = []
  · obtain ⟨hnil, hnil'⟩ : m.equalities = [] ∧ m.inequalities = [] := by
      simpa [constraints] using hrow.2
    rw [simplify_of_feasible rfl (by
      simp [reread, hrow, hnil', hasInfeasibleRow, isInfeasible, normalize_zeros])]
    simp [reread, hrow, hnil, hnil', simplifyRows, activeForm?, normalize_zeros]
  · rw [simplify_of_feasible rfl (by simpa [hasInfeasibleRow, reread, hrow] using hi)]
    simp [reread, hrow, hequalities, hinequalities]

theorem IsTextual.isStable_simplify (h : m.IsTextual) (hs : config.simplify = true)
    (hi : m.hasInfeasibleRow = false) : m.simplify.finalize.IsStable config := by
  have hflags := h.flags
  rw [simplify_of_feasible (by rw [hflags]) hi]
  refine isStable_of_reread h.isNamed (fun kind => ?_) (by simp [finalize, withFlags, hflags]) ?_
  · have hrows : ∀ row ∈ simplifyRows kind (m.rows kind), row.length = m.rowLength :=
      length_of_mem_simplifyRows (h.rows kind)
    cases kind <;> exact hrows
  · rw [complete, hs, if_pos rfl, simplify_reread]
    · simp only [finalize, withFlags, renamed, h.divs, hflags]
      rfl
    · exact hasInfeasibleRow_simplifyRows ..
    · intro kind
      cases kind <;> exact simplifyRows_idem ..

theorem isStable_empty {space : Space} (hn : space.IsNamed) (hs : config.simplify = true) :
    (BasicMap.empty space).finalize.IsStable config where
  isNamed := hn
  length := by
    refine length_of_mem_constraints fun kind row hr => ?_
    cases kind with
    | equality =>
      rw [List.mem_singleton.mp hr]
      simp only [contradiction, Row.zeros, List.length_cons, List.length_replicate, rowLength]
      rw [Nat.add_sub_cancel_left, Nat.add_comm]
      rfl
    | inequality => simp [BasicMap.rows, BasicMap.empty, setToEmpty, finalize, withFlags] at hr
  again := by
    have hi : (BasicMap.empty space).finalize.reread.hasInfeasibleRow = true := by
      refine (hasInfeasibleRow_iff _).mpr ⟨.equality, _, List.mem_singleton_self _, ?_⟩
      exact normalize_contradiction _
    have hsimplify : (BasicMap.empty space).finalize.reread.simplify =
        (BasicMap.empty space).finalize.reread.setToEmpty := by
      rw [simplify, hi]
      rfl
    rw [complete, hs, if_pos rfl, hsimplify]
    rfl

theorem IsTextual.isStable_complete (h : m.IsTextual)
    (he : (m.complete config).flags.empty = false) : (m.complete config).IsStable config := by
  have hflag : m.flags.empty = false := by rw [h.flags]
  rw [empty_complete hflag] at he
  cases hs : config.simplify with
  | true =>
    have hi : m.hasInfeasibleRow = false := by simpa [hs] using he
    rw [complete, hs, if_pos rfl]
    exact h.isStable_simplify hs hi
  | false =>
    rw [complete, hs]
    exact h.isStable_finalize hs

theorem text?_of_length {m : BasicMap} (h : ∀ c ∈ m.constraints, c.coeffs.length = m.rowLength) :
    m.text? = some m.text := by
  rw [text?, isPrintable, if_pos]
  refine List.all_eq_true.mpr fun c hc => ?_
  simpa using ne_nil_of_length (h c hc)

theorem text?_of_isStable (h : m.IsStable config) : m.text? = some m.text :=
  text?_of_length h.length

end BasicMap

namespace Reading
open Formula

/-- The parts of a union that is read are stable and not known to be empty. All parts are left out
only where systems are simplified. -/
theorem isStable_of_readMap {config : ReadConfig} {wanted : Option Nat} {s : TokenStream}
    {u : MapUnion} (hs : s.HasIdentifiers) (h : (readMap config wanted s).result = .ok u) :
    u.space.IsNamed ∧ (u.parts = [] → config.simplify = true) ∧
      ∀ m ∈ u.parts, m.IsStable config ∧ m.flags.empty = false := by
  obtain ⟨v, hv, rfl⟩ := readMap_ok_iff_drafts.mp h
  obtain ⟨⟨m, hm, hspace⟩, htextual⟩ := textual_of_drafts hs hv
  refine ⟨hspace ▸ (htextual m hm).isNamed, fun hnil => ?_, fun part hpart => ?_⟩
  · have hflag : m.flags.empty = false := by rw [(htextual m hm).flags]
    have hempty : (m.complete config).flags.empty = true := by
      simpa using List.filter_eq_nil_iff.mp hnil _ (List.mem_map_of_mem hm)
    rw [BasicMap.empty_complete hflag, Bool.and_eq_true] at hempty
    exact hempty.1
  · obtain ⟨hmap, he⟩ := List.mem_filter.mp hpart
    obtain ⟨d, hd, rfl⟩ := List.mem_map.mp hmap
    have hflag : (d.complete config).flags.empty = false := by simpa using he
    exact ⟨(htextual d hd).isStable_complete hflag, hflag⟩

theorem isStable_of_readBasicMap {config : ReadConfig} {wanted : Option Nat} {source : String}
    {b : BasicMap} (h : (readBasicMap config wanted (.ofString source)).result = .ok b) :
    b.IsStable config := by
  rw [readBasicMap, bind_ok_iff] at h
  obtain ⟨u, hu, honly⟩ := h
  have hnames := TokenStream.hasIdentifiers_ofString source
  obtain ⟨hnamed, hnil, hparts⟩ := isStable_of_readMap hnames hu
  unfold onlyPart at honly
  split at honly
  · rename_i hempty
    obtain rfl := Except.ok.inj honly
    exact BasicMap.isStable_empty hnamed (hnil hempty)
  · rename_i part hpart
    obtain rfl := Except.ok.inj honly
    exact (hparts part (by rw [hpart]; exact List.mem_singleton_self _)).1
  · simp [error] at honly

/-- What a formula is read as has the names of its tuples, so none is lost by printing. -/
theorem printedSpace_of_readBasicMap {config : ReadConfig} {wanted : Option Nat} {source : String}
    {b : BasicMap} (hi : (TokenStream.ofString source).beginsWithInteger = false)
    (h : (readBasicMap config wanted (.ofString source)).result = .ok b) :
    b.printedSpace = b.space := by
  rw [readBasicMap, bind_ok_iff] at h
  obtain ⟨u, hu, honly⟩ := h
  obtain ⟨v, hv, rfl⟩ := readMap_ok_iff_drafts.mp hu
  obtain ⟨f, hw, rfl, -⟩ :=
    textual_of_formula (TokenStream.hasIdentifiers_ofString source) hi hv
  have hspace : b.space = f.space wanted := by
    rw [← ofBasicMap_complete, onlyPart_ofBasicMap] at honly
    obtain rfl := Except.ok.inj honly
    rw [kept]
    split
    · exact space_complete _ config
    · exact space_complete _ config
  rw [BasicMap.printedSpace, hspace, Tree.allNames_space hw]
  rw [Tree.space_eq]
  rfl

/-- Whatever a text is read as can be printed, and its own text is read as the same system, with
the same names if the first text was a formula. -/
theorem readBasicMap_again {config : ReadConfig} {wanted : Option Nat} {source : String}
    {b : BasicMap} (h : (fromText config (readBasicMap config wanted) source).result = .ok b) :
    ∃ text b', b.text? = some text ∧
      (fromText config (readBasicMap config none) text).result = .ok b' ∧ b'.IsRenamingOf b ∧
      ((TokenStream.ofString source).beginsWithInteger = false → b' = b) := by
  rw [fromText, bind_ok_iff] at h
  obtain ⟨a, ha, hfinish⟩ := h
  rw [bind_ok_iff] at hfinish
  obtain ⟨-, -, hvalue⟩ := hfinish
  obtain rfl := Except.ok.inj hvalue
  have hstable := isStable_of_readBasicMap ha
  have hagain := fromText_text hstable.isNamed hstable.length config
  rw [hstable.again] at hagain
  refine ⟨a.text, a.renamed, BasicMap.text?_of_isStable hstable, hagain,
    a.isRenamingOf_renamed, fun hi => ?_⟩
  exact BasicMap.renamed_eq_self (printedSpace_of_readBasicMap hi ha)

/-- The only row of this set is dropped, so another one is printed and dropped again. -/
theorem readBasicMap_again_unbounded : ∃ b text, b.constraints = [] ∧ b.nDiv = 1 ∧
    b.text? = some text ∧ text = "\x7b [i] : exists (e0 : 0 = 0) \x7d" ∧
    (fromText .standard (readBasicMap .standard none) text).result = .ok b := by
  have h : (fromText .standard (readBasicMap .standard none)
      "\x7b [i] : exists k : 2k >= 2k \x7d").result =
        .ok ⟨⟨0, 0, 1, [], [], [some "i"]⟩, 1, [], [], [[0, 0, 0, 0]], ⟨false, true⟩⟩ := by cbv
  have hi : (TokenStream.ofString "\x7b [i] : exists k : 2k >= 2k \x7d").beginsWithInteger =
      false := by cbv
  obtain ⟨text, b', htext, hagain, -, hsame⟩ := readBasicMap_again h
  obtain rfl := hsame hi
  refine ⟨_, text, rfl, rfl, htext, ?_, hagain⟩
  exact (Option.some.inj htext).symm.trans (by cbv)

end Reading
end ConstraintText

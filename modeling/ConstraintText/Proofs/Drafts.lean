import ConstraintText.Proofs.Soundness

/-!
# Systems as they are read

Before it is completed a system is a draft: its rows have one length, its existentials have no
definitions and nothing is known of it. A formula gives a draft over the names of its tuples and
matrices give drafts over unnamed dimensions, without existentials.
-/
namespace ConstraintText
namespace BasicMap

/-- A system that has been read and not been completed. -/
structure IsDraft (m : BasicMap) : Prop where
  rows : ∀ kind, ∀ row ∈ m.rows kind, row.length = m.rowLength
  divs : m.divs = List.replicate m.nDiv (Row.zeros (1 + m.rowLength))
  flags : m.flags = ⟨false, false⟩

theorem mem_rows_addRow {m : BasicMap} {kind kind' : ConstraintKind} {row row' : Row}
    (h : row' ∈ (m.addRow kind row).rows kind') : row' = row ∨ row' ∈ m.rows kind' := by
  cases kind <;> cases kind' <;>
    simp_all [addRow, reopened, withFlags, withRows, BasicMap.rows, or_comm]

@[simp] theorem space_addRow (m : BasicMap) (kind : ConstraintKind) (row : Row) :
    (m.addRow kind row).space = m.space := by
  cases kind <;> rfl

@[simp] theorem nDiv_addRow (m : BasicMap) (kind : ConstraintKind) (row : Row) :
    (m.addRow kind row).nDiv = m.nDiv := by
  cases kind <;> rfl

@[simp] theorem divs_addRow (m : BasicMap) (kind : ConstraintKind) (row : Row) :
    (m.addRow kind row).divs = m.divs := by
  cases kind <;> rfl

@[simp] theorem flags_addRow (m : BasicMap) (kind : ConstraintKind) (row : Row) :
    (m.addRow kind row).flags = ⟨m.flags.empty, false⟩ := by
  cases kind <;> rfl

theorem isDraft_unconstrained (space : Space) : (unconstrained space).IsDraft where
  rows kind row hr := by cases kind <;> simp [unconstrained, BasicMap.rows] at hr
  divs := rfl
  flags := rfl

theorem IsDraft.addRow {m : BasicMap} (hm : m.IsDraft) {kind : ConstraintKind} {row : Row}
    (hl : row.length = m.rowLength) : (m.addRow kind row).IsDraft where
  rows kind' row' hr := by
    have hlength : (m.addRow kind row).rowLength = m.rowLength := by simp [rowLength, totalDim]
    rw [hlength]
    rcases mem_rows_addRow hr with rfl | hr
    · exact hl
    · exact hm.rows kind' row' hr
  divs := by simpa [rowLength, totalDim] using hm.divs
  flags := by simp [hm.flags]

theorem rowLength_pos (m : BasicMap) : 0 < m.rowLength := by
  rw [rowLength]
  omega

theorem ne_nil_of_length {m : BasicMap} {row : Row} (h : row.length = m.rowLength) : row ≠ [] :=
  List.ne_nil_of_length_pos (h ▸ m.rowLength_pos)

theorem length_of_mem_constraints {m : BasicMap}
    (h : ∀ kind, ∀ row ∈ m.rows kind, row.length = m.rowLength) :
    ∀ c ∈ m.constraints, c.coeffs.length = m.rowLength := by
  intro c hc
  rcases List.mem_append.mp hc with hc | hc
  · obtain ⟨row, hr, rfl⟩ := List.mem_map.mp hc
    exact h .equality row hr
  · obtain ⟨row, hr, rfl⟩ := List.mem_map.mp hc
    exact h .inequality row hr

end BasicMap

namespace Formula

theorem isDraft_draft {space : Space} {names : List String} (h : space.totalDim ≤ names.length)
    (cs : List Comparison) : (draft space names cs).IsDraft where
  rows kind row hr := by
    have hr' : row ∈ rowsOf kind names cs := by cases kind <;> exact hr
    obtain ⟨c, -, rfl⟩ := List.mem_map.mp hr'
    rw [Comparison.length_row, rowLength_draft h]
  divs := by
    rw [rowLength_draft h]
    simp [draft, Nat.add_comm, Nat.add_left_comm]
  flags := rfl

theorem Tree.isDraft_system {f : Tree} {wanted : Option Nat} (h : f.ParamsFit wanted) :
    (f.system wanted).IsDraft := by
  refine isDraft_draft ?_ f.comparisons
  rw [totalDim_space h, declared, List.length_append]
  omega

end Formula

namespace Matrix

/-- The draft of a matrix over unnamed dimensions, all of them outputs. -/
structure IsPart (nParam : Nat) (m : BasicMap) : Prop where
  isDraft : m.IsDraft
  space : ∃ dims, m.space = .unnamed nParam 0 dims
  nDiv : m.nDiv = 0

theorem isPart_unconstrained (nParam dims : Nat) :
    IsPart nParam (.unconstrained (.unnamed nParam 0 dims)) where
  isDraft := BasicMap.isDraft_unconstrained _
  space := ⟨dims, rfl⟩
  nDiv := rfl

theorem IsPart.appendRow? {nParam : Nat} {m grown : BasicMap} (hm : IsPart nParam m)
    {kind : ConstraintKind} {row : Row} (h : m.appendRow? kind row = some grown) :
    IsPart nParam grown := by
  simp only [BasicMap.appendRow?] at h
  split at h
  · rename_i hl
    obtain rfl := Option.some.inj h
    exact ⟨hm.isDraft.addRow hl, by simpa using hm.space, by simpa using hm.nDiv⟩
  · simp at h

theorem isPart_build {nParam dims : Nat} {rows : List Constraint} {m : BasicMap}
    (h : build nParam dims rows = some m) : IsPart nParam m := by
  have hfold : ∀ (rows : List Constraint) (start : BasicMap), IsPart nParam start →
      rows.foldlM (fun m c => m.appendRow? c.kind c.coeffs) start = some m → IsPart nParam m := by
    intro rows
    induction rows with
    | nil =>
      intro start hs he
      obtain rfl := Option.some.inj he
      exact hs
    | cons c rows ih =>
      intro start hs he
      rw [List.foldlM_cons, Option.bind_eq_bind, Option.bind_eq_some_iff] at he
      obtain ⟨grown, ha, he⟩ := he
      exact ih grown (hs.appendRow? ha) he
  exact hfold rows _ (isPart_unconstrained nParam dims) h

def Point.parts : Point → List BasicMap
  | .rowCount job => job.parts
  | .columnCount job _ => job.parts
  | .rowType job _ => job.parts
  | .entry job _ _ _ _ => job.parts
  | _ => []

/-- What all states of a reading have in common: the number of parameters, and drafts as parts. -/
def State.IsSound (nParam : Nat) (q : State) : Prop :=
  q.nParam = nParam ∧ ∀ m ∈ q.point.parts, IsPart nParam m

/-- A union of matrices is named after the first of them. -/
def IsSound (nParam : Nat) (u : MapUnion) : Prop :=
  (∃ m ∈ u.parts, u.space = m.space) ∧ ∀ m ∈ u.parts, IsPart nParam m

theorem keeps_afterMatrix {nParam : Nat} {job : Job} (hj : ∀ m ∈ job.parts, IsPart nParam m)
    (progress : Progress) :
    (afterMatrix nParam job progress).Keeps (State.IsSound nParam) (IsSound nParam) := by
  unfold afterMatrix
  split
  · trivial
  · rename_i m hb
    have hparts : ∀ m' ∈ job.parts ++ [m], IsPart nParam m' := by
      intro m' hm
      rcases List.mem_append.mp hm with hm | hm
      · exact hj m' hm
      · exact List.mem_singleton.mp hm ▸ isPart_build hb
    have hfirst : job.parts.head?.getD m ∈ job.parts ++ [m] := by
      cases job.parts <;> simp
    dsimp only
    split
    · split
      · exact ⟨⟨_, hfirst, rfl⟩, hparts⟩
      · exact ⟨rfl, hparts⟩
    · trivial

theorem keeps_afterRow {nParam : Nat} {job : Job} (hj : ∀ m ∈ job.parts, IsPart nParam m)
    (progress : Progress) :
    (afterRow nParam job progress).Keeps (State.IsSound nParam) (IsSound nParam) := by
  unfold afterRow
  split
  · exact keeps_afterMatrix hj progress
  · exact ⟨rfl, hj⟩

theorem keeps_onColumnCount {nParam : Nat} {job : Job} (hj : ∀ m ∈ job.parts, IsPart nParam m)
    (rows t : Token) :
    (onColumnCount nParam job rows t).next.Keeps (State.IsSound nParam) (IsSound nParam) := by
  unfold onColumnCount
  repeat' split
  all_goals first
    | trivial
    | exact keeps_afterRow hj _

theorem keeps_onToken {nParam : Nat} {q : State} (hq : q.IsSound nParam) (t : Token) :
    (onToken q t).next.Keeps (State.IsSound nParam) (IsSound nParam) := by
  obtain ⟨n, point⟩ := q
  obtain ⟨rfl, hj⟩ := hq
  cases point with
  | firstInteger => exact ⟨rfl, hj⟩
  | secondInteger first =>
    simp only [onToken, onSecondInteger]
    split
    · split
      · trivial
      · trivial
      · exact ⟨rfl, by simp [Point.parts]⟩
    · exact keeps_onColumnCount (by simp) first t
  | rowCount job => exact ⟨rfl, hj⟩
  | columnCount job rows => exact keeps_onColumnCount hj rows t
  | rowType job progress =>
    simp only [onToken, onRowType, refuseEntry]
    repeat' split
    all_goals trivial
  | entry job progress kind entries left =>
    simp only [onToken, onEntry, refuseEntry]
    repeat' split
    all_goals first
      | trivial
      | exact keeps_afterRow hj _

theorem isSound_of_done {nParam : Nat} {ts rest : List Token} {u : MapUnion}
    (h : machine.outcome ⟨nParam, .firstInteger⟩ ts = .done u rest) : IsSound nParam u :=
  Machine.outcome_keeps (I := State.IsSound nParam) (fun _ t hq => keeps_onToken hq t)
    ⟨rfl, by simp [Point.parts]⟩ h

end Matrix

namespace Reading

variable {α β : Type}

theorem bind_ok_iff {r : Reading α} {f : α → TokenStream → Reading β} {value : β} :
    (r.bind f).result = .ok value ↔
      ∃ a, r.result = .ok a ∧ (f a r.stream).result = .ok value := by
  unfold bind
  cases hr : r.result <;> simp [after]

/-- What is read before it is completed. No setting plays a part in it. -/
def drafts (wanted : Option Nat) (s : TokenStream) : Reading MapUnion :=
  match s.peek with
  | (.error e, s') => error (.lexical e) s'
  | (.ok none, s') => error (.refused s'.endRefusal) s'
  | (.ok (some t), s') =>
    if t.kind = .integer then Matrix.read wanted s'
    else (Formula.read wanted s').bind fun m s => ok ⟨m.space, [m]⟩ s

theorem space_complete (m : BasicMap) (config : ReadConfig) :
    (m.complete config).space = m.space := by
  unfold BasicMap.complete BasicMap.finalize
  split <;> simp [BasicMap.withFlags]

theorem ofBasicMap_complete (m : BasicMap) (config : ReadConfig) :
    MapUnion.ofBasicMap (m.complete config) = MapUnion.complete ⟨m.space, [m]⟩ config := by
  cases h : (m.complete config).flags.empty <;>
    simp [MapUnion.ofBasicMap, MapUnion.complete, space_complete, h]

/-- A reading is the completion of its drafts. -/
theorem readMap_eq_drafts (config : ReadConfig) (wanted : Option Nat) (s : TokenStream) :
    (readMap config wanted s).result = (drafts wanted s).result.map (·.complete config) ∧
      (readMap config wanted s).stream = (drafts wanted s).stream := by
  rcases hp : s.peek with ⟨item, s'⟩
  match item with
  | .error e => simp [readMap, drafts, hp, error, Except.map]
  | .ok none => simp [readMap, drafts, hp, error, Except.map]
  | .ok (some t) =>
    simp only [readMap, drafts, hp]
    split
    · simp only [readMatrices, bind]
      cases (Matrix.read wanted s').result <;> simp [after, ok, Except.map]
    · simp only [readFormula, bind]
      cases (Formula.read wanted s').result <;>
        simp [after, ok, Except.map, ofBasicMap_complete]

theorem readMap_ok_iff_drafts {config : ReadConfig} {wanted : Option Nat} {s : TokenStream}
    {u : MapUnion} : (readMap config wanted s).result = .ok u ↔
      ∃ v, (drafts wanted s).result = .ok v ∧ v.complete config = u := by
  rw [(readMap_eq_drafts config wanted s).1]
  cases (drafts wanted s).result <;> simp [Except.map]

/-- A formula is read as its tokens are, and it ends early where its scanner stops. -/
theorem drafts_result_of_formula {wanted : Option Nat} {s : TokenStream}
    (h : s.beginsWithInteger = false) : (drafts wanted s).result =
      ((Formula.machine.outcome ⟨⟨[]⟩, .beginning wanted⟩ s.tokens).result s.scanner).map
        fun m => ⟨m.space, [m]⟩ := by
  cases hts : s.tokens with
  | nil =>
    have hshort : Formula.machine.outcome ⟨⟨[]⟩, .beginning wanted⟩ [] = .short .unexpectedEnd :=
      Machine.outcome_nil_refuse rfl
    rcases TokenStream.peek_of_tokens_nil hts with ⟨e, s', hp, hs⟩ | ⟨s', hp, hs⟩ <;>
      simp [drafts, hp, hshort, error, Outcome.result, Scanner.stopError, hs, Except.map,
        TokenStream.endRefusal, TokenStream.refusal]
  | cons t ts =>
    obtain ⟨s', hp, ht, hs⟩ := TokenStream.peek_of_tokens_cons hts
    have hk : t.kind ≠ .integer := by simpa [TokenStream.beginsWithInteger, hts] using h
    have hrun : (Formula.read wanted s').result =
        (Formula.machine.outcome ⟨⟨[]⟩, .beginning wanted⟩ s.tokens).result s'.scanner := by
      rw [← ht]
      exact Formula.machine.run_result s' _
    rw [← hts]
    simp only [drafts, hp, if_neg hk, bind, hrun]
    cases Formula.machine.outcome ⟨⟨[]⟩, .beginning wanted⟩ s.tokens <;>
      simp [Outcome.result, Scanner.stopError, hs, Except.map, after, ok]

theorem drafts_ok_iff_of_formula {wanted : Option Nat} {s : TokenStream}
    (h : s.beginsWithInteger = false) {u : MapUnion} :
    (drafts wanted s).result = .ok u ↔ ∃ m rest,
      Formula.machine.outcome ⟨⟨[]⟩, .beginning wanted⟩ s.tokens = .done m rest ∧
        u = ⟨m.space, [m]⟩ := by
  rw [drafts_result_of_formula h]
  cases Formula.machine.outcome ⟨⟨[]⟩, .beginning wanted⟩ s.tokens <;>
    simp [Outcome.result, Except.map, eq_comm]

theorem drafts_of_matrices (wanted : Option Nat) {s : TokenStream}
    (h : s.beginsWithInteger = true) :
    ∃ s', s'.tokens = s.tokens ∧ drafts wanted s = Matrix.read wanted s' := by
  obtain ⟨t, ht, hk⟩ : ∃ t, s.tokens.head? = some t ∧ t.kind = .integer := by
    simpa [TokenStream.beginsWithInteger, Option.any_eq_true] using h
  obtain ⟨ts, hts⟩ := List.head?_eq_some_iff.mp ht
  obtain ⟨s', hp, ht', -⟩ := TokenStream.peek_of_tokens_cons hts
  refine ⟨s', ht', ?_⟩
  simp only [drafts, hp, if_pos hk]

theorem drafts_ok_iff_of_matrices {wanted : Option Nat} {s : TokenStream}
    (h : s.beginsWithInteger = true) {u : MapUnion} :
    (drafts wanted s).result = .ok u ↔ ∃ rest,
      Matrix.machine.outcome ⟨wanted.getD 0, .firstInteger⟩ s.tokens = .done u rest := by
  obtain ⟨s', hs', hread⟩ := drafts_of_matrices wanted h
  rw [hread, Matrix.read, ← hs']
  exact Machine.run_ok_iff

theorem isDraft_of_drafts {wanted : Option Nat} {s : TokenStream} {u : MapUnion}
    (h : (drafts wanted s).result = .ok u) : ∀ m ∈ u.parts, m.IsDraft := by
  cases hb : s.beginsWithInteger with
  | true =>
    obtain ⟨rest, ho⟩ := (drafts_ok_iff_of_matrices hb).mp h
    exact fun m hm => ((Matrix.isSound_of_done ho).2 m hm).isDraft
  | false =>
    obtain ⟨m, rest, ho, rfl⟩ := (drafts_ok_iff_of_formula hb).mp h
    obtain ⟨f, fs, -, -, hw, -, rfl⟩ := Formula.Tree.outcome_done_iff.mp ho
    intro m hm
    rw [List.mem_singleton.mp hm]
    exact Formula.Tree.isDraft_system hw

end Reading
end ConstraintText

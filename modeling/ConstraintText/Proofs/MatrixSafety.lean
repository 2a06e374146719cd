import ConstraintText.Proofs.FormulaSafety
import ConstraintText.Proofs.MatrixReading

/-!
# Reading matrices stays within bounds

Wherever the reading of matrices gets, the columns of the current matrix have been counted by 64
bits, its rows have as many entries as it has columns behind the type, and the entries of the
current row and those still missing add up to that. The row counts and column counts of the text are
only compared or counted down, never multiplied, so no text makes them too large.
-/
namespace ConstraintText.Matrix

structure Progress.Fits (nParam : Nat) (progress : Progress) : Prop where
  columns : progress.dims + nParam + 2 ≤ Decimal.largestCount
  rows : ∀ c ∈ progress.rows, c.coeffs.length = 1 + (nParam + progress.dims)

def Point.Fits (nParam : Nat) : Point → Prop
  | .rowType _ progress => progress.Fits nParam ∧ 1 ≤ progress.rowsLeft
  | .entry _ progress _ entries left => progress.Fits nParam ∧ 1 ≤ progress.rowsLeft ∧ 1 ≤ left ∧
      entries.length + left = progress.dims + nParam + 1
  | _ => True

/-- The invariant of a reading. -/
structure Fits (q : State) (ts : List Token) : Prop where
  values : ∀ t ∈ ts, t.HasValue
  point : q.point.Fits q.nParam

variable {nParam dims columns : Nat} {job : Job} {progress : Progress} {kind : ConstraintKind}
  {entries : List Int} {left : Nat} {q : State} {point : Point} {t : Token} {ts : List Token}
  {P : State → Prop}

theorem Fits.take (h : Fits q (t :: ts)) (hp : point.Fits nParam) : Fits ⟨nParam, point⟩ ts :=
  ⟨fun u hu => h.values u (List.mem_cons_of_mem t hu), hp⟩

theorem length_arrange (h : entries.length = dims + nParam + 1) :
    (arrange dims nParam entries).length = 1 + (nParam + dims) := by
  simp only [arrange, List.length_append, List.length_drop, List.length_take]
  omega

theorem Progress.Fits.addRow (h : progress.Fits nParam) (kind : ConstraintKind)
    (hleft : left = 1) (hentries : entries.length + left = progress.dims + nParam + 1)
    (value : Int) :
    Progress.Fits nParam ⟨progress.header, progress.dims,
      progress.rows ++ [⟨kind, arrange progress.dims nParam (entries ++ [value])⟩],
      progress.rowsLeft - 1⟩ := by
  refine ⟨h.columns, ?_⟩
  intro c hc
  rcases List.mem_append.mp hc with hc | hc
  · exact h.rows c hc
  · rw [List.mem_singleton.mp hc]
    apply length_arrange
    rw [List.length_append, List.length_singleton]
    omega

theorem goes_afterMatrix (h : progress.Fits nParam)
    (hP : ∀ job, P ⟨nParam, .rowCount job⟩) :
    (afterMatrix nParam job progress).Goes P fun _ => True := by
  rw [afterMatrix, build_eq h.rows]
  dsimp only
  split
  · split
    · trivial
    · exact hP _
  · exact ⟨_, rfl⟩

theorem goes_afterRow (h : progress.Fits nParam)
    (hP : ∀ point : Point, point.Fits nParam → P ⟨nParam, point⟩) :
    (afterRow nParam job progress).Goes P fun _ => True := by
  unfold afterRow
  split
  · exact goes_afterMatrix h fun _ => hP _ trivial
  · exact hP _ ⟨h, Nat.one_le_iff_ne_zero.mpr ‹_›⟩

theorem fits_of_columns (header : Span) (rows : Nat) {role : CountRole}
    (hc : count? role t = .ok columns) (hn : 2 + nParam ≤ columns) :
    Progress.Fits nParam ⟨header, columns - 2 - nParam, [], rows⟩ := by
  obtain ⟨-, hlt⟩ := count?_eq_ok.mp hc
  have hlargest : Decimal.largestCount = 2 ^ 64 - 1 := rfl
  refine ⟨?_, by simp⟩
  simp only
  omega

theorem goes_onColumnCount {rows : Token}
    (hP : ∀ point : Point, point.Fits nParam → P ⟨nParam, point⟩) :
    (onColumnCount nParam job rows t).next.Goes P fun _ => True := by
  unfold onColumnCount
  split
  · exact ⟨_, rfl⟩
  · split
    · exact ⟨_, rfl⟩
    · split
      · exact ⟨_, rfl⟩
      · rename_i columns hc
        split
        · exact ⟨_, rfl⟩
        · exact goes_afterRow (fits_of_columns _ _ hc (Nat.not_lt.mp ‹_›)) hP

theorem goes_onRowType (h : Fits ⟨nParam, .rowType job progress⟩ (t :: ts)) :
    (onRowType nParam job progress t).next.Goes (fun q' =>
      Fits q' (if (onRowType nParam job progress t).token = .take then ts else t :: ts))
      fun _ => True := by
  obtain ⟨hprogress, hleft⟩ := h.point
  unfold onRowType
  split
  · split
    · split
      · exact ⟨_, rfl⟩
      · refine h.take ⟨hprogress, hleft, Nat.le_add_left 1 _, ?_⟩
        rw [List.length_nil, Nat.zero_add]
    · exact ⟨_, rfl⟩
  · exact ⟨_, rfl⟩

theorem goes_onEntry (h : Fits ⟨nParam, .entry job progress kind entries left⟩ (t :: ts)) :
    (onEntry nParam job progress kind entries left t).next.Goes (fun q' =>
      Fits q' (if (onEntry nParam job progress kind entries left t).token = .take then ts
        else t :: ts)) fun _ => True := by
  obtain ⟨hprogress, hrows, hleft, hentries⟩ :
      Point.Fits nParam (.entry job progress kind entries left) := h.point
  unfold onEntry
  split
  · obtain ⟨value, hv⟩ := h.values t List.mem_cons_self ‹_›
    simp only [hv]
    -- the last entry completes the row, another one leaves fewer to come
    split
    · have hlast : left = 1 := by omega
      exact goes_afterRow (hprogress.addRow kind hlast hentries value) fun point hp => h.take hp
    · refine h.take ⟨hprogress, hrows, by omega, ?_⟩
      rw [List.length_append, List.length_singleton]
      omega
  · exact ⟨_, rfl⟩

/-- A token takes the reading to a point where the invariant holds again. -/
theorem goes_onToken (h : Fits q (t :: ts)) : (onToken q t).next.Goes
    (fun q' => Fits q' (if (onToken q t).token = .take then ts else t :: ts)) fun _ => True := by
  obtain ⟨nParam, point⟩ := q
  cases point with
  | firstInteger => exact h.take trivial
  | rowCount job => exact h.take trivial
  | rowType job progress => exact goes_onRowType h
  | entry job progress kind entries left => exact goes_onEntry h
  | columnCount job rows =>
    simp only [onToken, token_onColumnCount]
    exact goes_onColumnCount fun point hp => h.take hp
  | secondInteger first =>
    simp only [onToken, onSecondInteger]
    split
    · split
      · exact ⟨_, rfl⟩
      · exact ⟨_, rfl⟩
      · exact ⟨h.values, trivial⟩
    · rw [token_onColumnCount]
      exact goes_onColumnCount fun point hp => h.take hp

theorem stays : machine.Stays Fits fun _ => True where
  token := goes_onToken
  finish := by
    rintro ⟨nParam, point⟩ q' events - he
    have hgo : onEnd ⟨nParam, point⟩ = .go events q' := he
    cases point <;> simp [onEnd] at hgo

theorem fits_firstInteger (hv : ∀ t ∈ ts, t.HasValue) : Fits ⟨nParam, .firstInteger⟩ ts :=
  ⟨hv, trivial⟩

/-- Writing rows over rows of zeros gives the system of the rows. -/
theorem build64?_eq {cs : List Constraint} (h : ∀ c ∈ cs, c.coeffs.length = 1 + (nParam + dims))
    (hcolumns : dims + nParam + 2 ≤ Decimal.largestCount) :
    build64? nParam dims cs = some (system nParam dims cs ⟨false, false⟩) := by
  induction cs using List.reverseRecOn with
  | nil => rfl
  | append_singleton cs c ih =>
    rw [List.forall_mem_append, List.forall_mem_singleton] at h
    have hlength : (system nParam dims cs ⟨false, false⟩).rowLength = 1 + (nParam + dims) :=
      rowLength_system cs _
    have happend := BasicMap.appendRow64?_eq c.kind (h.2.trans hlength.symm) (by omega)
    have hbuild := ih h.1
    rw [build64?] at hbuild ⊢
    rw [List.foldlM_append, hbuild]
    simp [happend, appendRow?_system cs h.2]

/-- Completing a matrix leaves its space, so what may join the others may join them completed. -/
theorem afterMatrix64?_eq (config : ReadConfig) (job : Job) (h : progress.Fits nParam) :
    afterMatrix64? config nParam job progress = some (afterMatrix nParam job progress) := by
  let m := system nParam progress.dims progress.rows ⟨false, false⟩
  have huniform : m.IsUniform := (isPart_build (build_eq h.rows)).isDraft.isUniform
  have hlength : m.rowLength = 1 + (nParam + progress.dims) := rowLength_system _ _
  have hcolumns := h.columns
  have hcomplete := BasicMap.complete64?_eq huniform (by omega) config
  have hjoins : ∀ u : MapUnion, u.space.isCompatible m.space = true →
      ∃ v, u.union (.ofBasicMap (m.complete config)) = .ok v := by
    intro u hu
    rw [← Reading.space_complete m config] at hu
    exact ⟨_, if_pos hu⟩
  simp only [afterMatrix64?, build64?_eq h.rows h.columns, Option.bind_eq_bind, Option.bind_some]
  rw [hcomplete, Option.bind_some]
  split
  · obtain ⟨u, hu⟩ := hjoins (.complete ⟨_, job.parts⟩ config) ‹_›
    rw [hu]
    rfl
  · rfl

theorem afterRow64?_eq (config : ReadConfig) (job : Job) (h : progress.Fits nParam) :
    afterRow64? config nParam job progress = some (afterRow nParam job progress) := by
  unfold afterRow64? afterRow
  split
  · exact afterMatrix64?_eq config job h
  · rfl

theorem onColumnCount64?_eq (config : ReadConfig) (nParam : Nat) (job : Job) (rows t : Token) :
    onColumnCount64? config nParam job rows t = some (onColumnCount nParam job rows t) := by
  fun_cases onColumnCount nParam job rows t with
  | case1 hl => simp [onColumnCount64?, hl]
  | case2 hl problem hn => simp [onColumnCount64?, hl, hn]
  | case3 hl n hn problem hc => simp [onColumnCount64?, hl, hn, hc]
  | case4 hl n hn columns hc hfew =>
    have hnone : (difference64? columns 2).bind (difference64? · nParam) = none := by
      by_cases htwo : 2 ≤ columns
      · rw [difference64?_eq htwo]
        exact if_neg (by omega)
      · rw [difference64?, if_neg htwo]
        rfl
    simp [onColumnCount64?, hl, hn, hc, hnone]
  | case5 hl n hn columns hc hfew dims =>
    have htwo : 2 ≤ columns := by omega
    have hparams : nParam ≤ columns - 2 := by omega
    have hdims : (difference64? columns 2).bind (difference64? · nParam) =
        some dims := by
      rw [difference64?_eq htwo]
      exact difference64?_eq hparams
    have hfits : Progress.Fits nParam ⟨rows.span, dims, [], n⟩ :=
      fits_of_columns rows.span n hc (Nat.not_lt.mp hfew)
    simp [onColumnCount64?, hl, hn, hc, hdims, afterRow64?_eq config job hfits]

theorem onEntry64?_eq (config : ReadConfig)
    (h : Fits ⟨nParam, .entry job progress kind entries left⟩ (t :: ts)) :
    onEntry64? config nParam job progress kind entries left t =
      some (onEntry nParam job progress kind entries left t) := by
  obtain ⟨hprogress, hrows, hleft, hentries⟩ :
      Point.Fits nParam (.entry job progress kind entries left) := h.point
  by_cases hk : t.kind = .integer
  · obtain ⟨value, hv⟩ := h.values t List.mem_cons_self hk
    by_cases hlast : left ≤ 1
    · have hone : left = 1 := by omega
      have hafter := afterRow64?_eq config job (hprogress.addRow kind hone hentries value)
      simp [onEntry64?, onEntry, hk, hv, hlast, difference64?_eq hrows, hafter]
    · simp [onEntry64?, onEntry, hk, hv, hlast]
  · simp [onEntry64?, onEntry, hk]

/-- With counts of 64 bits a token takes the reading to the same point. -/
theorem onToken64?_eq (config : ReadConfig) (h : Fits q (t :: ts)) :
    onToken64? config q t = some (onToken q t) := by
  obtain ⟨nParam, point⟩ := q
  cases point with
  | secondInteger first =>
    by_cases hl : t.onNewLine = true
    · simp [onToken64?, hl]
    · simp [onToken64?, onToken, onSecondInteger, hl, onColumnCount64?_eq]
  | columnCount job rows => exact onColumnCount64?_eq config nParam job rows t
  | entry job progress kind entries left => exact onEntry64?_eq config h
  | firstInteger => rfl
  | rowCount _ => rfl
  | rowType job progress =>
    obtain ⟨hprogress, -⟩ : Point.Fits nParam (.rowType job progress) := h.point
    have hcolumns := hprogress.columns
    have hfront : progress.dims + nParam ≤ Decimal.largestCount := by omega
    have hentries : progress.dims + nParam + 1 ≤ Decimal.largestCount := by omega
    simp [onToken64?, sum64?_eq hfront, sum64?_eq hentries]

theorem passes (config : ReadConfig) (nParam : Nat) (hv : ∀ t ∈ ts, t.HasValue) :
    machine.Passes (checks config) ⟨nParam, .firstInteger⟩ ts :=
  stays.passes (fits_firstInteger hv) (onToken64?_eq config) fun _ => rfl

end ConstraintText.Matrix

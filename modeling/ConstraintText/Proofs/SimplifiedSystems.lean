import ConstraintText.Proofs.Edits
import ConstraintText.Proofs.RowValues

/-!
# Simplified systems

Simplifying keeps the points of a system. It finds the system empty exactly where a single row holds
nowhere, and then leaves the contradiction alone. Otherwise it leaves, of the rows of each kind, the
normal forms of those that do not hold everywhere, each where it occurs first. What it leaves it
leaves again.
-/
namespace ConstraintText.BasicMap

theorem filterMap_activeForm? {kind : ConstraintKind} {rows : List Row}
    (h : ∀ row ∈ rows, ¬ row.HoldsNowhere kind) :
    rows.filterMap (activeForm? kind) =
      (rows.filter fun row => ¬ row.HoldsEverywhere kind).map fun row => (row.normalize kind).2 := by
  induction rows with
  | nil => rfl
  | cons row rows ih =>
    obtain ⟨hrow, hrows⟩ := List.forall_mem_cons.mp h
    rw [← Row.normalize_infeasible_iff] at hrow
    rw [List.filterMap_cons, List.filter_cons, ih hrows]
    simp only [← Row.normalize_trivial_iff, activeForm?]
    rcases hn : row.normalize kind with ⟨status, normal⟩
    rw [hn] at hrow
    cases status with
    | active => simp [hn]
    | trivial => simp
    | infeasible => exact absurd rfl hrow

theorem variableGcd_of_mem_simplifyRows {kind : ConstraintKind} {rows : List Row} {row : Row}
    (h : row ∈ simplifyRows kind rows) : row.variableGcd = 1 := by
  obtain ⟨first, -, hf⟩ := mem_simplifyRows.mp h
  exact Row.variableGcd_of_activeForm? hf

variable {m : BasicMap}

theorem hasInfeasibleRow_iff_holdsNowhere :
    m.hasInfeasibleRow = true ↔ ∃ kind, ∃ row ∈ m.rows kind, row.HoldsNowhere kind := by
  simp only [hasInfeasibleRow_iff, Row.normalize_infeasible_iff]

theorem simplifyRows_eq (hi : m.hasInfeasibleRow = false) (kind : ConstraintKind) :
    simplifyRows kind (m.rows kind) = (((m.rows kind).filter fun row =>
      ¬ row.HoldsEverywhere kind).map fun row => (row.normalize kind).2).eraseDups := by
  rw [simplifyRows, filterMap_activeForm?]
  intro row hr hn
  simp [hasInfeasibleRow_iff_holdsNowhere.mpr ⟨kind, row, hr, hn⟩] at hi

@[simp] theorem divs_simplify (m : BasicMap) : m.simplify.divs = m.divs := by
  unfold simplify
  repeat' split
  · rfl
  · rfl
  · simp

theorem simplify_simplify (m : BasicMap) : m.simplify.simplify = m.simplify := by
  cases he : m.flags.empty with
  | true => rw [simplify_of_empty he, simplify_of_empty he]
  | false =>
    cases hi : m.hasInfeasibleRow with
    | true => exact simplify_of_empty (by rw [empty_simplify he, hi])
    | false =>
      rw [simplify_of_feasible he hi, simplify_of_feasible (by exact he)
        (hasInfeasibleRow_simplifyRows ..)]
      simp only [simplifyRows_idem]

/-- Simplifying a system whose rows have one length and that is not known to be empty keeps its
points. It is found empty exactly where one of its rows holds at no point, and is then left with the
contradiction. Otherwise the rows left of each kind are the normal forms of those that do not hold
everywhere, in order and without repetitions, and their coefficients have no common divisor. The
space, the existentials and their definitions stay, and simplifying again changes nothing. -/
theorem simplify_normalizes (m : BasicMap)
    (hrows : ∀ kind, ∀ row ∈ m.rows kind, row.length = m.rowLength)
    (he : m.flags.empty = false) :
    (∀ point : List Int, point.length = m.totalDim →
      (m.simplify.Satisfies point ↔ m.Satisfies point)) ∧
    (m.simplify.flags.empty = true ↔ ∃ kind, ∃ row ∈ m.rows kind,
      ∀ point : List Int, point.length = m.totalDim → ¬ row.Holds kind point) ∧
    (m.simplify.flags.empty = true →
      m.simplify.equalities = [1 :: Row.zeros m.totalDim] ∧ m.simplify.inequalities = []) ∧
    (m.simplify.flags.empty = false → ∀ kind,
      m.simplify.rows kind = (((m.rows kind).filter fun row =>
        ¬ row.HoldsEverywhere kind).map fun row => (row.normalize kind).2).eraseDups ∧
      (m.simplify.rows kind).Nodup ∧ ∀ row ∈ m.simplify.rows kind, row.variableGcd = 1) ∧
    (m.simplify.space = m.space ∧ m.simplify.nDiv = m.nDiv ∧ m.simplify.divs = m.divs) ∧
    m.simplify.simplify = m.simplify := by
  have hcolumns : ∀ kind, ∀ row ∈ m.rows kind, row.tail.length = m.totalDim := by
    intro kind row hr
    rw [List.length_tail, hrows kind row hr, rowLength]
    omega
  have hempty := empty_simplify he
  refine ⟨fun point _ => satisfies_simplify he point, ?_, fun h => ?_, fun h kind => ?_,
    ⟨space_simplify m, nDiv_simplify m, divs_simplify m⟩, simplify_simplify m⟩
  · rw [hempty, hasInfeasibleRow_iff_holdsNowhere]
    refine exists_congr fun kind => exists_congr fun row => and_congr_right fun hr => ?_
    rw [Row.HoldsNowhere, hcolumns kind row hr]
  · have hi : m.hasInfeasibleRow = true := by rw [← hempty, h]
    rw [simplify_of_infeasible he hi]
    exact ⟨by simp [setToEmpty, contradiction, rowLength], rfl⟩
  · have hi : m.hasInfeasibleRow = false := by rw [← hempty, h]
    rw [rows_simplify he hi]
    exact ⟨simplifyRows_eq hi kind, nodup_eraseDups _,
      fun row hr => variableGcd_of_mem_simplifyRows hr⟩

/-- Rows in a parameter and an existential: a row twice over, rows that divide through, rows that
come to the same and rows that hold everywhere. And the equality of an odd number and an even one. -/
theorem simplify_normalizes_even :
    let m : BasicMap := ⟨.unnamed 1 0 0, 1, [[0, 3, -6], [0, 0, 0], [0, -1, 2], [0, 1, -2]],
      [[5, 2, 0], [2, 1, 0], [7, 0, 0], [-1, 0, 3]], [[0, 0, 0]], ⟨false, false⟩⟩
    let odd : BasicMap := ⟨.unnamed 1 0 0, 1, [[1, 2, -4]], [[0, 1, 0]], [[0, 0, 0]], ⟨false, true⟩⟩
    m.simplify = ⟨m.space, 1, [[0, 1, -2], [0, -1, 2]], [[2, 1, 0], [-1, 0, 1]], m.divs, m.flags⟩ ∧
    (∀ point : List Int, point.length = 2 → (m.simplify.Satisfies point ↔ m.Satisfies point)) ∧
    m.simplify.simplify = m.simplify ∧
    odd.simplify = ⟨odd.space, 1, [[1, 0, 0]], [], odd.divs, ⟨true, false⟩⟩ ∧
    ∃ kind, ∃ row ∈ odd.rows kind,
      ∀ point : List Int, point.length = 2 → ¬ row.Holds kind point := by
  intro m odd
  have hm : ∀ kind, ∀ row ∈ m.rows kind, row.length = m.rowLength := by
    intro kind
    cases kind <;> decide
  have hodd : ∀ kind, ∀ row ∈ odd.rows kind, row.length = odd.rowLength := by
    intro kind
    cases kind <;> decide
  obtain ⟨hpoints, -, -, -, -, hagain⟩ := simplify_normalizes m hm rfl
  obtain ⟨-, hempty, -, -, -, -⟩ := simplify_normalizes odd hodd rfl
  have hnowhere : odd.simplify = ⟨odd.space, 1, [[1, 0, 0]], [], odd.divs, ⟨true, false⟩⟩ := by decide
  exact ⟨by decide, hpoints, hagain, hnowhere, hempty.mp (by rw [hnowhere])⟩

end ConstraintText.BasicMap

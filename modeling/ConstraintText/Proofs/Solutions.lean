import Mathlib
import ConstraintText.Reading

/-!
# The integer points of rows and systems

A point gives one integer to each variable column. A row stands for a sum at a point and holds
where that sum compares with zero as its kind says. Normalising a row keeps the points at which it
holds, and a system admits a point of its dimensions where some integers for the existentials
satisfy all rows.
-/
namespace ConstraintText
namespace Row

/-- The sum that a row stands for at a point. -/
def value (row : Row) (point : List Int) : Int :=
  row.constant + (row.tail.zipWith (· * ·) point).sum

/-- Whether a row of the kind holds at a point. -/
def Holds (row : Row) (kind : ConstraintKind) (point : List Int) : Prop :=
  holds kind (row.value point) = true

theorem holds_equality_iff {v : Int} : holds .equality v = true ↔ v = 0 := by
  simp [holds]

theorem holds_inequality_iff {v : Int} : holds .inequality v = true ↔ 0 ≤ v := by
  simp [holds]

theorem dvd_foldl_gcd (d a : ℕ) (cs : List Int) :
    d ∣ cs.foldl (fun g c => Nat.gcd g c.natAbs) a ↔ d ∣ a ∧ ∀ c ∈ cs, (d : Int) ∣ c := by
  induction cs generalizing a with
  | nil => simp
  | cons c cs ih =>
    simp only [List.foldl_cons, ih, Nat.dvd_gcd_iff, List.forall_mem_cons, Int.natCast_dvd,
      and_assoc]

theorem dvd_variableGcd (d : ℕ) (row : Row) :
    d ∣ row.variableGcd ↔ ∀ c ∈ row.tail, (d : Int) ∣ c := by
  simp [variableGcd, dvd_foldl_gcd]

theorem variableGcd_dvd {row : Row} {c : Int} (hc : c ∈ row.tail) : (row.variableGcd : Int) ∣ c :=
  (dvd_variableGcd _ row).mp dvd_rfl c hc

theorem eq_zero_of_variableGcd {row : Row} (h : row.variableGcd = 0) {c : Int}
    (hc : c ∈ row.tail) : c = 0 := by
  have hd := variableGcd_dvd hc
  rwa [h, Nat.cast_zero, zero_dvd_iff] at hd

theorem sum_zipWith_eq_zero {cs : List Int} (h : ∀ c ∈ cs, c = 0) (point : List Int) :
    (cs.zipWith (· * ·) point).sum = 0 := by
  induction cs generalizing point with
  | nil => simp
  | cons c cs ih =>
    cases point with
    | nil => simp
    | cons x xs =>
      rw [List.forall_mem_cons] at h
      simp [h.1, ih h.2 xs]

theorem value_of_variableGcd_eq_zero {row : Row} (h : row.variableGcd = 0) (point : List Int) :
    row.value point = row.constant := by
  simp [value, sum_zipWith_eq_zero fun c hc => eq_zero_of_variableGcd h hc]

theorem mul_sum_zipWith_ediv {g : Int} {cs : List Int} (h : ∀ c ∈ cs, g ∣ c)
    (point : List Int) :
    g * ((cs.map (· / g)).zipWith (· * ·) point).sum = (cs.zipWith (· * ·) point).sum := by
  induction cs generalizing point with
  | nil => simp
  | cons c cs ih =>
    cases point with
    | nil => simp
    | cons x xs =>
      rw [List.forall_mem_cons] at h
      simp only [List.map_cons, List.zipWith_cons_cons, List.sum_cons, mul_add, ih h.2 xs,
        ← mul_assoc, Int.mul_ediv_cancel' h.1]

/-- What normalising says of a row is so: rows without variables hold everywhere or nowhere, rows
whose equation has no solution hold nowhere, and any other row keeps its points. -/
theorem holds_normalize (kind : ConstraintKind) (row : Row) (point : List Int) :
    match row.normalize kind with
    | (.trivial, _) => row.Holds kind point
    | (.infeasible, _) => ¬ row.Holds kind point
    | (.active, normal) => (normal.Holds kind point ↔ row.Holds kind point) := by
  simp only [normalize]
  by_cases h₀ : row.variableGcd = 0
  · rw [if_pos h₀]
    have hv := value_of_variableGcd_eq_zero h₀ point
    by_cases hc : holds kind row.constant = true
    · simp [hc, Holds, hv]
    · simp [hc, Holds, hv]
  rw [if_neg h₀]
  by_cases h₁ : row.variableGcd = 1
  · simp [h₁]
  rw [if_neg h₁]
  have hg : (0 : Int) < row.variableGcd := by omega
  have hdvd : ∀ c ∈ row.tail, (row.variableGcd : Int) ∣ c := fun c hc => variableGcd_dvd hc
  have hsum := mul_sum_zipWith_ediv hdvd point
  set g : Int := (row.variableGcd : Int)
  set S := ((row.tail.map (· / g)).zipWith (· * ·) point).sum
  have hrow : row.value point = row.constant + g * S := by rw [value, hsum]
  by_cases h₂ : kind = .equality ∧ row.constant % g ≠ 0
  · rw [if_pos h₂]
    obtain ⟨rfl, hmod⟩ := h₂
    simp only [Holds, holds_equality_iff, hrow]
    intro he
    have hc : row.constant = g * (-S) := by linarith
    exact hmod (by rw [hc, Int.mul_emod_right])
  · rw [if_neg h₂]
    have hnormal : value (row.constant / g :: row.tail.map (· / g)) point =
        row.constant / g + S := by simp [value, constant, S]
    simp only [Holds, hnormal, hrow]
    cases kind with
    | equality =>
      have hd : g ∣ row.constant := by
        by_contra hd
        exact h₂ ⟨rfl, fun hm => hd (Int.dvd_of_emod_eq_zero hm)⟩
      obtain ⟨k, hk⟩ := hd
      rw [holds_equality_iff, holds_equality_iff, hk, Int.mul_ediv_cancel_left _ hg.ne', ← mul_add,
        mul_eq_zero]
      exact ⟨.inr, fun h => h.resolve_left hg.ne'⟩
    | inequality =>
      rw [holds_inequality_iff, holds_inequality_iff]
      have hle : -S ≤ row.constant / g ↔ -S * g ≤ row.constant := Int.le_ediv_iff_mul_le hg
      constructor
      · intro h
        have := hle.mp (by linarith)
        linarith
      · intro h
        have := hle.mpr (by linarith)
        linarith

theorem not_holds_of_infeasible {kind : ConstraintKind} {row : Row}
    (h : (row.normalize kind).1 = .infeasible) (point : List Int) : ¬ row.Holds kind point := by
  have hp := holds_normalize kind row point
  rcases hn : row.normalize kind with ⟨status, normal⟩
  rw [hn] at h hp
  subst h
  exact hp

theorem holds_iff_of_not_infeasible {kind : ConstraintKind} {row : Row}
    (h : (row.normalize kind).1 ≠ .infeasible) (point : List Int) :
    row.Holds kind point ↔
      ∀ normal ∈ BasicMap.activeForm? kind row, normal.Holds kind point := by
  have hp := holds_normalize kind row point
  unfold BasicMap.activeForm?
  rcases hn : row.normalize kind with ⟨status, normal⟩
  rw [hn] at h hp
  cases status with
  | active => simpa using hp.symm
  | trivial => simpa using hp
  | infeasible => exact absurd rfl h

end Row

namespace BasicMap

/-- Whether all rows hold at a point of all variable columns. -/
def Satisfies (m : BasicMap) (point : List Int) : Prop :=
  ∀ kind, ∀ row ∈ m.rows kind, row.Holds kind point

/-- Whether integers for the existentials satisfy the rows at a point of the dimensions. -/
def Admits (m : BasicMap) (point : List Int) : Prop :=
  ∃ existentials : List Int, existentials.length = m.nDiv ∧ m.Satisfies (point ++ existentials)

theorem hasInfeasibleRow_iff (m : BasicMap) :
    m.hasInfeasibleRow = true ↔
      ∃ kind, ∃ row ∈ m.rows kind, (row.normalize kind).1 = .infeasible := by
  simp only [hasInfeasibleRow, Bool.or_eq_true, List.any_eq_true, isInfeasible, beq_iff_eq]
  constructor
  · rintro (⟨row, hr, h⟩ | ⟨row, hr, h⟩)
    · exact ⟨.equality, row, hr, h⟩
    · exact ⟨.inequality, row, hr, h⟩
  · rintro ⟨kind, row, hr, h⟩
    cases kind with
    | equality => exact .inl ⟨row, hr, h⟩
    | inequality => exact .inr ⟨row, hr, h⟩

theorem mem_simplifyRows {kind : ConstraintKind} {rows : List Row} {normal : Row} :
    normal ∈ simplifyRows kind rows ↔ ∃ row ∈ rows, activeForm? kind row = some normal := by
  simp [simplifyRows, List.mem_eraseDups]

theorem rows_simplify {m : BasicMap} (he : m.flags.empty = false)
    (hi : m.hasInfeasibleRow = false) (kind : ConstraintKind) :
    m.simplify.rows kind = simplifyRows kind (m.rows kind) := by
  cases kind <;> simp [simplify, he, hi, withRows, rows]

theorem simplify_of_infeasible {m : BasicMap} (he : m.flags.empty = false)
    (hi : m.hasInfeasibleRow = true) : m.simplify = m.setToEmpty := by
  simp [simplify, he, hi]

theorem not_holds_contradiction (n : ℕ) (point : List Int) :
    ¬ Row.Holds (contradiction n) .equality point := by
  have hz : ∀ c ∈ Row.zeros (n - 1), c = 0 := fun c hc => List.eq_of_mem_replicate hc
  simp only [Row.Holds, Row.holds_equality_iff, contradiction, Row.value, Row.constant,
    List.headD_cons, List.tail_cons]
  rw [Row.sum_zipWith_eq_zero hz]
  decide

theorem not_satisfies_of_infeasible {m : BasicMap} (h : m.hasInfeasibleRow = true)
    (point : List Int) : ¬ m.Satisfies point := by
  intro hs
  obtain ⟨kind, row, hr, hn⟩ := (hasInfeasibleRow_iff m).mp h
  exact Row.not_holds_of_infeasible hn point (hs kind row hr)

theorem not_satisfies_setToEmpty (m : BasicMap) (point : List Int) :
    ¬ m.setToEmpty.Satisfies point := by
  intro hs
  exact not_holds_contradiction m.rowLength point (hs .equality _ (by simp [setToEmpty, rows]))

/-- Simplifying keeps the points that satisfy a system not yet known to be empty. -/
theorem satisfies_simplify {m : BasicMap} (he : m.flags.empty = false) (point : List Int) :
    m.simplify.Satisfies point ↔ m.Satisfies point := by
  cases hi : m.hasInfeasibleRow with
  | true =>
    rw [simplify_of_infeasible he hi]
    exact iff_of_false (not_satisfies_setToEmpty m point) (not_satisfies_of_infeasible hi point)
  | false =>
    have hrow : ∀ kind, ∀ row ∈ m.rows kind, (row.normalize kind).1 ≠ .infeasible := by
      intro kind row hr hn
      simp [(hasInfeasibleRow_iff m).mpr ⟨kind, row, hr, hn⟩] at hi
    simp only [Satisfies, rows_simplify he hi, mem_simplifyRows]
    constructor
    · intro h kind row hr
      rw [Row.holds_iff_of_not_infeasible (hrow kind row hr)]
      exact fun normal hn => h kind normal ⟨row, hr, hn⟩
    · rintro h kind normal ⟨row, hr, hn⟩
      exact (Row.holds_iff_of_not_infeasible (hrow kind row hr) point).mp (h kind row hr) normal hn

theorem empty_simplify {m : BasicMap} (he : m.flags.empty = false) :
    m.simplify.flags.empty = m.hasInfeasibleRow := by
  cases hi : m.hasInfeasibleRow <;> simp [simplify, he, hi, setToEmpty, withRows]

end BasicMap
end ConstraintText

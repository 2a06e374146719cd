import ConstraintText.Proofs.NormalForms

/-!
# The values of a row

At the points of its columns a row takes its constant plus every multiple of the greatest common
divisor of its coefficients, and nothing else. So a row has points at which it holds and points at
which it does not, unless normalising tells that it holds everywhere or nowhere.
-/
namespace ConstraintText.Row

/-- Whether a row holds at all points of its columns. -/
def HoldsEverywhere (row : Row) (kind : ConstraintKind) : Prop :=
  ∀ point : List Int, point.length = row.tail.length → row.Holds kind point

/-- Whether a row holds at no point of its columns. -/
def HoldsNowhere (row : Row) (kind : ConstraintKind) : Prop :=
  ∀ point : List Int, point.length = row.tail.length → ¬ row.Holds kind point

/-- Bézout's identity for a list of coefficients, behind a divisor `a` of what came before. -/
theorem exists_sum_eq_foldl_gcd (cs : List Int) (a : ℕ) :
    ∃ (x : Int) (point : List Int), point.length = cs.length ∧
      a * x + (cs.zipWith (· * ·) point).sum =
        (cs.foldl (fun g c => Nat.gcd g c.natAbs) a : ℕ) := by
  induction cs generalizing a with
  | nil => exact ⟨1, [], rfl, by simp⟩
  | cons c cs ih =>
    obtain ⟨x, point, hlength, hsum⟩ := ih (Nat.gcd a c.natAbs)
    have hgcd : ((Nat.gcd a c.natAbs : ℕ) : Int) = a * Int.gcdA a c + c * Int.gcdB a c :=
      Int.gcd_eq_gcd_ab a c
    refine ⟨Int.gcdA a c * x, (Int.gcdB a c * x) :: point, by simp [hlength], ?_⟩
    rw [hgcd] at hsum
    rw [List.zipWith_cons_cons, List.sum_cons, List.foldl_cons, ← hsum]
    ring

theorem sum_zipWith_map_mul (k : Int) (cs point : List Int) :
    (cs.zipWith (· * ·) (point.map (· * k))).sum = (cs.zipWith (· * ·) point).sum * k := by
  induction cs generalizing point with
  | nil => simp
  | cons c cs ih =>
    cases point with
    | nil => simp
    | cons x xs =>
      simp only [List.map_cons, List.zipWith_cons_cons, List.sum_cons, ih, add_mul, mul_assoc]

theorem exists_value_eq (row : Row) (k : Int) : ∃ point : List Int,
    point.length = row.tail.length ∧ row.value point = row.constant + row.variableGcd * k := by
  obtain ⟨x, point, hlength, hsum⟩ := exists_sum_eq_foldl_gcd row.tail 0
  refine ⟨point.map (· * k), by simp [hlength], ?_⟩
  rw [value, sum_zipWith_map_mul, variableGcd, ← hsum, Nat.cast_zero, zero_mul, zero_add]

/-- An active row has coefficients, and an equality among them has a constant they divide. -/
theorem variableGcd_of_active {kind : ConstraintKind} {row : Row}
    (h : (row.normalize kind).1 = .active) :
    row.variableGcd ≠ 0 ∧ (kind = .equality → (row.variableGcd : Int) ∣ row.constant) := by
  unfold normalize at h
  dsimp only at h
  by_cases h₀ : row.variableGcd = 0
  · rw [if_pos h₀] at h
    split at h <;> simp at h
  rw [if_neg h₀] at h
  refine ⟨h₀, fun hk => ?_⟩
  by_cases h₁ : row.variableGcd = 1
  · simp [h₁]
  rw [if_neg h₁] at h
  split at h
  · simp at h
  · rename_i hd
    exact Int.dvd_of_emod_eq_zero (by_contra fun hm => hd ⟨hk, hm⟩)

/-- An active row holds at some point and fails at another. -/
theorem exists_of_active {kind : ConstraintKind} {row : Row}
    (h : (row.normalize kind).1 = .active) :
    (∃ point : List Int, point.length = row.tail.length ∧ row.Holds kind point) ∧
      ∃ point : List Int, point.length = row.tail.length ∧ ¬ row.Holds kind point := by
  obtain ⟨hne, hdvd⟩ := variableGcd_of_active h
  have hpos : (0 : Int) < row.variableGcd := by omega
  -- the value at a point is the constant plus any multiple of the divisor
  have hvalue : ∀ k : Int, ∃ point : List Int, point.length = row.tail.length ∧
      (row.Holds kind point ↔ holds kind (row.constant + row.variableGcd * k) = true) := by
    intro k
    obtain ⟨point, hlength, hv⟩ := row.exists_value_eq k
    exact ⟨point, hlength, by rw [Holds, hv]⟩
  suffices hk : (∃ k, holds kind (row.constant + row.variableGcd * k) = true) ∧
      ∃ k, ¬ holds kind (row.constant + row.variableGcd * k) = true by
    obtain ⟨⟨k, hk⟩, k', hk'⟩ := hk
    obtain ⟨point, hlength, hiff⟩ := hvalue k
    obtain ⟨point', hlength', hiff'⟩ := hvalue k'
    exact ⟨⟨point, hlength, hiff.mpr hk⟩, point', hlength', fun hh => hk' (hiff'.mp hh)⟩
  cases kind with
  | equality =>
    obtain ⟨d, hd⟩ := hdvd rfl
    simp only [holds_equality_iff, hd]
    refine ⟨⟨-d, by ring⟩, 1 - d, fun he => ?_⟩
    have hzero : (row.variableGcd : Int) = 0 := by linarith
    omega
  | inequality =>
    simp only [holds_inequality_iff, not_le]
    have hle : |row.constant| ≤ row.variableGcd * |row.constant| :=
      le_mul_of_one_le_left (abs_nonneg _) (by omega)
    refine ⟨⟨|row.constant|, ?_⟩, -|row.constant| - 1, ?_⟩
    · linarith [neg_abs_le row.constant]
    · rw [mul_sub, mul_neg, mul_one]
      linarith [le_abs_self row.constant]

theorem normalize_trivial_iff {kind : ConstraintKind} {row : Row} :
    (row.normalize kind).1 = .trivial ↔ row.HoldsEverywhere kind := by
  have hp := holds_normalize kind row
  constructor
  · intro h point _
    have hpoint := hp point
    rcases hn : row.normalize kind with ⟨status, normal⟩
    rw [hn] at h hpoint
    subst h
    exact hpoint
  · intro h
    cases hs : (row.normalize kind).1 with
    | trivial => rfl
    | active =>
      obtain ⟨-, point, hlength, hfails⟩ := exists_of_active hs
      exact absurd (h point hlength) hfails
    | infeasible =>
      obtain ⟨point, hlength, -⟩ := row.exists_value_eq 0
      exact absurd (h point hlength) (not_holds_of_infeasible hs point)

theorem normalize_infeasible_iff {kind : ConstraintKind} {row : Row} :
    (row.normalize kind).1 = .infeasible ↔ row.HoldsNowhere kind := by
  constructor
  · exact fun h point _ => not_holds_of_infeasible h point
  · intro h
    cases hs : (row.normalize kind).1 with
    | infeasible => rfl
    | active =>
      obtain ⟨⟨point, hlength, hholds⟩, -⟩ := exists_of_active hs
      exact absurd hholds (h point hlength)
    | trivial =>
      obtain ⟨point, hlength, -⟩ := row.exists_value_eq 0
      exact absurd (normalize_trivial_iff.mp hs point hlength) (h point hlength)

instance (row : Row) (kind : ConstraintKind) : Decidable (row.HoldsEverywhere kind) :=
  decidable_of_iff _ normalize_trivial_iff

end ConstraintText.Row

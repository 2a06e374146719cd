import ConstraintText.Proofs.SimplifiedSystems

/-!
# Normal forms are canonical

Normalising tells the rows that hold everywhere and those that hold nowhere from the rest, and
divides the rest through. What it leaves is determined by the points at which the row holds, for an
equality up to its sign. For let one row hold where another does: along a direction that does not
change the second it cannot change the first, so that its coefficients are a multiple of the
other's, and the factor is one or minus one where neither has a common divisor. Hence a simplified
system has no two inequalities for one half-space.
-/
namespace ConstraintText

namespace Row

/-- The normal form of an active row: it holds where the row does, and its coefficients have no
common divisor. -/
theorem normalForm_of_active {kind : ConstraintKind} {row : Row}
    (h : (row.normalize kind).1 = .active) :
    (row.normalize kind).2.length = row.length ∧ (row.normalize kind).2.variableGcd = 1 ∧
      ∀ point, (row.normalize kind).2.Holds kind point ↔ row.Holds kind point := by
  have hp := holds_normalize kind row
  rcases hn : row.normalize kind with ⟨status, normal⟩
  rw [hn] at h
  simp only [hn] at hp
  subst h
  have hform : BasicMap.activeForm? kind row = some normal := by simp [BasicMap.activeForm?, hn]
  exact ⟨(normalize_of_activeForm? hform).2, variableGcd_of_activeForm? hform, hp⟩

theorem normalForm_of_not_active {kind : ConstraintKind} {row : Row}
    (h : (row.normalize kind).1 ≠ .active) : (row.normalize kind).2 = row := by
  revert h
  simp only [normalize]
  repeat' split
  all_goals simp

theorem variableGcd_eq_one_iff {row : Row} :
    row.variableGcd = 1 ↔ ∀ d : ℕ, (∀ c ∈ row.tail, (d : Int) ∣ c) ↔ d = 1 := by
  simp only [← dvd_variableGcd]
  constructor
  · intro h d
    rw [h, Nat.dvd_one]
  · exact fun h => (h _).mp dvd_rfl

/-- Normalising a row that has a constant tells exactly whether the row holds everywhere, nowhere or
neither. In the last case alone the row is changed: it keeps its length and the points at which it
holds, and then nothing but one divides all its coefficients. -/
theorem normalize_classifies (kind : ConstraintKind) {row : Row} (h : row ≠ []) :
    ∃ status normal, row.normalize? kind = some (status, normal) ∧
      (status = .trivial ↔
        ∀ point : List Int, point.length + 1 = row.length → row.Holds kind point) ∧
      (status = .infeasible ↔
        ∀ point : List Int, point.length + 1 = row.length → ¬ row.Holds kind point) ∧
      (status = .active ↔
        (∃ point : List Int, point.length + 1 = row.length ∧ row.Holds kind point) ∧
          ∃ point : List Int, point.length + 1 = row.length ∧ ¬ row.Holds kind point) ∧
      (status = .active → normal.length = row.length ∧
        (∀ d : ℕ, (∀ c ∈ normal.tail, (d : Int) ∣ c) ↔ d = 1) ∧
        ∀ point : List Int, point.length + 1 = row.length →
          (normal.Holds kind point ↔ row.Holds kind point)) ∧
      (status ≠ .active → normal = row) := by
  have hlength : ∀ point : List Int,
      point.length + 1 = row.length ↔ point.length = row.tail.length := by
    intro point
    have := List.length_pos_iff.mpr h
    rw [List.length_tail]
    omega
  have hread : row.normalize? kind = some (row.normalize kind) := by
    simp [normalize?, ifRow, h]
  simp only [hlength]
  refine ⟨_, _, hread, normalize_trivial_iff, normalize_infeasible_iff, ⟨exists_of_active, ?_⟩,
    fun hs => ?_, normalForm_of_not_active⟩
  · rintro ⟨⟨point, hp, hholds⟩, point', hp', hfails⟩
    cases hs : (row.normalize kind).1 with
    | active => exact hs
    | trivial => exact absurd (normalize_trivial_iff.mp hs point' hp') hfails
    | infeasible => exact absurd hholds (normalize_infeasible_iff.mp hs point hp)
  · obtain ⟨hform, hgcd, hpoints⟩ := normalForm_of_active hs
    exact ⟨hform, variableGcd_eq_one_iff.mp hgcd, fun point _ => hpoints point⟩

/-- An inequality whose constant is rounded down, below zero, and an equality between an odd number
and an even one. -/
theorem normalize_classifies_odd :
    normalize? .inequality [-3, 2, -4] = some (.active, [-2, 1, -2]) ∧
    (∀ point : List Int, point.length + 1 = 3 →
      (Holds [-2, 1, -2] .inequality point ↔ Holds [-3, 2, -4] .inequality point)) ∧
    normalize? .equality [1, 2, -4] = some (.infeasible, [1, 2, -4]) ∧
    ∀ point : List Int, point.length + 1 = 3 → ¬ Holds [1, 2, -4] .equality point := by
  have hodd : normalize? .inequality [-3, 2, -4] = some (.active, [-2, 1, -2]) := by decide
  have hnever : normalize? .equality [1, 2, -4] = some (.infeasible, [1, 2, -4]) := by decide
  obtain ⟨_, _, he, -, -, -, hactive, -⟩ :=
    normalize_classifies .inequality (by decide : ([-3, 2, -4] : Row) ≠ [])
  obtain ⟨_, _, he', -, hinfeasible, -⟩ :=
    normalize_classifies .equality (by decide : ([1, 2, -4] : Row) ≠ [])
  obtain ⟨rfl, rfl⟩ := Prod.mk.inj (Option.some.inj (hodd.symm.trans he))
  obtain ⟨rfl, rfl⟩ := Prod.mk.inj (Option.some.inj (hnever.symm.trans he'))
  exact ⟨hodd, (hactive rfl).2.2, hnever, hinfeasible.mp rfl⟩

/-- What the value of a row gains when a point moves in a direction. -/
def slope (row : Row) (direction : List Int) : Int :=
  (row.tail.zipWith (· * ·) direction).sum

/-- Where a point comes to when it moves `k` times in a direction. -/
def move (point direction : List Int) (k : Int) : List Int :=
  point.zipWith (fun x d => x + d * k) direction

theorem length_move {point direction : List Int} (h : direction.length = point.length) (k : Int) :
    (move point direction k).length = point.length := by
  simp [move, h]

theorem sum_zipWith_move {point direction : List Int} (h : direction.length = point.length)
    (cs : List Int) (k : Int) :
    (cs.zipWith (· * ·) (move point direction k)).sum =
      (cs.zipWith (· * ·) point).sum + (cs.zipWith (· * ·) direction).sum * k := by
  induction cs generalizing point direction with
  | nil => simp
  | cons c cs ih =>
    cases point with
    | nil =>
      obtain rfl := List.length_eq_zero_iff.mp h
      simp [move]
    | cons x xs =>
      obtain ⟨d, ds, rfl⟩ := List.exists_cons_of_length_eq_add_one h
      have htail := ih (by simpa using h : ds.length = xs.length)
      simp only [move, List.zipWith_cons_cons, List.sum_cons] at htail ⊢
      rw [htail]
      ring

theorem slope_move {point direction : List Int} (h : direction.length = point.length) (row : Row)
    (k : Int) : row.slope (move point direction k) = row.slope point + row.slope direction * k :=
  sum_zipWith_move h row.tail k

theorem value_move {point direction : List Int} (h : direction.length = point.length) (row : Row)
    (k : Int) : row.value (move point direction k) = row.value point + row.slope direction * k := by
  rw [value, value, sum_zipWith_move h, slope, add_assoc]

section Primitive

variable {row row' : Row}

theorem exists_slope_eq_one (h : row.variableGcd = 1) : ∃ direction : List Int,
    direction.length = row.tail.length ∧ row.slope direction = 1 := by
  obtain ⟨direction, hlength, hvalue⟩ := row.exists_value_eq 1
  refine ⟨direction, hlength, ?_⟩
  rw [value, h, add_right_inj] at hvalue
  simpa [slope] using hvalue

theorem exists_value_eq_zero (h : row.variableGcd = 1) : ∃ point : List Int,
    point.length = row.tail.length ∧ row.value point = 0 := by
  obtain ⟨point, hlength, hvalue⟩ := row.exists_value_eq (-row.constant)
  exact ⟨point, hlength, by rw [hvalue, h]; ring⟩

theorem eq_map_mul_of_sum_eq {cs ds : List Int} {factor : Int} (hlength : ds.length = cs.length)
    (h : ∀ direction : List Int, direction.length = cs.length →
      (ds.zipWith (· * ·) direction).sum = factor * (cs.zipWith (· * ·) direction).sum) :
    ds = cs.map (factor * ·) := by
  induction cs generalizing ds with
  | nil => exact List.length_eq_zero_iff.mp hlength
  | cons c cs ih =>
    obtain ⟨d, ds, rfl⟩ := List.exists_cons_of_length_eq_add_one hlength
    have hrest : ds = cs.map (factor * ·) := by
      refine ih (by simpa using hlength) fun direction hd => ?_
      simpa using h (0 :: direction) (by simp [hd])
    have hstill : ∀ es : List Int, (es.zipWith (· * ·) (zeros cs.length)).sum = 0 := by
      intro es
      rw [List.zipWith_comm_of_comm mul_comm]
      exact sum_zipWith_eq_zero (fun z hz => List.eq_of_mem_replicate hz) es
    have hfirst := h (1 :: zeros cs.length) (by simp [zeros])
    simp only [List.zipWith_cons_cons, List.sum_cons, hstill, mul_one, add_zero] at hfirst
    rw [hfirst, hrest, List.map_cons]

/-- Where a row without common divisor vanishes only as another one does not fall below zero, the
other one does not change in a direction in which it does not. -/
theorem slope_eq_zero_of_nonneg (h : row.variableGcd = 1)
    (himp : ∀ point : List Int, point.length = row.tail.length → row.value point = 0 →
      0 ≤ row'.value point) {direction : List Int} (hd : direction.length = row.tail.length)
    (hflat : row.slope direction = 0) : row'.slope direction = 0 := by
  obtain ⟨point, hp, hzero⟩ := exists_value_eq_zero h
  have hline : ∀ k, 0 ≤ row'.value point + row'.slope direction * k := by
    intro k
    have hmoved := himp (move point direction k) (by rw [length_move (hd.trans hp.symm), hp])
    rw [value_move (hd.trans hp.symm), value_move (hd.trans hp.symm), hflat, hzero] at hmoved
    exact hmoved (by ring)
  by_contra hne
  -- far enough along the direction the other row would be negative
  have hsquare : 1 ≤ row'.slope direction * row'.slope direction := mul_self_pos.mpr hne
  have hstart := himp point hp hzero
  have hfar := hline (-(row'.value point + 1) * row'.slope direction)
  nlinarith

/-- Rows without common divisor that do not change in the same directions have the same
coefficients, up to a sign. -/
theorem tail_eq_or_eq_negate (hlength : row'.tail.length = row.tail.length)
    (h : row.variableGcd = 1) (h' : row'.variableGcd = 1)
    (hflat : ∀ direction : List Int, direction.length = row.tail.length →
      row.slope direction = 0 → row'.slope direction = 0) :
    row'.tail = row.tail ∨ row'.tail = row.tail.map (- ·) := by
  obtain ⟨unit, hunit, hone⟩ := exists_slope_eq_one h
  have hfactor : row'.tail = row.tail.map (row'.slope unit * ·) := by
    refine eq_map_mul_of_sum_eq hlength fun direction hd => ?_
    -- without its part along `unit` a direction does not change the row
    have hpart : unit.length = direction.length := hunit.trans hd.symm
    have hrest := hflat (move direction unit (-row.slope direction))
      (by rw [length_move hpart, hd])
      (by rw [slope_move hpart, hone]; ring)
    rw [slope_move hpart] at hrest
    change row'.slope direction = row'.slope unit * row.slope direction
    linarith
  have hdvd : (row'.slope unit).natAbs ∣ row'.variableGcd := by
    rw [dvd_variableGcd, hfactor]
    intro c hc
    obtain ⟨b, -, rfl⟩ := List.mem_map.mp hc
    exact Int.natAbs_dvd.mpr (dvd_mul_right _ b)
  rw [h', Nat.dvd_one] at hdvd
  rcases (by omega : row'.slope unit = 1 ∨ row'.slope unit = -1) with he | he
  · exact .inl (by simpa [he] using hfactor)
  · exact .inr (by simpa [he] using hfactor)

theorem sum_zipWith_negate (cs point : List Int) :
    ((cs.map (- ·)).zipWith (· * ·) point).sum = -(cs.zipWith (· * ·) point).sum := by
  induction cs generalizing point with
  | nil => simp
  | cons c cs ih =>
    cases point with
    | nil => simp
    | cons x xs =>
      simp only [List.map_cons, List.zipWith_cons_cons, List.sum_cons, ih]
      ring

theorem value_negate (row : Row) (point : List Int) : row.negate.value point = -row.value point := by
  cases row with
  | nil => simp [negate, value, constant]
  | cons c cs =>
    simp only [negate, value, constant, List.map_cons, List.headD_cons, List.tail_cons,
      sum_zipWith_negate]
    ring

theorem constant_negate (row : Row) : row.negate.constant = -row.constant := by
  cases row <;> simp [negate, constant]

theorem tail_negate (row : Row) : row.negate.tail = row.tail.map (- ·) := by
  cases row <;> rfl

theorem eq_of_constant_of_tail (h : row ≠ []) (h' : row' ≠ [])
    (hconstant : row.constant = row'.constant) (htail : row.tail = row'.tail) : row = row' := by
  obtain ⟨c, cs, rfl⟩ := List.exists_cons_of_ne_nil h
  obtain ⟨d, ds, rfl⟩ := List.exists_cons_of_ne_nil h'
  exact congrArg₂ List.cons hconstant htail

theorem ne_nil_of_variableGcd (h : row.variableGcd = 1) : row ≠ [] := by
  rintro rfl
  exact absurd h (by decide)

/-- An inequality implied by another one has its coefficients and no smaller constant. -/
theorem tail_eq_of_implies (hlength : row'.tail.length = row.tail.length)
    (h : row.variableGcd = 1) (h' : row'.variableGcd = 1)
    (himp : ∀ point : List Int, point.length = row.tail.length → 0 ≤ row.value point →
      0 ≤ row'.value point) : row'.tail = row.tail ∧ row.constant ≤ row'.constant := by
  obtain ⟨point, hp, hzero⟩ := exists_value_eq_zero h
  have htails := tail_eq_or_eq_negate hlength h h' fun _ =>
    slope_eq_zero_of_nonneg h fun point hp hz => himp point hp hz.ge
  have hstart := himp point hp hzero.ge
  rcases htails with htail | htail
  · refine ⟨htail, ?_⟩
    rw [value, htail] at hstart
    rw [value] at hzero
    linarith
  · -- the way on which the first row grows leads out of the second
    obtain ⟨unit, hunit, hone⟩ := exists_slope_eq_one h
    have hback : row'.slope unit = -1 := by
      rw [slope, htail, sum_zipWith_negate, ← slope, hone]
    have hpart : unit.length = point.length := hunit.trans hp.symm
    have hfar := himp (move point unit (row'.value point + 1)) (by rw [length_move hpart, hp])
    rw [value_move hpart, value_move hpart, hzero, hone, hback] at hfar
    linarith [hfar (by linarith)]

end Primitive

/-- Whether two rows hold at the same points of the first one's columns. -/
def SamePoints (kind : ConstraintKind) (row row' : Row) : Prop :=
  ∀ point : List Int, point.length = row.tail.length →
    (row.Holds kind point ↔ row'.Holds kind point)

/-- Whether two rows are equal, as equalities up to their sign. -/
def SameUpToSign (kind : ConstraintKind) (row row' : Row) : Prop :=
  match kind with
  | .equality => row = row' ∨ row = row'.negate
  | .inequality => row = row'

instance (kind : ConstraintKind) (row row' : Row) : Decidable (SameUpToSign kind row row') :=
  match kind with
  | .equality => inferInstanceAs (Decidable (row = row' ∨ row = row'.negate))
  | .inequality => inferInstanceAs (Decidable (row = row'))

section Canonical

variable {row row' : Row}

theorem eq_of_samePoints (hlength : row.tail.length = row'.tail.length)
    (h : row.variableGcd = 1) (h' : row'.variableGcd = 1)
    (hsame : SamePoints .inequality row row') : row = row' := by
  simp only [SamePoints, Holds, holds_inequality_iff] at hsame
  obtain ⟨htail, hle⟩ := tail_eq_of_implies hlength.symm h h' fun point hp => (hsame point hp).mp
  obtain ⟨-, hge⟩ := tail_eq_of_implies hlength h' h fun point hp =>
    (hsame point (hp.trans hlength.symm)).mpr
  exact eq_of_constant_of_tail (ne_nil_of_variableGcd h) (ne_nil_of_variableGcd h')
    (hle.antisymm hge) htail.symm

theorem eq_or_eq_negate_of_samePoints (hlength : row.tail.length = row'.tail.length)
    (h : row.variableGcd = 1) (h' : row'.variableGcd = 1)
    (hsame : SamePoints .equality row row') : row = row' ∨ row = row'.negate := by
  simp only [SamePoints, Holds, holds_equality_iff] at hsame
  obtain ⟨point, hp, hzero⟩ := exists_value_eq_zero h
  have hzero' := (hsame point hp).mp hzero
  have hne := ne_nil_of_variableGcd h
  have hne' := ne_nil_of_variableGcd h'
  have htails := tail_eq_or_eq_negate hlength.symm h h' fun _ =>
    slope_eq_zero_of_nonneg h fun point hp hz => ((hsame point hp).mp hz).ge
  rw [value] at hzero hzero'
  rcases htails with htail | htail
  · rw [htail] at hzero'
    exact .inl (eq_of_constant_of_tail hne hne' (by linarith) htail.symm)
  · rw [htail, sum_zipWith_negate] at hzero'
    refine .inr (eq_of_constant_of_tail hne (by simpa [negate] using hne') ?_ ?_)
    · rw [constant_negate]
      linarith
    · simp [tail_negate, htail]

/-- Rows without common divisor hold at the same points only if they are the same. -/
theorem samePoints_iff {kind : ConstraintKind} (hlength : row.length = row'.length)
    (h : row.variableGcd = 1) (h' : row'.variableGcd = 1) :
    SamePoints kind row row' ↔ SameUpToSign kind row row' := by
  have htails : row.tail.length = row'.tail.length := by simp [hlength]
  cases kind with
  | equality =>
    refine ⟨eq_or_eq_negate_of_samePoints htails h h', ?_⟩
    rintro (rfl | rfl)
    · exact fun _ _ => Iff.rfl
    · exact fun point _ => by
        rw [Holds, Holds, holds_equality_iff, holds_equality_iff, value_negate, neg_eq_zero]
  | inequality =>
    refine ⟨eq_of_samePoints htails h h', ?_⟩
    rintro rfl
    exact fun _ _ => Iff.rfl

/-- Active rows hold at the same points exactly where their normal forms are the same. -/
theorem samePoints_iff_of_active {kind : ConstraintKind} (hlength : row.length = row'.length)
    (h : (row.normalize kind).1 = .active) (h' : (row'.normalize kind).1 = .active) :
    SamePoints kind row row' ↔ SameUpToSign kind (row.normalize kind).2 (row'.normalize kind).2 := by
  obtain ⟨hform, hgcd, hpoints⟩ := normalForm_of_active h
  obtain ⟨hform', hgcd', hpoints'⟩ := normalForm_of_active h'
  rw [← samePoints_iff (by rw [hform, hform', hlength]) hgcd hgcd']
  simp only [SamePoints, hpoints, hpoints', List.length_tail, hform]

end Canonical

end Row

namespace BasicMap

theorem pairwise_simplifyRows (rows : List Row) :
    (simplifyRows .inequality rows).Pairwise fun row row' =>
      row.length = row'.length → ¬ Row.SamePoints .inequality row row' := by
  refine (nodup_eraseDups _).imp_of_mem fun hr hr' hne hlength hsame => hne ?_
  exact (Row.samePoints_iff hlength (variableGcd_of_mem_simplifyRows hr)
    (variableGcd_of_mem_simplifyRows hr')).mp hsame

/-- Two rows of one length that normalising finds active hold at the same points exactly where their
normal forms are equal, for equalities where these are equal or each other's negations. So behind
the simplification of a system not yet known to be empty, no two inequalities, whose rows have one
length, hold at the same points. A system known to be empty is left as it is. -/
theorem normalForms_canonical :
    (∀ (kind : ConstraintKind) (row row' : Row), row.length = row'.length →
      (row.normalize kind).1 = .active → (row'.normalize kind).1 = .active →
        (row.SamePoints kind row' ↔
          (row.normalize kind).2.SameUpToSign kind (row'.normalize kind).2)) ∧
    ∀ m : BasicMap,
      (m.flags.empty = false → m.simplify.inequalities.Pairwise fun row row' =>
        row.length = row'.length → ¬ row.SamePoints .inequality row') ∧
      (m.flags.empty = true → m.simplify = m) := by
  refine ⟨fun kind row row' => Row.samePoints_iff_of_active, fun m => ⟨fun he => ?_, ?_⟩⟩
  · cases hi : m.hasInfeasibleRow with
    | true =>
      rw [simplify_of_infeasible he hi]
      exact .nil
    | false =>
      rw [simplify_of_feasible he hi]
      exact pairwise_simplifyRows m.inequalities
  · exact simplify_of_empty

/-- Constants that are rounded to the same one and constants that are not, and an equality against
its negation divided through. -/
theorem normalForms_canonical_rounded :
    let m : BasicMap := ⟨.unnamed 0 0 2, 0, [], [[3, 2, -4], [2, 2, -4], [4, 2, -4]], [],
      ⟨false, false⟩⟩
    Row.SamePoints .inequality [3, 2, -4] [2, 2, -4] ∧
    ¬ Row.SamePoints .inequality [3, 2, -4] [4, 2, -4] ∧
    Row.SamePoints .equality [4, 2, -6] [-2, -1, 3] ∧
    m.simplify.inequalities = [[1, 1, -2], [2, 1, -2]] ∧
    m.simplify.inequalities.Pairwise fun row row' =>
      row.length = row'.length → ¬ row.SamePoints .inequality row' := by
  intro m
  obtain ⟨hrows, hsystems⟩ := normalForms_canonical
  have hsame := hrows .inequality [3, 2, -4] [2, 2, -4] rfl (by decide) (by decide)
  have hother := hrows .inequality [3, 2, -4] [4, 2, -4] rfl (by decide) (by decide)
  have hequality := hrows .equality [4, 2, -6] [-2, -1, 3] rfl (by decide) (by decide)
  exact ⟨hsame.mpr (by decide), fun h => absurd (hother.mp h) (by decide),
    hequality.mpr (by decide), by decide, (hsystems m).1 rfl⟩

/-- Inequalities that are added to a system known to be empty are not looked at again: here are two
for the same half of a line. -/
theorem simplify_repeats_half_line :
    let m : BasicMap := ((empty (.unnamed 0 0 1)).addRow .inequality [0, 1]).addRow .inequality [0, 1]
    m.IsUniform ∧ (Row.normalize .inequality [0, 1]).1 = .active ∧
      m.simplify.inequalities = [[0, 1], [0, 1]] ∧
      ¬ m.simplify.inequalities.Pairwise fun row row' => ¬ row.SamePoints .inequality row' := by
  intro m
  have hrows : ∀ kind, ∀ row ∈ m.rows kind, row.length = m.rowLength := by
    intro kind
    cases kind <;> decide
  have hleft : m.simplify.inequalities = [[0, 1], [0, 1]] := by decide
  refine ⟨⟨hrows, rfl⟩, by decide, hleft, fun hpairs => ?_⟩
  rw [hleft, List.pairwise_pair] at hpairs
  exact hpairs fun _ _ => Iff.rfl

end BasicMap
end ConstraintText

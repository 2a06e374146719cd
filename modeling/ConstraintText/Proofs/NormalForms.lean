import ConstraintText.Proofs.Solutions

/-!
# Normal forms stay as they are

The coefficients of an active row have no common divisor once the row is normalised, so it is its
own normal form. The rows that simplification leaves are left again.
-/
namespace ConstraintText

namespace Row

theorem variableGcd_ediv {k : Int} {row : Row} (h : row.variableGcd ≠ 0) :
    variableGcd (k :: row.tail.map (· / (row.variableGcd : Int))) = 1 := by
  set g : ℕ := row.variableGcd with hg
  set d : ℕ := variableGcd (k :: row.tail.map (· / (g : Int))) with hd
  have hdvd : ∀ c ∈ row.tail, ((g * d : ℕ) : Int) ∣ c := by
    intro c hc
    have hquotient : (d : Int) ∣ c / (g : Int) :=
      variableGcd_dvd (List.mem_map_of_mem (f := (· / (g : Int))) hc)
    have hc' : (g : Int) ∣ c := variableGcd_dvd hc
    rw [Nat.cast_mul, ← Int.mul_ediv_cancel' hc']
    exact mul_dvd_mul_left _ hquotient
  have hle : g * d ∣ g * 1 := by
    rw [mul_one]
    exact (dvd_variableGcd _ row).mpr hdvd
  exact Nat.dvd_one.mp ((Nat.mul_dvd_mul_iff_left (Nat.pos_of_ne_zero h)).mp hle)

theorem normalize_of_variableGcd_eq_one {row : Row} (h : row.variableGcd = 1)
    (kind : ConstraintKind) : row.normalize kind = (.active, row) := by
  simp [normalize, h]

theorem variableGcd_of_activeForm? {kind : ConstraintKind} {row normal : Row}
    (h : BasicMap.activeForm? kind row = some normal) : normal.variableGcd = 1 := by
  unfold BasicMap.activeForm? at h
  rcases hn : row.normalize kind with ⟨status, form⟩
  rw [hn] at h
  cases status with
  | trivial => simp at h
  | infeasible => simp at h
  | active =>
    obtain rfl := Option.some.inj h
    unfold normalize at hn
    by_cases h₀ : row.variableGcd = 0
    · rw [if_pos h₀] at hn
      split at hn <;> simp at hn
    rw [if_neg h₀] at hn
    by_cases h₁ : row.variableGcd = 1
    · rw [if_pos h₁] at hn
      rw [← (Prod.mk.inj hn).2, h₁]
    rw [if_neg h₁] at hn
    split at hn
    · simp at hn
    · rw [← (Prod.mk.inj hn).2]
      exact variableGcd_ediv h₀

/-- A row that constrains a variable has a normal form with itself as normal form. -/
theorem normalize_of_activeForm? {kind : ConstraintKind} {row normal : Row}
    (h : BasicMap.activeForm? kind row = some normal) :
    normal.normalize kind = (.active, normal) ∧ normal.length = row.length := by
  refine ⟨normalize_of_variableGcd_eq_one (variableGcd_of_activeForm? h) kind, ?_⟩
  have hne : row ≠ [] := by
    rintro rfl
    cases kind <;> simp [BasicMap.activeForm?, normalize, variableGcd, holds, constant] at h
  have hlength := length_normalize kind hne
  unfold BasicMap.activeForm? at h
  rcases hn : row.normalize kind with ⟨status, form⟩
  rw [hn] at h hlength
  cases status with
  | trivial => simp at h
  | infeasible => simp at h
  | active => rwa [Option.some.inj h] at hlength

end Row

section EraseDups

variable {α : Type} [BEq α] [LawfulBEq α]

theorem nodup_eraseDups (l : List α) : l.eraseDups.Nodup := by
  cases l with
  | nil => simp
  | cons a l =>
    rw [List.eraseDups_cons, List.nodup_cons]
    refine ⟨fun ha => ?_, nodup_eraseDups _⟩
    rw [List.mem_eraseDups, List.mem_filter] at ha
    simp at ha
termination_by l.length
decreasing_by
  have := List.length_filter_le (fun b => !b == a) l
  simp only [List.length_cons]
  omega

theorem eraseDups_of_nodup {l : List α} (h : l.Nodup) : l.eraseDups = l := by
  induction l with
  | nil => simp
  | cons a l ih =>
    rw [List.nodup_cons] at h
    have hfilter : l.filter (fun b => !b == a) = l := by
      refine List.filter_eq_self.mpr fun b hb => ?_
      have hne : b ≠ a := fun he => h.1 (he ▸ hb)
      simpa using hne
    rw [List.eraseDups_cons, hfilter, ih h.2]

end EraseDups

namespace BasicMap

/-- What simplification leaves of some rows it leaves as it is. -/
theorem simplifyRows_idem (kind : ConstraintKind) (rows : List Row) :
    simplifyRows kind (simplifyRows kind rows) = simplifyRows kind rows := by
  have hform : ∀ row ∈ simplifyRows kind rows, activeForm? kind row = some row := by
    intro row hr
    obtain ⟨first, -, hf⟩ := mem_simplifyRows.mp hr
    simp [activeForm?, (Row.normalize_of_activeForm? hf).1]
  have hself : (simplifyRows kind rows).filterMap (activeForm? kind) = simplifyRows kind rows := by
    rw [List.filterMap_congr hform, List.filterMap_some]
  rw [simplifyRows, hself]
  exact eraseDups_of_nodup (nodup_eraseDups _)

theorem length_of_mem_simplifyRows {kind : ConstraintKind} {rows : List Row} {n : Nat}
    (h : ∀ row ∈ rows, row.length = n) : ∀ row ∈ simplifyRows kind rows, row.length = n := by
  intro row hr
  obtain ⟨first, hfirst, hf⟩ := mem_simplifyRows.mp hr
  rw [(Row.normalize_of_activeForm? hf).2, h first hfirst]

theorem status_of_mem_simplifyRows {kind : ConstraintKind} {rows : List Row} {row : Row}
    (h : row ∈ simplifyRows kind rows) : (row.normalize kind).1 = .active := by
  obtain ⟨first, -, hf⟩ := mem_simplifyRows.mp h
  rw [(Row.normalize_of_activeForm? hf).1]

theorem simplify_of_feasible {m : BasicMap} (he : m.flags.empty = false)
    (hi : m.hasInfeasibleRow = false) : m.simplify =
      ⟨m.space, m.nDiv, simplifyRows .equality m.equalities, simplifyRows .inequality m.inequalities,
        m.divs, m.flags⟩ := by
  simp [simplify, he, hi, withRows]

theorem hasInfeasibleRow_simplifyRows (space : Space) (nDiv : Nat)
    (equalities inequalities divs : List Row) (flags : Flags) :
    hasInfeasibleRow ⟨space, nDiv, simplifyRows .equality equalities,
      simplifyRows .inequality inequalities, divs, flags⟩ = false := by
  by_contra h
  obtain ⟨kind, row, hr, hn⟩ := (hasInfeasibleRow_iff _).mp (by simpa using h)
  have hactive : (row.normalize kind).1 = .active := by
    cases kind with
    | equality => exact status_of_mem_simplifyRows hr
    | inequality => exact status_of_mem_simplifyRows hr
  rw [hactive] at hn
  exact absurd hn (by decide)

theorem normalize_zeros (n : Nat) :
    (Row.zeros n).normalize .equality = (.trivial, Row.zeros n) := by
  have hgcd : (Row.zeros n).variableGcd = 0 := by
    refine Nat.eq_zero_of_zero_dvd ?_
    rw [Row.dvd_variableGcd]
    intro c hc
    simpa using List.eq_of_mem_replicate (List.mem_of_mem_tail hc)
  have hconstant : (Row.zeros n).constant = 0 := by cases n <;> rfl
  simp [Row.normalize, hgcd, hconstant, Row.holds]

theorem normalize_contradiction (n : Nat) :
    ((contradiction n).normalize .equality).1 = .infeasible := by
  have hgcd : (contradiction n).variableGcd = 0 := by
    refine Nat.eq_zero_of_zero_dvd ?_
    rw [Row.dvd_variableGcd]
    intro c hc
    simpa using List.eq_of_mem_replicate hc
  have hconstant : (contradiction n).constant = 1 := rfl
  simp [Row.normalize, hgcd, hconstant, Row.holds]

end BasicMap
end ConstraintText

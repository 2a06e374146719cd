import ConstraintText.Proofs.Grammar
import ConstraintText.Proofs.Solutions

/-!
# The system that a formula means

An assignment gives an integer to each name. A comparison holds for it as its operator says of the
values of its sides. Its row over a list of names has the difference of the sides' coefficients in
each column, so the row holds at the assigned values exactly where the comparison does. The system
of a formula has one row for each comparison over all declared names; a system that is still being
read has them over the names declared so far, and new names add zero columns.
-/
namespace ConstraintText.Formula

namespace Term

def constant : Term → Int
  | number value => value
  | _ => 0

def coefficient (name : String) : Term → Int
  | .name t => if t.lexeme = name then 1 else 0
  | multiple value t => if t.lexeme = name then value else 0
  | _ => 0

def value (ρ : String → Int) : Term → Int
  | name t => ρ t.lexeme
  | number value => value
  | multiple value t => value * ρ t.lexeme
  | plus => 0

end Term

def sideConstant (terms : List Term) : Int := (terms.map Term.constant).sum

def sideCoefficient (name : String) (terms : List Term) : Int :=
  (terms.map (Term.coefficient name)).sum

/-- The integer sum of the terms of a side. -/
def sideValue (ρ : String → Int) (terms : List Term) : Int := (terms.map (Term.value ρ)).sum

namespace Operator

def Compares : Operator → Int → Int → Prop
  | lessEqual, a, b => a ≤ b
  | greaterEqual, a, b => b ≤ a
  | equal, a, b => a = b

def constraintKind : Operator → ConstraintKind
  | equal => .equality
  | _ => .inequality

/-- The difference of the sides that is compared with zero. -/
def excess : Operator → Int → Int → Int
  | lessEqual, a, b => b - a
  | _, a, b => a - b

theorem holds_excess (o : Operator) (a b : Int) :
    Row.holds o.constraintKind (o.excess a b) = true ↔ o.Compares a b := by
  cases o <;> simp [Row.holds, constraintKind, excess, Compares, sub_eq_zero]

end Operator

namespace Comparison

def kind (c : Comparison) : ConstraintKind := c.operator.constraintKind

/-- Whether a comparison holds for an assignment. -/
def Holds (c : Comparison) (ρ : String → Int) : Prop :=
  c.operator.Compares (sideValue ρ c.left) (sideValue ρ c.right)

/-- The row of a comparison over a list of names. -/
def row (names : List String) (c : Comparison) : Row :=
  c.operator.excess (sideConstant c.left) (sideConstant c.right) ::
    names.map fun n => c.operator.excess (sideCoefficient n c.left) (sideCoefficient n c.right)

@[simp] theorem length_row (names : List String) (c : Comparison) :
    (c.row names).length = names.length + 1 := by
  simp [row]

end Comparison

theorem value_cons_map (k : Int) (g ρ : String → Int) (names : List String) :
    Row.value (k :: names.map g) (names.map ρ) =
      k + (names.map fun n => g n * ρ n).sum := by
  simp [Row.value, Row.constant, List.zipWith_map]

/-- Of distinct names only one takes a share that belongs to it. -/
theorem sum_map_ite {names : List String} (hn : names.Nodup) {name : String}
    (hm : name ∈ names) (v : Int) (ρ : String → Int) :
    (names.map fun n => (if name = n then v else 0) * ρ n).sum = v * ρ name := by
  induction names with
  | nil => simp at hm
  | cons a names ih =>
    rw [List.nodup_cons] at hn
    rw [List.map_cons, List.sum_cons]
    rcases List.mem_cons.mp hm with rfl | hm
    · have hz : ∀ n ∈ names, (if name = n then v else 0) * ρ n = 0 := by
        intro n hn'
        have hne : name ≠ n := fun he => hn.1 (he.symm ▸ hn')
        rw [if_neg hne, zero_mul]
      rw [if_pos rfl, List.map_congr_left hz]
      simp
    · have hne : name ≠ a := fun he => hn.1 (he ▸ hm)
      rw [if_neg hne, ih hn.2 hm, zero_mul, zero_add]

theorem value_term {names : List String} (hn : names.Nodup) (term : Term)
    (hu : ∀ t ∈ term.used, t.lexeme ∈ names) (ρ : String → Int) :
    term.value ρ = term.constant + (names.map fun n => term.coefficient n * ρ n).sum := by
  cases term with
  | name t =>
    have := sum_map_ite hn (hu t (List.mem_singleton_self t)) 1 ρ
    simp only [Term.value, Term.constant, Term.coefficient, this]
    ring
  | multiple v t =>
    have := sum_map_ite hn (hu t (List.mem_singleton_self t)) v ρ
    simp only [Term.value, Term.constant, Term.coefficient, this]
    ring
  | number v => simp [Term.value, Term.constant, Term.coefficient]
  | plus => simp [Term.value, Term.constant, Term.coefficient]

/-- The value of a side is its constant and its coefficients' shares of all names. -/
theorem value_side {names : List String} (hn : names.Nodup) (terms : List Term)
    (hu : ∀ t ∈ usedBy terms, t.lexeme ∈ names) (ρ : String → Int) :
    sideValue ρ terms =
      sideConstant terms + (names.map fun n => sideCoefficient n terms * ρ n).sum := by
  induction terms with
  | nil => simp [sideValue, sideConstant, sideCoefficient]
  | cons term terms ih =>
    have ht := value_term hn term (fun t h => hu t (by simp [usedBy, h])) ρ
    have hs := ih fun t h => hu t (by
      simp only [usedBy, List.flatMap_cons, List.mem_append]
      exact .inr h)
    simp only [sideValue, sideConstant, sideCoefficient, List.map_cons, List.sum_cons,
      add_mul, List.sum_map_add] at hs ⊢
    rw [hs, ht]
    ring

theorem excess_sum (o : Operator) (names : List String) (a b : String → Int) (ρ : String → Int) :
    (names.map fun n => o.excess (a n) (b n) * ρ n).sum =
      o.excess (names.map fun n => a n * ρ n).sum (names.map fun n => b n * ρ n).sum := by
  induction names with
  | nil => cases o <;> simp [Operator.excess]
  | cons n names ih =>
    simp only [List.map_cons, List.sum_cons, ih]
    cases o <;> simp only [Operator.excess] <;> ring

namespace Comparison

theorem value_row {names : List String} (hn : names.Nodup) {c : Comparison}
    (hu : ∀ t ∈ c.used, t.lexeme ∈ names) (ρ : String → Int) :
    (c.row names).value (names.map ρ) =
      c.operator.excess (sideValue ρ c.left) (sideValue ρ c.right) := by
  have hl := value_side hn c.left (fun t h => hu t (by simp [used, h])) ρ
  have hr := value_side hn c.right (fun t h => hu t (by simp [used, h])) ρ
  rw [row, value_cons_map, excess_sum, hl, hr]
  cases c.operator <;> simp only [Operator.excess] <;> ring

/-- The row of a comparison holds where the comparison does. -/
theorem holds_row_iff {names : List String} (hn : names.Nodup) {c : Comparison}
    (hu : ∀ t ∈ c.used, t.lexeme ∈ names) (ρ : String → Int) :
    (c.row names).Holds c.kind (names.map ρ) ↔ c.Holds ρ := by
  rw [Row.Holds, value_row hn hu, kind, Operator.holds_excess, Holds]

end Comparison

theorem coefficient_eq_zero {name : String} {term : Term}
    (h : ∀ t ∈ term.used, t.lexeme ≠ name) : term.coefficient name = 0 := by
  cases term <;> simp_all [Term.coefficient, Term.used]

theorem sideCoefficient_eq_zero {name : String} {terms : List Term}
    (h : ∀ t ∈ usedBy terms, t.lexeme ≠ name) : sideCoefficient name terms = 0 := by
  refine List.sum_eq_zero fun v hv => ?_
  obtain ⟨term, ht, rfl⟩ := List.mem_map.mp hv
  exact coefficient_eq_zero fun t hu => h t (List.mem_flatMap.mpr ⟨term, ht, hu⟩)

/-- New names add zero columns to the row of a comparison that does not use them. -/
theorem Comparison.row_append {names extra : List String} {c : Comparison}
    (hu : ∀ t ∈ c.used, t.lexeme ∉ extra) :
    c.row (names ++ extra) = c.row names ++ Row.zeros extra.length := by
  have hz : ∀ n ∈ extra,
      c.operator.excess (sideCoefficient n c.left) (sideCoefficient n c.right) = 0 := by
    intro n hn
    have hl : sideCoefficient n c.left = 0 := sideCoefficient_eq_zero fun t ht he =>
      hu t (by simp [used, ht]) (he ▸ hn)
    have hr : sideCoefficient n c.right = 0 := sideCoefficient_eq_zero fun t ht he =>
      hu t (by simp [used, ht]) (he ▸ hn)
    rw [hl, hr]
    cases c.operator <;> rfl
  simp [row, Row.zeros, List.map_congr_left hz]

def rowsOf (kind : ConstraintKind) (names : List String) (cs : List Comparison) : List Row :=
  (cs.filter (·.kind = kind)).map (Comparison.row names)

/-- The system with a row for each comparison; names behind the dimensions are existentials. -/
def draft (space : Space) (names : List String) (cs : List Comparison) : BasicMap :=
  let nDiv := names.length - space.totalDim
  ⟨space, nDiv, rowsOf .equality names cs, rowsOf .inequality names cs,
    List.replicate nDiv (Row.zeros (2 + names.length)), ⟨false, false⟩⟩

theorem rowLength_draft {space : Space} {names : List String} (h : space.totalDim ≤ names.length)
    (cs : List Comparison) : (draft space names cs).rowLength = names.length + 1 := by
  simp only [BasicMap.rowLength, BasicMap.totalDim, draft]
  omega

theorem draft_unconstrained {space : Space} {names : List String}
    (h : space.totalDim = names.length) :
    BasicMap.unconstrained space = draft space names [] := by
  simp [BasicMap.unconstrained, draft, rowsOf, h]

theorem resize_append_zeros (row : Row) (n : Nat) :
    row.resize (row.length + n) = row ++ Row.zeros n := by
  simp [Row.resize, List.take_of_length_le]

theorem resize_zeros {n k : Nat} (h : n ≤ k) : (Row.zeros n).resize k = Row.zeros k := by
  have := resize_append_zeros (Row.zeros n) (k - n)
  simp only [Row.zeros, List.length_replicate, List.replicate_append_replicate] at this
  rwa [Nat.add_sub_cancel' h] at this

theorem map_resize_rowsOf {names extra : List String} {cs : List Comparison}
    (hu : ∀ c ∈ cs, ∀ t ∈ c.used, t.lexeme ∉ extra) (kind : ConstraintKind) :
    (rowsOf kind names cs).map (·.resize (names.length + 1 + extra.length)) =
      rowsOf kind (names ++ extra) cs := by
  simp only [rowsOf, List.map_map]
  refine List.map_congr_left fun c hc => ?_
  have hlength := Comparison.length_row names c
  rw [Function.comp_apply, Comparison.row_append (hu c (List.mem_filter.mp hc).1), ← hlength,
    resize_append_zeros]

/-- Extending a draft by new names keeps its comparisons. -/
theorem extend_draft {space : Space} {names extra : List String} {cs : List Comparison}
    (h : space.totalDim ≤ names.length) (hu : ∀ c ∈ cs, ∀ t ∈ c.used, t.lexeme ∉ extra) :
    (draft space names cs).extend extra.length = draft space (names ++ extra) cs := by
  by_cases h₀ : extra = []
  · subst h₀
    simp [BasicMap.extend]
  have hpos : extra.length ≠ 0 := by simpa using h₀
  have hdiv : names.length - space.totalDim + extra.length =
      names.length + extra.length - space.totalDim := by omega
  rw [BasicMap.extend, if_neg hpos, rowLength_draft h]
  simp only [draft, map_resize_rowsOf hu, List.length_append, List.map_replicate, hdiv]
  rw [resize_zeros (by omega), List.replicate_append_replicate, hdiv]
  congr 3
  omega

theorem appendRow?_draft {space : Space} {names : List String}
    (h : space.totalDim ≤ names.length) (cs : List Comparison) (c : Comparison) :
    (draft space names cs).appendRow? c.kind (c.row names) =
      some (draft space names (cs ++ [c])) := by
  rw [BasicMap.appendRow?, if_pos (by rw [rowLength_draft h, Comparison.length_row])]
  cases hk : c.kind <;>
    simp [BasicMap.addRow, BasicMap.withRows, BasicMap.rows, BasicMap.reopened,
      BasicMap.withFlags, draft, rowsOf, hk]

end ConstraintText.Formula

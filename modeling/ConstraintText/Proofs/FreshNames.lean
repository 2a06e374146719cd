import ConstraintText.BasicMap.Text
import ConstraintText.Proofs.DimensionNames

/-!
# The search for names of existentials

The names of existentials are found by trying one number after the other: a name that a dimension
has is passed over, any other is taken. Names of different numbers differ, so of more numbers than
there are taken names not all can be passed over, and the search ends in as many rounds as it is
given. What it has found then are the names of the least numbers that no dimension is named after.
-/
namespace ConstraintText.BasicMap

def untaken (taken : List String) (numbers : List Nat) : List Nat :=
  numbers.filter (Space.defaultName .existential · ∉ taken)

/-- The least `n` numbers whose names are not taken. -/
def freeNumbers (taken : List String) (n : Nat) : List Nat :=
  (untaken taken (List.range (n + taken.length))).take n

theorem mem_untaken {taken : List String} {numbers : List Nat} {k : Nat} :
    k ∈ untaken taken numbers ↔ k ∈ numbers ∧ Space.defaultName .existential k ∉ taken := by
  simp [untaken]

theorem pairwise_untaken_range (taken : List String) (n : Nat) :
    (untaken taken (List.range n)).Pairwise (· < ·) :=
  List.pairwise_lt_range.filter _

theorem defaultName_injective : Function.Injective (Space.defaultName .existential) :=
  fun _ _ h => (Space.defaultName_inj.mp h).2

theorem le_length_untaken (taken : List String) (n : Nat) :
    n ≤ (untaken taken (List.range (n + taken.length))).length := by
  let passed := (List.range (n + taken.length)).filter (Space.defaultName .existential · ∈ taken)
  have hsum := List.length_eq_length_filter_add (l := List.range (n + taken.length))
    (Space.defaultName .existential · ∈ taken)
  have hnodup : (passed.map (Space.defaultName .existential)).Nodup :=
    (List.nodup_range.filter _).map defaultName_injective
  have hsubset : passed.map (Space.defaultName .existential) ⊆ taken := by
    intro name hn
    obtain ⟨k, hk, rfl⟩ := List.mem_map.mp hn
    simpa using (List.mem_filter.mp hk).2
  have hpassed := (hnodup.subperm hsubset).length_le
  rw [List.length_map] at hpassed
  simp only [List.length_range, ← decide_not] at hsum
  change _ = passed.length + (untaken taken _).length at hsum
  omega

theorem length_freeNumbers (taken : List String) (n : Nat) : (freeNumbers taken n).length = n := by
  rw [freeNumbers, List.length_take, min_eq_left (le_length_untaken taken n)]

theorem mem_untaken_of_mem_freeNumbers {taken : List String} {n k : Nat}
    (h : k ∈ freeNumbers taken n) : k ∈ untaken taken (List.range (n + taken.length)) :=
  List.mem_of_mem_take h

/-- A number that is not listed though its name is free is greater than all that are listed. -/
theorem lt_of_not_mem_freeNumbers {taken : List String} {n k : Nat}
    (hk : Space.defaultName .existential k ∉ taken) (hn : k ∉ freeNumbers taken n) :
    ∀ j ∈ freeNumbers taken n, j < k := by
  intro j hj
  have hbound := List.mem_range.mp (mem_untaken.mp (mem_untaken_of_mem_freeNumbers hj)).1
  rcases Nat.lt_or_ge k (n + taken.length) with hlt | hge
  · -- such a number is among those left behind the first `n`
    have hmem : k ∈ untaken taken (List.range (n + taken.length)) :=
      mem_untaken.mpr ⟨List.mem_range.mpr hlt, hk⟩
    have hordered := pairwise_untaken_range taken (n + taken.length)
    rw [← List.take_append_drop n (untaken _ _)] at hmem hordered
    have hdrop := (List.mem_append.mp hmem).resolve_left hn
    exact (List.pairwise_append.mp hordered).2.2 j hj k hdrop
  · exact hbound.trans_le hge

namespace NameSearch

variable {taken : List String} {next wanted : Nat} {names : List String}

theorem step_of_mem (h : Space.defaultName .existential next ∈ taken) :
    step taken ⟨next, wanted + 1, names⟩ = ⟨next + 1, wanted + 1, names⟩ :=
  if_pos h

theorem step_of_not_mem (h : Space.defaultName .existential next ∉ taken) :
    step taken ⟨next, wanted + 1, names⟩ =
      ⟨next + 1, wanted, names ++ [Space.defaultName .existential next]⟩ :=
  if_neg h

/-- If enough of the next numbers have names that are not taken, the search ends within as many
rounds and has found the first of these names. -/
theorem exists_iterate_step (names : List String) (count : Nat)
    (h : wanted ≤ (untaken taken (List.range' next count)).length) :
    ∃ rounds ≤ count, (step taken)^[rounds] ⟨next, wanted, names⟩ =
      ⟨next + rounds, 0, names ++ ((untaken taken (List.range' next count)).take wanted).map
        (Space.defaultName .existential)⟩ := by
  induction count generalizing next wanted names with
  | zero =>
    obtain rfl : wanted = 0 := by simpa [untaken] using h
    exact ⟨0, le_rfl, by simp⟩
  | succ count ih =>
    cases wanted with
    | zero => exact ⟨0, Nat.zero_le _, by simp⟩
    | succ wanted =>
      rw [List.range'_succ] at h ⊢
      by_cases ht : Space.defaultName .existential next ∈ taken
      · have hskip : ∀ numbers, untaken taken (next :: numbers) = untaken taken numbers :=
          fun _ => List.filter_cons_of_neg (by simpa using ht)
        rw [hskip] at h ⊢
        obtain ⟨rounds, hle, hrun⟩ := ih names h
        refine ⟨rounds + 1, Nat.succ_le_succ hle, ?_⟩
        rw [Function.iterate_succ_apply, step_of_mem ht, hrun, Nat.add_right_comm, Nat.add_assoc]
      · have htake : ∀ numbers, untaken taken (next :: numbers) = next :: untaken taken numbers :=
          fun _ => List.filter_cons_of_pos (by simpa using ht)
        rw [htake] at h ⊢
        obtain ⟨rounds, hle, hrun⟩ :=
          ih (names ++ [Space.defaultName .existential next]) (Nat.le_of_succ_le_succ h)
        refine ⟨rounds + 1, Nat.succ_le_succ hle, ?_⟩
        rw [Function.iterate_succ_apply, step_of_not_mem ht, hrun, Nat.add_right_comm,
          Nat.add_assoc, List.take_succ_cons, List.map_cons, List.append_assoc,
          List.singleton_append]

theorem run_eq_iterate (taken : List String) (rounds : Nat) (search : NameSearch) :
    run taken rounds search = (step taken)^[rounds] search := by
  induction rounds generalizing search with
  | zero => rfl
  | succ rounds ih => rw [run, ih, Function.iterate_succ_apply]

theorem names_run (names : List String) (count : Nat)
    (h : wanted ≤ (untaken taken (List.range' next count)).length) :
    (run taken count ⟨next, wanted, names⟩).names =
      names ++ ((untaken taken (List.range' next count)).take wanted).map
        (Space.defaultName .existential) := by
  obtain ⟨rounds, hle, hrun⟩ := exists_iterate_step names count h
  rw [run_eq_iterate, ← Nat.sub_add_cancel hle, Function.iterate_add_apply, hrun,
    Function.iterate_fixed rfl, Nat.sub_add_cancel hle]

end NameSearch

theorem freshNames_eq (taken : List String) (n : Nat) :
    freshNames taken n = (freeNumbers taken n).map (Space.defaultName .existential) := by
  have hle := le_length_untaken taken n
  rw [List.range_eq_range'] at hle
  rw [freshNames, NameSearch.names_run [] _ hle, List.nil_append, freeNumbers, List.range_eq_range']

theorem mem_freshNames {taken : List String} {n : Nat} {name : String}
    (h : name ∈ freshNames taken n) :
    (∃ i, name = Space.defaultName .existential i) ∧ name ∉ taken := by
  rw [freshNames_eq] at h
  obtain ⟨i, hi, rfl⟩ := List.mem_map.mp h
  exact ⟨⟨i, rfl⟩, (mem_untaken.mp (mem_untaken_of_mem_freeNumbers hi)).2⟩

theorem nodup_freshNames (taken : List String) (n : Nat) : (freshNames taken n).Nodup := by
  have hordered : (freeNumbers taken n).Pairwise (· < ·) := (pairwise_untaken_range taken _).take
  rw [freshNames_eq]
  exact List.Nodup.map defaultName_injective (hordered.imp ne_of_lt)

theorem length_freshNames (taken : List String) (n : Nat) : (freshNames taken n).length = n := by
  rw [freshNames_eq, List.length_map, length_freeNumbers]

variable {m : BasicMap}

theorem length_columnNames (m : BasicMap) : m.columnNames.length = m.totalDim := by
  rw [columnNames, List.length_append, Space.length_allNames, existentialNames, length_freshNames,
    totalDim]

theorem nodup_columnNames (h : m.space.IsNamed) : m.columnNames.Nodup := by
  refine List.nodup_append.mpr ⟨h.nodup, nodup_freshNames _ _, ?_⟩
  rintro a ha b hb rfl
  exact (mem_freshNames hb).2 ha

theorem isIdentifier_existentialNames {name : String} (h : name ∈ m.existentialNames) :
    IsIdentifier name := by
  obtain ⟨⟨i, rfl⟩, -⟩ := mem_freshNames h
  exact Space.isIdentifier_defaultName .existential i

theorem isIdentifier_columnNames (h : m.space.IsNamed) {name : String}
    (hn : name ∈ m.columnNames) : IsIdentifier name := by
  rcases List.mem_append.mp hn with hn | hn
  · exact h.isIdentifier name hn
  · exact isIdentifier_existentialNames hn

/-- The search ends, within as many rounds as there are columns, with the names of all columns. -/
theorem exists_rounds_columnNames (m : BasicMap) :
    ∃ rounds ≤ m.totalDim,
      (NameSearch.step m.space.allNames)^[rounds] ⟨0, m.nDiv, m.space.allNames⟩ =
        ⟨rounds, 0, m.columnNames⟩ := by
  have hlength := length_freeNumbers m.space.allNames m.nDiv
  rw [freeNumbers, List.length_take, List.range_eq_range'] at hlength
  obtain ⟨rounds, hle, hrun⟩ := NameSearch.exists_iterate_step m.space.allNames
    (m.nDiv + m.space.allNames.length) (min_eq_left_iff.mp hlength)
  refine ⟨rounds, ?_, ?_⟩
  · rw [Space.length_allNames] at hle
    exact hle.trans_eq (Nat.add_comm _ _)
  · rw [hrun, Nat.zero_add, columnNames, existentialNames, freshNames_eq, freeNumbers,
      List.range_eq_range']

/-- Whatever names the dimensions of a system have, the search for the names of its existentials
ends, and it has tried no more numbers than there are columns. It gives a name to each column: to
the dimensions those they have, and to the existentials, in order, the names of the least numbers
that no dimension is named after. -/
theorem columnNames_of_search (m : BasicMap) :
    (∃ rounds ≤ m.totalDim,
      (NameSearch.step m.space.allNames)^[rounds] ⟨0, m.nDiv, m.space.allNames⟩ =
        ⟨rounds, 0, m.columnNames⟩) ∧
    m.columnNames.length = m.space.nParam + m.space.nIn + m.space.nOut + m.nDiv ∧
    ∃ numbers : List Nat,
      m.columnNames = m.space.allNames ++ numbers.map (Space.defaultName .existential) ∧
      m.space.allNames.length = m.space.nParam + m.space.nIn + m.space.nOut ∧
      numbers.length = m.nDiv ∧ numbers.Pairwise (· < ·) ∧
      (∀ k ∈ numbers, Space.defaultName .existential k ∉ m.space.allNames) ∧
      ∀ k, Space.defaultName .existential k ∉ m.space.allNames → k ∉ numbers →
        ∀ j ∈ numbers, j < k := by
  refine ⟨m.exists_rounds_columnNames, m.length_columnNames,
    freeNumbers m.space.allNames m.nDiv, ?_, m.space.length_allNames,
    length_freeNumbers _ _, (pairwise_untaken_range _ _).take,
    fun k hk => (mem_untaken.mp (mem_untaken_of_mem_freeNumbers hk)).2,
    fun _ => lt_of_not_mem_freeNumbers⟩
  rw [columnNames, existentialNames, freshNames_eq]

/-- What is passed over is a name as the search spells it: zeros in front of the number matter. -/
example : freshNames ["e0", "e00", "e2"] 3 = ["e1", "e3", "e4"] := by cbv

end ConstraintText.BasicMap

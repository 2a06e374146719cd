import ConstraintText.Proofs.Drafts

/-!
# Simplifying is invisible

Readings with and without simplification fail alike, and what they read has one space and one set
of integer points. A part that simplification finds empty admits no point, so it may leave the
union.
-/
namespace ConstraintText

/-- The points over parameters, inputs and outputs that some part admits. -/
def MapUnion.points (u : MapUnion) : Set (List Int) :=
  {x | x.length = u.space.totalDim ∧ ∃ m ∈ u.parts, m.Admits x}

namespace BasicMap

theorem satisfies_finalize (m : BasicMap) (point : List Int) :
    m.finalize.Satisfies point ↔ m.Satisfies point := by
  have hrows : m.finalize.rows = m.rows := by
    funext kind
    cases kind <;> rfl
  rw [Satisfies, Satisfies, hrows]

theorem admits_finalize (m : BasicMap) (point : List Int) :
    m.finalize.Admits point ↔ m.Admits point := by
  have hdiv : m.finalize.nDiv = m.nDiv := rfl
  simp only [Admits, satisfies_finalize, hdiv]

theorem admits_simplify {m : BasicMap} (he : m.flags.empty = false) (point : List Int) :
    m.simplify.Admits point ↔ m.Admits point := by
  simp only [Admits, satisfies_simplify he, nDiv_simplify]

theorem not_admits_of_infeasible {m : BasicMap} (h : m.hasInfeasibleRow = true)
    (point : List Int) : ¬ m.Admits point := by
  rintro ⟨existentials, -, hs⟩
  exact not_satisfies_of_infeasible h _ hs

theorem admits_complete {m : BasicMap} (he : m.flags.empty = false) (config : ReadConfig)
    (point : List Int) : (m.complete config).Admits point ↔ m.Admits point := by
  unfold complete
  rw [admits_finalize]
  split
  · exact admits_simplify he point
  · exact Iff.rfl

theorem empty_complete {m : BasicMap} (he : m.flags.empty = false) (config : ReadConfig) :
    (m.complete config).flags.empty = (config.simplify && m.hasInfeasibleRow) := by
  have hflag : (m.complete config).flags.empty =
    (if config.simplify then m.simplify else m).flags.empty := rfl
  cases hs : config.simplify with
  | true => simpa [hflag, hs] using empty_simplify he
  | false => simpa [hflag, hs] using he

theorem not_admits_of_empty_complete {m : BasicMap} (he : m.flags.empty = false)
    {config : ReadConfig} (h : (m.complete config).flags.empty = true) (point : List Int) :
    ¬ m.Admits point := by
  rw [empty_complete he, Bool.and_eq_true] at h
  exact not_admits_of_infeasible h.2 point

end BasicMap

theorem MapUnion.points_complete {u : MapUnion} (h : ∀ m ∈ u.parts, m.flags.empty = false)
    (config : ReadConfig) : (u.complete config).points = u.points := by
  ext point
  simp only [points, complete, Set.mem_ofPred_eq]
  refine and_congr_right fun _ => ?_
  constructor
  · rintro ⟨m', hm', ha⟩
    obtain ⟨hmap, -⟩ := List.mem_filter.mp hm'
    obtain ⟨m, hm, rfl⟩ := List.mem_map.mp hmap
    exact ⟨m, hm, (BasicMap.admits_complete (h m hm) config point).mp ha⟩
  · rintro ⟨m, hm, ha⟩
    have hkept : (!(m.complete config).flags.empty) = true := by
      by_contra he
      have hempty : (m.complete config).flags.empty = true := by simpa using he
      exact BasicMap.not_admits_of_empty_complete (h m hm) hempty point ha
    exact ⟨m.complete config, List.mem_filter.mpr ⟨List.mem_map_of_mem hm, hkept⟩,
      (BasicMap.admits_complete (h m hm) config point).mpr ha⟩

namespace Reading

/-- With and without simplification a text is refused with the same error, or read as unions with
one space and the same points. -/
theorem readMap_simplify (strict : Bool) (wanted : Option Nat) (source : String) :
    match (readMap ⟨true, strict⟩ wanted (.ofString source)).result,
      (readMap ⟨false, strict⟩ wanted (.ofString source)).result with
    | .ok u, .ok v => u.space = v.space ∧ u.points = v.points
    | .error e, .error e' => e = e'
    | _, _ => False := by
  rw [(readMap_eq_drafts ⟨true, strict⟩ wanted _).1, (readMap_eq_drafts ⟨false, strict⟩ wanted _).1]
  cases hr : (drafts wanted (.ofString source)).result with
  | error e => rfl
  | ok u =>
    have hflags : ∀ m ∈ u.parts, m.flags.empty = false := fun m hm => by
      rw [(isDraft_of_drafts hr m hm).flags]
    refine ⟨rfl, ?_⟩
    rw [MapUnion.points_complete hflags, MapUnion.points_complete hflags]

end Reading
end ConstraintText

import ConstraintText.Proofs.Lexemes
import ConstraintText.Space

/-!
# The names that dimensions are printed with

Default names are a letter and a number: they are identifiers and differ from each other.
-/
namespace ConstraintText

namespace Space

def letterChar : DimKind → Char
  | .param => 'p'
  | .input => 'i'
  | .output => 'o'
  | .existential => 'e'

theorem toList_defaultName (kind : DimKind) (i : Nat) :
    (defaultName kind i).toList = letterChar kind :: Nat.toDigits 10 i := by
  cases kind <;>
    simp [defaultName, letter, letterChar]

theorem defaultName_inj {kind kind' : DimKind} {i j : Nat} :
    defaultName kind i = defaultName kind' j ↔ kind = kind' ∧ i = j := by
  constructor
  · intro h
    have hlist := congrArg String.toList h
    rw [toList_defaultName, toList_defaultName, List.cons.injEq] at hlist
    refine ⟨?_, ?_⟩
    · cases kind <;> cases kind' <;> first | rfl | exact absurd hlist.1 (by decide)
    · have hvalue := congrArg (Nat.ofDigitChars 10 · 0) hlist.2
      simpa using hvalue
  · rintro ⟨rfl, rfl⟩
    rfl

theorem nodup_map_defaultName (kind : DimKind) (n : Nat) :
    ((List.range n).map (defaultName kind)).Nodup :=
  List.nodup_range.map fun _ _ h => (defaultName_inj.mp h).2

/-- A word with a digit behind its first character is no keyword. -/
theorem keyword?_eq_none {word : String} {c d : Char} {ds : List Char}
    (h : word.toList = c :: d :: ds) (hd : d.isDigit = true) :
    TokenKind.keyword? word = none := by
  have hne : ∀ keyword ∈ ["and", "exists"], word ≠ keyword := by
    intro keyword hk he
    subst he
    simp only [List.mem_cons, List.not_mem_nil, or_false] at hk
    rcases hk with rfl | rfl <;>
      · simp only [String.reduceToList, List.cons.injEq] at h
        rw [← h.2.1] at hd
        exact absurd hd (by decide)
  simp only [List.forall_mem_cons] at hne
  rw [TokenKind.keyword?, if_neg hne.1, if_neg hne.2.1]

theorem isIdentifier_defaultName (kind : DimKind) (i : Nat) :
    IsIdentifier (defaultName kind i) := by
  have hdigits : ∀ c ∈ Nat.toDigits 10 i, c.isDigit = true := fun c hc =>
    Nat.isDigit_of_mem_toDigits (by decide) (by decide) hc
  have hlist := toList_defaultName kind i
  refine ⟨letterChar kind, _, hlist, by cases kind <;> decide, by cases kind <;> decide,
    fun d hd => Character.continuesIdentifier_of_isDigit (hdigits d hd), ?_⟩
  obtain ⟨d, ds, hd⟩ := List.exists_cons_of_ne_nil (Nat.toDigits_ne_nil (n := i) (b := 10))
  rw [hd] at hlist hdigits
  exact keyword?_eq_none hlist (hdigits d List.mem_cons_self)

/-- The dimensions of a space have different names that are read back as identifiers. -/
structure IsNamed (s : Space) : Prop where
  nodup : s.allNames.Nodup
  isIdentifier : ∀ name ∈ s.allNames, IsIdentifier name

theorem groupNames_unnamed (nParam nIn nOut : Nat) (kind : DimKind) :
    (unnamed nParam nIn nOut).groupNames kind =
      (List.range ((unnamed nParam nIn nOut).dim kind)).map (defaultName kind) := by
  cases kind <;> simp [groupNames, name?, storedNames, unnamed]

theorem isNamed_unnamed (nParam nIn nOut : Nat) : (unnamed nParam nIn nOut).IsNamed := by
  have hdisjoint : ∀ {kind kind' : DimKind}, kind ≠ kind' → ∀ {n k : Nat},
      ∀ a ∈ (List.range n).map (defaultName kind),
        ∀ b ∈ (List.range k).map (defaultName kind'), a ≠ b := by
    intro kind kind' hk n k a ha b hb he
    obtain ⟨i, -, rfl⟩ := List.mem_map.mp ha
    obtain ⟨j, -, rfl⟩ := List.mem_map.mp hb
    exact hk (defaultName_inj.mp he).1
  constructor
  · simp only [allNames, groupNames_unnamed]
    refine List.nodup_append.mpr ⟨List.nodup_append.mpr ⟨nodup_map_defaultName _ _,
      nodup_map_defaultName _ _, hdisjoint (by decide)⟩, nodup_map_defaultName _ _, ?_⟩
    intro a ha b hb
    rcases List.mem_append.mp ha with ha | ha
    · exact hdisjoint (by decide) a ha b hb
    · exact hdisjoint (by decide) a ha b hb
  · intro name hn
    simp only [allNames, groupNames_unnamed, List.mem_append, List.mem_map] at hn
    rcases hn with (⟨i, -, rfl⟩ | ⟨i, -, rfl⟩) | ⟨i, -, rfl⟩ <;>
      exact isIdentifier_defaultName _ _

end Space
end ConstraintText

import ConstraintText.Proofs.RoundTrip

/-!
# Every basic map that can be printed is read back

It does not matter where a basic map comes from. If its rows have one length, and the names that it
prints differ and are taken for identifiers, then its text is read as one system with the same
counts and rows, whose dimensions bear the printed names. Definitions and flags do not print.
-/
namespace ConstraintText

/-- Whether a name alone is scanned as one identifier, which is all of it. -/
def ScansAsIdentifier (name : String) : Prop :=
  ∃ t finish, (Scanner.ofString name).tokens = .ok [t, finish] ∧ t.kind = .identifier ∧
    t.lexeme = name

theorem Scanner.next_of_tokens {s : Scanner} {t : Token} {ts : List Token}
    (h : s.tokens = .ok (t :: ts)) : s.next.1 = .ok t := by
  obtain ⟨items, hitems⟩ := s.items_eq
  rw [items_of_tokens h, List.map_cons] at hitems
  exact (List.cons.inj hitems).1.symm

theorem ScansAsIdentifier.isIdentifier {name : String} (h : ScansAsIdentifier name) :
    IsIdentifier name := by
  obtain ⟨t, finish, htokens, hk, rfl⟩ := h
  exact Scanner.isIdentifier_of_next (Prod.ext (Scanner.next_of_tokens htokens) rfl) hk

namespace BasicMap

/-- What is read back of a printed system: its counts, its rows and the printed names. Only a system
with existentials and no rows gains the row of zeros that is printed for it. -/
structure IsReadBackOf (m' m : BasicMap) : Prop where
  nParam : m'.space.nParam = m.space.nParam
  nIn : m'.space.nIn = m.space.nIn
  nOut : m'.space.nOut = m.space.nOut
  nDiv : m'.nDiv = m.nDiv
  storedNames : ∀ kind, m'.space.storedNames kind = (m.space.groupNames kind).map some
  equalities : m'.equalities = if 0 < m.nDiv ∧ m.constraints = [] then [Row.zeros m.rowLength]
    else m.equalities
  inequalities : m'.inequalities = m.inequalities
  divs : m'.divs = List.replicate m.nDiv (Row.zeros (1 + m.rowLength))
  flags : m'.flags = ⟨false, true⟩

theorem storedNames_printedSpace (m : BasicMap) (kind : DimKind) :
    m.printedSpace.storedNames kind = (m.space.groupNames kind).map some := by
  have hparam : (m.space.groupNames .param).length = m.space.nParam := m.space.length_groupNames _
  have hin : (m.space.groupNames .input).length = m.space.nIn := m.space.length_groupNames _
  have hout : (m.space.groupNames .output).length = m.space.nOut := m.space.length_groupNames _
  have hall : m.space.allNames.length = m.space.nParam + m.space.nIn + m.space.nOut :=
    m.space.length_allNames
  cases kind with
  | param =>
    refine (Names.slice_eq (by omega)).trans (congrArg (List.map some) ?_)
    rw [List.drop_zero, Space.allNames, List.append_assoc, List.take_left' hparam]
  | input =>
    refine (Names.slice_eq (by omega)).trans (congrArg (List.map some) ?_)
    rw [Space.allNames, List.append_assoc, List.drop_left' hparam, List.take_left' hin]
  | output =>
    refine (Names.slice_eq (by omega)).trans (congrArg (List.map some) ?_)
    rw [Space.allNames, List.drop_left' (by simp [hparam, hin]), List.take_of_length_le hout.le]
  | existential => simp [Space.storedNames, Space.groupNames, Space.dim]

theorem isReadBackOf_reread (m : BasicMap) (config : ReadConfig) (h : config.simplify = false) :
    (m.reread.complete config).IsReadBackOf m := by
  have hcomplete : m.reread.complete config = m.reread.finalize := by rw [complete, h]; rfl
  rw [hcomplete]
  exact ⟨rfl, rfl, rfl, rfl, m.storedNames_printedSpace, rfl, rfl, rfl, rfl⟩

end BasicMap

namespace Reading

/-- A system with rows of one length, whose printed names differ and are identifiers, is read back
from its text, which is read as a whole. -/
theorem readMap_text {m : BasicMap} (hrows : ∀ kind, ∀ row ∈ m.rows kind, row.length = m.rowLength)
    (hnodup : m.space.allNames.Nodup)
    (hnames : ∀ name ∈ m.space.allNames, ScansAsIdentifier name) :
    ∃ text m', m.text? = some text ∧
      (fromText ⟨false, true⟩ (readMap ⟨false, true⟩ none) text).result =
        .ok ⟨m'.space, [m']⟩ ∧ m'.IsReadBackOf m := by
  have hlength := BasicMap.length_of_mem_constraints hrows
  have hnamed : m.space.IsNamed := ⟨hnodup, fun name hn => (hnames name hn).isIdentifier⟩
  obtain ⟨hdrafts, hfinish⟩ := drafts_text hnamed hlength
  obtain ⟨hresult, hstream⟩ := readMap_eq_drafts ⟨false, true⟩ none (.ofString m.text)
  rw [hdrafts] at hresult
  refine ⟨m.text, m.reread.complete ⟨false, true⟩, BasicMap.text?_of_length hlength, ?_,
    m.isReadBackOf_reread _ rfl⟩
  rw [fromText, bind_ok_iff]
  refine ⟨_, hresult, bind_ok_iff.mpr ⟨(), ?_, rfl⟩⟩
  rw [hstream]
  exact hfinish ⟨false, true⟩

/-- Neither the flags, nor the missing definitions, nor a dimension that bears the first default
name of an existential are in the way. -/
theorem readMap_text_taken_name :
    let m : BasicMap := ⟨⟨1, 1, 1, [], [some "e0"], []⟩, 2, [[0, 0, 0, 0, 0, 0]],
      [[-100000000000000000000, 1, -1, 0, 2, -7]], [], ⟨true, false⟩⟩
    m.text? = some ("[p0] -> \x7b [e0] -> [o0] : exists (e1, e2 : 0 = 0 and " ++
        "p0 + 2e1 >= e0 + 7e2 + 100000000000000000000) \x7d") ∧
      ∃ text m', m.text? = some text ∧
        (fromText ⟨false, true⟩ (readMap ⟨false, true⟩ none) text).result =
          .ok ⟨m'.space, [m']⟩ ∧ m'.IsReadBackOf m := by
  intro m
  have hrows : ∀ kind, ∀ row ∈ m.rows kind, row.length = m.rowLength := by
    intro kind
    cases kind <;> decide
  have hall : m.space.allNames = ["p0", "e0", "o0"] := by cbv
  have hnames : ∀ name ∈ m.space.allNames, ScansAsIdentifier name := by
    rw [hall]
    intro name hn
    simp only [List.mem_cons, List.not_mem_nil, or_false] at hn
    rcases hn with rfl | rfl | rfl
    · exact ⟨⟨.identifier, ⟨⟨1, 1, 0⟩, ⟨1, 3, 2⟩⟩, "p0", true, none⟩, _, by cbv, rfl, rfl⟩
    · exact ⟨⟨.identifier, ⟨⟨1, 1, 0⟩, ⟨1, 3, 2⟩⟩, "e0", true, none⟩, _, by cbv, rfl, rfl⟩
    · exact ⟨⟨.identifier, ⟨⟨1, 1, 0⟩, ⟨1, 3, 2⟩⟩, "o0", true, none⟩, _, by cbv, rfl, rfl⟩
  refine ⟨by cbv, readMap_text hrows ?_ hnames⟩
  rw [hall]
  decide

end Reading
end ConstraintText

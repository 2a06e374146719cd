import ConstraintText.Proofs.Drafts
import ConstraintText.Proofs.NormalForms

/-!
# Edits of systems

An edit changes a system in one place. All rows have one length behind it as before it, existentials
have rows of zeros for definitions, and the space stays. New existentials come at the end of each
row, with zeros for coefficients. What is known to be empty stays so, and the contradiction stays
among the rows unless a row is overwritten.
-/
namespace ConstraintText
namespace BasicMap

/-- One change to a system. Rows and entries are overwritten in place. -/
inductive Edit
  | addZeroRow (kind : ConstraintKind)
  | setRow (kind : ConstraintKind) (k : Nat) (row : Row)
  | setCell (kind : ConstraintKind) (k column : Nat) (value : Int)
  | negate (k : Nat)
  | reserve (nEqualities nInequalities : Nat)
  | extend (extra : Nat)
  | toEquality (k : Nat)
  | setToEmpty
  | simplify
  | finalize
  deriving DecidableEq, Repr

namespace Edit

/-- The system behind an edit. Room that is reserved for rows does not show. -/
def perform? (e : Edit) (m : BasicMap) : Option BasicMap :=
  match e with
  | addZeroRow kind => some (m.addZeroRow kind)
  | setRow kind k row => m.setRow? kind k row
  | setCell kind k column value => m.setCell? kind k column value
  | negate k => m.negateInequality? k
  | reserve _ _ => some m
  | extend extra => some (m.extend extra)
  | toEquality k => m.toEquality? k
  | setToEmpty => some m.setToEmpty
  | simplify => some m.simplify
  | finalize => some m.finalize

/-- Whether an edit overwrites a row. -/
def writes : Edit → Bool
  | setRow _ _ _ => true
  | setCell _ _ _ _ => true
  | negate _ => true
  | _ => false

def extra : Edit → Nat
  | extend extra => extra
  | _ => 0

/-- Whether the row and the column of an edit are there, and a row that is written fits. -/
def InRange (e : Edit) (m : BasicMap) : Prop :=
  match e with
  | setRow kind k row => k < (m.rows kind).length ∧ row.length = m.rowLength
  | setCell kind k column _ => k < (m.rows kind).length ∧ column < m.rowLength
  | negate k => k < m.inequalities.length
  | toEquality k => k < m.inequalities.length
  | _ => True

end Edit

/-- What the rows of a system and the definitions of its existentials look like. -/
structure IsUniform (m : BasicMap) : Prop where
  rows : ∀ kind, ∀ row ∈ m.rows kind, row.length = m.rowLength
  divs : m.divs = List.replicate m.nDiv (Row.zeros (1 + m.rowLength))

/-- Whether the contradiction is among the rows. -/
def IsContradictory (m : BasicMap) : Prop := contradiction m.rowLength ∈ m.equalities

theorem IsDraft.isUniform {m : BasicMap} (h : m.IsDraft) : m.IsUniform := ⟨h.rows, h.divs⟩

variable {m m' : BasicMap}

theorem rows_withRows (m : BasicMap) (kind kind' : ConstraintKind) (rows : List Row) :
    (m.withRows kind rows).rows kind' = if kind' = kind then rows else m.rows kind' := by
  cases kind <;> cases kind' <;> rfl

@[simp] theorem space_withRows (m : BasicMap) (kind : ConstraintKind) (rows : List Row) :
    (m.withRows kind rows).space = m.space := by
  cases kind <;> rfl

@[simp] theorem nDiv_withRows (m : BasicMap) (kind : ConstraintKind) (rows : List Row) :
    (m.withRows kind rows).nDiv = m.nDiv := by
  cases kind <;> rfl

@[simp] theorem divs_withRows (m : BasicMap) (kind : ConstraintKind) (rows : List Row) :
    (m.withRows kind rows).divs = m.divs := by
  cases kind <;> rfl

@[simp] theorem flags_withRows (m : BasicMap) (kind : ConstraintKind) (rows : List Row) :
    (m.withRows kind rows).flags = m.flags := by
  cases kind <;> rfl

theorem setRow?_eq_some {kind : ConstraintKind} {k : Nat} {row : Row} :
    m.setRow? kind k row = some m' ↔ ∃ old, (m.rows kind)[k]? = some old ∧
      old.length = row.length ∧ m.withRows kind ((m.rows kind).set k row) = m' := by
  unfold setRow?
  cases (m.rows kind)[k]? <;> simp

theorem setCell?_eq_some {kind : ConstraintKind} {k column : Nat} {value : Int} :
    m.setCell? kind k column value = some m' ↔ ∃ old, (m.rows kind)[k]? = some old ∧
      column < old.length ∧
        m.withRows kind ((m.rows kind).set k (old.set column value)) = m' := by
  unfold setCell?
  cases (m.rows kind)[k]? <;> simp

theorem negateInequality?_eq_some {k : Nat} :
    m.negateInequality? k = some m' ↔ ∃ old, m.inequalities[k]? = some old ∧
      m.withRows .inequality (m.inequalities.set k old.negate) = m' := by
  simp [negateInequality?, Option.map_eq_some_iff]

theorem toEquality?_eq_some {k : Nat} :
    m.toEquality? k = some m' ↔ ∃ row, m.inequalities[k]? = some row ∧
      (m.withRows .inequality (m.inequalities.eraseIdx k)).withRows .equality
        (m.equalities ++ [row]) = m' := by
  simp [toEquality?, Option.map_eq_some_iff]

theorem extend_of_ne_zero {extra : Nat} (h : extra ≠ 0) : m.extend extra =
    ⟨m.space, m.nDiv + extra, m.equalities.map (·.resize (m.rowLength + extra)),
      m.inequalities.map (·.resize (m.rowLength + extra)),
      m.divs.map (·.resize (1 + (m.rowLength + extra))) ++
        List.replicate extra (Row.zeros (1 + (m.rowLength + extra))),
      ⟨m.flags.empty, false⟩⟩ := by
  rw [BasicMap.extend, if_neg h]

/-- The space stays, and existentials come only by extension. -/
theorem Edit.space_nDiv_of_perform? {e : Edit} (h : e.perform? m = some m') :
    m'.space = m.space ∧ m'.nDiv = m.nDiv + e.extra := by
  cases e with
  | addZeroRow kind =>
    obtain rfl := Option.some.inj h
    exact ⟨space_addRow _ _ _, nDiv_addRow _ _ _⟩
  | setRow kind k row =>
    obtain ⟨old, -, -, rfl⟩ := setRow?_eq_some.mp h
    exact ⟨space_withRows _ _ _, nDiv_withRows _ _ _⟩
  | setCell kind k column value =>
    obtain ⟨old, -, -, rfl⟩ := setCell?_eq_some.mp h
    exact ⟨space_withRows _ _ _, nDiv_withRows _ _ _⟩
  | negate k =>
    obtain ⟨old, -, rfl⟩ := negateInequality?_eq_some.mp h
    exact ⟨rfl, rfl⟩
  | extend extra =>
    obtain rfl := Option.some.inj h
    exact ⟨space_extend _ _, nDiv_extend _ _⟩
  | toEquality k =>
    obtain ⟨row, -, rfl⟩ := toEquality?_eq_some.mp h
    exact ⟨rfl, rfl⟩
  | simplify =>
    obtain rfl := Option.some.inj h
    exact ⟨space_simplify _, nDiv_simplify _⟩
  | reserve _ _ => obtain rfl := Option.some.inj h; exact ⟨rfl, rfl⟩
  | setToEmpty => obtain rfl := Option.some.inj h; exact ⟨rfl, rfl⟩
  | finalize => obtain rfl := Option.some.inj h; exact ⟨rfl, rfl⟩

theorem IsUniform.of_rows (h : m.IsUniform) (hs : m'.space = m.space) (hn : m'.nDiv = m.nDiv)
    (hd : m'.divs = m.divs) (hr : ∀ kind, ∀ row ∈ m'.rows kind, row.length = m.rowLength) :
    m'.IsUniform := by
  have hlength : m'.rowLength = m.rowLength := by simp only [rowLength, totalDim, hs, hn]
  exact ⟨fun kind row hrow => by rw [hlength, hr kind row hrow], by rw [hd, h.divs, hn, hlength]⟩

theorem IsUniform.withRows (h : m.IsUniform) {kind : ConstraintKind} {rows : List Row}
    (hr : ∀ row ∈ rows, row.length = m.rowLength) : (m.withRows kind rows).IsUniform := by
  refine h.of_rows (space_withRows _ _ _) (nDiv_withRows _ _ _) (divs_withRows _ _ _) ?_
  intro kind' row hrow
  rw [rows_withRows] at hrow
  split at hrow
  · exact hr row hrow
  · exact h.rows kind' row hrow

theorem length_of_mem_set {rows : List Row} {n k : Nat} {new : Row}
    (hr : ∀ row ∈ rows, row.length = n) (hnew : new.length = n) :
    ∀ row ∈ rows.set k new, row.length = n := by
  intro row hrow
  rcases List.mem_or_eq_of_mem_set hrow with hrow | rfl
  · exact hr row hrow
  · exact hnew

theorem IsUniform.length_of_getElem? (h : m.IsUniform) {kind : ConstraintKind} {k : Nat}
    {row : Row} (hk : (m.rows kind)[k]? = some row) : row.length = m.rowLength :=
  h.rows kind row (List.mem_of_getElem? hk)

theorem IsUniform.extend_rows (h : m.IsUniform) (extra : Nat) :
    (∀ kind, (m.extend extra).rows kind = (m.rows kind).map (· ++ Row.zeros extra)) ∧
      (m.extend extra).divs = m.divs.map (· ++ Row.zeros extra) ++
        List.replicate extra (Row.zeros (1 + (m.extend extra).rowLength)) := by
  by_cases h₀ : extra = 0
  · subst h₀
    simp [BasicMap.extend, Row.zeros]
  have hresize : ∀ {rows : List Row} {n : Nat}, (∀ row ∈ rows, row.length = n) →
      rows.map (·.resize (n + extra)) = rows.map (· ++ Row.zeros extra) := by
    intro rows n hr
    refine List.map_congr_left fun row hrow => ?_
    rw [← hr row hrow, Formula.resize_append_zeros]
  have hdivs : ∀ row ∈ m.divs, row.length = 1 + m.rowLength := by
    intro row hrow
    rw [h.divs] at hrow
    rw [List.eq_of_mem_replicate hrow, Row.zeros, List.length_replicate]
  have hlength := m.rowLength_extend extra
  rw [hlength, extend_of_ne_zero h₀]
  refine ⟨fun kind => ?_, ?_⟩
  · cases kind with
    | equality => exact hresize (h.rows .equality)
    | inequality => exact hresize (h.rows .inequality)
  · rw [← Nat.add_assoc, hresize hdivs, Nat.add_assoc]

theorem IsUniform.extend (h : m.IsUniform) (extra : Nat) : (m.extend extra).IsUniform := by
  obtain ⟨hrows, hdivs⟩ := h.extend_rows extra
  have hlength := m.rowLength_extend extra
  refine ⟨fun kind row hrow => ?_, ?_⟩
  · rw [hrows kind] at hrow
    obtain ⟨old, hold, rfl⟩ := List.mem_map.mp hrow
    rw [List.length_append, h.rows kind old hold, Row.zeros, List.length_replicate, hlength]
  · have hzeros : Row.zeros (1 + m.rowLength) ++ Row.zeros extra =
        Row.zeros (1 + (m.extend extra).rowLength) := by
      simp only [Row.zeros, List.replicate_append_replicate, hlength, Nat.add_assoc]
    rw [hdivs, h.divs, List.map_replicate, hzeros, List.replicate_append_replicate, nDiv_extend]

theorem length_contradiction (m : BasicMap) :
    (contradiction m.rowLength).length = m.rowLength := by
  have hpos := m.rowLength_pos
  simp only [contradiction, Row.zeros, List.length_cons, List.length_replicate]
  omega

theorem IsUniform.setToEmpty (h : m.IsUniform) : m.setToEmpty.IsUniform := by
  refine h.of_rows rfl rfl rfl fun kind row hrow => ?_
  cases kind with
  | equality =>
    rw [List.mem_singleton.mp hrow]
    exact length_contradiction m
  | inequality => simp [BasicMap.rows, BasicMap.setToEmpty] at hrow

theorem IsUniform.simplify (h : m.IsUniform) : m.simplify.IsUniform := by
  unfold BasicMap.simplify
  split
  · exact h
  · split
    · exact h.setToEmpty
    · have hequalities : (m.withRows .equality (simplifyRows .equality m.equalities)).IsUniform :=
        h.withRows (length_of_mem_simplifyRows (h.rows .equality))
      exact hequalities.withRows (length_of_mem_simplifyRows (h.rows .inequality))

theorem IsUniform.addZeroRow (h : m.IsUniform) (kind : ConstraintKind) :
    (m.addZeroRow kind).IsUniform := by
  refine h.of_rows (space_addRow _ _ _) (nDiv_addRow _ _ _) (divs_addRow _ _ _) ?_
  intro kind' row hrow
  rcases mem_rows_addRow hrow with rfl | hrow
  · rw [Row.zeros, List.length_replicate]
  · exact h.rows kind' row hrow

/-- What an edit leaves of uniform rows is uniform. -/
theorem Edit.isUniform_of_perform? {e : Edit} (hm : m.IsUniform) (h : e.perform? m = some m') :
    m'.IsUniform := by
  cases e with
  | addZeroRow kind =>
    obtain rfl := Option.some.inj h
    exact hm.addZeroRow kind
  | setRow kind k row =>
    obtain ⟨old, hk, hl, rfl⟩ := setRow?_eq_some.mp h
    have hnew : row.length = m.rowLength := hl.symm.trans (hm.length_of_getElem? hk)
    exact hm.withRows (length_of_mem_set (hm.rows kind) hnew)
  | setCell kind k column value =>
    obtain ⟨old, hk, -, rfl⟩ := setCell?_eq_some.mp h
    have hnew : (old.set column value).length = m.rowLength := by
      rw [List.length_set, hm.length_of_getElem? hk]
    exact hm.withRows (length_of_mem_set (hm.rows kind) hnew)
  | negate k =>
    obtain ⟨old, hk, rfl⟩ := negateInequality?_eq_some.mp h
    have hnew : old.negate.length = m.rowLength := by
      rw [Row.length_negate]
      exact hm.rows .inequality old (List.mem_of_getElem? hk)
    exact hm.withRows (length_of_mem_set (hm.rows .inequality) hnew)
  | extend extra =>
    obtain rfl := Option.some.inj h
    exact hm.extend extra
  | toEquality k =>
    obtain ⟨row, hk, rfl⟩ := toEquality?_eq_some.mp h
    have hrest : ∀ row ∈ m.inequalities.eraseIdx k, row.length = m.rowLength :=
      fun row hrow => hm.rows .inequality row (List.mem_of_mem_eraseIdx hrow)
    have hm₁ : (m.withRows .inequality (m.inequalities.eraseIdx k)).IsUniform := hm.withRows hrest
    refine hm₁.withRows fun row' hrow => ?_
    rcases List.mem_append.mp hrow with hrow | hrow
    · exact hm.rows .equality row' hrow
    · rw [List.mem_singleton.mp hrow]
      exact hm.rows .inequality row (List.mem_of_getElem? hk)
  | setToEmpty =>
    obtain rfl := Option.some.inj h
    exact hm.setToEmpty
  | simplify =>
    obtain rfl := Option.some.inj h
    exact hm.simplify
  | reserve _ _ => exact Option.some.inj h ▸ hm
  | finalize =>
    obtain rfl := Option.some.inj h
    exact ⟨hm.rows, hm.divs⟩

theorem isUniform_unconstrained (space : Space) : (unconstrained space).IsUniform :=
  (isDraft_unconstrained space).isUniform

theorem isUniform_empty (space : Space) : (BasicMap.empty space).IsUniform :=
  (isUniform_unconstrained space).setToEmpty

/-- An edit of uniform rows is refused only where something is out of range. -/
theorem Edit.isSome_perform?_iff (e : Edit) (hm : m.IsUniform) :
    (e.perform? m).isSome = true ↔ e.InRange m := by
  have hget : ∀ kind k, (∃ row, (m.rows kind)[k]? = some row) ↔ k < (m.rows kind).length := by
    intro kind k
    rw [← Option.isSome_iff_exists, isSome_getElem?]
  cases e with
  | setRow kind k row =>
    simp only [Option.isSome_iff_exists, perform?, setRow?_eq_some, InRange, ← hget]
    constructor
    · rintro ⟨_, old, hk, hl, -⟩
      exact ⟨⟨old, hk⟩, hl.symm.trans (hm.length_of_getElem? hk)⟩
    · rintro ⟨⟨old, hk⟩, hl⟩
      exact ⟨_, old, hk, (hm.length_of_getElem? hk).trans hl.symm, rfl⟩
  | setCell kind k column value =>
    simp only [Option.isSome_iff_exists, perform?, setCell?_eq_some, InRange, ← hget]
    constructor
    · rintro ⟨_, old, hk, hl, -⟩
      exact ⟨⟨old, hk⟩, hm.length_of_getElem? hk ▸ hl⟩
    · rintro ⟨⟨old, hk⟩, hl⟩
      exact ⟨_, old, hk, (hm.length_of_getElem? hk).symm ▸ hl, rfl⟩
  | negate k => simp [perform?, negateInequality?, InRange]
  | toEquality k => simp [perform?, toEquality?, InRange]
  | addZeroRow _ => simp [perform?, InRange]
  | reserve _ _ => simp [perform?, InRange]
  | extend _ => simp [perform?, InRange]
  | setToEmpty => simp [perform?, InRange]
  | simplify => simp [perform?, InRange]
  | finalize => simp [perform?, InRange]

theorem IsContradictory.not_satisfies (h : m.IsContradictory) (point : List Int) :
    ¬ m.Satisfies point := by
  intro hs
  exact not_holds_contradiction m.rowLength point (hs .equality _ h)

theorem contradiction_append_zeros {n : Nat} (h : 0 < n) (extra : Nat) :
    contradiction n ++ Row.zeros extra = contradiction (n + extra) := by
  have hn : n + extra - 1 = n - 1 + extra := by omega
  simp only [contradiction, Row.zeros, List.cons_append, List.replicate_append_replicate, hn]

theorem IsContradictory.extend (hm : m.IsUniform) (h : m.IsContradictory) (extra : Nat) :
    (m.extend extra).IsContradictory := by
  have hrows : (m.extend extra).equalities = m.equalities.map (· ++ Row.zeros extra) :=
    (hm.extend_rows extra).1 .equality
  rw [IsContradictory, hrows, rowLength_extend, ← contradiction_append_zeros m.rowLength_pos]
  exact List.mem_map_of_mem h

theorem isContradictory_setToEmpty (m : BasicMap) : m.setToEmpty.IsContradictory :=
  List.mem_singleton.mpr rfl

theorem flags_empty_extend (m : BasicMap) (extra : Nat) :
    (m.extend extra).flags.empty = m.flags.empty := by
  unfold BasicMap.extend
  split <;> rfl

theorem simplify_of_empty (h : m.flags.empty = true) : m.simplify = m := by
  rw [BasicMap.simplify, if_pos h]

theorem Edit.empty_of_perform? {e : Edit} (h : e.perform? m = some m') :
    m'.flags.empty = true ↔
      m.flags.empty = true ∨ e = .setToEmpty ∨ e = .simplify ∧ m.hasInfeasibleRow = true := by
  cases e with
  | addZeroRow kind =>
    obtain rfl := Option.some.inj h
    simp [BasicMap.addZeroRow]
  | setRow kind k row =>
    obtain ⟨old, -, -, rfl⟩ := setRow?_eq_some.mp h
    simp
  | setCell kind k column value =>
    obtain ⟨old, -, -, rfl⟩ := setCell?_eq_some.mp h
    simp
  | negate k =>
    obtain ⟨old, -, rfl⟩ := negateInequality?_eq_some.mp h
    simp
  | extend extra =>
    obtain rfl := Option.some.inj h
    simp [flags_empty_extend]
  | toEquality k =>
    obtain ⟨row, -, rfl⟩ := toEquality?_eq_some.mp h
    simp
  | setToEmpty =>
    obtain rfl := Option.some.inj h
    simp [BasicMap.setToEmpty]
  | simplify =>
    obtain rfl := Option.some.inj h
    cases he : m.flags.empty with
    | true => simp [simplify_of_empty he, he]
    | false => simp [empty_simplify he]
  | reserve _ _ =>
    obtain rfl := Option.some.inj h
    simp
  | finalize =>
    obtain rfl := Option.some.inj h
    simp [BasicMap.finalize, withFlags]

/-- The contradiction of a system known to be empty outlasts edits that overwrite nothing. -/
theorem IsContradictory.of_perform? {e : Edit} (hm : m.IsUniform) (hc : m.IsContradictory)
    (he : m.flags.empty = true) (hw : e.writes = false) (h : e.perform? m = some m') :
    m'.IsContradictory := by
  cases e with
  | addZeroRow kind =>
    obtain rfl := Option.some.inj h
    cases kind with
    | equality => exact List.mem_append_left _ hc
    | inequality => exact hc
  | setRow _ _ _ => simp [Edit.writes] at hw
  | setCell _ _ _ _ => simp [Edit.writes] at hw
  | negate _ => simp [Edit.writes] at hw
  | extend extra =>
    obtain rfl := Option.some.inj h
    exact hc.extend hm extra
  | toEquality k =>
    obtain ⟨row, -, rfl⟩ := toEquality?_eq_some.mp h
    exact List.mem_append_left _ hc
  | setToEmpty =>
    obtain rfl := Option.some.inj h
    exact isContradictory_setToEmpty m
  | simplify =>
    obtain rfl := Option.some.inj h
    rwa [simplify_of_empty he]
  | reserve _ _ => exact Option.some.inj h ▸ hc
  | finalize =>
    obtain rfl := Option.some.inj h
    exact hc

theorem Edit.isContradictory_of_perform? {e : Edit} (h : e.perform? m = some m')
    (he : m'.flags.empty = true) (hnew : m.flags.empty = false ∨ e = .setToEmpty) :
    m'.IsContradictory := by
  have hcause := (Edit.empty_of_perform? h).mp he
  rcases hnew with hnew | rfl
  · rw [hnew] at hcause
    rcases hcause with hcause | rfl | ⟨rfl, hi⟩
    · exact absurd hcause (by decide)
    · obtain rfl := Option.some.inj h
      exact isContradictory_setToEmpty m
    · obtain rfl := Option.some.inj h
      rw [simplify_of_infeasible hnew hi]
      exact isContradictory_setToEmpty m
  · obtain rfl := Option.some.inj h
    exact isContradictory_setToEmpty m

end BasicMap
end ConstraintText

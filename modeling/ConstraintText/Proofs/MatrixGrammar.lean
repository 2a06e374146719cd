import Mathlib
import ConstraintText.Reading.Matrix

/-!
# The grammar of matrices

    text   := matrix | count matrix {matrix}
    matrix := rows columns {row}
    row    := type {dimension} {parameter} constant

All of these are integers, and what cannot be told from their kinds is a matter of lines and counts.
A column count is on the line of what is in front of it, and a type begins a line. The first matrix
behind a number of matrices begins a line, which tells this number from a row count. The counts of a
matrix are those of its rows and of the integers in each row, and matrices that are announced
together have one number of columns.
-/
namespace ConstraintText.Matrix

/-- A row as it is written, without its type. -/
structure WrittenRow where
  kind : ConstraintKind
  dims : List Int
  params : List Int
  constant : Int

/-- A matrix as it is written. -/
structure Written where
  columns : Nat
  rows : List WrittenRow

namespace WrittenRow

def type (r : WrittenRow) : Int :=
  match r.kind with
  | .equality => 0
  | .inequality => 1

/-- The integers behind the type of a row, in their order. -/
def entries (r : WrittenRow) : List Int := r.dims ++ r.params ++ [r.constant]

/-- The row of the system: the constant first, parameters before dimensions. -/
def constraint (r : WrittenRow) : Constraint := ⟨r.kind, r.constant :: r.params ++ r.dims⟩

end WrittenRow

def IsInteger (t : Token) (value : Int) : Prop := t.kind = .integer ∧ t.value = some value

/-- A number that fits into 64 bits. -/
def IsCount (t : Token) (n : Nat) : Prop := IsInteger t n ∧ n < 2 ^ 64

inductive DerivesRow (nParam dims : Nat) : WrittenRow → List Token → Prop
  | intro {r : WrittenRow} {type : Token} {ts : List Token} (ht : IsInteger type r.type)
      (hl : type.onNewLine = true) (hd : r.dims.length = dims) (hp : r.params.length = nParam)
      (he : List.Forall₂ IsInteger ts r.entries) : DerivesRow nParam dims r (type :: ts)

inductive DerivesRows (nParam dims : Nat) : List WrittenRow → List Token → Prop
  | nil : DerivesRows nParam dims [] []
  | cons {r : WrittenRow} {rs : List WrittenRow} {front ts : List Token}
      (hr : DerivesRow nParam dims r front) (hrs : DerivesRows nParam dims rs ts) :
      DerivesRows nParam dims (r :: rs) (front ++ ts)

/-- The tokens of one matrix. -/
inductive Derives (nParam : Nat) : Written → List Token → Prop
  | intro {w : Written} {rows columns : Token} {ts : List Token} (hr : IsCount rows w.rows.length)
      (hc : IsCount columns w.columns) (hl : columns.onNewLine = false)
      (hn : 2 + nParam ≤ w.columns)
      (hrows : DerivesRows nParam (w.columns - 2 - nParam) w.rows ts) :
      Derives nParam w (rows :: columns :: ts)

inductive DerivesAll (nParam columns : Nat) : List Written → List Token → Prop
  | nil : DerivesAll nParam columns [] []
  | cons {w : Written} {ws : List Written} {front ts : List Token} (hw : Derives nParam w front)
      (hc : w.columns = columns) (hws : DerivesAll nParam columns ws ts) :
      DerivesAll nParam columns (w :: ws) (front ++ ts)

/-- The tokens of a text: one matrix, or the number of matrices in front of them. -/
inductive DerivesText (nParam columns : Nat) : List Written → List Token → Prop
  | single {w : Written} {ts : List Token} (hw : Derives nParam w ts) (hc : w.columns = columns) :
      DerivesText nParam columns [w] ts
  | counted {count : Token} {ws : List Written} {ts : List Token} (hn : IsCount count ws.length)
      (hpos : 1 ≤ ws.length) (hl : ∀ t ∈ ts.head?, t.onNewLine = true)
      (hws : DerivesAll nParam columns ws ts) : DerivesText nParam columns ws (count :: ts)

def rowsOf (kind : ConstraintKind) (cs : List Constraint) : List Row :=
  (cs.filter (·.kind = kind)).map (·.coeffs)

/-- The system of some constraints over unnamed dimensions, without existentials. -/
def system (nParam dims : Nat) (cs : List Constraint) (flags : Flags) : BasicMap :=
  ⟨.unnamed nParam 0 dims, 0, rowsOf .equality cs, rowsOf .inequality cs, [], flags⟩

namespace Written

def constraints (w : Written) : List Constraint := w.rows.map (·.constraint)

/-- The integers of a matrix, its counts among them. -/
def size (w : Written) : Nat := 2 + w.rows.length * w.columns

/-- The finished system of a matrix. -/
def meaning (nParam : Nat) (w : Written) : BasicMap :=
  system nParam (w.columns - 2 - nParam) w.constraints ⟨false, true⟩

end Written

/-- The union of matrices that have as many columns. -/
def union (nParam columns : Nat) (ws : List Written) : MapUnion :=
  ⟨.unnamed nParam 0 (columns - 2 - nParam), ws.map (·.meaning nParam)⟩

variable {nParam dims columns : Nat}

theorem WrittenRow.length_entries (r : WrittenRow) :
    r.entries.length = r.dims.length + r.params.length + 1 := by
  simp [entries, Nat.add_assoc]

theorem DerivesRow.length {r : WrittenRow} {ts : List Token} (h : DerivesRow nParam dims r ts) :
    ts.length = dims + nParam + 2 := by
  obtain ⟨-, -, hd, hp, he⟩ := h
  have hlength := he.length_eq
  rw [r.length_entries] at hlength
  rw [List.length_cons, hlength, hd, hp]

theorem DerivesRows.length {rs : List WrittenRow} {ts : List Token}
    (h : DerivesRows nParam dims rs ts) : ts.length = rs.length * (dims + nParam + 2) := by
  induction h with
  | nil => simp
  | cons hr _ ih => rw [List.length_append, hr.length, ih, List.length_cons, Nat.succ_mul,
      Nat.add_comm]

theorem DerivesRows.constraint_mem {rs : List WrittenRow} {ts : List Token}
    (h : DerivesRows nParam dims rs ts) :
    ∀ c ∈ rs.map (·.constraint), c.coeffs.length = 1 + (nParam + dims) := by
  induction h with
  | nil => simp
  | cons hr _ ih =>
    rw [List.map_cons, List.forall_mem_cons]
    obtain ⟨-, -, hd, hp, -⟩ := hr
    refine ⟨?_, ih⟩
    simp only [WrittenRow.constraint, List.cons_append, List.length_cons, List.length_append, hd,
      hp]
    omega

/-- A matrix has as many tokens as its counts announce. -/
theorem Derives.length {w : Written} {ts : List Token} (h : Derives nParam w ts) :
    ts.length = w.size := by
  obtain ⟨-, -, -, hn, hrows⟩ := h
  have hcolumns : w.columns - 2 - nParam + nParam + 2 = w.columns := by omega
  rw [List.length_cons, List.length_cons, hrows.length, hcolumns, Written.size]
  omega

theorem DerivesAll.length {ws : List Written} {ts : List Token}
    (h : DerivesAll nParam columns ws ts) : ts.length = (ws.map Written.size).sum := by
  induction h with
  | nil => rfl
  | cons hw _ _ ih => rw [List.length_append, hw.length, ih, List.map_cons, List.sum_cons]

/-- The tokens in front of the matrices of a text: their number, if the second token of the text
begins a line. -/
def lead (ts : List Token) : Nat := if ts[1]?.any (·.onNewLine) then 1 else 0

theorem DerivesText.length {ws : List Written} {ts : List Token}
    (h : DerivesText nParam columns ws ts) :
    ts.length = lead ts + (ws.map Written.size).sum := by
  cases h with
  | single hw _ =>
    have hlength := hw.length
    obtain ⟨-, -, hl, -, -⟩ := hw
    simp [lead, hl, hlength]
  | counted hn hpos hl hws =>
    have hlength := hws.length
    cases hws with
    | nil => simp at hpos
    | cons hw _ _ =>
      obtain ⟨-, -, -, -, -⟩ := hw
      have hline := hl _ rfl
      rw [List.length_cons, hlength]
      simp [lead, hline, Nat.add_comm]

theorem IsInteger.unique {t : Token} {a b : Int} (ha : IsInteger t a) (hb : IsInteger t b) :
    a = b :=
  Option.some.inj (ha.2.symm.trans hb.2)

/-- Where the second token is on the line of the first, there are as many entries as these two
announce. -/
theorem DerivesText.supply {ws : List Written} {front rest ts : List Token} {rows second : Token}
    {n k : Nat} (h : DerivesText nParam columns ws front)
    (hts : front ++ rest = rows :: second :: ts) (hl : second.onNewLine = false)
    (hn : IsInteger rows n) (hk : IsInteger second k) : n * k ≤ ts.length := by
  cases h with
  | @single w _ hw _ =>
    have hlength := hw.length
    cases hw with
    | @intro rows' second' back hr hc _ _ _ =>
      simp only [List.cons_append, List.cons.injEq] at hts
      obtain ⟨rfl, rfl, rfl⟩ := hts
      obtain rfl : n = w.rows.length := by exact_mod_cast hn.unique hr.1
      obtain rfl : k = w.columns := by exact_mod_cast hk.unique hc.1
      simp only [List.length_cons, Written.size] at hlength
      rw [List.length_append]
      omega
  | @counted _ _ ts' _ hpos hline hws =>
    cases hws with
    | nil => simp at hpos
    | cons hw _ _ =>
      obtain ⟨-, -, -, -, -⟩ := hw
      simp only [List.cons_append, List.cons.injEq] at hts
      obtain ⟨-, rfl, -⟩ := hts
      have hnew := hline _ rfl
      simp [hl] at hnew

theorem Derives.columns_bounds {w : Written} {ts : List Token} (h : Derives nParam w ts) :
    2 + nParam ≤ w.columns ∧ w.columns < 2 ^ 64 := by
  obtain ⟨-, hc, -, hn, -⟩ := h
  exact ⟨hn, hc.2⟩

theorem DerivesAll.columns_bounds {ws : List Written} {ts : List Token}
    (h : DerivesAll nParam columns ws ts) (hne : ws ≠ []) :
    2 + nParam ≤ columns ∧ columns < 2 ^ 64 := by
  cases h with
  | nil => exact absurd rfl hne
  | cons hw hc _ => exact hc ▸ hw.columns_bounds

theorem DerivesAll.columns_eq {ws : List Written} {ts : List Token}
    (h : DerivesAll nParam columns ws ts) : ∀ w ∈ ws, w.columns = columns := by
  induction h with
  | nil => simp
  | cons _ hc _ ih => exact List.forall_mem_cons.mpr ⟨hc, ih⟩

theorem DerivesText.columns_eq {ws : List Written} {ts : List Token}
    (h : DerivesText nParam columns ws ts) : ∀ w ∈ ws, w.columns = columns := by
  cases h with
  | single _ hc => simpa using hc
  | counted _ _ _ hws => exact hws.columns_eq

theorem DerivesText.columns_bounds {ws : List Written} {ts : List Token}
    (h : DerivesText nParam columns ws ts) : 2 + nParam ≤ columns ∧ columns < 2 ^ 64 := by
  cases h with
  | single hw hc => exact hc ▸ hw.columns_bounds
  | counted _ hpos _ hws => exact hws.columns_bounds (List.ne_nil_of_length_pos hpos)

theorem DerivesRow.kind {r : WrittenRow} {ts : List Token} (h : DerivesRow nParam dims r ts) :
    ∀ t ∈ ts, t.kind = .integer := by
  obtain ⟨ht, -, -, -, he⟩ := h
  refine List.forall_mem_cons.mpr ⟨ht.1, fun t hmem => ?_⟩
  obtain ⟨i, hi, rfl⟩ := List.mem_iff_getElem.mp hmem
  exact (he.get hi (he.length_eq ▸ hi)).1

theorem DerivesRows.kind {rs : List WrittenRow} {ts : List Token}
    (h : DerivesRows nParam dims rs ts) : ∀ t ∈ ts, t.kind = .integer := by
  induction h with
  | nil => simp
  | cons hr _ ih => exact List.forall_mem_append.mpr ⟨hr.kind, ih⟩

theorem Derives.kind {w : Written} {ts : List Token} (h : Derives nParam w ts) :
    ∀ t ∈ ts, t.kind = .integer := by
  obtain ⟨hr, hc, -, -, hrows⟩ := h
  exact List.forall_mem_cons.mpr ⟨hr.1.1, List.forall_mem_cons.mpr ⟨hc.1.1, hrows.kind⟩⟩

theorem DerivesAll.kind {ws : List Written} {ts : List Token}
    (h : DerivesAll nParam columns ws ts) : ∀ t ∈ ts, t.kind = .integer := by
  induction h with
  | nil => simp
  | cons hw _ _ ih => exact List.forall_mem_append.mpr ⟨hw.kind, ih⟩

theorem DerivesText.kind {ws : List Written} {ts : List Token}
    (h : DerivesText nParam columns ws ts) : ts ≠ [] ∧ ∀ t ∈ ts, t.kind = .integer := by
  cases h with
  | single hw _ =>
    refine ⟨fun he => ?_, hw.kind⟩
    subst he
    cases hw
  | counted hn _ _ hws => exact ⟨by simp, List.forall_mem_cons.mpr ⟨hn.1.1, hws.kind⟩⟩

end ConstraintText.Matrix

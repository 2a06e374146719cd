import ConstraintText.Proofs.Edits
import ConstraintText.Reading.Formula

/-!
# Systems with counts of 64 bits

Counts are numbers of 64 bits where a program runs. Here every sum must have 64 bits, no difference
may be negative, and rows are written where they were allotted. As long as the columns of a system
fit, this comes to the same.
-/
namespace ConstraintText

/-- A sum of counts. -/
def sum64? (a b : Nat) : Option Nat := if a + b ≤ Decimal.largestCount then some (a + b) else none

def difference64? (a b : Nat) : Option Nat := if b ≤ a then some (a - b) else none

theorem sum64?_eq {a b : Nat} (h : a + b ≤ Decimal.largestCount) : sum64? a b = some (a + b) :=
  if_pos h

theorem difference64?_eq {a b : Nat} (h : b ≤ a) : difference64? a b = some (a - b) := if_pos h

theorem mapM_eq_some {α β : Type} {f : α → Option β} {g : α → β} {as : List α}
    (h : ∀ a ∈ as, f a = some (g a)) : as.mapM f = some (as.map g) := by
  induction as with
  | nil => rfl
  | cons a as ih =>
    rw [List.forall_mem_cons] at h
    simp [List.mapM_cons, h.1, ih h.2]

namespace Space

def totalDim64? (s : Space) : Option Nat := do
  let dims ← sum64? s.nParam s.nIn
  sum64? dims s.nOut

theorem totalDim64?_eq {s : Space} (h : s.totalDim ≤ Decimal.largestCount) :
    s.totalDim64? = some s.totalDim := by
  rw [totalDim] at h
  have hfirst : s.nParam + s.nIn ≤ Decimal.largestCount := by omega
  simp [totalDim64?, sum64?_eq hfirst, sum64?_eq h, totalDim]

end Space

namespace Names

def slice64? (ns : Names) (start n : Nat) : Option (List (Option String)) := do
  let _ ← sum64? start n
  some (ns.slice start n)

/-- Each dimension is given a name, so there must be as many names as dimensions. -/
def toSpace64? (ns : Names) (nParam nIn nOut : Nat) : Option Space := do
  let params ← ns.slice64? 0 nParam
  let inputs ← ns.slice64? nParam nIn
  let start ← sum64? nParam nIn
  let outputs ← ns.slice64? start nOut
  if params.length = nParam ∧ inputs.length = nIn ∧ outputs.length = nOut then
    some ⟨nParam, nIn, nOut, params, inputs, outputs⟩
  else none

theorem slice64?_eq {ns : Names} {start n : Nat} (h : start + n ≤ Decimal.largestCount) :
    ns.slice64? start n = some (ns.slice start n) := by
  simp [slice64?, sum64?_eq h]

theorem length_slice (ns : Names) (start n : Nat) : (ns.slice start n).length = n := by
  simp [slice]

theorem toSpace64?_eq {ns : Names} {nParam nIn nOut : Nat}
    (h : nParam + nIn + nOut ≤ Decimal.largestCount) :
    ns.toSpace64? nParam nIn nOut = some (ns.toSpace nParam nIn nOut) := by
  have hparams : 0 + nParam ≤ Decimal.largestCount := by omega
  have hinputs : nParam + nIn ≤ Decimal.largestCount := by omega
  simp [toSpace64?, slice64?_eq hparams, slice64?_eq hinputs, sum64?_eq hinputs, slice64?_eq h,
    length_slice, toSpace]

end Names

namespace BasicMap

def totalDim64? (m : BasicMap) : Option Nat := do
  let dims ← m.space.totalDim64?
  sum64? dims m.nDiv

def rowLength64? (m : BasicMap) : Option Nat := do
  let dims ← m.totalDim64?
  sum64? 1 dims

def extend64? (m : BasicMap) (extra : Nat) : Option BasicMap :=
  if extra = 0 then some m
  else do
    let nDiv ← sum64? m.nDiv extra
    let length ← rowLength64? ⟨m.space, nDiv, m.equalities, m.inequalities, m.divs, m.flags⟩
    let divLength ← sum64? 1 length
    some ⟨m.space, nDiv, m.equalities.map (·.resize length), m.inequalities.map (·.resize length),
      m.divs.map (·.resize divLength) ++ List.replicate extra (Row.zeros divLength),
      ⟨m.flags.empty, false⟩⟩

def addZeroRow64? (m : BasicMap) (kind : ConstraintKind) : Option (Nat × BasicMap) := do
  let length ← m.rowLength64?
  let grown := m.addRow kind (Row.zeros length)
  let k ← difference64? (grown.rows kind).length 1
  some (k, grown)

def appendRow64? (m : BasicMap) (kind : ConstraintKind) (row : Row) : Option BasicMap := do
  let (k, grown) ← m.addZeroRow64? kind
  grown.setRow? kind k row

def appendSum64? (m : BasicMap) (kind : ConstraintKind) (row : Row) : Option BasicMap := do
  let (k, grown) ← m.addZeroRow64? .inequality
  let written ← grown.setRow? .inequality k row
  match kind with
  | .inequality => some written
  | .equality => do
    let moved ← written.toEquality? k
    let _ ← difference64? moved.equalities.length 1
    some moved

def setToEmpty64? (m : BasicMap) : Option BasicMap := do
  let (k, cleared) ←
    ((m.withRows .equality []).withRows .inequality []).addZeroRow64? .equality
  let written ← cleared.setCell? .equality k 0 1
  some (written.withFlags ⟨true, written.flags.finalized⟩)

def simplify64? (m : BasicMap) : Option BasicMap :=
  if m.flags.empty then some m
  else do
    let _ ← m.constraints.mapM fun c => c.coeffs.normalize? c.kind
    if m.hasInfeasibleRow then m.setToEmpty64? else some m.simplify

def complete64? (m : BasicMap) (config : ReadConfig) : Option BasicMap := do
  let m ← if config.simplify then m.simplify64? else some m
  some m.finalize

variable {m : BasicMap}

theorem totalDim64?_eq (h : m.totalDim ≤ Decimal.largestCount) :
    m.totalDim64? = some m.totalDim := by
  rw [totalDim] at h
  have hspace : m.space.totalDim ≤ Decimal.largestCount := by omega
  simp [totalDim64?, Space.totalDim64?_eq hspace, sum64?_eq h, totalDim]

theorem rowLength64?_eq (h : m.rowLength ≤ Decimal.largestCount) :
    m.rowLength64? = some m.rowLength := by
  rw [rowLength] at h
  have hdims : m.totalDim ≤ Decimal.largestCount := by omega
  simp [rowLength64?, totalDim64?_eq hdims, sum64?_eq h, rowLength]

theorem extend64?_eq {extra : Nat} (h : 1 + (m.rowLength + extra) ≤ Decimal.largestCount) :
    m.extend64? extra = some (m.extend extra) := by
  by_cases h₀ : extra = 0
  · subst h₀
    simp [extend64?, BasicMap.extend]
  · have hlength : rowLength ⟨m.space, m.nDiv + extra, m.equalities, m.inequalities, m.divs,
        m.flags⟩ = m.rowLength + extra := by
      simp only [rowLength, totalDim]
      omega
    have hdivs : m.nDiv + extra ≤ Decimal.largestCount := by
      simp only [rowLength, totalDim] at h
      omega
    have hrow := rowLength64?_eq (m := ⟨m.space, m.nDiv + extra, m.equalities, m.inequalities,
      m.divs, m.flags⟩) (by rw [hlength]; omega)
    rw [hlength] at hrow
    rw [extend64?, if_neg h₀, extend_of_ne_zero h₀]
    simp only [sum64?_eq hdivs, hrow, sum64?_eq h, Option.bind_eq_bind, Option.bind_some]

theorem addZeroRow64?_eq (kind : ConstraintKind) (h : m.rowLength ≤ Decimal.largestCount) :
    m.addZeroRow64? kind = some ((m.rows kind).length, m.addZeroRow kind) := by
  have hlast : ((m.addZeroRow kind).rows kind).length = (m.rows kind).length + 1 := by
    cases kind <;> simp [addZeroRow, addRow, withRows, BasicMap.rows, reopened, withFlags]
  have hgrown : m.addRow kind (Row.zeros m.rowLength) = m.addZeroRow kind := rfl
  simp [addZeroRow64?, rowLength64?_eq h, hgrown, hlast, difference64?_eq]

theorem setRow?_addZeroRow (kind : ConstraintKind) {row : Row} (h : row.length = m.rowLength) :
    (m.addZeroRow kind).setRow? kind (m.rows kind).length row = some (m.addRow kind row) := by
  rw [setRow?_eq_some]
  refine ⟨Row.zeros m.rowLength, ?_, ?_, ?_⟩
  · cases kind <;> simp [addZeroRow, addRow, withRows, BasicMap.rows, reopened, withFlags]
  · rw [h, Row.zeros, List.length_replicate]
  · cases kind <;> simp [addZeroRow, addRow, withRows, BasicMap.rows, reopened, withFlags]

theorem appendRow64?_eq (kind : ConstraintKind) {row : Row} (hr : row.length = m.rowLength)
    (h : m.rowLength ≤ Decimal.largestCount) :
    m.appendRow64? kind row = m.appendRow? kind row := by
  simp [appendRow64?, addZeroRow64?_eq kind h, setRow?_addZeroRow kind hr, appendRow?, hr]

theorem toEquality?_addRow (row : Row) :
    (m.addRow .inequality row).toEquality? m.inequalities.length =
      some (m.addRow .equality row) := by
  have herase : (m.inequalities ++ [row]).eraseIdx m.inequalities.length = m.inequalities := by
    simp [List.eraseIdx_append_of_length_le]
  simp [toEquality?, addRow, withRows, BasicMap.rows, reopened, withFlags, herase]

theorem appendSum64?_eq (kind : ConstraintKind) {row : Row} (hr : row.length = m.rowLength)
    (h : m.rowLength ≤ Decimal.largestCount) :
    m.appendSum64? kind row = m.appendRow? kind row := by
  have happend : m.appendRow? kind row = some (m.addRow kind row) := if_pos hr
  have hlast : m.rows .inequality = m.inequalities := rfl
  have hwritten := setRow?_addZeroRow .inequality hr
  rw [hlast] at hwritten
  rw [appendSum64?, addZeroRow64?_eq .inequality h, happend]
  cases kind with
  | inequality => simp [hwritten, hlast]
  | equality =>
    have hpos : 1 ≤ (m.addRow .equality row).equalities.length := by
      simp [addRow, withRows, BasicMap.rows, reopened, withFlags]
    simp [hwritten, hlast, toEquality?_addRow, difference64?_eq hpos]

theorem setToEmpty64?_eq (h : m.rowLength ≤ Decimal.largestCount) :
    m.setToEmpty64? = some m.setToEmpty := by
  have hcleared : ((m.withRows .equality []).withRows .inequality []).addZeroRow .equality =
      ⟨m.space, m.nDiv, [Row.zeros m.rowLength], [], m.divs, ⟨m.flags.empty, false⟩⟩ := rfl
  have hrow : (Row.zeros m.rowLength).set 0 1 = contradiction m.rowLength := by
    obtain ⟨n, hn⟩ := Nat.exists_eq_add_one_of_ne_zero m.rowLength_pos.ne'
    simp [hn, Row.zeros, contradiction, List.replicate_succ]
  have hwritten : setCell? ⟨m.space, m.nDiv, [Row.zeros m.rowLength], [], m.divs,
      ⟨m.flags.empty, false⟩⟩ .equality 0 0 1 = some ⟨m.space, m.nDiv, [contradiction m.rowLength],
        [], m.divs, ⟨m.flags.empty, false⟩⟩ := by
    refine setCell?_eq_some.mpr ⟨Row.zeros m.rowLength, rfl, ?_, ?_⟩
    · rw [Row.zeros, List.length_replicate]
      exact m.rowLength_pos
    · rw [hrow]
      rfl
  have hlength : ((m.withRows .equality []).withRows .inequality []).rowLength ≤
      Decimal.largestCount := h
  have hnone : ((m.withRows .equality []).withRows .inequality []).rows .equality = [] := rfl
  rw [setToEmpty64?, addZeroRow64?_eq .equality hlength, hcleared, hnone]
  simp only [List.length_nil, Option.bind_eq_bind, Option.bind_some, hwritten]
  rfl

theorem simplify64?_eq (hm : m.IsUniform) (h : m.rowLength ≤ Decimal.largestCount) :
    m.simplify64? = some m.simplify := by
  have hrow : ∀ c ∈ m.constraints, c.coeffs.normalize? c.kind =
      some (c.coeffs.normalize c.kind) := by
    intro c hc
    have hne := ne_nil_of_length (length_of_mem_constraints hm.rows c hc)
    rw [Row.normalize?, Row.ifRow, if_neg (by simpa using hne)]
  cases he : m.flags.empty with
  | true => simp [simplify64?, simplify, he]
  | false =>
    cases hi : m.hasInfeasibleRow with
    | true => simp [simplify64?, simplify, he, hi, mapM_eq_some hrow, setToEmpty64?_eq h]
    | false => simp [simplify64?, simplify, he, hi, mapM_eq_some hrow]

theorem complete64?_eq (hm : m.IsUniform) (h : m.rowLength ≤ Decimal.largestCount)
    (config : ReadConfig) : m.complete64? config = some (m.complete config) := by
  rw [complete64?, complete]
  split
  · simp [simplify64?_eq hm h]
  · simp

end BasicMap

namespace MapUnion

/-- Completes the parts of a union and joins them one after another. -/
def complete64? (u : MapUnion) (config : ReadConfig) : Option MapUnion := do
  let parts ← u.parts.mapM (·.complete64? config)
  parts.foldlM (fun joined m => (joined.union (.ofBasicMap m)).toOption) (.empty u.space)

theorem foldlM_union {space : Space} {parts : List BasicMap}
    (h : ∀ m ∈ parts, space.isCompatible m.space = true) (joined : List BasicMap) :
    parts.foldlM (fun (u : MapUnion) m => (u.union (.ofBasicMap m)).toOption) ⟨space, joined⟩ =
      some ⟨space, joined ++ parts.filter (!·.flags.empty)⟩ := by
  induction parts generalizing joined with
  | nil => simp
  | cons m parts ih =>
    rw [List.forall_mem_cons] at h
    have hone : (MapUnion.mk space joined).union (.ofBasicMap m) =
        .ok ⟨space, joined ++ [m].filter (!·.flags.empty)⟩ := by
      have hs : (MapUnion.ofBasicMap m).space = m.space := rfl
      rw [union, hs, if_pos h.1]
      cases hm : m.flags.empty <;> simp [ofBasicMap, hm]
    rw [List.foldlM_cons, hone]
    refine (ih h.2 _).trans ?_
    rw [List.append_assoc, ← List.filter_append, List.singleton_append]

theorem complete64?_eq {u : MapUnion} (config : ReadConfig)
    (h : ∀ m ∈ u.parts, m.IsUniform ∧ m.rowLength ≤ Decimal.largestCount ∧
      u.space.isCompatible m.space = true) :
    u.complete64? config = some (u.complete config) := by
  have hparts : ∀ m ∈ u.parts, m.complete64? config = some (m.complete config) :=
    fun m hm => BasicMap.complete64?_eq (h m hm).1 (h m hm).2.1 config
  have hspaces : ∀ m ∈ u.parts.map (·.complete config), u.space.isCompatible m.space = true := by
    intro m hm
    obtain ⟨d, hd, rfl⟩ := List.mem_map.mp hm
    rw [Reading.space_complete]
    exact (h d hd).2.2
  rw [complete64?, mapM_eq_some hparts]
  exact foldlM_union hspaces []

end MapUnion
end ConstraintText

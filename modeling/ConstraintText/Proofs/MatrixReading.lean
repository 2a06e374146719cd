import ConstraintText.Proofs.Drafts
import ConstraintText.Proofs.MatrixGrammar

/-!
# Matrices are read exactly by their grammar

Each state of the reading is done exactly where the grammar derives what is still missing: the other
entries of a row, by induction on their number, then the other rows of a matrix, then the other
matrices of the text. A text that begins with an integer is therefore read exactly where the grammar
derives tokens in front of it, and as what these mean.
-/
namespace ConstraintText

namespace Machine

variable {σ α : Type}

/-- The outcome of what a step has come to. -/
def resume (m : Machine σ α) (next : Next σ α) (ts : List Token) : Outcome α :=
  match next with
  | .go q => m.outcome q ts
  | .fail e => .failed e
  | .done value => .done value ts

theorem outcome_cons (m : Machine σ α) (q : σ) (t : Token) (ts : List Token) :
    m.outcome q (t :: ts) = m.resume (m.onToken q t).next
      (if (m.onToken q t).token = .take then ts else t :: ts) := by
  rw [outcome]
  split <;> rename_i hn <;> rw [hn]
  · rfl
  · rfl
  · dsimp only [resume]
    split <;> rfl

end Machine

namespace Matrix

variable {nParam dims : Nat} {job : Job} {progress : Progress} {kind : ConstraintKind}
  {t : Token} {ts rest : List Token} {u : MapUnion}

theorem outcome_entry {entries : List Int} {left : Nat} :
    machine.outcome ⟨nParam, .entry job progress kind entries left⟩ (t :: ts) = .done u rest ↔
      ∃ value, IsInteger t value ∧
        (if left ≤ 1 then machine.resume (afterRow nParam job ⟨progress.header, progress.dims,
          progress.rows ++ [⟨kind, arrange progress.dims nParam (entries ++ [value])⟩],
          progress.rowsLeft - 1⟩) ts
        else machine.outcome ⟨nParam, .entry job progress kind (entries ++ [value]) (left - 1)⟩
          ts) = .done u rest := by
  have hq : machine.onToken ⟨nParam, .entry job progress kind entries left⟩ t =
      onEntry nParam job progress kind entries left t := rfl
  rw [Machine.outcome_cons, hq]
  by_cases hk : t.kind = .integer
  · cases hv : t.value with
    | none => simp [onEntry, IsInteger, hk, hv, Move.fault, Machine.resume]
    | some value =>
      by_cases hl : left ≤ 1
      · simp [onEntry, IsInteger, hk, hv, hl]
      · simp [onEntry, IsInteger, hk, hv, hl, Move.take, Machine.resume]
  · simp [onEntry, IsInteger, hk, refuseEntry, Machine.resume]

theorem entries_iff {entries : List Int} {left : Nat} (hpos : 1 ≤ left) :
    machine.outcome ⟨nParam, .entry job progress kind entries left⟩ ts = .done u rest ↔
      ∃ values front back, ts = front ++ back ∧ List.Forall₂ IsInteger front values ∧
        values.length = left ∧
        machine.resume (afterRow nParam job ⟨progress.header, progress.dims,
          progress.rows ++ [⟨kind, arrange progress.dims nParam (entries ++ values)⟩],
          progress.rowsLeft - 1⟩) back = .done u rest := by
  induction left, hpos using Nat.le_induction generalizing entries ts with
  | base =>
    constructor
    · intro h
      obtain ⟨t, back, rfl⟩ := Machine.exists_cons_of_done h
      rw [outcome_entry] at h
      obtain ⟨value, hv, h⟩ := h
      rw [if_pos le_rfl] at h
      exact ⟨[value], [t], back, rfl, .cons hv .nil, rfl, h⟩
    · rintro ⟨values, front, back, rfl, hf, hlength, h⟩
      obtain ⟨value, rfl⟩ := List.length_eq_one_iff.mp hlength
      obtain ⟨t, front, hv, hvs, rfl⟩ := List.forall₂_cons_right_iff.mp hf
      obtain rfl := List.forall₂_nil_right_iff.mp hvs
      rw [List.cons_append, outcome_entry]
      exact ⟨value, hv, by rwa [if_pos le_rfl]⟩
  | succ left hpos ih =>
    have hleft : ¬ left + 1 ≤ 1 := by omega
    constructor
    · intro h
      obtain ⟨t, ts, rfl⟩ := Machine.exists_cons_of_done h
      rw [outcome_entry] at h
      obtain ⟨value, hv, h⟩ := h
      rw [if_neg hleft, Nat.add_sub_cancel, ih] at h
      obtain ⟨values, front, back, rfl, hf, hlength, h⟩ := h
      rw [List.append_assoc, List.singleton_append] at h
      exact ⟨value :: values, t :: front, back, rfl, .cons hv hf, by simp [hlength], h⟩
    · rintro ⟨values, front, back, rfl, hf, hlength, h⟩
      obtain ⟨value, values, rfl⟩ := List.exists_cons_of_length_eq_add_one hlength
      obtain ⟨t, front, hv, hvs, rfl⟩ := List.forall₂_cons_right_iff.mp hf
      rw [List.cons_append, outcome_entry]
      refine ⟨value, hv, ?_⟩
      rw [if_neg hleft, Nat.add_sub_cancel, ih]
      refine ⟨values, front, back, rfl, hvs, by simpa using hlength, ?_⟩
      rwa [List.append_assoc, List.singleton_append]

theorem kindOfType?_eq_some {value : Int} :
    kindOfType? value = some kind ↔ value = WrittenRow.type ⟨kind, [], [], 0⟩ := by
  unfold kindOfType? WrittenRow.type
  cases kind <;> grind

theorem exists_writtenRow (kind : ConstraintKind) {values : List Int}
    (h : values.length = dims + nParam + 1) :
    ∃ r : WrittenRow, r.kind = kind ∧ r.dims.length = dims ∧ r.params.length = nParam ∧
      r.entries = values := by
  obtain ⟨front, constant, rfl⟩ : ∃ front constant, values = front ++ [constant] :=
    (List.eq_nil_or_concat' values).resolve_left (by rintro rfl; simp at h)
  have hfront : front.length = dims + nParam := by simpa using h
  refine ⟨⟨kind, front.take dims, front.drop dims, constant⟩, rfl, ?_, ?_, ?_⟩
  · simp [hfront]
  · simp [hfront]
  · simp [WrittenRow.entries]

theorem arrange_entries (r : WrittenRow) (hd : r.dims.length = dims)
    (hp : r.params.length = nParam) :
    (⟨r.kind, arrange dims nParam r.entries⟩ : Constraint) = r.constraint := by
  have hboth : (r.dims ++ r.params).length = dims + nParam := by simp [hd, hp]
  have hconstant : r.entries.drop (dims + nParam) = [r.constant] := List.drop_left' hboth
  have hparams : (r.entries.drop dims).take nParam = r.params := by
    rw [WrittenRow.entries, List.append_assoc, List.drop_left' hd, List.take_left' hp]
  have hdims : r.entries.take dims = r.dims := by
    rw [WrittenRow.entries, List.append_assoc, List.take_left' hd]
  rw [arrange, hconstant, hparams, hdims]
  rfl

theorem outcome_rowType : machine.outcome ⟨nParam, .rowType job progress⟩ (t :: ts) = .done u rest ↔
    ∃ kind, IsInteger t (WrittenRow.type ⟨kind, [], [], 0⟩) ∧ t.onNewLine = true ∧
      machine.outcome ⟨nParam, .entry job progress kind [] (progress.dims + nParam + 1)⟩ ts =
        .done u rest := by
  have hq : machine.onToken ⟨nParam, .rowType job progress⟩ t =
      onRowType nParam job progress t := rfl
  rw [Machine.outcome_cons, hq]
  unfold onRowType
  by_cases hk : t.kind = .integer
  · by_cases hl : t.onNewLine = true
    · cases hv : t.value.bind kindOfType? with
      | none =>
        have hnone : ∀ kind, ¬ IsInteger t (WrittenRow.type ⟨kind, [], [], 0⟩) := by
          rintro kind ⟨-, hvalue⟩
          rw [hvalue, Option.bind_some, kindOfType?_eq_some.mpr rfl] at hv
          simp at hv
        simp [hk, hl, hnone, Move.refuse, Machine.resume]
      | some kind =>
        obtain ⟨value, hvalue, hkind⟩ := Option.bind_eq_some_iff.mp hv
        have hiff : ∀ kind', IsInteger t (WrittenRow.type ⟨kind', [], [], 0⟩) ↔
            kind' = kind := by
          intro kind'
          rw [IsInteger, hvalue, Option.some.injEq, ← kindOfType?_eq_some, hkind,
            Option.some.injEq]
          exact ⟨fun h => h.2.symm, fun h => ⟨hk, h.symm⟩⟩
        simp [hk, hl, hiff, Move.take, Machine.resume]
    · simp [hk, hl, Move.refuse, Machine.resume]
  · simp [hk, IsInteger, refuseEntry, Machine.resume]

/-- A row is a type that begins a line, and the entries that a row has. -/
theorem row_iff : machine.outcome ⟨nParam, .rowType job progress⟩ ts = .done u rest ↔
    ∃ r front back, ts = front ++ back ∧ DerivesRow nParam progress.dims r front ∧
      machine.resume (afterRow nParam job ⟨progress.header, progress.dims,
        progress.rows ++ [r.constraint], progress.rowsLeft - 1⟩) back = .done u rest := by
  constructor
  · intro h
    obtain ⟨t, ts, rfl⟩ := Machine.exists_cons_of_done h
    obtain ⟨kind, ht, hl, h⟩ := outcome_rowType.mp h
    obtain ⟨values, front, back, rfl, hf, hlength, h⟩ := (entries_iff (by omega)).mp h
    obtain ⟨r, rfl, hd, hp, rfl⟩ := exists_writtenRow kind hlength
    rw [List.nil_append, arrange_entries r hd hp] at h
    exact ⟨r, t :: front, back, rfl, .intro ht hl hd hp hf, h⟩
  · rintro ⟨r, front, back, rfl, ⟨ht, hl, hd, hp, hf⟩, h⟩
    refine outcome_rowType.mpr ⟨r.kind, ht, hl, (entries_iff (by omega)).mpr ?_⟩
    refine ⟨r.entries, _, back, rfl, hf, by rw [r.length_entries, hd, hp], ?_⟩
    rwa [List.nil_append, arrange_entries r hd hp]

/-- The rows of a matrix are as many as are missing. -/
theorem rows_iff : machine.resume (afterRow nParam job progress) ts = .done u rest ↔
    ∃ rs front back, ts = front ++ back ∧ DerivesRows nParam progress.dims rs front ∧
      rs.length = progress.rowsLeft ∧ machine.resume (afterMatrix nParam job ⟨progress.header,
        progress.dims, progress.rows ++ rs.map (·.constraint), 0⟩) back = .done u rest := by
  obtain ⟨header, dims, rows, left⟩ := progress
  induction left generalizing rows ts with
  | zero =>
    rw [afterRow, if_pos rfl]
    constructor
    · intro h
      exact ⟨[], [], ts, rfl, .nil, rfl, by rwa [List.map_nil, List.append_nil]⟩
    · rintro ⟨rs, front, back, rfl, hrs, hlength, h⟩
      obtain rfl := List.length_eq_zero_iff.mp hlength
      cases hrs
      rwa [List.map_nil, List.append_nil] at h
  | succ left ih =>
    have hgo : machine.resume (afterRow nParam job ⟨header, dims, rows, left + 1⟩) ts =
        machine.outcome ⟨nParam, .rowType job ⟨header, dims, rows, left + 1⟩⟩ ts := by
      rw [afterRow, if_neg (by simp)]
      rfl
    rw [hgo, row_iff]
    simp only [Nat.add_sub_cancel]
    constructor
    · rintro ⟨r, front, back, rfl, hr, h⟩
      obtain ⟨rs, fronts, back, rfl, hrs, hlength, h⟩ := (ih _).mp h
      refine ⟨r :: rs, front ++ fronts, back, (List.append_assoc _ _ _).symm, .cons hr hrs,
        by rw [List.length_cons, hlength], ?_⟩
      rwa [List.append_assoc, List.singleton_append] at h
    · rintro ⟨rs, front, back, rfl, hrs, hlength, h⟩
      cases hrs with
      | nil => simp at hlength
      | @cons r rs front fronts hr hrs =>
        refine ⟨r, front, fronts ++ back, List.append_assoc _ _ _, hr, (ih _).mpr ?_⟩
        refine ⟨rs, fronts, back, rfl, hrs, by simpa using hlength, ?_⟩
        rwa [List.append_assoc, List.singleton_append]

theorem rowLength_system (cs : List Constraint) (flags : Flags) :
    (system nParam dims cs flags).rowLength = 1 + (nParam + dims) := by
  simp [BasicMap.rowLength, BasicMap.totalDim, Space.totalDim, system, Space.unnamed]

theorem appendRow?_system (cs : List Constraint) {c : Constraint}
    (h : c.coeffs.length = 1 + (nParam + dims)) :
    (system nParam dims cs ⟨false, false⟩).appendRow? c.kind c.coeffs =
      some (system nParam dims (cs ++ [c]) ⟨false, false⟩) := by
  obtain ⟨kind, coeffs⟩ := c
  rw [BasicMap.appendRow?, if_pos (h.trans (rowLength_system cs _).symm)]
  cases kind <;> simp [BasicMap.addRow, BasicMap.withRows, BasicMap.reopened,
    BasicMap.withFlags, BasicMap.rows, system, rowsOf]

theorem build_eq {cs : List Constraint} (h : ∀ c ∈ cs, c.coeffs.length = 1 + (nParam + dims)) :
    build nParam dims cs = some (system nParam dims cs ⟨false, false⟩) := by
  induction cs using List.reverseRecOn with
  | nil => rfl
  | append_singleton cs c ih =>
    rw [List.forall_mem_append, List.forall_mem_singleton] at h
    have hbuild := ih h.1
    rw [build] at hbuild ⊢
    rw [List.foldlM_append, hbuild]
    simp [appendRow?_system cs h.2]

theorem count?_eq_ok {role : CountRole} {n : Nat} : count? role t = .ok n ↔ IsCount t n := by
  unfold count? IsCount IsInteger
  by_cases hk : t.kind = .integer
  · cases hv : t.value with
    | none => simp [hk]
    | some value =>
      have hlargest : (Decimal.largestCount : Int) = 2 ^ 64 - 1 := by decide
      simp only [hk, if_true, hlargest, true_and, Option.some.injEq]
      split
      · rw [Except.ok.injEq]
        omega
      · simp only [reduceCtorEq, false_iff]
        omega
  · simp [hk]

def Written.draft (nParam : Nat) (w : Written) : BasicMap :=
  system nParam (w.columns - 2 - nParam) w.constraints ⟨false, false⟩

def afterJoin (nParam dims following : Nat) (parts : List BasicMap) : Next State MapUnion :=
  match following with
  | 0 => .done ⟨.unnamed nParam 0 dims, parts⟩
  | following + 1 => .go ⟨nParam, .rowCount ⟨parts, following⟩⟩

/-- A matrix joins those before it if it has as many dimensions. -/
theorem afterMatrix_iff {header : Span} {cs : List Constraint} {left : Nat}
    (hl : ∀ c ∈ cs, c.coeffs.length = 1 + (nParam + dims))
    (hparts : ∃ d, ∀ m ∈ job.parts, m.space = .unnamed nParam 0 d) :
    machine.resume (afterMatrix nParam job ⟨header, dims, cs, left⟩) ts = .done u rest ↔
      (∀ m ∈ job.parts, m.space = .unnamed nParam 0 dims) ∧
        machine.resume (afterJoin nParam dims job.following
          (job.parts ++ [system nParam dims cs ⟨false, false⟩])) ts = .done u rest := by
  obtain ⟨d, hd⟩ := hparts
  obtain ⟨parts, following⟩ := job
  have hinj : ∀ {a b : Nat}, Space.unnamed nParam 0 a = Space.unnamed nParam 0 b ↔ a = b := by
    simp [Space.unnamed]
  obtain ⟨first, hfirst, hall⟩ : ∃ first,
      (parts.head?.getD (system nParam dims cs ⟨false, false⟩)).space = .unnamed nParam 0 first ∧
        ((∀ m ∈ parts, m.space = .unnamed nParam 0 dims) ↔ first = dims) := by
    cases parts with
    | nil => exact ⟨dims, rfl, by simp⟩
    | cons m parts =>
      refine ⟨d, hd m List.mem_cons_self, ?_, ?_⟩
      · intro h
        exact hinj.mp ((hd m List.mem_cons_self).symm.trans (h m List.mem_cons_self))
      · rintro rfl
        exact hd
  have hcompatible : (Space.unnamed nParam 0 first).isCompatible (.unnamed nParam 0 dims) = true ↔
      first = dims := by
    simp [Space.isCompatible, Space.unnamed]
  have hspace : (system nParam dims cs ⟨false, false⟩).space = .unnamed nParam 0 dims := rfl
  rw [afterMatrix, build_eq hl, hall]
  simp only [hfirst, hspace, hcompatible]
  by_cases he : first = dims
  · subst he
    cases following <;> simp [afterJoin]
  · simp [he, Machine.resume]

theorem onColumnCount_iff {rows : Token}
    (hparts : ∃ d, ∀ m ∈ job.parts, m.space = .unnamed nParam 0 d) :
    machine.resume (onColumnCount nParam job rows t).next ts = .done u rest ↔
      ∃ w front back, ts = front ++ back ∧ Derives nParam w (rows :: t :: front) ∧
        (∀ m ∈ job.parts, m.space = .unnamed nParam 0 (w.columns - 2 - nParam)) ∧
        machine.resume (afterJoin nParam (w.columns - 2 - nParam) job.following
          (job.parts ++ [w.draft nParam])) back = .done u rest := by
  constructor
  · intro h
    unfold onColumnCount at h
    split at h
    · simp [Move.refuse, Machine.resume] at h
    rename_i hl
    split at h
    · simp [Move.refuse, Machine.resume] at h
    rename_i n hn
    split at h
    · simp [Move.refuse, Machine.resume] at h
    rename_i columns hc
    split at h
    · simp [Move.refuse, Machine.resume] at h
    rename_i hle
    obtain ⟨rs, front, back, rfl, hrs, hlength, h⟩ := rows_iff.mp h
    have hlengths := hrs.constraint_mem
    obtain ⟨hsame, h⟩ := (afterMatrix_iff hlengths hparts).mp h
    refine ⟨⟨columns, rs⟩, front, back, rfl, ?_, hsame, h⟩
    have hcolumns : 2 + nParam ≤ columns := by omega
    exact .intro (hlength ▸ count?_eq_ok.mp hn) (count?_eq_ok.mp hc) (by simpa using hl)
      hcolumns hrs
  · rintro ⟨w, front, back, rfl, ⟨hr, hc, hl, hn, hrows⟩, hsame, h⟩
    have hle : ¬ w.columns < 2 + nParam := by omega
    have hnext : (onColumnCount nParam job rows t).next = afterRow nParam job
        ⟨rows.span, w.columns - 2 - nParam, [], w.rows.length⟩ := by
      simp [onColumnCount, hl, count?_eq_ok.mpr hr, count?_eq_ok.mpr hc, hle]
    rw [hnext, rows_iff]
    exact ⟨w.rows, front, back, rfl, hrows, rfl,
      (afterMatrix_iff hrows.constraint_mem hparts).mpr ⟨hsame, h⟩⟩

theorem matrix_iff (hparts : ∃ d, ∀ m ∈ job.parts, m.space = .unnamed nParam 0 d) :
    machine.outcome ⟨nParam, .rowCount job⟩ ts = .done u rest ↔
      ∃ w front back, ts = front ++ back ∧ Derives nParam w front ∧
        (∀ m ∈ job.parts, m.space = .unnamed nParam 0 (w.columns - 2 - nParam)) ∧
        machine.resume (afterJoin nParam (w.columns - 2 - nParam) job.following
          (job.parts ++ [w.draft nParam])) back = .done u rest := by
  have hstep : ∀ r c ts, machine.outcome ⟨nParam, .rowCount job⟩ (r :: c :: ts) =
      machine.resume (onColumnCount nParam job r c).next ts := by
    intro r c ts
    have htake : machine.onToken ⟨nParam, .rowCount job⟩ r =
        .take ⟨nParam, .columnCount job r⟩ := rfl
    have hcount : machine.onToken ⟨nParam, .columnCount job r⟩ c =
        onColumnCount nParam job r c := rfl
    rw [Machine.outcome_of_take htake, Machine.outcome_cons, hcount, token_onColumnCount,
      if_pos rfl]
  constructor
  · intro h
    obtain ⟨r, ts, rfl⟩ := Machine.exists_cons_of_done h
    have htake : machine.onToken ⟨nParam, .rowCount job⟩ r =
        .take ⟨nParam, .columnCount job r⟩ := rfl
    rw [Machine.outcome_of_take htake] at h
    obtain ⟨c, ts, rfl⟩ := Machine.exists_cons_of_done h
    rw [← Machine.outcome_of_take htake, hstep] at h
    obtain ⟨w, front, back, rfl, hw, hsame, h⟩ := (onColumnCount_iff hparts).mp h
    exact ⟨w, r :: c :: front, back, rfl, hw, hsame, h⟩
  · rintro ⟨w, front, back, rfl, hw, hsame, h⟩
    cases hw with
    | @intro r c front hr hc hl hn hrows =>
      refine (hstep r c _).trans ((onColumnCount_iff hparts).mpr ?_)
      exact ⟨w, front, back, rfl, .intro hr hc hl hn hrows, hsame, h⟩

/-- The matrices of a text are as many as are missing, and all have the dimensions of those that
have been read. -/
theorem matrices_iff {parts : List BasicMap} {following : Nat}
    (hparts : ∃ d, ∀ m ∈ parts, m.space = .unnamed nParam 0 d) :
    machine.outcome ⟨nParam, .rowCount ⟨parts, following⟩⟩ ts = .done u rest ↔
      ∃ columns ws front, ts = front ++ rest ∧ DerivesAll nParam columns ws front ∧
        ws.length = following + 1 ∧
        (∀ m ∈ parts, m.space = .unnamed nParam 0 (columns - 2 - nParam)) ∧
        u = ⟨.unnamed nParam 0 (columns - 2 - nParam), parts ++ ws.map (·.draft nParam)⟩ := by
  induction following generalizing parts ts with
  | zero =>
    rw [matrix_iff hparts]
    constructor
    · rintro ⟨w, front, back, rfl, hw, hsame, h⟩
      obtain ⟨rfl, rfl⟩ := Outcome.done.inj h
      exact ⟨w.columns, [w], front, rfl, by simpa using DerivesAll.cons hw rfl .nil, rfl, hsame,
        rfl⟩
    · rintro ⟨columns, ws, front, rfl, hws, hlength, hsame, rfl⟩
      obtain ⟨w, rfl⟩ := List.length_eq_one_iff.mp hlength
      cases hws with
      | cons hw hc hnil =>
        cases hnil
        subst hc
        exact ⟨w, _, rest, by rw [List.append_nil], hw, hsame, rfl⟩
  | succ following ih =>
    rw [matrix_iff hparts]
    have hjoined : ∀ {w : Written}, (∀ m ∈ parts, m.space =
        .unnamed nParam 0 (w.columns - 2 - nParam)) → ∀ m ∈ parts ++ [w.draft nParam],
          m.space = .unnamed nParam 0 (w.columns - 2 - nParam) := by
      intro w hsame m hm
      rcases List.mem_append.mp hm with hm | hm
      · exact hsame m hm
      · rw [List.mem_singleton.mp hm]
        rfl
    constructor
    · rintro ⟨w, front, back, rfl, hw, hsame, h⟩
      have hall := hjoined hsame
      obtain ⟨columns, ws, backs, rfl, hws, hlength, hsame', rfl⟩ := (ih ⟨_, hall⟩).mp h
      have hnew := hsame' (w.draft nParam) (List.mem_append_right _ (List.mem_singleton.mpr rfl))
      have hcolumns : w.columns = columns := by
        obtain ⟨hn, -⟩ := hw.columns_bounds
        obtain ⟨hle, -⟩ := hws.columns_bounds (List.ne_nil_of_length_eq_add_one hlength)
        have hdims : w.columns - 2 - nParam = columns - 2 - nParam := by
          simpa [Written.draft, system, Space.unnamed] using hnew
        omega
      subst hcolumns
      refine ⟨w.columns, w :: ws, front ++ backs, (List.append_assoc _ _ _).symm,
        .cons hw rfl hws, by rw [List.length_cons, hlength], hsame, ?_⟩
      rw [List.map_cons, List.append_assoc, List.singleton_append]
    · rintro ⟨columns, ws, front, rfl, hws, hlength, hsame, rfl⟩
      cases hws with
      | nil => simp at hlength
      | @cons w ws front fronts hw hc hws =>
        subst hc
        refine ⟨w, front, fronts ++ rest, List.append_assoc _ _ _, hw, hsame, ?_⟩
        refine (ih ⟨_, hjoined hsame⟩).mpr ⟨w.columns, ws, fronts, rfl, hws,
          by simpa using hlength, hjoined hsame, ?_⟩
        rw [List.map_cons, List.append_assoc, List.singleton_append]

theorem onToken_firstInteger (r : Token) : machine.onToken ⟨nParam, .firstInteger⟩ r =
    .take ⟨nParam, .secondInteger r⟩ := rfl

/-- Where the second integer is on the line of the first one, they are the counts of a matrix. -/
theorem outcome_single {r : Token} (hl : t.onNewLine = false) :
    machine.outcome ⟨nParam, .firstInteger⟩ (r :: t :: ts) =
      machine.resume (onColumnCount nParam ⟨[], 0⟩ r t).next ts := by
  have hq : machine.onToken ⟨nParam, .secondInteger r⟩ t = onColumnCount nParam ⟨[], 0⟩ r t :=
    if_neg (by simp [hl])
  rw [Machine.outcome_of_take (onToken_firstInteger r), Machine.outcome_cons, hq,
    token_onColumnCount, if_pos rfl]

theorem outcome_counted {r : Token} (hl : t.onNewLine = true) :
    machine.outcome ⟨nParam, .firstInteger⟩ (r :: t :: ts) = .done u rest ↔ ∃ n,
      IsCount r (n + 1) ∧
        machine.outcome ⟨nParam, .rowCount ⟨[], n⟩⟩ (t :: ts) = .done u rest := by
  have hq : machine.onToken ⟨nParam, .secondInteger r⟩ t = onSecondInteger nParam r t := rfl
  have hcount : ∀ n, IsCount r n ↔ count? .matrices r = .ok n := fun n => count?_eq_ok.symm
  rw [Machine.outcome_of_take (onToken_firstInteger r), Machine.outcome_cons, hq, onSecondInteger,
    if_pos hl]
  simp only [hcount]
  cases hn : count? .matrices r with
  | error problem => simp [Machine.resume]
  | ok n =>
    cases n with
    | zero => simp [Machine.resume]
    | succ n => simp [Machine.resume]

/-- A text of matrices is done exactly where the grammar derives tokens in front of the rest. -/
theorem outcome_iff :
    machine.outcome ⟨nParam, .firstInteger⟩ ts = .done u rest ↔
      ∃ columns ws front, ts = front ++ rest ∧ DerivesText nParam columns ws front ∧
        u = ⟨.unnamed nParam 0 (columns - 2 - nParam), ws.map (·.draft nParam)⟩ := by
  have hnone : ∃ d, ∀ m ∈ ([] : List BasicMap), m.space = .unnamed nParam 0 d :=
    ⟨0, by simp⟩
  constructor
  · intro h
    obtain ⟨r, ts, rfl⟩ := Machine.exists_cons_of_done h
    obtain ⟨t, ts, rfl⟩ : ∃ t ts', ts = t :: ts' := by
      rw [Machine.outcome_of_take (onToken_firstInteger r)] at h
      exact Machine.exists_cons_of_done h
    cases hl : t.onNewLine with
    | false =>
      rw [outcome_single hl] at h
      obtain ⟨w, front, back, rfl, hw, -, h⟩ := (onColumnCount_iff hnone).mp h
      obtain ⟨rfl, rfl⟩ := Outcome.done.inj h
      exact ⟨w.columns, [w], r :: t :: front, rfl, .single hw rfl, rfl⟩
    | true =>
      obtain ⟨n, hn, h⟩ := (outcome_counted hl).mp h
      obtain ⟨columns, ws, front, hts, hws, hlength, -, rfl⟩ := (matrices_iff hnone).mp h
      refine ⟨columns, ws, r :: front, by rw [List.cons_append, hts], ?_, rfl⟩
      refine .counted (hlength ▸ hn) (by omega) ?_ hws
      intro x hx
      obtain ⟨front', rfl⟩ := List.head?_eq_some_iff.mp hx
      rw [List.cons_append, List.cons.injEq] at hts
      rw [← hts.1, hl]
  · rintro ⟨columns, ws, front, rfl, hws, rfl⟩
    cases hws with
    | @single w front hw hc =>
      subst hc
      cases hw with
      | @intro r t front hr hcount hl hn hrows =>
        refine (outcome_single hl).trans ((onColumnCount_iff hnone).mpr ?_)
        exact ⟨w, front, rest, rfl, .intro hr hcount hl hn hrows, by simp, rfl⟩
    | @counted r ws front hn hpos hl hws =>
      obtain ⟨n, hlength⟩ : ∃ n, ws.length = n + 1 := ⟨ws.length - 1, by omega⟩
      obtain ⟨t, front, rfl⟩ : ∃ t front', front = t :: front' := by
        cases hws with
        | nil => simp at hlength
        | cons hw _ _ =>
          cases hw
          exact ⟨_, _, rfl⟩
      refine (outcome_counted (hl t rfl)).mpr ⟨n, hlength ▸ hn, (matrices_iff hnone).mpr ?_⟩
      exact ⟨columns, ws, t :: front, rfl, hws, hlength, by simp, rfl⟩

/-- Drafts that are not simplified are finished as they are, and all of them are kept. -/
theorem complete_drafts (columns : Nat) (ws : List Written) {config : ReadConfig}
    (h : config.simplify = false) :
    MapUnion.complete ⟨.unnamed nParam 0 (columns - 2 - nParam), ws.map (·.draft nParam)⟩ config =
      union nParam columns ws := by
  have hmeaning : ∀ w : Written, (w.draft nParam).complete config = w.meaning nParam := by
    intro w
    rw [BasicMap.complete, h]
    rfl
  have hkept : ∀ m ∈ ws.map (·.meaning nParam), (!m.flags.empty) = true := by
    intro m hm
    obtain ⟨w, -, rfl⟩ := List.mem_map.mp hm
    rfl
  simp only [MapUnion.complete, List.map_map, Function.comp_def, hmeaning, union]
  rw [List.filter_eq_self.mpr hkept]

end Matrix

namespace Reading

theorem readMap_ok_iff_derives {config : ReadConfig} {wanted : Option Nat} {s : TokenStream}
    (hi : s.beginsWithInteger = true) (hc : config.simplify = false) {u : MapUnion}
    {rest : List Token} :
    (readMap config wanted s).result = .ok u ∧ (readMap config wanted s).stream.tokens = rest ↔
      ∃ columns ws ts, s.tokens = ts ++ rest ∧
        Matrix.DerivesText (wanted.getD 0) columns ws ts ∧
        u = Matrix.union (wanted.getD 0) columns ws := by
  obtain ⟨s', hs', hread⟩ := drafts_of_matrices wanted hi
  have hagrees := Matrix.machine.run_agrees s' ⟨wanted.getD 0, .firstInteger⟩
  have hstream : (readMap config wanted s).stream =
      (Matrix.machine.run s' ⟨wanted.getD 0, .firstInteger⟩).stream :=
    (readMap_eq_drafts config wanted s).2.trans (congrArg Reading.stream hread)
  rw [hs'] at hagrees
  constructor
  · rintro ⟨hok, rfl⟩
    obtain ⟨v, hv, rfl⟩ := readMap_ok_iff_drafts.mp hok
    rw [hread] at hv
    obtain ⟨rest, ho⟩ := Machine.run_ok_iff.mp hv
    rw [hs'] at ho
    rw [ho] at hagrees
    obtain ⟨columns, ws, front, hts, hd, rfl⟩ := Matrix.outcome_iff.mp ho
    refine ⟨columns, ws, front, ?_, hd, Matrix.complete_drafts columns ws hc⟩
    rw [hstream, hagrees.2, hts]
  · rintro ⟨columns, ws, ts, hts, hd, rfl⟩
    have ho := Matrix.outcome_iff.mpr ⟨columns, ws, ts, hts, hd, rfl⟩
    rw [ho] at hagrees
    have hdrafts := (congrArg Reading.result hread).trans hagrees.1
    refine ⟨readMap_ok_iff_drafts.mpr ⟨_, hdrafts, Matrix.complete_drafts columns ws hc⟩, ?_⟩
    rw [hstream, hagrees.2]

/-- A text that begins with an integer is read exactly where the grammar of matrices derives tokens
in front of it, as what they mean, and up to their end. These are as many as the counts announce,
so a matrix whose counts the text cannot supply is never read. -/
theorem readMap_matrices (wanted : Option Nat) {source : String}
    (hi : (TokenStream.ofString source).beginsWithInteger = true) (rejectTrailing : Bool) :
    let reading := readMap ⟨false, rejectTrailing⟩ wanted (.ofString source)
    let nParam := wanted.getD 0
    (∀ u rest, reading.result = .ok u ∧ reading.stream.tokens = rest ↔
      ∃ columns ws ts, (TokenStream.ofString source).tokens = ts ++ rest ∧
        Matrix.DerivesText nParam columns ws ts ∧ u = Matrix.union nParam columns ws) ∧
    (∀ columns ws ts, Matrix.DerivesText nParam columns ws ts →
      ts.length = Matrix.lead ts + (ws.map Matrix.Written.size).sum) ∧
    (∀ (rows second : Token) ts (n k : Nat),
      (TokenStream.ofString source).tokens = rows :: second :: ts → second.onNewLine = false →
        Matrix.IsInteger rows n → Matrix.IsInteger second k → ts.length < n * k →
          ∀ u, reading.result ≠ .ok u) := by
  intro reading nParam
  have hiff : ∀ u rest, reading.result = .ok u ∧ reading.stream.tokens = rest ↔
      ∃ columns ws ts, (TokenStream.ofString source).tokens = ts ++ rest ∧
        Matrix.DerivesText nParam columns ws ts ∧ u = Matrix.union nParam columns ws :=
    fun u rest => readMap_ok_iff_derives hi rfl
  refine ⟨hiff, fun columns ws ts hd => hd.length, ?_⟩
  intro rows second ts n k hts hl hn hk hshort u hok
  obtain ⟨columns, ws, front, hfront, hd, -⟩ := (hiff u _).mp ⟨hok, rfl⟩
  have hsupply := hd.supply (hfront.symm.trans hts) hl hn hk
  omega

/-- Two matrices that are announced, the second one without rows and with something behind it. A
matrix of three rows that gives only one is not read. -/
theorem readMap_matrices_two :
    (∃ columns ws ts rest,
      (TokenStream.ofString "2 # sets\n1 4\n1 1 -1\n 3\n0 4 \x7d 5").tokens = ts ++ rest ∧
        Matrix.DerivesText 1 columns ws ts ∧ rest.length = 2 ∧
        ts.length = Matrix.lead ts + (ws.map Matrix.Written.size).sum ∧
        Matrix.union 1 columns ws = ⟨.unnamed 1 0 1,
          [⟨.unnamed 1 0 1, 0, [], [[3, -1, 1]], [], ⟨false, true⟩⟩,
            ⟨.unnamed 1 0 1, 0, [], [], [], ⟨false, true⟩⟩]⟩) ∧
      ∀ u, (readMap ⟨false, true⟩ none (.ofString "3 4\n0 1 2 5")).result ≠ .ok u := by
  constructor
  · have hi : (TokenStream.ofString
        "2 # sets\n1 4\n1 1 -1\n 3\n0 4 \x7d 5").beginsWithInteger = true := by cbv
    obtain ⟨hiff, hlength, -⟩ := readMap_matrices (some 1) hi true
    obtain ⟨columns, ws, ts, hts, hd, hu⟩ := (hiff _ _).mp ⟨by cbv, rfl⟩
    exact ⟨columns, ws, ts, _, hts, hd, by cbv, hlength columns ws ts hd, hu.symm⟩
  · have hi : (TokenStream.ofString "3 4\n0 1 2 5").beginsWithInteger = true := by cbv
    obtain ⟨-, -, hshort⟩ := readMap_matrices none hi true
    refine hshort _ _ _ 3 4 (by cbv) ?_ ?_ ?_ ?_
    · rfl
    · exact ⟨rfl, rfl⟩
    · exact ⟨rfl, rfl⟩
    · decide

end Reading
end ConstraintText

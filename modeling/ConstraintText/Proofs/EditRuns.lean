import ConstraintText.Proofs.Edits

/-!
# Systems under edits

A system begins without rows or as the contradiction, and edits change it one after another.
Whatever the edits are, it stays uniform, and what is known of its emptiness was found by one of
them or at the beginning. Readers build their systems by such edits, so the systems they give are
uniform and hold nowhere where they are known to be empty.
-/
namespace ConstraintText
namespace BasicMap

/-- How a system begins. -/
inductive Origin
  | withExistentials (space : Space) (extra : Nat)
  | unconstrained (space : Space)
  | empty (space : Space)
  deriving DecidableEq, Repr

namespace Origin

def space : Origin → Space
  | withExistentials space _ => space
  | unconstrained space => space
  | empty space => space

def extra : Origin → Nat
  | withExistentials _ extra => extra
  | _ => 0

def system : Origin → BasicMap
  | withExistentials space extra => .withExistentials space extra
  | unconstrained space => .unconstrained space
  | empty space => .empty space

/-- The system behind some edits, one after another. -/
def run? (o : Origin) (es : List Edit) : Option BasicMap :=
  es.foldlM (fun m e => e.perform? m) o.system

/-- Whether it is just behind these edits that the system is made known to be empty: from its
beginning, or by the last of them. -/
def Empties (o : Origin) (es : List Edit) : Prop :=
  (es = [] ∧ o.system.flags.empty = true) ∨
    ∃ front e m m', es = front ++ [e] ∧ o.run? front = some m ∧ e.perform? m = some m' ∧
      m'.flags.empty = true ∧ (m.flags.empty = false ∨ e = .setToEmpty)

variable {o : Origin} {es before after : List Edit} {m m' : BasicMap}

theorem run?_append : o.run? (before ++ after) = some m' ↔
    ∃ m, o.run? before = some m ∧ after.foldlM (fun m e => e.perform? m) m = some m' := by
  rw [run?, List.foldlM_append, Option.bind_eq_bind, Option.bind_eq_some_iff]
  rfl

theorem run?_concat {e : Edit} : o.run? (es ++ [e]) = some m' ↔
    ∃ m, o.run? es = some m ∧ e.perform? m = some m' := by
  simp only [run?_append, List.foldlM_cons, List.foldlM_nil, Option.bind_eq_bind,
    Option.pure_def, Option.bind_fun_some]

/-- What holds at the beginning and is kept by each edit holds behind any edits. -/
theorem run?_induction {P : List Edit → BasicMap → Prop} (start : P [] o.system)
    (step : ∀ es e m m', o.run? es = some m → P es m → e.perform? m = some m' → P (es ++ [e]) m')
    (h : o.run? es = some m) : P es m := by
  induction es using List.reverseRecOn generalizing m with
  | nil => exact Option.some.inj h ▸ start
  | append_singleton es e ih =>
    obtain ⟨m₀, hr, ha⟩ := run?_concat.mp h
    exact step es e m₀ m hr (ih hr) ha

theorem isUniform_system (o : Origin) : o.system.IsUniform := by
  cases o with
  | withExistentials space extra => exact (isUniform_unconstrained space).extend extra
  | unconstrained space => exact isUniform_unconstrained space
  | empty space => exact isUniform_empty space

theorem isUniform_of_run? (h : o.run? es = some m) : m.IsUniform :=
  run?_induction (P := fun _ m => m.IsUniform) o.isUniform_system
    (fun _ _ _ _ _ hm ha => Edit.isUniform_of_perform? hm ha) h

theorem space_nDiv_of_run? (h : o.run? es = some m) :
    m.space = o.space ∧ m.nDiv = o.extra + (es.map Edit.extra).sum := by
  refine run?_induction (P := fun es m => m.space = o.space ∧
    m.nDiv = o.extra + (es.map Edit.extra).sum) ?_ ?_ h
  · cases o with
    | withExistentials space extra =>
      have hn : (BasicMap.withExistentials space extra).nDiv = 0 + extra := nDiv_extend _ _
      exact ⟨space_extend _ _, hn.trans (Nat.zero_add extra)⟩
    | unconstrained space => exact ⟨rfl, rfl⟩
    | empty space => exact ⟨rfl, rfl⟩
  · intro es e m m' _ ⟨hs, hn⟩ ha
    obtain ⟨hs', hn'⟩ := Edit.space_nDiv_of_perform? ha
    refine ⟨hs'.trans hs, ?_⟩
    rw [hn', hn, List.map_append, List.sum_append, List.map_singleton, List.sum_singleton,
      Nat.add_assoc]

theorem isContradictory_system (h : o.system.flags.empty = true) : o.system.IsContradictory := by
  cases o with
  | withExistentials space extra =>
    rw [system, BasicMap.withExistentials, flags_empty_extend] at h
    exact absurd h (by simp [BasicMap.unconstrained])
  | unconstrained space => exact absurd h (by simp [system, BasicMap.unconstrained])
  | empty space => exact isContradictory_setToEmpty _

/-- A system that is made known to be empty is known to be so and has the contradiction. -/
theorem Empties.spec (h : o.Empties es) (hr : o.run? es = some m) :
    m.flags.empty = true ∧ m.IsContradictory := by
  rcases h with ⟨rfl, he⟩ | ⟨front, e, m₀, m₁, rfl, hfront, ha, he, hnew⟩
  · obtain rfl := Option.some.inj hr
    exact ⟨he, isContradictory_system he⟩
  · obtain ⟨m₀', hfront', ha'⟩ := run?_concat.mp hr
    obtain rfl := Option.some.inj (hfront.symm.trans hfront')
    obtain rfl := Option.some.inj (ha.symm.trans ha')
    exact ⟨he, Edit.isContradictory_of_perform? ha he hnew⟩

theorem empty_of_empties (he : o.Empties before) (h : o.run? (before ++ after) = some m) :
    m.flags.empty = true := by
  induction after using List.reverseRecOn generalizing m with
  | nil =>
    rw [List.append_nil] at h
    exact (he.spec h).1
  | append_singleton after e ih =>
    rw [← List.append_assoc] at h
    obtain ⟨m₀, hr, ha⟩ := run?_concat.mp h
    exact (Edit.empty_of_perform? ha).mpr (.inl (ih hr))

/-- A system is known to be empty only since it was made so. -/
theorem empty_iff_empties (h : o.run? es = some m) : m.flags.empty = true ↔
    ∃ before after, es = before ++ after ∧ o.Empties before := by
  constructor
  · refine run?_induction (P := fun es m => m.flags.empty = true →
      ∃ before after, es = before ++ after ∧ o.Empties before) ?_ ?_ h
    · intro he
      exact ⟨[], [], rfl, .inl ⟨rfl, he⟩⟩
    · intro es e m m' hr ih ha he
      cases hm : m.flags.empty with
      | true =>
        obtain ⟨before, after, rfl, hb⟩ := ih hm
        exact ⟨before, after ++ [e], List.append_assoc _ _ _, hb⟩
      | false => exact ⟨es ++ [e], [], (List.append_nil _).symm,
          .inr ⟨es, e, m, m', rfl, hr, ha, he, .inl hm⟩⟩
  · rintro ⟨before, after, rfl, hb⟩
    exact empty_of_empties hb h

theorem isContradictory_of_empties (he : o.Empties before)
    (hw : ∀ e ∈ after, e.writes = false) (h : o.run? (before ++ after) = some m) :
    m.IsContradictory := by
  induction after using List.reverseRecOn generalizing m with
  | nil =>
    rw [List.append_nil] at h
    exact (he.spec h).2
  | append_singleton after e ih =>
    rw [← List.append_assoc] at h
    obtain ⟨m₀, hr, ha⟩ := run?_concat.mp h
    have hfront : ∀ e' ∈ after, e'.writes = false :=
      fun e' he' => hw e' (List.mem_append_left _ he')
    have hlast : e.writes = false := hw e (List.mem_append_right _ (List.mem_singleton.mpr rfl))
    exact (ih hfront hr).of_perform? (isUniform_of_run? hr) (empty_of_empties he hr) hlast ha

end Origin

/-- Uniform rows, and the contradiction among them where the system is known to be empty. -/
structure IsCoherent (m : BasicMap) : Prop where
  isUniform : m.IsUniform
  isContradictory : m.flags.empty = true → m.IsContradictory

theorem IsCoherent.finalize {m : BasicMap} (h : m.IsCoherent) : m.finalize.IsCoherent :=
  ⟨⟨h.isUniform.rows, h.isUniform.divs⟩, h.isContradictory⟩

theorem isCoherent_empty (space : Space) : (BasicMap.empty space).IsCoherent :=
  ⟨isUniform_empty space, fun _ => isContradictory_setToEmpty _⟩

theorem IsDraft.isCoherent_complete {m : BasicMap} (h : m.IsDraft) (config : ReadConfig) :
    (m.complete config).IsCoherent := by
  have hflag : m.flags.empty = false := by rw [h.flags]
  rw [complete]
  refine IsCoherent.finalize ?_
  split
  · exact ⟨h.isUniform.simplify, fun he =>
      Edit.isContradictory_of_perform? (e := .simplify) rfl he (.inl hflag)⟩
  · exact ⟨h.isUniform, fun he => absurd he (by rw [hflag]; decide)⟩

end BasicMap

namespace Reading

theorem result_of_fromText {α : Type} {config : ReadConfig} {read : TokenStream → Reading α}
    {source : String} {a : α} (h : (fromText config read source).result = .ok a) :
    (read (.ofString source)).result = .ok a := by
  rw [fromText, bind_ok_iff] at h
  obtain ⟨value, hread, h⟩ := h
  obtain ⟨_, -, h⟩ := bind_ok_iff.mp h
  exact Except.ok.inj h ▸ hread

theorem isCoherent_of_readMap {config : ReadConfig} {wanted : Option Nat} {s : TokenStream}
    {u : MapUnion} (h : (readMap config wanted s).result = .ok u) :
    ∀ m ∈ u.parts, m.IsCoherent := by
  intro m hm
  obtain ⟨v, hv, rfl⟩ := readMap_ok_iff_drafts.mp h
  obtain ⟨d, hd, rfl⟩ := List.mem_map.mp (List.mem_of_mem_filter hm)
  exact (isDraft_of_drafts hv d hd).isCoherent_complete config

theorem isCoherent_of_readBasicMap {config : ReadConfig} {wanted : Option Nat} {s : TokenStream}
    {m : BasicMap} (h : (readBasicMap config wanted s).result = .ok m) : m.IsCoherent := by
  obtain ⟨u, hu, honly⟩ := bind_ok_iff.mp h
  unfold onlyPart at honly
  split at honly
  · obtain rfl := Except.ok.inj honly
    exact (BasicMap.isCoherent_empty u.space).finalize
  · rename_i part hpart
    obtain rfl := Except.ok.inj honly
    exact isCoherent_of_readMap hu _ (by rw [hpart]; exact List.mem_singleton_self _)
  · simp [error] at honly

end Reading

namespace Object

/-- The systems inside an object. -/
def basicMaps : Object → List BasicMap
  | basicMap m => [m]
  | basicSet s => [s.toBasicMap]
  | map u => u.parts
  | set s => s.toMapUnion.parts
  | vector _ => []

theorem isCoherent_of_read {kind : ObjectKind} {config : ReadConfig} {wanted : Option Nat}
    {format : Format} {source : String} {object : Object}
    (h : (read kind config wanted format source).1 = .ok object) :
    ∀ m ∈ object.basicMaps, m.IsCoherent := by
  have hmap : ∀ {α : Type} {make : α → Object} {result : Except ReadError α},
      result.map make = .ok object → ∃ value, result = .ok value ∧ make value = object := by
    intro α make result h
    cases result with
    | error e => simp [Except.map] at h
    | ok value => exact ⟨value, rfl, Except.ok.inj h⟩
  cases kind with
  | basicMap =>
    obtain ⟨m, hr, rfl⟩ := hmap h
    have hm := Reading.isCoherent_of_readBasicMap (Reading.result_of_fromText hr)
    simpa [basicMaps] using hm
  | basicSet =>
    obtain ⟨set, hr, rfl⟩ := hmap h
    obtain ⟨m, hm, hset⟩ := Reading.bind_ok_iff.mp (Reading.result_of_fromText hr)
    have hm := Reading.isCoherent_of_readBasicMap hm
    split at hset
    · rename_i heq
      obtain rfl := Except.ok.inj hset
      unfold BasicSet.ofBasicMap? at heq
      split at heq
      · obtain rfl := Option.some.inj heq
        simpa [basicMaps] using hm
      · simp at heq
    · simp [Reading.error] at hset
  | map =>
    obtain ⟨u, hr, rfl⟩ := hmap h
    exact Reading.isCoherent_of_readMap (Reading.result_of_fromText hr)
  | set =>
    obtain ⟨set, hr, rfl⟩ := hmap h
    obtain ⟨u, hu, hset⟩ := Reading.bind_ok_iff.mp (Reading.result_of_fromText hr)
    have hu := Reading.isCoherent_of_readMap hu
    split at hset
    · rename_i heq
      obtain rfl := Except.ok.inj hset
      unfold SetUnion.ofMapUnion? at heq
      split at heq
      · obtain rfl := Option.some.inj heq
        exact hu
      · simp at heq
    · simp [Reading.error] at hset
  | vector =>
    obtain ⟨v, -, rfl⟩ := hmap h
    simp [basicMaps]

end Object

namespace BasicMap

/-- Behind any edits, rows and definitions have the length that the columns give, the space is the
first one, and existentials come by extension alone, as zeros at the end of each row. A system is
known to be empty just where an edit made it so, and unless a row was overwritten since then it has
the contradiction and holds nowhere. The systems that readers give are uniform and hold nowhere
where they are known to be empty. -/
theorem invariants_of_edits_and_readers :
    (∀ (o : Origin) (es : List Edit) (m : BasicMap), o.run? es = some m →
      (m.IsUniform ∧ m.space = o.space ∧ m.nDiv = o.extra + (es.map Edit.extra).sum) ∧
      (∀ e : Edit, (e.perform? m).isSome = true ↔ e.InRange m) ∧
      (∀ (e : Edit) m', e.perform? m = some m' → m'.space = m.space ∧ m'.nDiv = m.nDiv + e.extra) ∧
      (∀ extra kind, (m.extend extra).rows kind = (m.rows kind).map (· ++ Row.zeros extra)) ∧
      (m.flags.empty = true ↔ ∃ before after, es = before ++ after ∧ o.Empties before) ∧
      (∀ before after, es = before ++ after → o.Empties before →
        (∀ e ∈ after, e.writes = false) → m.IsContradictory ∧ ∀ point, ¬ m.Satisfies point)) ∧
    (∀ kind config wanted format source object,
      (Object.read kind config wanted format source).1 = .ok object → ∀ m ∈ object.basicMaps,
        m.IsUniform ∧
          (m.flags.empty = true → m.IsContradictory ∧ ∀ point, ¬ m.Satisfies point)) := by
  constructor
  · intro o es m h
    have huniform := Origin.isUniform_of_run? h
    refine ⟨⟨huniform, Origin.space_nDiv_of_run? h⟩, fun e => Edit.isSome_perform?_iff e huniform,
      fun e m' ha => Edit.space_nDiv_of_perform? ha, fun extra => (huniform.extend_rows extra).1,
      Origin.empty_iff_empties h, ?_⟩
    rintro before after rfl hempties hw
    have hc := Origin.isContradictory_of_empties hempties hw h
    exact ⟨hc, hc.not_satisfies⟩
  · intro kind config wanted format source object h m hm
    have hcoherent := Object.isCoherent_of_read h m hm
    refine ⟨hcoherent.isUniform, fun he => ?_⟩
    have hc := hcoherent.isContradictory he
    exact ⟨hc, hc.not_satisfies⟩

/-- A row that never holds empties a system, which then gains existentials and a row. Read with
simplification, a set of no points is known to be empty as well. -/
theorem invariants_of_emptied_systems :
    let es : List Edit := [.addZeroRow .inequality, .setRow .inequality 0 [-1, 0, 0, 0],
      .toEquality 0, .simplify, .extend 2, .addZeroRow .equality]
    (∃ m, (Origin.withExistentials (.unnamed 1 0 1) 1).run? es = some m ∧ m.IsUniform ∧
      m.equalities = [[1, 0, 0, 0, 0, 0], [0, 0, 0, 0, 0, 0]] ∧ m.nDiv = 3 ∧
        ∀ point, ¬ m.Satisfies point) ∧
    ∃ m, (Object.read .basicMap .standard none .isl "\x7b [i] : 2i = 1 \x7d").1 =
      .ok (.basicMap m) ∧ m.IsUniform ∧ ∀ point, ¬ m.Satisfies point := by
  intro es
  obtain ⟨hedits, hreaders⟩ := invariants_of_edits_and_readers
  constructor
  · have hrun : (Origin.withExistentials (.unnamed 1 0 1) 1).run? es =
        some ⟨.unnamed 1 0 1, 3, [[1, 0, 0, 0, 0, 0], [0, 0, 0, 0, 0, 0]], [],
          [Row.zeros 7, Row.zeros 7, Row.zeros 7], ⟨true, false⟩⟩ := by cbv
    have hempties : (Origin.withExistentials (.unnamed 1 0 1) 1).Empties (es.take 4) := by
      refine .inr ⟨es.take 3, .simplify, _, _, rfl, rfl, rfl, ?_, .inl ?_⟩
      · cbv
      · cbv
    obtain ⟨⟨huniform, -, -⟩, -, -, -, -, hempty⟩ := hedits _ _ _ hrun
    have hnowhere := (hempty (es.take 4) (es.drop 4) rfl hempties (by decide)).2
    exact ⟨_, hrun, huniform, rfl, rfl, hnowhere⟩
  · have hread : (Object.read .basicMap .standard none .isl "\x7b [i] : 2i = 1 \x7d").1 =
        .ok (.basicMap ⟨⟨0, 0, 1, [], [], [some "i"]⟩, 0, [[1, 0]], [], [], ⟨true, true⟩⟩) := by
      cbv
    obtain ⟨huniform, hempty⟩ := hreaders _ _ _ _ _ _ hread _ (List.mem_singleton.mpr rfl)
    exact ⟨_, hread, huniform, (hempty rfl).2⟩

end BasicMap
end ConstraintText

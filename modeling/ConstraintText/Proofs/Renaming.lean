import ConstraintText.Proofs.Diagnostics
import ConstraintText.Proofs.Simulation

/-!
# Formulas under other names

If the names of a formula are replaced by others, each by one of its own, then what is read of it is
the same up to the names: a name is found where the name that it replaces was found. Where the
formula stands does not matter either. So a reading goes through states that differ in their names
and in the one span that they keep.
-/
namespace ConstraintText

/-- The space whose dimensions have other names. -/
def Space.mapNames (r : String → String) (s : Space) : Space :=
  ⟨s.nParam, s.nIn, s.nOut, s.paramNames.map (Option.map r), s.inNames.map (Option.map r),
    s.outNames.map (Option.map r)⟩

namespace Names

def map (r : String → String) (ns : Names) : Names := ⟨ns.toList.map r⟩

variable {r : String → String} {S : Set String} {ns : Names} {name : String}

@[simp] theorem size_map (r : String → String) (ns : Names) : (ns.map r).size = ns.size := by
  simp [size, map]

theorem mem_map_iff (hr : S.InjOn r) (hns : ∀ n ∈ ns.toList, n ∈ S) (hname : name ∈ S) :
    r name ∈ (ns.map r).toList ↔ name ∈ ns.toList := by
  rw [map, List.mem_map]
  constructor
  · rintro ⟨n, hn, he⟩
    exact hr (hns n hn) hname he ▸ hn
  · exact fun h => ⟨name, h, rfl⟩

theorem position?_map (hr : S.InjOn r) (hns : ∀ n ∈ ns.toList, n ∈ S) (hname : name ∈ S) :
    (ns.map r).position? (r name) = ns.position? name := by
  obtain ⟨names⟩ := ns
  change (names.map r).idxOf? (r name) = names.idxOf? name
  induction names with
  | nil => rfl
  | cons n names ih =>
    obtain ⟨hn, hnames⟩ := List.forall_mem_cons.mp hns
    rw [List.map_cons, List.idxOf?_cons, List.idxOf?_cons, ih hnames]
    have heq : (r n == r name) = (n == name) := by
      rw [Bool.eq_iff_iff, beq_iff_eq, beq_iff_eq]
      exact hr.eq_iff hn hname
    rw [heq]

theorem insert_map (hr : S.InjOn r) (hns : ∀ n ∈ ns.toList, n ∈ S) (hname : name ∈ S) :
    (ns.map r).insert (r name) = (ns.insert name).map r := by
  unfold insert
  rw [if_congr (mem_map_iff hr hns hname) rfl rfl]
  split
  · rfl
  · simp [map]

theorem mem_of_mem_insert (hns : ∀ n ∈ ns.toList, n ∈ S) (hname : name ∈ S) :
    ∀ n ∈ (ns.insert name).toList, n ∈ S := by
  unfold insert
  split
  · exact hns
  · intro n hn
    rcases List.mem_append.mp hn with hn | hn
    · exact hns n hn
    · exact List.mem_singleton.mp hn ▸ hname

theorem slice_map (r : String → String) (ns : Names) (start n : Nat) :
    (ns.map r).slice start n = (ns.slice start n).map (Option.map r) := by
  simp [slice, name?, map]

@[simp] theorem toSpace_map (r : String → String) (ns : Names) (nParam nIn nOut : Nat) :
    (ns.map r).toSpace nParam nIn nOut = (ns.toSpace nParam nIn nOut).mapNames r := by
  simp [toSpace, slice_map, Space.mapNames]

end Names

namespace BasicMap

def mapNames (r : String → String) (m : BasicMap) : BasicMap :=
  ⟨m.space.mapNames r, m.nDiv, m.equalities, m.inequalities, m.divs, m.flags⟩

variable (r : String → String) (m : BasicMap)

@[simp] theorem rowLength_mapNames : (m.mapNames r).rowLength = m.rowLength := rfl

@[simp] theorem flags_mapNames : (m.mapNames r).flags = m.flags := rfl

@[simp] theorem extend_mapNames (extra : Nat) :
    (m.mapNames r).extend extra = (m.extend extra).mapNames r := by
  unfold extend
  split <;> rfl

@[simp] theorem appendRow?_mapNames (kind : ConstraintKind) (row : Row) :
    (m.mapNames r).appendRow? kind row = (m.appendRow? kind row).map (mapNames r) := by
  unfold appendRow?
  rw [rowLength_mapNames]
  split
  · cases kind <;> rfl
  · rfl

@[simp] theorem simplify_mapNames : (m.mapNames r).simplify = m.simplify.mapNames r := by
  unfold simplify
  repeat' split
  all_goals first
    | rfl
    | contradiction

theorem complete_mapNames (config : ReadConfig) :
    (m.mapNames r).complete config = (m.complete config).mapNames r := by
  unfold complete
  split
  · rw [simplify_mapNames]
    rfl
  · rfl

end BasicMap

namespace MapUnion

/-- The union whose dimensions have other names, in its space and in the spaces of its parts. -/
def mapNames (r : String → String) (u : MapUnion) : MapUnion :=
  ⟨u.space.mapNames r, u.parts.map (·.mapNames r)⟩

theorem complete_mapNames (r : String → String) (u : MapUnion) (config : ReadConfig) :
    (u.mapNames r).complete config = (u.complete config).mapNames r := by
  simp [complete, mapNames, List.filter_map, Function.comp_def, BasicMap.complete_mapNames]

end MapUnion

/-- Whether a token reads as another one under other names: what it is does not depend on its place,
nor on how an integer is written. -/
structure Token.IsRenamed (r : String → String) (t t' : Token) : Prop where
  kind : t'.kind = t.kind
  value : t.kind = .integer → t'.value = t.value
  name : t.kind = .identifier → t'.lexeme = r t.lexeme

instance (r : String → String) (t t' : Token) : Decidable (t.IsRenamed r t') :=
  decidable_of_iff (t'.kind = t.kind ∧ (t.kind = .integer → t'.value = t.value) ∧
    (t.kind = .identifier → t'.lexeme = r t.lexeme))
    ⟨fun ⟨hkind, hvalue, hname⟩ => ⟨hkind, hvalue, hname⟩, fun h => ⟨h.kind, h.value, h.name⟩⟩

/-- Whether a renaming keeps the names of `S` apart and takes the first of two corresponding tokens
to the second, its name being one of them. -/
structure IsRenaming (r : String → String) (S : Set String) (T : Token → Token → Prop) : Prop where
  injOn : S.InjOn r
  token {t t' : Token} : T t t' → t.IsRenamed r t'
  mem {t t' : Token} : T t t' → t.kind = .identifier → t.lexeme ∈ S

/-- Whether two refusals have the same cause and point at two tokens that correspond, or at what two
pairs of corresponding tokens span. -/
inductive Refusal.Alike (T : Token → Token → Prop) : Refusal → Refusal → Prop
  | token (problem : Problem) {t t' : Token} : T t t' →
      Alike T (.atToken problem t) (.atToken problem t')
  | spanned (problem : Problem) {t t' u u' : Token} : T t t' → T u u' →
      Alike T ⟨problem, t.span.merge u.span, none⟩ ⟨problem, t'.span.merge u'.span, none⟩

/-- Refusals correspond; a fault corresponds to any other. -/
def ReadError.Alike (T : Token → Token → Prop) : ReadError → ReadError → Prop
  | .refused refusal, .refused refusal' => refusal.Alike T refusal'
  | .fault _, .fault _ => True
  | _, _ => False

namespace Formula

def Body.mapNames (r : String → String) (body : Body) : Body :=
  ⟨body.system.mapNames r, body.blocks⟩

def ListRole.mapNames (r : String → String) (bracket : Span) : ListRole → ListRole
  | .tuple role _ before => .tuple role bracket before
  | .block paren before body => .block paren before (body.mapNames r)

def Point.mapNames (r : String → String) (bracket : Span) : Point → Point
  | .beginning wanted => .beginning wanted
  | .openBracket role => .openBracket role
  | .name role => .name (role.mapNames r bracket)
  | .comma role => .comma (role.mapNames r bracket)
  | .closeBracket role _ before => .closeBracket role bracket before
  | .blockColon paren body => .blockColon paren (body.mapNames r)
  | .paramArrow => .paramArrow
  | .openBrace => .openBrace
  | .secondTuple nParam => .secondTuple nParam
  | .condition system => .condition (system.mapNames r)
  | .constraint body => .constraint (body.mapNames r)
  | .blockParen body => .blockParen (body.mapNames r)
  | .terms body sum => .terms (body.mapNames r) sum
  | .coefficientName body sum value => .coefficientName (body.mapNames r) sum value
  | .conjunction body => .conjunction (body.mapNames r)
  | .closeParen body => .closeParen (body.mapNames r)
  | .closeBrace system => .closeBrace (system.mapNames r)

/-- Whether a state is another one under other names. The names are some of `S`, and the opening
brackets, if any, correspond. -/
def State.Alike (r : String → String) (S : Set String) (T : Token → Token → Prop)
    (q q' : State) : Prop :=
  (∀ name ∈ q.names.toList, name ∈ S) ∧
    ∃ bracket, q' = ⟨q.names.map r, q.point.mapNames r bracket⟩ ∧
      ∀ opening ∈ q.point.opening?, ∃ t t', T t t' ∧ opening = t.span ∧ bracket = t'.span

theorem setSpace_map (r : String → String) (names : Names) (nParam : Nat) :
    setSpace (names.map r) nParam = (setSpace names nParam).mapNames r := by
  simp [setSpace]

theorem mapSpace_map (r : String → String) (names : Names) (nParam nIn : Nat) :
    mapSpace (names.map r) nParam nIn = (mapSpace names nParam nIn).mapNames r := by
  simp [mapSpace]

theorem opening?_afterNames (names : Names) (role : ListRole) :
    (afterNames names role).2.opening? = role.opening? := by
  cases role <;> rfl

theorem afterNames_map (r : String → String) (bracket : Span) (names : Names) (role : ListRole) :
    (afterNames (names.map r) (role.mapNames r bracket)).2 =
      (afterNames names role).2.mapNames r bracket := by
  cases role with
  | tuple role opening before => rfl
  | block paren before body =>
    simp [afterNames, ListRole.mapNames, Point.mapNames, Body.mapNames]

theorem afterConjunction_mapNames (r : String → String) (bracket : Span) (body : Body) :
    afterConjunction (body.mapNames r) = (afterConjunction body).mapNames r bracket := by
  obtain ⟨system, blocks⟩ := body
  match blocks with
  | [] => rfl
  | true :: blocks => rfl
  | false :: blocks => rfl

section Steps

variable {r : String → String} {S : Set String} {T : Token → Token → Prop}
  {names : Names} {point : Point} {body : Body} {sum : Sum} {value : Int} {t t' : Token}

/-- Moves that are alike: they use up the same tokens, they lead to states that are alike or fail
alike, and the systems that are read differ in their names. -/
abbrev MovesAlike (r : String → String) (S : Set String) (T : Token → Token → Prop) :
    FormulaMove → FormulaMove → Prop :=
  Move.Alike (State.Alike r S T) (ReadError.Alike T) fun m m' => m' = m.mapNames r

theorem alike_of_opening? (hnames : ∀ name ∈ names.toList, name ∈ S)
    (h : point.opening? = none) :
    State.Alike r S T ⟨names, point⟩ ⟨names.map r, point.mapNames r (.point .start)⟩ :=
  ⟨hnames, .point .start, rfl, fun opening ho => by simp [h] at ho⟩

theorem alike_refuse (problem : Problem) (ht : T t t') :
    MovesAlike r S T (.refuse problem t) (.refuse problem t') :=
  ⟨rfl, .token problem ht⟩

theorem alike_expect (h : IsRenaming r S T) (ht : T t t') {kind : TokenKind} {q q' : State}
    (hq : State.Alike r S T q q') : MovesAlike r S T (expect kind t q) (expect kind t' q') := by
  unfold expect
  rw [(h.token ht).kind]
  split
  · exact ⟨rfl, hq⟩
  · exact alike_refuse _ ht

theorem alike_takeOrLeave (h : IsRenaming r S T) (ht : T t t') {kind : TokenKind}
    {q₁ q₁' q₂ q₂' : State} (h₁ : State.Alike r S T q₁ q₁') (h₂ : State.Alike r S T q₂ q₂') :
    MovesAlike r S T (if t.kind = kind then .take q₁ else .leave q₂)
      (if t'.kind = kind then .take q₁' else .leave q₂') := by
  rw [(h.token ht).kind]
  split
  · exact ⟨rfl, h₁⟩
  · exact ⟨rfl, h₂⟩

theorem alike_addNamed (h : IsRenaming r S T) (ht : T t t') (hk : t.kind = .identifier)
    (hnames : ∀ name ∈ names.toList, name ∈ S) :
    MovesAlike r S T (addNamed names body sum t value)
      (addNamed (names.map r) (body.mapNames r) sum t' value) := by
  unfold addNamed
  rw [(h.token ht).name hk, Names.position?_map h.injOn hnames (h.mem ht hk)]
  cases names.position? t.lexeme with
  | none => exact alike_refuse _ ht
  | some position =>
    simp only [addTerm]
    cases sum.add? (1 + position) value with
    | none => exact ⟨rfl, trivial⟩
    | some sum => exact ⟨rfl, alike_of_opening? hnames rfl⟩

theorem alike_onTerm (h : IsRenaming r S T) (ht : T t t')
    (hnames : ∀ name ∈ names.toList, name ∈ S) :
    MovesAlike r S T (onTerm names body sum t)
      (onTerm (names.map r) (body.mapNames r) sum t') := by
  unfold onTerm
  rw [(h.token ht).kind]
  split
  · exact alike_addNamed h ht ‹_› hnames
  · rw [(h.token ht).value ‹_›]
    split
    · exact ⟨rfl, trivial⟩
    · exact ⟨rfl, alike_of_opening? hnames rfl⟩
  · exact ⟨rfl, alike_of_opening? hnames rfl⟩
  · split
    · split
      · exact alike_refuse _ ht
      · exact ⟨rfl, alike_of_opening? hnames rfl⟩
    · split
      · exact alike_refuse _ ht
      · rw [Body.mapNames, BasicMap.appendRow?_mapNames]
        cases body.system.appendRow? _ sum.row with
        | none => exact ⟨rfl, trivial⟩
        | some system => exact ⟨rfl, alike_of_opening? hnames rfl⟩

theorem alike_afterNames {role : ListRole} {bracket : Span}
    (hnames : ∀ name ∈ names.toList, name ∈ S)
    (hrole : ∀ opening ∈ role.opening?, ∃ t t', T t t' ∧ opening = t.span ∧ bracket = t'.span) :
    State.Alike r S T ⟨names, (afterNames names role).2⟩
      ⟨names.map r, (afterNames (names.map r) (role.mapNames r bracket)).2⟩ := by
  rw [afterNames_map]
  refine ⟨hnames, bracket, rfl, ?_⟩
  rwa [opening?_afterNames]

theorem alike_afterConjunction (hnames : ∀ name ∈ names.toList, name ∈ S) (body : Body) :
    State.Alike r S T ⟨names, afterConjunction body⟩
      ⟨names.map r, afterConjunction (body.mapNames r)⟩ := by
  rw [afterConjunction_mapNames r (.point .start)]
  exact alike_of_opening? hnames (opening?_afterConjunction body)

theorem alike_afterTuple {open' close' : Token} (hnames : ∀ name ∈ names.toList, name ∈ S)
    (hopen : T t open') (hclose : T t' close') (role : TupleRole) :
    Next.Alike (State.Alike r S T) (ReadError.Alike T) (fun m m' => m' = m.mapNames r)
      (afterTuple names (t.span.merge t'.span) role)
      (afterTuple (names.map r) (open'.span.merge close'.span) role) := by
  unfold afterTuple
  rw [Names.size_map]
  cases role with
  | params wanted =>
    cases wanted with
    | none => exact alike_of_opening? hnames rfl
    | some n =>
      dsimp only
      split
      · exact alike_of_opening? hnames rfl
      · exact .spanned _ hopen hclose
  | first nParam =>
    dsimp only
    split
    · exact .spanned _ hopen hclose
    · exact alike_of_opening? hnames rfl
  | second nParam nIn =>
    dsimp only
    rw [mapSpace_map]
    exact alike_of_opening? hnames rfl

/-- A name is new among the names under both readings, or under none. -/
theorem alike_onName (h : IsRenaming r S T) (ht : T t t') {role : ListRole} {bracket : Span}
    (hnames : ∀ name ∈ names.toList, name ∈ S)
    (hrole : ∀ opening ∈ role.opening?, ∃ t t', T t t' ∧ opening = t.span ∧ bracket = t'.span) :
    MovesAlike r S T (onToken ⟨names, .name role⟩ t)
      (onToken ⟨names.map r, .name (role.mapNames r bracket)⟩ t') := by
  simp only [onToken, (h.token ht).kind]
  split
  · rename_i hk
    have hmem := Names.mem_map_iff h.injOn hnames (h.mem ht hk)
    have hinsert := Names.insert_map h.injOn hnames (h.mem ht hk)
    rw [(h.token ht).name hk, if_congr hmem rfl rfl, hinsert]
    split
    · exact alike_refuse _ ht
    · exact ⟨rfl, Names.mem_of_mem_insert hnames (h.mem ht hk), bracket, rfl, hrole⟩
  · exact ⟨rfl, alike_afterNames hnames hrole⟩

theorem alike_onComma (h : IsRenaming r S T) (ht : T t t') {role : ListRole} {bracket : Span}
    (hnames : ∀ name ∈ names.toList, name ∈ S)
    (hrole : ∀ opening ∈ role.opening?, ∃ t t', T t t' ∧ opening = t.span ∧ bracket = t'.span) :
    MovesAlike r S T (onToken ⟨names, .comma role⟩ t)
      (onToken ⟨names.map r, .comma (role.mapNames r bracket)⟩ t') := by
  simp only [onToken, (h.token ht).kind]
  split
  · exact ⟨rfl, hnames, bracket, rfl, hrole⟩
  · exact ⟨rfl, alike_afterNames hnames hrole⟩

theorem alike_onCoefficientName (h : IsRenaming r S T) (ht : T t t')
    (hnames : ∀ name ∈ names.toList, name ∈ S) :
    MovesAlike r S T (onToken ⟨names, .coefficientName body sum value⟩ t)
      (onToken ⟨names.map r, .coefficientName (body.mapNames r) sum value⟩ t') := by
  simp only [onToken, (h.token ht).kind]
  split
  · exact alike_addNamed h ht ‹_› hnames
  · unfold addConstant
    cases sum.add? 0 value with
    | none => exact ⟨rfl, trivial⟩
    | some sum => exact ⟨rfl, alike_of_opening? hnames rfl⟩

theorem alike_onCondition (h : IsRenaming r S T) (ht : T t t') {system : BasicMap}
    (hnames : ∀ name ∈ names.toList, name ∈ S) :
    MovesAlike r S T (onToken ⟨names, .condition system⟩ t)
      (onToken ⟨names.map r, .condition (system.mapNames r)⟩ t') := by
  simp only [onToken, (h.token ht).kind]
  split
  · exact ⟨rfl, alike_of_opening? hnames rfl⟩
  · split
    · exact ⟨rfl, rfl⟩
    · exact alike_refuse _ ht

theorem alike_onToken (h : IsRenaming r S T) {q q' : State} (hq : State.Alike r S T q q')
    (ht : T t t') : MovesAlike r S T (onToken q t) (onToken q' t') := by
  obtain ⟨names, point⟩ := q
  obtain ⟨hnames, bracket, rfl, hopening⟩ := hq
  have hkind := (h.token ht).kind
  cases point with
  | terms body sum => exact alike_onTerm h ht hnames
  | coefficientName body sum value => exact alike_onCoefficientName h ht hnames
  | name role => exact alike_onName h ht hnames hopening
  | comma role => exact alike_onComma h ht hnames hopening
  | condition system => exact alike_onCondition h ht hnames
  | beginning wanted =>
    simp only [onToken, Point.mapNames, hkind]
    split
    · exact ⟨rfl, alike_of_opening? hnames rfl⟩
    · exact alike_expect h ht (alike_of_opening? hnames rfl)
  | openBracket role =>
    simp only [onToken, Point.mapNames, Names.size_map]
    refine alike_expect h ht ⟨hnames, t'.span, rfl, fun opening ho => ⟨t, t', ht, ?_, rfl⟩⟩
    exact (Option.some.inj ho).symm
  | closeBracket role opening before =>
    simp only [onToken, Point.mapNames, hkind]
    split
    · obtain ⟨u, u', hu, rfl, rfl⟩ := hopening opening rfl
      exact ⟨rfl, alike_afterTuple hnames hu ht role⟩
    · exact alike_refuse _ ht
  | blockColon paren body => exact alike_expect h ht (alike_of_opening? hnames rfl)
  | paramArrow => exact alike_expect h ht (alike_of_opening? hnames rfl)
  | closeParen body => exact alike_expect h ht (alike_of_opening? hnames rfl)
  | openBrace =>
    simp only [onToken, Point.mapNames, Names.size_map]
    exact alike_expect h ht (alike_of_opening? hnames rfl)
  | secondTuple nParam =>
    simp only [onToken, Point.mapNames, Names.size_map, setSpace_map]
    exact alike_takeOrLeave h ht (alike_of_opening? hnames rfl) (alike_of_opening? hnames rfl)
  | constraint body =>
    exact alike_takeOrLeave h ht (alike_of_opening? hnames rfl) (alike_of_opening? hnames rfl)
  | blockParen body =>
    simp only [onToken, Point.mapNames, Names.size_map]
    exact alike_takeOrLeave h ht (alike_of_opening? hnames rfl) (alike_of_opening? hnames rfl)
  | conjunction body =>
    exact alike_takeOrLeave h ht (alike_of_opening? hnames rfl) (alike_afterConjunction hnames body)
  | closeBrace system =>
    simp only [onToken, Point.mapNames, hkind]
    split
    · exact ⟨rfl, rfl⟩
    · exact alike_refuse _ ht

theorem alike_onEnd {q q' : State} (hq : State.Alike r S T q q') :
    EndMove.Alike (State.Alike r S T) (onEnd q) (onEnd q') := by
  obtain ⟨names, point⟩ := q
  obtain ⟨hnames, bracket, rfl, hopening⟩ := hq
  cases point with
  | name role => exact alike_afterNames hnames hopening
  | comma role => exact alike_afterNames hnames hopening
  | secondTuple nParam =>
    simp only [onEnd, Point.mapNames, setSpace_map]
    exact alike_of_opening? hnames rfl
  | blockParen body =>
    simp only [onEnd, Point.mapNames, Names.size_map]
    exact alike_of_opening? hnames rfl
  | _ => rfl

end Steps

/-- The machine does the same under other names. -/
theorem respects_machine {r : String → String} {S : Set String} {T : Token → Token → Prop}
    (h : IsRenaming r S T) : machine.Respects (State.Alike r S T) T (ReadError.Alike T)
      fun m m' => m' = m.mapNames r :=
  ⟨alike_onToken h, alike_onEnd⟩

end Formula
end ConstraintText

import ConstraintText.Proofs.Independence
import ConstraintText.Proofs.RoundTrip

/-!
# Two places for parameters

The parameters of a formula are listed in a tuple of their own, or they are the first names of its
first tuple and the caller tells how many they are. Behind the first tuple a reading stands at the
same point with the same names either way, so from there on it does the same.
-/
namespace ConstraintText

/-- Whether two errors are refusals for one problem, so of one kind and in the same words, whatever
they point at. -/
def ReadError.SameProblem : ReadError → ReadError → Prop
  | .refused refusal, .refused refusal' => refusal.problem = refusal'.problem
  | _, _ => False

theorem ReadError.Alike.sameProblem {T : Token → Token → Prop} {e e' : ReadError}
    (h : e.Alike T e') (hblames : e.BlamesText) : e.SameProblem e' := by
  cases e with
  | refused refusal =>
    cases e' with
    | refused refusal' =>
      cases h with
      | token problem ht => rfl
      | spanned problem ht hu => rfl
    | _ => exact h.elim
  | fault f => exact hblames.elim
  | _ => exact h.elim

namespace Outcome

variable {α : Type} {E E' : ReadError → ReadError → Prop} {D D' : α → α → Prop} {o o' : Outcome α}

theorem Alike.imp (h : Outcome.Alike E D o o') (he : ∀ e e', E e e' → E' e e')
    (hd : ∀ value value', D value value' → D' value value') : Outcome.Alike E' D' o o' := by
  cases o with
  | done value rest =>
    cases o' with
    | done value' rest' => exact hd value value' h
    | _ => exact h.elim
  | failed e =>
    cases o' with
    | failed e' => exact he e e' h
    | _ => exact h.elim
  | short problem =>
    cases o' with
    | short problem' => exact h
    | _ => exact h.elim

theorem Alike.refusedOr {r r' : Option Refusal} (hr : r.map (·.problem) = r'.map (·.problem))
    (he : ∀ e e', e.SameProblem e' → E e e') (h : Outcome.Alike E D o o') :
    Outcome.Alike E D (refusedOr r o) (refusedOr r' o') := by
  cases r with
  | none =>
    obtain rfl : r' = none := by simpa using hr.symm
    exact h
  | some refusal =>
    obtain ⟨refusal', rfl, hproblem⟩ := Option.map_eq_some_iff.mp hr.symm
    exact he _ _ hproblem.symm

end Outcome

@[simp] theorem Names.map_id (ns : Names) : ns.map id = ns := by
  simp [Names.map]

@[simp] theorem BasicMap.mapNames_id (m : BasicMap) : m.mapNames id = m := by
  simp [BasicMap.mapNames, Space.mapNames]

namespace Formula
open Occurrence

variable {ts ts' rest : List Token}

theorem isRenaming_id : IsRenaming id Set.univ (Token.IsRenamed id) where
  injOn := Set.injOn_id _
  token := id
  mem _ _ := trivial

/-- From one state, on tokens that differ in their places alone, readings come to the same. -/
theorem outcome_alike (names : Names) {point : Point} (hpoint : point.opening? = none)
    (hsame : point.mapNames id (.point .start) = point)
    (hts : List.Forall₂ (Token.IsRenamed id) ts ts') :
    Outcome.Alike (fun e e' => e.BlamesText → e.SameProblem e') Eq
      (machine.outcome ⟨names, point⟩ ts) (machine.outcome ⟨names, point⟩ ts') := by
  have hstate : State.Alike id Set.univ (Token.IsRenamed id) ⟨names, point⟩
      ⟨names.map id, point.mapNames id (.point .start)⟩ :=
    alike_of_opening? (fun _ _ => Set.mem_univ _) hpoint
  rw [Names.map_id, hsame] at hstate
  refine ((respects_machine isRenaming_id).outcome hstate hts).imp
    (fun _ _ => ReadError.Alike.sameProblem) ?_
  rintro m _ rfl
  exact m.mapNames_id.symm

/-- The tokens of a formula up to the end of its first tuple. -/
inductive Opens : Option (List Token) → List Token → List Token → Prop
  | intro {params : Option (List Token)} {first ps fs : List Token} {opening : Token}
      (hp : DerivesParams params ps) (ho : opening.kind = .leftBrace)
      (hf : DerivesTuple first fs) : Opens params first (ps ++ opening :: fs)

theorem Opens.derivesFront {params : Option (List Token)} {first : List Token}
    (h : Opens params first ts) : (Tree.mk params first none none).DerivesFront ts := by
  obtain ⟨hp, ho, hf⟩ := h
  simpa using Tree.DerivesFront.intro (f := ⟨params, first, none, none⟩) hp ho hf .absent .absent

/-- The first tuple is read, unless a name is listed twice, with all names so far declared. -/
theorem outcome_opens {params : Option (List Token)} {first : List Token}
    (h : Opens params first ts) {wanted : Option Nat}
    (hw : ∀ n ∈ wanted, ∀ ids ∈ params, n = ids.length)
    (hle : paramCount params wanted ≤ (params.getD []).length + first.length) :
    machine.outcome ⟨⟨[]⟩, .beginning wanted⟩ (ts ++ rest) =
      .refusedOr (offence? [] ((params.getD [] ++ first).map .declares))
        (machine.outcome ⟨⟨(params.getD [] ++ first).map (·.lexeme)⟩,
          .secondTuple (paramCount params wanted)⟩ rest) := by
  obtain ⟨hp, ho, hf⟩ := h
  have hq : ∀ span, afterTuple
      ⟨(params.getD []).map (·.lexeme) ++ first.map (·.lexeme)⟩ span
        (.first (paramCount params wanted)) =
      .go ⟨⟨(params.getD []).map (·.lexeme) ++ first.map (·.lexeme)⟩,
        .secondTuple (paramCount params wanted)⟩ := by
    intro span
    simp [afterTuple, Names.size, Nat.not_lt.mpr hle]
  rw [List.append_assoc, List.cons_append, outcome_params hp ho hw, outcome_tuple hf hq,
    ← Outcome.refusedOr_or, List.map_append, List.map_append, offence?_append, declared_declares,
    List.nil_append]

theorem problem_offence?_declares {ids ids' : List Token}
    (h : ids.map (·.lexeme) = ids'.map (·.lexeme)) (names : List String) :
    (offence? names (ids.map .declares)).map (·.problem) =
      (offence? names (ids'.map .declares)).map (·.problem) := by
  induction ids generalizing ids' names with
  | nil =>
    obtain rfl := List.map_eq_nil_iff.mp h.symm
    rfl
  | cons t ids ih =>
    obtain ⟨t', ids', rfl, ht, hids⟩ := List.map_eq_cons_iff.mp h.symm
    simp only [List.map_cons, offence?, ht]
    split
    · rfl
    · exact ih hids.symm _

end Formula

namespace Reading
open Formula

variable {source source' : String} {front front' rest rest' : List Token} {last last' : Token}

/-- Behind the first tuple both readings stand at the same point, with the same names and the same
number of parameters. -/
theorem drafts_alike_of_opens {all params first : List Token}
    (h : (Scanner.ofString source).tokens = .ok (front ++ rest ++ [last]))
    (h' : (Scanner.ofString source').tokens = .ok (front' ++ rest' ++ [last']))
    (hfront : Opens none all front) (hfront' : Opens (some params) first front')
    (hnames : all.map (·.lexeme) = (params ++ first).map (·.lexeme))
    (hrest : List.Forall₂ (Token.IsRenamed id) rest rest')
    {wanted : Option Nat} (hw : wanted = none ∨ wanted = some params.length) :
    ResultsAlike ReadError.SameProblem Eq (drafts (some params.length) (.ofString source)).result
      (drafts wanted (.ofString source')).result := by
  obtain ⟨_, htokens, hstop⟩ := Scanner.exists_finish_of_tokens h
  obtain ⟨_, htokens', hstop'⟩ := Scanner.exists_finish_of_tokens h'
  obtain ⟨htokens, -⟩ := List.append_inj' htokens rfl
  obtain ⟨htokens', -⟩ := List.append_inj' htokens' rfl
  have hint := beginsWithInteger_of_front hfront.derivesFront htokens.symm
  have hint' := beginsWithInteger_of_front hfront'.derivesFront htokens'.symm
  have hlength : all.length = params.length + first.length := by
    simpa using congrArg List.length hnames
  have hparams : ∀ n ∈ wanted, ∀ ids ∈ some params, n = ids.length := by
    intro n hn ids hids
    obtain rfl := Option.some.inj hids
    rcases hw with rfl | rfl
    · cases hn
    · exact (Option.some.inj hn).symm
  have houtcome : Outcome.Alike (fun e e' => e.BlamesText → e.SameProblem e') Eq
      (machine.outcome ⟨⟨[]⟩, .beginning (some params.length)⟩ (front ++ rest))
      (machine.outcome ⟨⟨[]⟩, .beginning wanted⟩ (front' ++ rest')) := by
    rw [outcome_opens hfront (by simp) (by simp [paramCount, hlength]),
      outcome_opens hfront' hparams (by simp [paramCount])]
    simp only [Option.getD_none, List.nil_append, Option.getD_some, hnames]
    exact .refusedOr (problem_offence?_declares hnames []) (fun _ _ he _ => he)
      (outcome_alike _ rfl rfl hrest)
  refine ResultsAlike.imp (E := fun e e' => e.BlamesText → e.SameProblem e') ?_
    fun e e' he hsame => hsame (blamesText_drafts _ source e he)
  rw [drafts_result_of_formula hint, drafts_result_of_formula hint', ← htokens, ← htokens']
  refine (houtcome.results (fun _ _ he => he) fun problem _ => ?_).map ?_
  · change ReadError.SameProblem ((Scanner.ofString source).stopError problem)
      ((Scanner.ofString source').stopError problem)
    rw [Scanner.stopError, Scanner.stopError, hstop, hstop']
    rfl
  · rintro m _ rfl
    rfl

/-- Whether the first names of a formula's first tuple are its parameters, as many as are wanted, or
the same parameters have a tuple of their own and no number or theirs is wanted: whatever the tokens
behind the first tuple are, both texts are read as the same union, or both are refused for the same
problem. -/
theorem readMap_params_in_first_tuple {all params first : List Token}
    (h : (Scanner.ofString source).tokens = .ok (front ++ rest ++ [last]))
    (h' : (Scanner.ofString source').tokens = .ok (front' ++ rest' ++ [last']))
    (hfront : Opens none all front) (hfront' : Opens (some params) first front')
    (hnames : all.map (·.lexeme) = (params ++ first).map (·.lexeme))
    (hrest : List.Forall₂ (Token.IsRenamed id) rest rest')
    {wanted : Option Nat} (hw : wanted = none ∨ wanted = some params.length)
    (config : ReadConfig) :
    ResultsAlike ReadError.SameProblem Eq
      (readMap config (some params.length) (.ofString source)).result
      (readMap config wanted (.ofString source')).result := by
  rw [(readMap_eq_drafts config _ _).1, (readMap_eq_drafts config _ _).1]
  refine (drafts_alike_of_opens h h' hfront hfront' hnames hrest hw).map ?_
  rintro u _ rfl
  rfl

/-- The even numbers up to a parameter: the parameter is the first name of the first tuple, or it has
a tuple of its own. -/
theorem readMap_params_in_first_tuple_even :
    let source := "\x7b[n, i] -> [j] : exists k : j = 2k and i <= n\x7d"
    let source' := "[n] -> \x7b[i] -> [j] : exists k : j = 2k and i <= n\x7d"
    let token (kind : TokenKind) (lexeme : String) (offset : Nat) : Token :=
      ⟨kind, ⟨⟨1, offset + 1, offset⟩, ⟨1, offset + lexeme.length + 1, offset + lexeme.length⟩⟩,
        lexeme, offset == 0, none⟩
    let all := [token .identifier "n" 2, token .identifier "i" 5]
    let params := [token .identifier "n" 1]
    let first := [token .identifier "i" 9]
    let system : BasicMap := ⟨⟨1, 1, 1, [some "n"], [some "i"], [some "j"]⟩, 1,
      [[0, 0, 0, 1, -2]], [[0, 1, -1, 0, 0]], [[0, 0, 0, 0, 0, 0]], ⟨false, true⟩⟩
    ∃ front front' rest rest' last last',
      (Scanner.ofString source).tokens = .ok (front ++ rest ++ [last]) ∧
      (Scanner.ofString source').tokens = .ok (front' ++ rest' ++ [last']) ∧
      Opens none all front ∧ Opens (some params) first front' ∧
      all.map (·.lexeme) = (params ++ first).map (·.lexeme) ∧
      List.Forall₂ (Token.IsRenamed id) rest rest' ∧
      (readMap .standard (some 1) (.ofString source)).result = .ok ⟨system.space, [system]⟩ ∧
      (readMap .standard none (.ofString source')).result = .ok ⟨system.space, [system]⟩ := by
  intro source source' token all params first system
  let front := [token .leftBrace "\x7b" 0, token .leftBracket "[" 1, token .identifier "n" 2,
    token .comma "," 3, token .identifier "i" 5, token .rightBracket "]" 6]
  let front' := [token .leftBracket "[" 0, token .identifier "n" 1, token .rightBracket "]" 2,
    token .arrow "->" 4, token .leftBrace "\x7b" 7, token .leftBracket "[" 8,
    token .identifier "i" 9, token .rightBracket "]" 10]
  let rest := ((Scanner.ofString source).tokens.toOption.getD []).dropLast.drop 6
  let rest' := ((Scanner.ofString source').tokens.toOption.getD []).dropLast.drop 8
  have h : (Scanner.ofString source).tokens = .ok (front ++ rest ++ [token .finish "" 46]) := by
    unfold front rest source token
    cbv
  have h' : (Scanner.ofString source').tokens =
      .ok (front' ++ rest' ++ [token .finish "" 50]) := by
    unfold front' rest' source' token
    cbv
  have hfront : Opens none all front :=
    .intro .absent rfl (.intro rfl (.more rfl rfl (.last rfl)) rfl)
  have hfront' : Opens (some params) first front' :=
    .intro (.present (.intro rfl (.last rfl) rfl) rfl) rfl (.intro rfl (.last rfl) rfl)
  have hrest : List.Forall₂ (Token.IsRenamed id) rest rest' := by
    unfold rest rest' source source'
    refine of_decide_eq_true ?_
    cbv
  have hread : (readMap .standard (some 1) (.ofString source)).result =
      .ok ⟨system.space, [system]⟩ := by
    unfold source system
    cbv
  have hsame := readMap_params_in_first_tuple h h' hfront hfront' rfl hrest (.inl rfl) .standard
  refine ⟨front, front', rest, rest', _, _, h, h', hfront, hfront', rfl, hrest, hread, ?_⟩
  change ResultsAlike _ _ (readMap .standard (some 1) (.ofString source)).result _ at hsame
  rw [hread] at hsame
  obtain ⟨_, hread', rfl⟩ := hsame.of_ok
  exact hread'

end Reading
end ConstraintText

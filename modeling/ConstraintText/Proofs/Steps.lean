import ConstraintText.Proofs.Meaning
import ConstraintText.Proofs.Outcome

/-!
# The steps of reading a formula, as equations

At each point of a formula the outcome on a list of tokens is the outcome at the next point on the
same tokens or on those behind the first one. A sum that is being collected has a constant and a
coefficient for each declared name, and each term adds to one of them.
-/
namespace ConstraintText.Formula
open Occurrence

variable {names : List String} {t : Token} {ts : List Token}

def isTermPart (kind : TokenKind) : Bool :=
  kind == .identifier || kind == .integer || kind == .plus

def endsSum (kind : TokenKind) : Bool := !isTermPart kind && !kind.isRelation

theorem outcome_expect {q q' : State} (kind : TokenKind)
    (h : machine.onToken q t = expect kind t q') :
    machine.outcome q (t :: ts) = if t.kind = kind then machine.outcome q' ts
      else .failed (.refused (.atToken (.expectedToken kind) t)) := by
  by_cases hk : t.kind = kind
  · rw [if_pos hk]
    exact Machine.outcome_of_take (by rw [h, expect, if_pos hk])
  · rw [if_neg hk]
    exact Machine.outcome_of_refuse (by rw [h, expect, if_neg hk])

theorem outcome_name (role : ListRole) (ht : t.kind = .identifier) :
    machine.outcome ⟨⟨names⟩, .name role⟩ (t :: ts) = .refusedOr (offence? names [declares t])
      (machine.outcome ⟨⟨names ++ [t.lexeme]⟩, .comma role⟩ ts) := by
  by_cases hm : t.lexeme ∈ names
  · rw [offence?, if_pos hm, Outcome.refusedOr_some]
    exact Machine.outcome_fail (by simp [machine, onToken, ht, hm, Move.refuse])
  · simp only [offence?, if_neg hm, Outcome.refusedOr_none]
    exact Machine.outcome_of_take (by simp [machine, onToken, ht, hm, Names.insert])

theorem outcome_name_end (role : ListRole) (ht : t.kind ≠ .identifier) :
    machine.outcome ⟨⟨names⟩, .name role⟩ (t :: ts) =
      machine.outcome ⟨⟨names⟩, (afterNames ⟨names⟩ role).2⟩ (t :: ts) := by
  apply Machine.outcome_leave <;> simp [machine, onToken, ht]

theorem outcome_comma (role : ListRole) (ht : t.kind = .comma) :
    machine.outcome ⟨⟨names⟩, .comma role⟩ (t :: ts) =
      machine.outcome ⟨⟨names⟩, .name role⟩ ts := by
  exact Machine.outcome_of_take (by simp [machine, onToken, ht])

theorem outcome_comma_end (role : ListRole) (ht : t.kind ≠ .comma) :
    machine.outcome ⟨⟨names⟩, .comma role⟩ (t :: ts) =
      machine.outcome ⟨⟨names⟩, (afterNames ⟨names⟩ role).2⟩ (t :: ts) := by
  apply Machine.outcome_leave <;> simp [machine, onToken, ht]

theorem outcome_exists (body : Body) (ht : t.kind = .existsWord) :
    machine.outcome ⟨⟨names⟩, .constraint body⟩ (t :: ts) =
      machine.outcome ⟨⟨names⟩, .blockParen body⟩ ts := by
  exact Machine.outcome_of_take (by simp [machine, onToken, ht])

theorem outcome_constraint (body : Body) (ht : t.kind ≠ .existsWord) :
    machine.outcome ⟨⟨names⟩, .constraint body⟩ (t :: ts) =
      machine.outcome ⟨⟨names⟩, .terms body (.start body.system)⟩ (t :: ts) := by
  exact Machine.outcome_of_leave (by simp [machine, onToken, ht])

theorem outcome_blockParen (body : Body) (ht : t.kind = .leftParen) :
    machine.outcome ⟨⟨names⟩, .blockParen body⟩ (t :: ts) =
      machine.outcome ⟨⟨names⟩, .name (.block true names.length body)⟩ ts := by
  exact Machine.outcome_of_take (by simp [machine, onToken, ht, Names.size])

theorem outcome_blockParen_none (body : Body) (ht : t.kind ≠ .leftParen) :
    machine.outcome ⟨⟨names⟩, .blockParen body⟩ (t :: ts) =
      machine.outcome ⟨⟨names⟩, .name (.block false names.length body)⟩ (t :: ts) := by
  exact Machine.outcome_of_leave (by simp [machine, onToken, ht, Names.size])

theorem outcome_and (body : Body) (ht : t.kind = .andWord) :
    machine.outcome ⟨⟨names⟩, .conjunction body⟩ (t :: ts) =
      machine.outcome ⟨⟨names⟩, .constraint body⟩ ts := by
  exact Machine.outcome_of_take (by simp [machine, onToken, ht])

theorem outcome_conjunction_end (body : Body) (ht : t.kind ≠ .andWord) :
    machine.outcome ⟨⟨names⟩, .conjunction body⟩ (t :: ts) =
      machine.outcome ⟨⟨names⟩, afterConjunction body⟩ (t :: ts) := by
  exact Machine.outcome_of_leave (by simp [machine, onToken, ht])

/-- Blocks without parentheses end with the conjunction around them. -/
theorem outcome_open_blocks (system : BasicMap) (n : Nat) (blocks : List Bool)
    (ht : t.kind ≠ .andWord) :
    machine.outcome ⟨⟨names⟩, .conjunction ⟨system, List.replicate n false ++ blocks⟩⟩ (t :: ts) =
      machine.outcome ⟨⟨names⟩, .conjunction ⟨system, blocks⟩⟩ (t :: ts) := by
  induction n with
  | zero => rfl
  | succ n ih => rw [← ih, outcome_conjunction_end _ ht]; rfl

theorem addAt?_position {i : Nat} (hn : names.Nodup) {name : String}
    (hi : names.idxOf? name = some i) (k v : Int) (g : String → Int) :
    Row.addAt? (k :: names.map g) (1 + i) v =
      some (k :: names.map fun n => g n + if name = n then v else 0) := by
  obtain ⟨hlt, hname, -⟩ := List.idxOf?_eq_some_iff.mp hi
  have hget : (names.map g)[i]? = some (g name) := by simp [List.getElem?_eq_getElem hlt, hname]
  simp only [Row.addAt?, Nat.add_comm 1 i, List.getElem?_cons_succ, hget, Option.map_some,
    List.set_cons_succ]
  congr 2
  refine List.ext_getElem (by simp) fun j hj hj' => ?_
  have hjl : j < names.length := by simpa using hj
  rw [List.getElem_set, List.getElem_map, List.getElem_map]
  by_cases hij : i = j
  · subst hij
    simp [hname]
  · have hne : name ≠ names[j] := fun he => hij ((hn.getElem_inj_iff).mp (hname.trans he))
    simp [hij, hne]

section Terms

variable {body : Body} {sign k : Int} {g : String → Int} {kind : Option ConstraintKind}

theorem outcome_of_addNamed {q : State} {value : Int} (hn : names.Nodup)
    (h : machine.onToken q t =
      addNamed ⟨names⟩ body ⟨k :: names.map g, sign, kind⟩ t value) :
    machine.outcome q (t :: ts) = .refusedOr (offence? names [uses t])
      (machine.outcome ⟨⟨names⟩, .terms body
        ⟨k :: names.map fun n => g n + if t.lexeme = n then value * sign else 0, sign, kind⟩⟩
        ts) := by
  cases hi : names.idxOf? t.lexeme with
  | none =>
    have hm : t.lexeme ∉ names := List.idxOf?_eq_none_iff.mp hi
    rw [offence?, if_neg hm, Outcome.refusedOr_some]
    exact Machine.outcome_fail (by simp [h, addNamed, Names.position?, hi, Move.refuse])
  | some i =>
    have hm : t.lexeme ∈ names := by
      by_contra hm
      simp [List.idxOf?_eq_none_iff.mpr hm] at hi
    have hadd := addAt?_position hn hi k (value * sign) g
    simp only [offence?, if_pos hm, Outcome.refusedOr_none]
    apply Machine.outcome_take <;>
      simp [h, addNamed, Names.position?, hi, addTerm, Sum.add?, hadd, Move.take]

theorem outcome_term_name (hn : names.Nodup) (ht : t.kind = .identifier) :
    machine.outcome ⟨⟨names⟩, .terms body ⟨k :: names.map g, sign, kind⟩⟩ (t :: ts) =
      .refusedOr (offence? names [uses t]) (machine.outcome ⟨⟨names⟩, .terms body
        ⟨k :: names.map fun n => g n + if t.lexeme = n then 1 * sign else 0, sign, kind⟩⟩ ts) :=
  outcome_of_addNamed hn (by simp [machine, onToken, onTerm, ht])

theorem outcome_coefficient_name {value : Int} (hn : names.Nodup) (ht : t.kind = .identifier) :
    machine.outcome ⟨⟨names⟩, .coefficientName body ⟨k :: names.map g, sign, kind⟩ value⟩
        (t :: ts) =
      .refusedOr (offence? names [uses t]) (machine.outcome ⟨⟨names⟩, .terms body
        ⟨k :: names.map fun n => g n + if t.lexeme = n then value * sign else 0, sign, kind⟩⟩
        ts) :=
  outcome_of_addNamed hn (by simp [machine, onToken, ht])

theorem outcome_coefficient_end {value : Int} {cs : List Int} (ht : t.kind ≠ .identifier) :
    machine.outcome ⟨⟨names⟩, .coefficientName body ⟨k :: cs, sign, kind⟩ value⟩ (t :: ts) =
      machine.outcome ⟨⟨names⟩, .terms body ⟨(k + value * sign) :: cs, sign, kind⟩⟩
        (t :: ts) := by
  apply Machine.outcome_leave <;>
    simp [machine, onToken, ht, addConstant, Sum.add?, Row.addAt?]

theorem outcome_term_integer {sum : Sum} {value : Int} (ht : t.kind = .integer)
    (hv : t.value = some value) :
    machine.outcome ⟨⟨names⟩, .terms body sum⟩ (t :: ts) =
      machine.outcome ⟨⟨names⟩, .coefficientName body sum value⟩ ts := by
  exact Machine.outcome_of_take (by simp [machine, onToken, onTerm, ht, hv])

theorem outcome_term_plus {sum : Sum} (ht : t.kind = .plus) :
    machine.outcome ⟨⟨names⟩, .terms body sum⟩ (t :: ts) =
      machine.outcome ⟨⟨names⟩, .terms body sum⟩ ts := by
  exact Machine.outcome_of_take (by simp [machine, onToken, onTerm, ht])

theorem onTerm_of_not_isTermPart {sum : Sum} (ht : isTermPart t.kind = false) :
    onTerm ⟨names⟩ body sum t =
      if t.kind.isRelation then
        if sum.kind.isSome then .refuse .secondOperator t
        else .take ⟨⟨names⟩, .terms body (sum.compare t.kind)⟩
      else
        match sum.kind with
        | none => .refuse .noOperator t
        | some kind =>
          match body.system.appendRow? kind sum.row with
          | none => .fault .rowOfOtherLength
          | some system => .leave ⟨⟨names⟩, .conjunction ⟨system, body.blocks⟩⟩ := by
  unfold onTerm
  split
  · rename_i hk; simp [isTermPart, hk] at ht
  · rename_i hk; simp [isTermPart, hk] at ht
  · rename_i hk; simp [isTermPart, hk] at ht
  · rfl

theorem not_isTermPart_of_isRelation {kind : TokenKind} (h : kind.isRelation = true) :
    isTermPart kind = false := by
  revert h
  cases kind <;> decide

theorem outcome_operator {row : Row} (ht : t.kind.isRelation = true) :
    machine.outcome ⟨⟨names⟩, .terms body ⟨row, sign, none⟩⟩ (t :: ts) =
      machine.outcome ⟨⟨names⟩, .terms body (Sum.compare ⟨row, sign, none⟩ t.kind)⟩ ts := by
  apply Machine.outcome_take <;>
    simp [machine, onToken, onTerm_of_not_isTermPart (not_isTermPart_of_isRelation ht), ht,
      Move.take]

/-- The end of a comparison appends its row. -/
theorem outcome_sum_end {row : Row} {kind : ConstraintKind} {system : BasicMap}
    (ht : endsSum t.kind = true) (hs : body.system.appendRow? kind row = some system) :
    machine.outcome ⟨⟨names⟩, .terms body ⟨row, sign, some kind⟩⟩ (t :: ts) =
      machine.outcome ⟨⟨names⟩, .conjunction ⟨system, body.blocks⟩⟩ (t :: ts) := by
  simp only [endsSum, Bool.and_eq_true, Bool.not_eq_true'] at ht
  apply Machine.outcome_leave <;>
    simp [machine, onToken, onTerm_of_not_isTermPart ht.1, ht.2, hs, Move.leave]

end Terms

theorem outcome_beginning_params (wanted : Option Nat) (ht : t.kind = .leftBracket) :
    machine.outcome ⟨⟨names⟩, .beginning wanted⟩ (t :: ts) =
      machine.outcome ⟨⟨names⟩, .openBracket (.params wanted)⟩ (t :: ts) := by
  exact Machine.outcome_of_leave (by simp [machine, onToken, ht])

theorem outcome_beginning (wanted : Option Nat) (ht : t.kind ≠ .leftBracket) :
    machine.outcome ⟨⟨names⟩, .beginning wanted⟩ (t :: ts) =
      if t.kind = .leftBrace then
        machine.outcome ⟨⟨names⟩, .openBracket (.first (wanted.getD 0))⟩ ts
      else .failed (.refused (.atToken (.expectedToken .leftBrace) t)) :=
  outcome_expect .leftBrace (by simp [machine, onToken, ht])

theorem outcome_secondTuple (nParam : Nat) (ht : t.kind = .arrow) :
    machine.outcome ⟨⟨names⟩, .secondTuple nParam⟩ (t :: ts) =
      machine.outcome ⟨⟨names⟩, .openBracket (.second nParam (names.length - nParam))⟩ ts := by
  exact Machine.outcome_of_take (by simp [machine, onToken, ht, Names.size])

theorem outcome_secondTuple_none (nParam : Nat) (ht : t.kind ≠ .arrow) :
    machine.outcome ⟨⟨names⟩, .secondTuple nParam⟩ (t :: ts) =
      machine.outcome ⟨⟨names⟩, .condition (.unconstrained (setSpace ⟨names⟩ nParam))⟩
        (t :: ts) := by
  exact Machine.outcome_of_leave (by simp [machine, onToken, ht])

theorem outcome_condition (system : BasicMap) (ht : t.kind = .colon) :
    machine.outcome ⟨⟨names⟩, .condition system⟩ (t :: ts) =
      machine.outcome ⟨⟨names⟩, .constraint ⟨system, []⟩⟩ ts := by
  exact Machine.outcome_of_take (by simp [machine, onToken, ht])

theorem outcome_condition_none (system : BasicMap) (ht : t.kind = .rightBrace) :
    machine.outcome ⟨⟨names⟩, .condition system⟩ (t :: ts) = .done system ts := by
  apply Machine.outcome_done <;> simp [machine, onToken, ht]

theorem outcome_closeBrace (system : BasicMap) (ht : t.kind = .rightBrace) :
    machine.outcome ⟨⟨names⟩, .closeBrace system⟩ (t :: ts) = .done system ts := by
  apply Machine.outcome_done <;> simp [machine, onToken, ht]

theorem outcome_closeBracket {role : TupleRole} {opening : Span} {before : Nat} {q' : State}
    (ht : t.kind = .rightBracket)
    (h : afterTuple ⟨names⟩ (opening.merge t.span) role = .go q') :
    machine.outcome ⟨⟨names⟩, .closeBracket role opening before⟩ (t :: ts) =
      machine.outcome q' ts := by
  apply Machine.outcome_take <;> simp [machine, onToken, ht, h]

theorem outcome_closeBracket_fail {role : TupleRole} {opening : Span} {before : Nat}
    {e : ReadError} (ht : t.kind = .rightBracket)
    (h : afterTuple ⟨names⟩ (opening.merge t.span) role = .fail e) :
    machine.outcome ⟨⟨names⟩, .closeBracket role opening before⟩ (t :: ts) = .failed e := by
  apply Machine.outcome_fail
  simp [machine, onToken, ht, h]

end ConstraintText.Formula

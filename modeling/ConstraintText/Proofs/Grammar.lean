import Mathlib
import ConstraintText.Reading.Formula

/-!
# The grammar of formulas

    formula     := [tuple '->'] '{' tuple ['->' tuple] [':' constraints] '}'
    tuple       := '[' names ']'
    names       := empty | identifier {',' identifier} [',']
    constraints := constraint {'and' constraint}
    constraint  := 'exists' '(' names ':' constraints ')' | 'exists' names ':' constraints
                 | side ('<=' | '>=' | '=') side
    side        := {identifier | integer [identifier] | '+'}

Trees of this grammar keep the tokens of their names. The same tokens may have several trees, as a
block without parentheses may end before any `and` behind it; all of them mean the same. In a side
an identifier right behind an integer always belongs to that integer.
-/
namespace ConstraintText.Formula

inductive Term
  | name (token : Token)
  | number (value : Int)
  | multiple (value : Int) (token : Token)
  | plus

inductive Operator
  | lessEqual
  | greaterEqual
  | equal
  deriving DecidableEq

def Operator.kind : Operator → TokenKind
  | lessEqual => .lessEqual
  | greaterEqual => .greaterEqual
  | equal => .equal

structure Comparison where
  left : List Term
  operator : Operator
  right : List Term

inductive Condition
  | comparison (c : Comparison)
  | block (parens : Bool) (names : List Token) (body : Condition)
  | both (first rest : Condition)

structure Tree where
  params : Option (List Token)
  first : List Token
  second : Option (List Token)
  condition : Option Condition

/-- Names with commas between them, and perhaps one behind the last. -/
inductive DerivesNames : List Token → List Token → Prop
  | empty : DerivesNames [] []
  | last {t : Token} (ht : t.kind = .identifier) : DerivesNames [t] [t]
  | more {t comma : Token} {ids ts : List Token} (ht : t.kind = .identifier)
      (hc : comma.kind = .comma) (rest : DerivesNames ids ts) :
      DerivesNames (t :: ids) (t :: comma :: ts)

inductive DerivesSide : List Term → List Token → Prop
  | empty : DerivesSide [] []
  | name {t : Token} {terms : List Term} {ts : List Token} (ht : t.kind = .identifier)
      (rest : DerivesSide terms ts) : DerivesSide (.name t :: terms) (t :: ts)
  | number {t : Token} {value : Int} {terms : List Term} {ts : List Token}
      (ht : t.kind = .integer) (hv : t.value = some value)
      (hn : ∀ u ∈ ts.head?, u.kind ≠ .identifier) (rest : DerivesSide terms ts) :
      DerivesSide (.number value :: terms) (t :: ts)
  | multiple {t u : Token} {value : Int} {terms : List Term} {ts : List Token}
      (ht : t.kind = .integer) (hv : t.value = some value) (hu : u.kind = .identifier)
      (rest : DerivesSide terms ts) : DerivesSide (.multiple value u :: terms) (t :: u :: ts)
  | plus {t : Token} {terms : List Term} {ts : List Token} (ht : t.kind = .plus)
      (rest : DerivesSide terms ts) : DerivesSide (.plus :: terms) (t :: ts)

/-- A constraint that is no conjunction of several. -/
def Condition.IsSingle : Condition → Prop
  | both _ _ => False
  | _ => True

inductive Condition.Derives : Condition → List Token → Prop
  | comparison {c : Comparison} {operator : Token} {ls rs : List Token}
      (hl : DerivesSide c.left ls) (ho : operator.kind = c.operator.kind)
      (hr : DerivesSide c.right rs) : Derives (.comparison c) (ls ++ operator :: rs)
  | block {word colon : Token} {ids ns ts : List Token} {body : Condition}
      (hw : word.kind = .existsWord) (hn : DerivesNames ids ns) (hc : colon.kind = .colon)
      (hb : Derives body ts) : Derives (.block false ids body) (word :: ns ++ colon :: ts)
  | parens {word opening colon closing : Token} {ids ns ts : List Token} {body : Condition}
      (hw : word.kind = .existsWord) (ho : opening.kind = .leftParen)
      (hn : DerivesNames ids ns) (hc : colon.kind = .colon) (hb : Derives body ts)
      (he : closing.kind = .rightParen) :
      Derives (.block true ids body) (word :: opening :: ns ++ colon :: ts ++ [closing])
  | both {word : Token} {first rest : Condition} {fs rs : List Token}
      (hs : first.IsSingle) (hf : Derives first fs) (hw : word.kind = .andWord)
      (hr : Derives rest rs) : Derives (.both first rest) (fs ++ word :: rs)

inductive DerivesTuple : List Token → List Token → Prop
  | intro {opening closing : Token} {ids ns : List Token} (ho : opening.kind = .leftBracket)
      (hn : DerivesNames ids ns) (hc : closing.kind = .rightBracket) :
      DerivesTuple ids (opening :: ns ++ [closing])

inductive DerivesParams : Option (List Token) → List Token → Prop
  | absent : DerivesParams none []
  | present {arrow : Token} {ids ts : List Token} (ht : DerivesTuple ids ts)
      (ha : arrow.kind = .arrow) : DerivesParams (some ids) (ts ++ [arrow])

inductive DerivesSecond : Option (List Token) → List Token → Prop
  | absent : DerivesSecond none []
  | present {arrow : Token} {ids ts : List Token} (ha : arrow.kind = .arrow)
      (ht : DerivesTuple ids ts) : DerivesSecond (some ids) (arrow :: ts)

inductive DerivesClause : Option Condition → List Token → Prop
  | absent : DerivesClause none []
  | present {colon : Token} {c : Condition} {ts : List Token} (hc : colon.kind = .colon)
      (h : c.Derives ts) : DerivesClause (some c) (colon :: ts)

/-- The tokens of a formula, from its first bracket or brace to its closing brace. -/
inductive Tree.Derives : Tree → List Token → Prop
  | intro {f : Tree} {opening closing : Token} {ps fs ss cs : List Token}
      (hp : DerivesParams f.params ps) (ho : opening.kind = .leftBrace)
      (hf : DerivesTuple f.first fs) (hs : DerivesSecond f.second ss)
      (hc : DerivesClause f.condition cs) (he : closing.kind = .rightBrace) :
      Derives f (ps ++ opening :: fs ++ ss ++ cs ++ [closing])

/-- The tokens of a formula in front of its closing brace. -/
inductive Tree.DerivesFront : Tree → List Token → Prop
  | intro {f : Tree} {opening : Token} {ps fs ss cs : List Token} (hp : DerivesParams f.params ps)
      (ho : opening.kind = .leftBrace) (hf : DerivesTuple f.first fs)
      (hs : DerivesSecond f.second ss) (hc : DerivesClause f.condition cs) :
      DerivesFront f (ps ++ opening :: fs ++ ss ++ cs)

theorem Tree.DerivesFront.derives {f : Tree} {ts : List Token} (h : f.DerivesFront ts)
    {closing : Token} (he : closing.kind = .rightBrace) : f.Derives (ts ++ [closing]) := by
  obtain ⟨hp, ho, hf, hs, hc⟩ := h
  exact .intro hp ho hf hs hc he

theorem Tree.Derives.exists_front {f : Tree} {ts : List Token} (h : f.Derives ts) :
    ∃ front closing, ts = front ++ [closing] ∧ f.DerivesFront front ∧
      closing.kind = .rightBrace := by
  obtain ⟨hp, ho, hf, hs, hc, he⟩ := h
  exact ⟨_, _, rfl, .intro hp ho hf hs hc, he⟩

/-- A name where it is declared or where it is used. -/
inductive Occurrence
  | declares (token : Token)
  | uses (token : Token)

namespace Occurrence

def declared? : Occurrence → Option String
  | declares t => some t.lexeme
  | uses _ => none

def declared (os : List Occurrence) : List String := os.filterMap declared?

/-- The first name that is declared again or used undeclared, behind declarations of `names`. -/
def offence? (names : List String) : List Occurrence → Option Refusal
  | [] => none
  | declares t :: os =>
    if t.lexeme ∈ names then some (.atToken .duplicateName t)
    else offence? (names ++ [t.lexeme]) os
  | uses t :: os =>
    if t.lexeme ∈ names then offence? names os else some (.atToken .unknownName t)

end Occurrence

def Term.used : Term → List Token
  | name t => [t]
  | multiple _ t => [t]
  | _ => []

def usedBy (terms : List Term) : List Token := terms.flatMap Term.used

def Comparison.used (c : Comparison) : List Token := usedBy c.left ++ usedBy c.right

namespace Condition

def occurrences : Condition → List Occurrence
  | comparison c => c.used.map .uses
  | block _ ids body => ids.map .declares ++ body.occurrences
  | both first rest => first.occurrences ++ rest.occurrences

def comparisons : Condition → List Comparison
  | comparison c => [c]
  | block _ _ body => body.comparisons
  | both first rest => first.comparisons ++ rest.comparisons

def declared (c : Condition) : List String := Occurrence.declared c.occurrences

end Condition

/-- The number of parameters: those of the tuple for them, or as many as are wanted. -/
def paramCount (params : Option (List Token)) (wanted : Option Nat) : Nat :=
  match params with
  | some ids => ids.length
  | none => wanted.getD 0

namespace Tree

def tupleNames (f : Tree) : List String :=
  (f.params.getD [] ++ f.first ++ f.second.getD []).map (·.lexeme)

def existentials (f : Tree) : List String := (f.condition.map Condition.declared).getD []

def declared (f : Tree) : List String := f.tupleNames ++ f.existentials

def occurrences (f : Tree) : List Occurrence :=
  (f.params.getD [] ++ f.first ++ f.second.getD []).map .declares ++
    (f.condition.map Condition.occurrences).getD []

def comparisons (f : Tree) : List Comparison := (f.condition.map Condition.comparisons).getD []

/-- A name that is used has been declared further in front. -/
def UsesDeclared (f : Tree) : Prop :=
  ∀ before t after, f.occurrences = before ++ .uses t :: after →
    t.lexeme ∈ Occurrence.declared before

def nParam (f : Tree) (wanted : Option Nat) : Nat := paramCount f.params wanted

/-- A tuple of parameters has the wanted number of them; without one the first tuple has as many
names at least. -/
def ParamsFit (f : Tree) (wanted : Option Nat) : Prop :=
  ∀ n ∈ wanted, match f.params with
    | some ids => n = ids.length
    | none => n ≤ f.first.length

end Tree

namespace Occurrence

@[simp] theorem declared_nil : declared [] = [] := rfl

@[simp] theorem declared_cons_declares (t : Token) (os : List Occurrence) :
    declared (declares t :: os) = t.lexeme :: declared os := rfl

@[simp] theorem declared_cons_uses (t : Token) (os : List Occurrence) :
    declared (uses t :: os) = declared os := rfl

@[simp] theorem declared_append (os os' : List Occurrence) :
    declared (os ++ os') = declared os ++ declared os' := by
  simp [declared]

@[simp] theorem declared_declares (ids : List Token) :
    declared (ids.map declares) = ids.map (·.lexeme) := by
  simp [declared, Function.comp_def, declared?]

@[simp] theorem declared_uses (ts : List Token) : declared (ts.map uses) = [] := by
  simp [declared, Function.comp_def, declared?]

def token : Occurrence → Token
  | declares t => t
  | uses t => t

/-- What is wrong about an occurrence that offends. -/
def problem : Occurrence → Problem
  | declares _ => .duplicateName
  | uses _ => .unknownName

/-- Whether a name is declared again or used undeclared, behind declarations of `names`. -/
def Offends (names : List String) : Occurrence → Prop
  | declares t => t.lexeme ∈ names
  | uses t => t.lexeme ∉ names

instance (names : List String) (o : Occurrence) : Decidable (o.Offends names) :=
  match o with
  | declares t => inferInstanceAs (Decidable (t.lexeme ∈ names))
  | uses t => inferInstanceAs (Decidable (t.lexeme ∉ names))

theorem offence?_cons (names : List String) (o : Occurrence) (os : List Occurrence) :
    offence? names (o :: os) =
      if o.Offends names then some (.atToken o.problem o.token)
      else offence? (names ++ declared [o]) os := by
  cases o with
  | declares t => rfl
  | uses t => simp [offence?, Offends, problem, token, ite_not]

theorem offence?_append (names : List String) (os os' : List Occurrence) :
    offence? names (os ++ os') =
      (offence? names os).or (offence? (names ++ declared os) os') := by
  induction os generalizing names with
  | nil => simp [offence?]
  | cons o os ih =>
    rw [List.cons_append, offence?_cons, offence?_cons]
    split
    · rfl
    · rw [ih, List.append_assoc, ← declared_append, List.singleton_append]

theorem offence?_of_offends {names : List String} {before : List Occurrence} {o : Occurrence}
    (hnone : offence? names before = none) (ho : o.Offends (names ++ declared before))
    (after : List Occurrence) :
    offence? names (before ++ o :: after) = some (.atToken o.problem o.token) := by
  rw [offence?_append, hnone, Option.none_or, offence?_cons, if_pos ho]

theorem exists_of_offence? {names : List String} {os : List Occurrence} {refusal : Refusal}
    (h : offence? names os = some refusal) :
    ∃ (before : List Occurrence) (o : Occurrence) (after : List Occurrence),
      os = before ++ o :: after ∧ offence? names before = none ∧
        o.Offends (names ++ declared before) ∧ refusal = .atToken o.problem o.token := by
  induction os generalizing names with
  | nil => simp [offence?] at h
  | cons o os ih =>
    rw [offence?_cons] at h
    split at h
    · rename_i ho
      exact ⟨[], o, os, rfl, rfl, by simpa using ho, (Option.some.inj h).symm⟩
    · rename_i ho
      obtain ⟨before, o', after, rfl, hnone, ho', hrefusal⟩ := ih h
      refine ⟨o :: before, o', after, rfl, ?_, ?_, hrefusal⟩
      · rw [offence?_cons, if_neg ho, hnone]
      · rwa [List.append_assoc, ← declared_append] at ho'

/-- Nothing is refused exactly where no occurrence offends behind those in front of it. -/
theorem offence?_eq_none_iff {names : List String} {os : List Occurrence} :
    offence? names os = none ↔
      ∀ before o after, os = before ++ o :: after → ¬ o.Offends (names ++ declared before) := by
  constructor
  · rintro h before o after rfl ho
    rw [offence?_append, Option.or_eq_none_iff, offence?_cons, if_pos ho] at h
    cases h.2
  · intro h
    by_contra hsome
    obtain ⟨refusal, hrefusal⟩ := Option.ne_none_iff_exists'.mp hsome
    obtain ⟨before, o, after, he, -, ho, -⟩ := exists_of_offence? hrefusal
    exact h before o after he ho

theorem nodup_of_offence? {names : List String} {os : List Occurrence}
    (h : offence? names os = none) (hn : names.Nodup) : (names ++ declared os).Nodup := by
  induction os generalizing names with
  | nil => simpa using hn
  | cons o os ih =>
    cases o with
    | declares t =>
      simp only [offence?] at h
      split at h
      · simp at h
      · rename_i ht
        have := ih h (by simp [List.nodup_append, hn]; exact fun a ha he => ht (he ▸ ha))
        simpa using this
    | uses t =>
      simp only [offence?] at h
      split at h
      · exact ih h hn
      · simp at h

theorem mem_of_offence? {names : List String} {before after : List Occurrence} {t : Token}
    (h : offence? names (before ++ uses t :: after) = none) :
    t.lexeme ∈ names ++ declared before := by
  by_contra hm
  exact offence?_eq_none_iff.mp h before (uses t) after rfl hm

theorem not_offends_declares {before after : List Occurrence} {t : Token}
    (h : (declared (before ++ declares t :: after)).Nodup) :
    ¬ (declares t).Offends (declared before) := by
  rw [declared_append, declared_cons_declares] at h
  exact fun hm => (List.nodup_append.mp h).2.2 _ hm _ List.mem_cons_self rfl

end Occurrence

namespace Tree

theorem declared_occurrences (f : Tree) : Occurrence.declared f.occurrences = f.declared := by
  obtain ⟨params, first, second, condition⟩ := f
  cases condition with
  | none =>
    simp only [occurrences, declared, tupleNames, existentials, Option.map_none,
      Option.getD_none, List.append_nil, Occurrence.declared_declares]
  | some c =>
    simp only [occurrences, declared, tupleNames, existentials, Option.map_some,
      Option.getD_some, Occurrence.declared_append, Occurrence.declared_declares,
      Condition.declared]

/-- No name offends exactly where none is declared twice and all are declared before their use. -/
theorem offence?_eq_none_iff (f : Tree) :
    Occurrence.offence? [] f.occurrences = none ↔ f.declared.Nodup ∧ f.UsesDeclared := by
  rw [← declared_occurrences]
  constructor
  · intro h
    refine ⟨Occurrence.nodup_of_offence? h List.nodup_nil, fun before t after he => ?_⟩
    rw [he] at h
    exact Occurrence.mem_of_offence? h
  · rintro ⟨hn, hu⟩
    refine Occurrence.offence?_eq_none_iff.mpr fun before o after he ho => ?_
    cases o with
    | declares t => exact Occurrence.not_offends_declares (he ▸ hn) ho
    | uses t => exact ho (hu before t after he)

end Tree
end ConstraintText.Formula

import ConstraintText.Json.Parse
import ConstraintText.Proofs.JsonTokens

/-!
# Documents read back

The reader takes the tokens of any document, wherever a value may stand, and goes on behind that
document. Depth and width are the induction's: within a document the stack holds what surrounds it
unchanged. So the printed texts of a document, which spell its tokens, are read as the document.
-/
namespace ConstraintText.Json

theorem induction {motive : Json → Prop} (null : motive .null) (bool : ∀ b, motive (.bool b))
    (number : ∀ n, motive (.number n)) (string : ∀ s, motive (.string s))
    (array : ∀ items, (∀ v ∈ items, motive v) → motive (.array items))
    (object : ∀ members, (∀ m ∈ members, motive m.2) → motive (.object members)) (v : Json) :
    motive v :=
  match v with
  | .null => null
  | .bool b => bool b
  | .number n => number n
  | .string s => string s
  | .array items => array items fun v _ => induction null bool number string array object v
  | .object members =>
    object members fun m _ => induction null bool number string array object m.2
termination_by sizeOf v
decreasing_by
  · have := List.sizeOf_lt_of_mem ‹v ∈ items›
    simp only [Json.array.sizeOf_spec]
    omega
  · have := List.sizeOf_lt_of_mem ‹m ∈ members›
    have : sizeOf m = 1 + sizeOf m.1 + sizeOf m.2 := rfl
    simp only [Json.object.sizeOf_spec]
    omega

/-- Whether a value may stand next: an array that could end here is the one other thing allowed. -/
def ExpectsValue (p : Position) (stack : List Frame) : Prop :=
  ∀ t, t ≠ .closeBracket → step p t = stepValue stack t

theorem expectsValue_value (stack : List Frame) : ExpectsValue (.value stack) stack :=
  fun _ _ => rfl

theorem expectsValue_firstItem (stack : List Frame) :
    ExpectsValue (.firstItem stack) (.array [] :: stack) := fun _ ht => if_neg ht

/-- The reader takes the tokens of a value where one may stand. -/
def Consumes (v : Json) : Prop :=
  ∀ p stack, ExpectsValue p stack → ∀ ts,
    (tokens v ++ ts).foldlM step p = ts.foldlM step (behind v stack)

theorem foldlM_items {vs : List Json} (hne : vs ≠ []) (hvs : ∀ v ∈ vs, Consumes v) {p : Position}
    {before : List Json} {stack : List Frame} (hp : ExpectsValue p (.array before :: stack))
    (ts : List Lexeme) :
    ([.comma].intercalate (vs.map tokens) ++ .closeBracket :: ts).foldlM step p =
      ts.foldlM step (behind (.array (before ++ vs)) stack) := by
  induction vs generalizing p before with
  | nil => exact absurd rfl hne
  | cons v vs ih =>
    rw [List.forall_mem_cons] at hvs
    cases vs with
    | nil =>
      rw [List.map_singleton, List.intercalate_singleton, hvs.1 p _ hp]
      rfl
    | cons w vs =>
      have hrest := ih (by simp) hvs.2 (expectsValue_value (.array (before ++ [v]) :: stack))
      simp only [List.map_cons, List.append_assoc, List.singleton_append] at hrest ⊢
      rw [List.intercalate_cons_cons, List.append_assoc, List.append_assoc, hvs.1 p _ hp, ← hrest]
      rfl

def ExpectsKey (p : Position) (before : List (Option String × Json)) (stack : List Frame) : Prop :=
  ∀ key, step p (.string key) = some (.colon before key stack)

theorem expectsKey_firstKey (stack : List Frame) : ExpectsKey (.firstKey stack) [] stack :=
  fun _ => rfl

theorem expectsKey_key (before : List (Option String × Json)) (stack : List Frame) :
    ExpectsKey (.key before stack) before stack := fun _ => rfl

theorem foldlM_pair {m : Option String × Json} (hm : Consumes m.2) {p : Position}
    {before : List (Option String × Json)} {stack : List Frame} (hp : ExpectsKey p before stack)
    (ts : List Lexeme) :
    (pairTokens m ++ ts).foldlM step p =
      ts.foldlM step (.afterMember (before ++ [m]) stack) := by
  have hvalue := hm _ _ (expectsValue_value (.object before m.1 :: stack)) ts
  simp only [pairTokens, List.cons_append, List.foldlM_cons, hp m.1, Option.bind_eq_bind,
    Option.bind_some]
  exact hvalue

theorem foldlM_members {ms : List (Option String × Json)} (hne : ms ≠ [])
    (hms : ∀ m ∈ ms, Consumes m.2) {p : Position} {before : List (Option String × Json)}
    {stack : List Frame} (hp : ExpectsKey p before stack) (ts : List Lexeme) :
    ([.comma].intercalate (ms.map pairTokens) ++ .closeBrace :: ts).foldlM step p =
      ts.foldlM step (behind (.object (before ++ ms)) stack) := by
  induction ms generalizing p before with
  | nil => exact absurd rfl hne
  | cons m ms ih =>
    rw [List.forall_mem_cons] at hms
    cases ms with
    | nil =>
      rw [List.map_singleton, List.intercalate_singleton, foldlM_pair hms.1 hp]
      rfl
    | cons w ms =>
      have hrest := ih (by simp) hms.2 (expectsKey_key (before ++ [m]) stack)
      simp only [List.map_cons, List.append_assoc, List.singleton_append] at hrest ⊢
      rw [List.intercalate_cons_cons, List.append_assoc, List.append_assoc, foldlM_pair hms.1 hp,
        ← hrest]
      rfl

theorem consumes_of_token {v : Json} {t : Lexeme} (hv : tokens v = [t]) (ht : t ≠ .closeBracket)
    (hstep : ∀ stack, stepValue stack t = some (behind v stack)) : Consumes v := by
  intro p stack hp ts
  rw [hv, List.singleton_append, List.foldlM_cons, hp t ht, hstep]
  rfl

theorem consumes (v : Json) : Consumes v := by
  induction v using Json.induction with
  | null => exact consumes_of_token (by rw [tokens]) (by simp) fun _ => rfl
  | bool b => exact consumes_of_token (by rw [tokens]) (by simp) fun _ => rfl
  | number n => exact consumes_of_token (by rw [tokens]) (by simp) fun _ => rfl
  | string s => exact consumes_of_token (by rw [tokens]) (by simp) fun _ => rfl
  | array items ih =>
    intro p stack hp ts
    have hopen : step p .openBracket = some (.firstItem stack) := hp _ (by simp)
    simp only [tokens, itemTokens_eq, List.cons_append, List.append_assoc, List.foldlM_cons, hopen,
      Option.bind_eq_bind, Option.bind_some, List.nil_append]
    by_cases hne : items = []
    · subst hne
      rfl
    · exact foldlM_items hne ih (expectsValue_firstItem stack) ts
  | object members ih =>
    intro p stack hp ts
    have hopen : step p .openBrace = some (.firstKey stack) := hp _ (by simp)
    simp only [tokens, memberTokens_eq, List.cons_append, List.append_assoc, List.foldlM_cons,
      hopen, Option.bind_eq_bind, Option.bind_some, List.nil_append]
    by_cases hne : members = []
    · subst hne
      rfl
    · exact foldlM_members hne ih (expectsKey_firstKey stack) ts

/-- A text that spells the tokens of a document is read as that document. -/
theorem parse?_of_spells {text : String} {v : Json} (h : Spells text (tokens v)) :
    parse? text = some v := by
  have hrun := consumes v _ _ (expectsValue_value []) []
  rw [List.append_nil] at hrun
  simp [parse?, h.lexemes?, hrun, behind]

theorem parse?_compact {v : Json} (hv : v.IsPlain) : parse? (compact v) = some v :=
  parse?_of_spells (spells_compact hv)

theorem parse?_pretty {v : Json} (hv : v.IsPlain) : parse? (pretty v) = some v :=
  parse?_of_spells (spells_prettyAt hv 0)

end ConstraintText.Json

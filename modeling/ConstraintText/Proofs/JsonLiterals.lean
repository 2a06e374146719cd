import ConstraintText.Json.Literal
import Mathlib.Data.List.Basic

/-!
# Literals read back

A string literal is read back as the text it was written for, whatever characters that has: the
escapes undo each other one character at a time. A number literal without fraction and exponent is
read back in front of anything that does not go on with it.
-/
namespace ConstraintText.Json

def EndsNumber (cs : List Char) : Prop :=
  ∀ c ∈ cs.head?, c.isDigit = false ∧ c ≠ '.' ∧ c ≠ 'e' ∧ c ≠ 'E'

@[simp] theorem endsNumber_nil : EndsNumber [] := by simp [EndsNumber]

theorem head?_toDigits {n : Nat} (h : 0 < n) : (Nat.toDigits 10 n).head? ≠ some '0' := by
  induction n using Nat.strongRecOn with
  | ind n ih =>
    by_cases hn : n < 10
    · rw [Nat.toDigits_of_lt_base hn]
      have hdigit : ∀ d < 10, 0 < d → d.digitChar ≠ '0' := by decide
      simpa using hdigit n hn h
    · rw [Nat.toDigits_of_base_le (by decide) (by omega),
        List.head?_append_of_ne_nil _ Nat.toDigits_ne_nil]
      exact ih (n / 10) (by omega) (by omega)

theorem digits?_append {ds rest : List Char} (hne : ds ≠ []) (hds : ∀ c ∈ ds, c.isDigit = true)
    (hr : EndsNumber rest) : digits? (ds ++ rest) = some (ds, rest) := by
  have hspan : spanDigits (ds ++ rest) = (ds, rest) := by
    rw [spanDigits, List.takeWhile_append_of_pos hds, List.dropWhile_append_of_pos hds]
    cases rest with
    | nil => simp
    | cons c rest => simp [(hr c (by simp)).1]
  unfold digits?
  rw [hspan]
  cases ds with
  | nil => exact absurd rfl hne
  | cons d ds => rfl

theorem whole?_toDigits (n : Nat) {rest : List Char} (hr : EndsNumber rest) :
    whole? (Nat.toDigits 10 n ++ rest) = some (n, rest) := by
  rcases Nat.eq_zero_or_pos n with rfl | hn
  · have hdigit : rest.head?.any Char.isDigit = false := by
      rw [Option.any_eq_false]
      exact fun c hc => by simpa using (hr c hc).1
    have hzero : Nat.toDigits 10 0 = ['0'] := by decide
    simp [whole?, hzero, hdigit]
  · have hdigits : digits? (Nat.toDigits 10 n ++ rest) = some (Nat.toDigits 10 n, rest) :=
      digits?_append Nat.toDigits_ne_nil
        (fun c hc => Nat.isDigit_of_mem_toDigits (by decide) (by decide) hc) hr
    have hhead : (Nat.toDigits 10 n ++ rest).head? ≠ some '0' := by
      rw [List.head?_append_of_ne_nil _ Nat.toDigits_ne_nil]
      exact head?_toDigits hn
    unfold whole?
    split
    · simp_all
    · simp [hdigits, Decimal.value]

theorem fraction?_of_endsNumber {rest : List Char} (hr : EndsNumber rest) :
    fraction? rest = some ([], rest) := by
  cases rest with
  | nil => rfl
  | cons c rest =>
    have := (hr c (by simp)).2.1
    simp [fraction?, this]

theorem exponent?_of_endsNumber {rest : List Char} (hr : EndsNumber rest) :
    exponent? rest = some ([], rest) := by
  cases rest with
  | nil => rfl
  | cons c rest =>
    have := (hr c (by simp)).2.2
    simp [exponent?, this]

theorem toList_numberText {n : NumberLiteral} (hn : n.rest = []) :
    (numberText n).toList = (if n.negative then ['-'] else []) ++ Nat.toDigits 10 n.whole := by
  cases h : n.negative <;> simp [numberText, h, hn]

theorem number?_numberText {n : NumberLiteral} (hn : n.rest = []) {rest : List Char}
    (hr : EndsNumber rest) : number? ((numberText n).toList ++ rest) = some (n, rest) := by
  obtain ⟨negative, whole, fraction⟩ := n
  subst hn
  have hwhole := whole?_toDigits whole hr
  rw [toList_numberText rfl]
  cases negative with
  | false =>
    have hhead : (Nat.toDigits 10 whole).head? ≠ some '-' := by
      intro h
      have := Nat.isDigit_of_mem_toDigits (by decide) (by decide) (List.mem_of_mem_head? h)
      simp at this
    have hne : Nat.toDigits 10 whole ≠ [] := Nat.toDigits_ne_nil
    simp [number?, List.head?_append_of_ne_nil _ hne, hhead, hwhole, fraction?_of_endsNumber hr,
      exponent?_of_endsNumber hr]
  | true =>
    simp [number?, hwhole, fraction?_of_endsNumber hr, exponent?_of_endsNumber hr]

theorem hexValue?_hexDigit : ∀ d < 16, hexValue? (hexDigit d) = some d := by decide

/-- What stands for a character in a string literal is read as that character. -/
theorem stringBody?_escape (c : Char) (cs : List Char) :
    stringBody? (escape c ++ cs) =
      (stringBody? cs).map fun (units, rest) => (.char c :: units, rest) := by
  unfold escape
  split_ifs with hquote hslash hb hf hn hr ht hcontrol
  · subst hquote; simp [stringBody?, shortEscape?]
  · subst hslash; simp [stringBody?, shortEscape?]
  · subst hb; simp [stringBody?, shortEscape?]
  · subst hf; simp [stringBody?, shortEscape?]
  · subst hn; simp [stringBody?, shortEscape?]
  · subst hr; simp [stringBody?, shortEscape?]
  · subst ht; simp [stringBody?, shortEscape?]
  · have hhigh := hexValue?_hexDigit (c.toNat / 16) (by omega)
    have hlow := hexValue?_hexDigit (c.toNat % 16) (by omega)
    have hzero : hexValue? '0' = some 0 := by decide
    have hnumber : hexNumber? '0' '0' (hexDigit (c.toNat / 16)) (hexDigit (c.toNat % 16)) =
        some c.toNat := by
      simp only [hexNumber?, hzero, hhigh, hlow, Option.bind_eq_bind, Option.bind_some,
        Option.pure_def, Option.some.injEq]
      omega
    have hunit : unitOfNumber c.toNat = .char c := by
      rw [unitOfNumber, if_neg (by omega), Char.ofNat_toNat]
    simp [numberEscape, stringBody?, hnumber, hunit]
  · have hplain : ¬ (c.toNat < 32 ∨ c = '\\') := not_or.mpr ⟨hcontrol, hslash⟩
    rw [List.cons_append, List.nil_append, stringBody?.eq_def]
    split
    case h_5 d r _ _ _ heq =>
      obtain ⟨rfl, rfl⟩ := List.cons.inj heq
      rw [if_neg hplain]
    all_goals simp_all

theorem stringBody?_flatMap_escape (s rest : List Char) :
    stringBody? (s.flatMap escape ++ '"' :: rest) = some (s.map .char, rest) := by
  induction s with
  | nil => simp [stringBody?]
  | cons c s ih => simp [stringBody?_escape, ih]

theorem unitsText?_map_char (s : List Char) : unitsText? (s.map .char) = some s := by
  induction s with
  | nil => rfl
  | cons c s ih => simp [unitsText?, ih]

theorem toList_quote (s : String) : (quote s).toList = '"' :: s.toList.flatMap escape ++ ['"'] := by
  rw [quote, String.toList_ofList]

end ConstraintText.Json

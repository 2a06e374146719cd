import ConstraintText.Proofs.Outcome

/-!
# What a machine reaches

A machine that begins in a state with some tokens to come reaches other states, each with the tokens
that are then left. What holds at the beginning and is kept by each step holds wherever it gets. If
no step from there fails but by refusing, the machine does not fail otherwise, and what it reads is
what its last step gives. Where it fails, it has got to a step that fails so, or to a state that
refuses the end of the text so.

A machine may have a second set of steps, which check what they do and may give nothing. It passes
if they give its own steps wherever it gets.
-/
namespace ConstraintText

/-- Whether a step goes on to states as they should be, gives only objects as they should be and
fails only by refusing. -/
def Next.Goes {σ α : Type} (P : σ → Prop) (Q : α → Prop) : Next σ α → Prop
  | .go q => P q
  | .fail e => ∃ r, e = .refused r
  | .done value => Q value

def Outcome.Ends {α : Type} (Q : α → Prop) : Outcome α → Prop
  | .done value _ => Q value
  | .failed e => ∃ r, e = .refused r
  | .short _ => True

namespace Machine

variable {σ α : Type}

/-- The states and tokens that a machine gets to, one step after another. -/
inductive Reaches (m : Machine σ α) (q : σ) (ts : List Token) : σ → List Token → Prop
  | refl : Reaches m q ts q ts
  | take {q₁ q₂ : σ} {t : Token} {us : List Token} (h : Reaches m q ts q₁ (t :: us))
      (hn : (m.onToken q₁ t).next = .go q₂) (ht : (m.onToken q₁ t).token = .take) :
      Reaches m q ts q₂ us
  | leave {q₁ q₂ : σ} {t : Token} {us : List Token} (h : Reaches m q ts q₁ (t :: us))
      (hn : (m.onToken q₁ t).next = .go q₂) (ht : (m.onToken q₁ t).token ≠ .take) :
      Reaches m q ts q₂ (t :: us)
  | finish {q₁ q₂ : σ} {events : List ReadEvent} (h : Reaches m q ts q₁ [])
      (he : m.onEnd q₁ = .go events q₂) : Reaches m q ts q₂ []

/-- Steps that may fail a check. -/
structure Checks (σ α : Type) where
  onToken? : σ → Token → Option (Move σ α)
  onEnd? : σ → Option (EndMove σ)

/-- Whether no check fails and each checked step is that of the machine, wherever it gets. -/
structure Passes (m : Machine σ α) (c : Checks σ α) (q : σ) (ts : List Token) : Prop where
  token {q' : σ} {t : Token} {us : List Token} : m.Reaches q ts q' (t :: us) →
    c.onToken? q' t = some (m.onToken q' t)
  finish {q' : σ} : m.Reaches q ts q' [] → c.onEnd? q' = some (m.onEnd q')

/-- Whether the steps of a machine keep an invariant, give objects as they should be and fail only
by refusing. -/
structure Stays (m : Machine σ α) (I : σ → List Token → Prop) (Q : α → Prop) : Prop where
  token {q : σ} {t : Token} {ts : List Token} : I q (t :: ts) → (m.onToken q t).next.Goes
    (fun q' => I q' (if (m.onToken q t).token = .take then ts else t :: ts)) Q
  finish {q q' : σ} {events : List ReadEvent} : I q [] → m.onEnd q = .go events q' → I q' []

variable {m : Machine σ α} {I : σ → List Token → Prop} {Q : α → Prop} {q q' : σ}
  {ts us : List Token}

theorem Stays.take (hm : m.Stays I Q) {t : Token} (hq : I q (t :: ts))
    (hn : (m.onToken q t).next = .go q') (ht : (m.onToken q t).token = .take) : I q' ts := by
  have hgoes := hm.token hq
  rwa [hn, Next.Goes, if_pos ht] at hgoes

theorem Stays.leave (hm : m.Stays I Q) {t : Token} (hq : I q (t :: ts))
    (hn : (m.onToken q t).next = .go q') (ht : (m.onToken q t).token ≠ .take) :
    I q' (t :: ts) := by
  have hgoes := hm.token hq
  rwa [hn, Next.Goes, if_neg ht] at hgoes

theorem Stays.reaches (hm : m.Stays I Q) (h : m.Reaches q ts q' us) (hq : I q ts) : I q' us := by
  induction h with
  | refl => exact hq
  | take _ hn ht ih => exact hm.take ih hn ht
  | leave _ hn ht ih => exact hm.leave ih hn ht
  | finish _ he ih => exact hm.finish ih he

/-- It is enough that checks hold where the invariant does. -/
theorem Stays.passes (hm : m.Stays I Q) (hq : I q ts) {c : Checks σ α}
    (htoken : ∀ {q t us}, I q (t :: us) → c.onToken? q t = some (m.onToken q t))
    (hfinish : ∀ {q}, I q [] → c.onEnd? q = some (m.onEnd q)) : m.Passes c q ts :=
  ⟨fun h => htoken (hm.reaches h hq), fun h => hfinish (hm.reaches h hq)⟩

theorem Reaches.exists_fail {q₀ : σ} {ts₀ : List Token} (h : m.Reaches q₀ ts₀ q ts) {e : ReadError}
    (he : m.outcome q ts = .failed e) :
    ∃ q' t us, m.Reaches q₀ ts₀ q' (t :: us) ∧ (m.onToken q' t).next = .fail e := by
  fun_induction outcome m q ts with
  | case1 q problem hn => simp at he
  | case2 q events q' hn ih => exact ih (h.finish hn) he
  | case3 q t ts e' hn =>
    obtain rfl : e' = e := Outcome.failed.inj he
    exact ⟨q, t, ts, h, hn⟩
  | case4 q t ts value hn => simp at he
  | case5 q t ts q' hn ht ih => exact ih (h.take hn ht) he
  | case6 q t ts q' hn ht ih => exact ih (h.leave hn ht) he

/-- What a machine that its tokens run out for would be refused with is told by a state at the end of
the text. -/
theorem exists_onEnd_of_short {problem : Problem} (h : m.outcome q ts = .short problem) :
    ∃ q', m.onEnd q' = .refuse problem := by
  fun_induction outcome m q ts with
  | case1 q problem' hn =>
    obtain rfl : problem' = problem := Outcome.short.inj h
    exact ⟨q, hn⟩
  | case2 q events q' hn ih => exact ih h
  | case3 q t ts e hn => simp at h
  | case4 q t ts value hn => simp at h
  | case5 q t ts q' hn ht ih => exact ih h
  | case6 q t ts q' hn ht ih => exact ih h

/-- A reading that fails does so where the text cannot be scanned, where the text ends, or in a
step. -/
theorem exists_of_result_error {scanner : Scanner} {e : ReadError}
    (h : (m.outcome q ts).result scanner = .error e) :
    (∃ cause, e = .lexical cause) ∨
    (∃ q' problem place, m.onEnd q' = .refuse problem ∧ e = .refused (.atPlace problem place)) ∨
    ∃ q' t us, m.Reaches q ts q' (t :: us) ∧ (m.onToken q' t).next = .fail e := by
  cases ho : m.outcome q ts with
  | done value rest => simp [ho, Outcome.result] at h
  | failed e' =>
    obtain rfl : e' = e := by simpa [ho, Outcome.result] using h
    exact .inr (.inr (Reaches.refl.exists_fail ho))
  | short problem =>
    obtain ⟨q', hq⟩ := exists_onEnd_of_short ho
    simp only [ho, Outcome.result, Scanner.stopError, Except.error.injEq] at h
    cases hs : scanner.stop with
    | error cause => exact .inl ⟨cause, by simpa [hs] using h.symm⟩
    | ok place => exact .inr (.inl ⟨q', problem, place, hq, by simpa [hs] using h.symm⟩)

theorem Stays.ends (hm : m.Stays I Q) (hq : I q ts) : (m.outcome q ts).Ends Q := by
  fun_induction outcome m q ts with
  | case1 q problem hn => trivial
  | case2 q events q' hn ih => exact ih (hm.finish hq hn)
  | case3 q t ts e hn =>
    have hgoes := hm.token hq
    rwa [hn] at hgoes
  | case4 q t ts value hn =>
    have hgoes := hm.token hq
    rwa [hn] at hgoes
  | case5 q t ts q' hn ht ih => exact ih (hm.take hq hn ht)
  | case6 q t ts q' hn ht ih => exact ih (hm.leave hq hn ht)

end Machine
end ConstraintText

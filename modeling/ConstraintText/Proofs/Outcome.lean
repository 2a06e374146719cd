import ConstraintText.Proofs.Tokens

/-!
# Machines on lists of tokens

The outcome of a machine on a list of tokens is what it reads and the tokens it leaves, the error
it fails with, or the problem that the end of the text would be refused with. A run on a stream is
the outcome on the tokens to come: no run depends on how the stream holds them.
-/
namespace ConstraintText

inductive Outcome (α : Type)
  | done (value : α) (rest : List Token)
  | failed (error : ReadError)
  | short (problem : Problem)

namespace Outcome

variable {α : Type}

/-- The outcome, unless a refusal comes before it. -/
def refusedOr (r : Option Refusal) (o : Outcome α) : Outcome α :=
  match r with
  | some r => .failed (.refused r)
  | none => o

@[simp] theorem refusedOr_none (o : Outcome α) : refusedOr none o = o := rfl

@[simp] theorem refusedOr_some (r : Refusal) (o : Outcome α) :
    refusedOr (some r) o = .failed (.refused r) := rfl

theorem refusedOr_or (r r' : Option Refusal) (o : Outcome α) :
    refusedOr (r.or r') o = refusedOr r (refusedOr r' o) := by
  cases r <;> rfl

theorem refusedOr_congr {r : Option Refusal} {o o' : Outcome α} (h : r = none → o = o') :
    refusedOr r o = refusedOr r o' := by
  cases r with
  | none => exact h rfl
  | some r => rfl

end Outcome

/-- Whether a step keeps an invariant of the states and gives only objects as they should be. -/
def Next.Keeps {σ α : Type} (I : σ → Prop) (P : α → Prop) : Next σ α → Prop
  | .go q => I q
  | .fail _ => True
  | .done value => P value

namespace Machine

variable {σ α : Type}

/-- What a machine makes of a list of tokens. -/
def outcome (m : Machine σ α) (q : σ) (ts : List Token) : Outcome α :=
  match ts with
  | [] =>
    match _hq : m.onEnd q with
    | .refuse problem => .short problem
    | .go _ q' => m.outcome q' []
  | t :: ts =>
    match _hq : (m.onToken q t).next with
    | .fail e => .failed e
    | .done value => .done value (if (m.onToken q t).token = .take then ts else t :: ts)
    | .go q' =>
      if _ht : (m.onToken q t).token = .take then m.outcome q' ts else m.outcome q' (t :: ts)
termination_by (ts.length, m.rank q)
decreasing_by
  · exact Prod.Lex.right _ (m.rank_onEnd _hq)
  · exact Prod.Lex.left _ _ (Nat.lt_succ_self _)
  · exact Prod.Lex.right _ (m.rank_onToken _hq _ht)

variable {m : Machine σ α} {q q' : σ} {t : Token} {ts : List Token}

theorem outcome_nil_go {events : List ReadEvent} (h : m.onEnd q = .go events q') :
    m.outcome q [] = m.outcome q' [] := by
  rw [outcome]
  split <;> simp_all

theorem outcome_nil_refuse {problem : Problem} (h : m.onEnd q = .refuse problem) :
    m.outcome q [] = .short problem := by
  rw [outcome]
  split <;> simp_all

theorem outcome_take (hn : (m.onToken q t).next = .go q') (ht : (m.onToken q t).token = .take) :
    m.outcome q (t :: ts) = m.outcome q' ts := by
  rw [outcome]
  split <;> simp_all

theorem outcome_leave (hn : (m.onToken q t).next = .go q') (ht : (m.onToken q t).token ≠ .take) :
    m.outcome q (t :: ts) = m.outcome q' (t :: ts) := by
  rw [outcome]
  split <;> simp_all

theorem outcome_fail {e : ReadError} (hn : (m.onToken q t).next = .fail e) :
    m.outcome q (t :: ts) = .failed e := by
  rw [outcome]
  split <;> simp_all

theorem outcome_done {value : α} (hn : (m.onToken q t).next = .done value)
    (ht : (m.onToken q t).token = .take) : m.outcome q (t :: ts) = .done value ts := by
  rw [outcome]
  split <;> simp_all

theorem outcome_of_take (h : m.onToken q t = .take q') :
    m.outcome q (t :: ts) = m.outcome q' ts := by
  apply outcome_take <;> rw [h] <;> rfl

theorem outcome_of_leave (h : m.onToken q t = .leave q') :
    m.outcome q (t :: ts) = m.outcome q' (t :: ts) := by
  apply outcome_leave <;> rw [h]
  · rfl
  · simp [Move.leave]

theorem outcome_of_refuse {problem : Problem} (h : m.onToken q t = .refuse problem t) :
    m.outcome q (t :: ts) = .failed (.refused (.atToken problem t)) :=
  outcome_fail (by rw [h]; rfl)

theorem outcome_of_fault {f : Fault} (h : m.onToken q t = .fault f) :
    m.outcome q (t :: ts) = .failed (.fault f) :=
  outcome_fail (by rw [h]; rfl)

theorem exists_short (m : Machine σ α) (q : σ) : ∃ problem, m.outcome q [] = .short problem := by
  cases h : m.onEnd q with
  | refuse problem => exact ⟨problem, outcome_nil_refuse h⟩
  | go events q' =>
    have := m.rank_onEnd h
    rw [outcome_nil_go h]
    exact exists_short m q'
termination_by m.rank q

/-- What all steps keep holds for what is read. -/
theorem outcome_keeps {I : σ → Prop} {P : α → Prop}
    (hstep : ∀ q t, I q → (m.onToken q t).next.Keeps I P) (hq : I q) {value : α}
    {rest : List Token} (h : m.outcome q ts = .done value rest) : P value := by
  fun_induction outcome m q ts with
  | case1 q problem hn => simp at h
  | case2 q events q' hn ih =>
    obtain ⟨problem, hp⟩ := m.exists_short q'
    simp [hp] at h
  | case3 q t ts e hn => simp at h
  | case4 q t ts v hn =>
    have hk := hstep q t hq
    rw [hn] at hk
    rw [Outcome.done.injEq] at h
    exact h.1 ▸ hk
  | case5 q t ts q' hn ht ih =>
    have hk := hstep q t hq
    rw [hn] at hk
    exact ih hk h
  | case6 q t ts q' hn ht ih =>
    have hk := hstep q t hq
    rw [hn] at hk
    exact ih hk h

end Machine

/-- The error of a reading that the tokens run out for: the text stops at an error or at its end. -/
def Scanner.stopError (s : Scanner) (problem : Problem) : ReadError :=
  match s.stop with
  | .error e => .lexical e
  | .ok place => .refused (.atPlace problem place)

def Outcome.result {α : Type} (s : Scanner) : Outcome α → Except ReadError α
  | .done value _ => .ok value
  | .failed e => .error e
  | .short problem => .error (s.stopError problem)

/-- The outcome that a reading of a stream has: its result, and the tokens behind its object. -/
def Reading.Agrees {α : Type} (r : Reading α) (s : TokenStream) : Outcome α → Prop
  | .done value rest => r.result = .ok value ∧ r.stream.tokens = rest
  | .failed e => r.result = .error e
  | .short problem => r.result = .error (s.scanner.stopError problem)

namespace TokenStream

theorem dispose_of_ne_take {s : TokenStream} (h : s.pending = none) {d : Disposition}
    (hd : d ≠ .take) (t : Token) :
    ∃ events, s.dispose d t = .ok (⟨s.scanner, some t⟩, events) := by
  obtain ⟨scanner, pending⟩ := s
  subst h
  cases d with
  | take => exact absurd rfl hd
  | pushBack => exact ⟨_, rfl⟩
  | peek => exact ⟨_, rfl⟩

end TokenStream

namespace Machine

variable {σ α : Type}

/-- A run on a stream is the outcome on its tokens. -/
theorem run_agrees (m : Machine σ α) (s : TokenStream) (q : σ) :
    (m.run s q).Agrees s (m.outcome q s.tokens) := by
  generalize hts : s.tokens = ts
  fun_induction outcome m q ts generalizing s with
  | case1 q problem hq =>
    rcases TokenStream.next_of_tokens_nil hts with ⟨e, s', hn, hs⟩ | ⟨s', hn, -, hs, -⟩
    · simp [Reading.Agrees, run_of_lexical m q hn, Reading.error, Scanner.stopError, hs]
    · simp [Reading.Agrees, run_of_end m q hn, hq, Reading.error, Scanner.stopError, hs,
        TokenStream.refusal]
  | case2 q events q' hq ih =>
    rcases TokenStream.next_of_tokens_nil hts with ⟨e, s', hn, hs⟩ | ⟨s', hn, ht', hs, hs'⟩
    · obtain ⟨problem, hp⟩ := m.exists_short q'
      simp [Reading.Agrees, hp, run_of_lexical m q hn, Reading.error, Scanner.stopError, hs]
    · obtain ⟨problem, hp⟩ := m.exists_short q'
      have h := ih s' ht'
      rw [hp] at h ⊢
      simpa [Reading.Agrees, run_of_end m q hn, hq, Reading.after, Scanner.stopError, hs'] using h
  | case3 q t ts e hq =>
    obtain ⟨s', hn, hp, -, -⟩ := TokenStream.next_of_tokens_cons hts
    by_cases ht : (m.onToken q t).token = .take
    · simp [Reading.Agrees, run_of_token m q hn, ht, TokenStream.dispose, hq, Reading.error,
        Reading.after]
    · obtain ⟨events, hd⟩ := TokenStream.dispose_of_ne_take hp ht t
      simp [Reading.Agrees, run_of_token m q hn, hd, hq, Reading.error, Reading.after]
  | case4 q t ts value hq =>
    obtain ⟨s', hn, hp, hs', -⟩ := TokenStream.next_of_tokens_cons hts
    by_cases ht : (m.onToken q t).token = .take
    · simp [Reading.Agrees, run_of_token m q hn, ht, TokenStream.dispose, hq, Reading.ok,
        Reading.after, hs']
    · obtain ⟨events, hd⟩ := TokenStream.dispose_of_ne_take hp ht t
      rw [TokenStream.tokens_of_pending_none hp] at hs'
      simp [Reading.Agrees, run_of_token m q hn, hd, hq, Reading.ok, Reading.after, ht,
        TokenStream.tokens, hs']
  | case5 q t ts q' hq ht ih =>
    obtain ⟨s', hn, hp, hs', hstop⟩ := TokenStream.next_of_tokens_cons hts
    have h := ih s' hs'
    simp only [run_of_token m q hn, ht, TokenStream.dispose, hq]
    revert h
    cases m.outcome q' ts <;>
      simp [Reading.Agrees, Reading.after, Scanner.stopError, hstop]
  | case6 q t ts q' hq ht ih =>
    obtain ⟨s', hn, hp, hs', hstop⟩ := TokenStream.next_of_tokens_cons hts
    obtain ⟨events, hd⟩ := TokenStream.dispose_of_ne_take hp ht t
    rw [TokenStream.tokens_of_pending_none hp] at hs'
    have h := ih ⟨s'.scanner, some t⟩ (by simp [TokenStream.tokens, hs'])
    simp only [run_of_token m q hn, hd, hq]
    revert h
    cases m.outcome q' (t :: ts) <;>
      simp [Reading.Agrees, Reading.after, Scanner.stopError, hstop]

theorem run_result (m : Machine σ α) (s : TokenStream) (q : σ) :
    (m.run s q).result = (m.outcome q s.tokens).result s.scanner := by
  have h := m.run_agrees s q
  cases ho : m.outcome q s.tokens <;> simp_all [Reading.Agrees, Outcome.result]

theorem run_ok_iff {m : Machine σ α} {s : TokenStream} {q : σ} {value : α} :
    (m.run s q).result = .ok value ↔ ∃ rest, m.outcome q s.tokens = .done value rest := by
  have h := m.run_agrees s q
  cases ho : m.outcome q s.tokens <;> simp_all [Reading.Agrees]

end Machine
end ConstraintText

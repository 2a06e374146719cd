import ConstraintText.Proofs.Outcome

/-!
# Two runs side by side

A machine runs on two lists of tokens that are alike token by token. If states that are alike step
to states that are alike, using up the same tokens, then both runs end alike: both are done, both
fail or both run out of tokens.
-/
namespace ConstraintText

variable {σ α : Type}

/-- Whether two steps both go on, both fail or are both done, with what is alike. -/
def Next.Alike (R : σ → σ → Prop) (E : ReadError → ReadError → Prop) (D : α → α → Prop) :
    Next σ α → Next σ α → Prop
  | .go q, .go q' => R q q'
  | .fail e, .fail e' => E e e'
  | .done value, .done value' => D value value'
  | _, _ => False

namespace Next

variable {R : σ → σ → Prop} {E : ReadError → ReadError → Prop} {D : α → α → Prop}
  {next : Next σ α}

theorem Alike.of_go {q : σ} (h : Next.Alike R E D (.go q) next) : ∃ q', next = .go q' ∧ R q q' := by
  cases next with
  | go q' => exact ⟨q', rfl, h⟩
  | fail e => exact h.elim
  | done value => exact h.elim

theorem Alike.of_fail {e : ReadError} (h : Next.Alike R E D (.fail e) next) :
    ∃ e', next = .fail e' ∧ E e e' := by
  cases next with
  | go q => exact h.elim
  | fail e' => exact ⟨e', rfl, h⟩
  | done value => exact h.elim

theorem Alike.of_done {value : α} (h : Next.Alike R E D (.done value) next) :
    ∃ value', next = .done value' ∧ D value value' := by
  cases next with
  | go q => exact h.elim
  | fail e => exact h.elim
  | done value' => exact ⟨value', rfl, h⟩

end Next

structure Move.Alike (R : σ → σ → Prop) (E : ReadError → ReadError → Prop) (D : α → α → Prop)
    (move move' : Move σ α) : Prop where
  token : move'.token = move.token
  next : Next.Alike R E D move.next move'.next

def EndMove.Alike (R : σ → σ → Prop) : EndMove σ → EndMove σ → Prop
  | .go _ q, .go _ q' => R q q'
  | .refuse problem, .refuse problem' => problem' = problem
  | _, _ => False

namespace EndMove

variable {R : σ → σ → Prop} {move : EndMove σ}

theorem Alike.of_go {events : List ReadEvent} {q : σ} (h : EndMove.Alike R (.go events q) move) :
    ∃ events' q', move = .go events' q' ∧ R q q' := by
  cases move with
  | go events' q' => exact ⟨events', q', rfl, h⟩
  | refuse problem => exact h.elim

theorem Alike.of_refuse {problem : Problem} (h : EndMove.Alike R (.refuse problem) move) :
    move = .refuse problem := by
  cases move with
  | go events q => exact h.elim
  | refuse problem' => exact congrArg EndMove.refuse h

end EndMove

def Outcome.Alike (E : ReadError → ReadError → Prop) (D : α → α → Prop) :
    Outcome α → Outcome α → Prop
  | .done value _, .done value' _ => D value value'
  | .failed e, .failed e' => E e e'
  | .short problem, .short problem' => problem' = problem
  | _, _ => False

/-- Whether two results are both values or both errors, with what is alike. -/
def ResultsAlike {β : Type} (E : ReadError → ReadError → Prop) (D : β → β → Prop) :
    Except ReadError β → Except ReadError β → Prop
  | .ok value, .ok value' => D value value'
  | .error e, .error e' => E e e'
  | _, _ => False

namespace ResultsAlike

variable {β : Type} {E E' : ReadError → ReadError → Prop} {D : α → α → Prop}
  {result result' : Except ReadError α}

theorem of_ok {value : α} (h : ResultsAlike E D (.ok value) result) :
    ∃ value', result = .ok value' ∧ D value value' := by
  cases result with
  | ok value' => exact ⟨value', rfl, h⟩
  | error e => exact h.elim

theorem of_error {e : ReadError} (h : ResultsAlike E D (.error e) result) :
    ∃ e', result = .error e' ∧ E e e' := by
  cases result with
  | ok value => exact h.elim
  | error e' => exact ⟨e', rfl, h⟩

theorem imp (h : ResultsAlike E D result result')
    (he : ∀ e e', result = .error e → E e e' → E' e e') : ResultsAlike E' D result result' := by
  cases result with
  | ok value =>
    obtain ⟨value', rfl, hvalue⟩ := h.of_ok
    exact hvalue
  | error e =>
    obtain ⟨e', rfl, herror⟩ := h.of_error
    exact he e e' rfl herror

theorem map {D' : β → β → Prop} {f : α → β} (h : ResultsAlike E D result result')
    (hf : ∀ value value', D value value' → D' (f value) (f value')) :
    ResultsAlike E D' (result.map f) (result'.map f) := by
  cases result with
  | ok value =>
    obtain ⟨value', rfl, hvalue⟩ := h.of_ok
    exact hf value value' hvalue
  | error e =>
    obtain ⟨e', rfl, herror⟩ := h.of_error
    exact herror

end ResultsAlike

/-- Runs that end alike have results that are alike, if it is alike to run out of tokens. -/
theorem Outcome.Alike.results {E E' : ReadError → ReadError → Prop} {D : α → α → Prop}
    {o o' : Outcome α} {s s' : Scanner} (h : Outcome.Alike E D o o')
    (herror : ∀ e e', E e e' → E' e e')
    (hstop : ∀ problem, E' (s.stopError problem) (s'.stopError problem)) :
    ResultsAlike E' D (o.result s) (o'.result s') := by
  cases o with
  | done value rest =>
    cases o' with
    | done value' rest' => exact h
    | failed e' => exact h.elim
    | short problem' => exact h.elim
  | failed e =>
    cases o' with
    | done value' rest' => exact h.elim
    | failed e' => exact herror e e' h
    | short problem' => exact h.elim
  | short problem =>
    cases o' with
    | done value' rest' => exact h.elim
    | failed e' => exact h.elim
    | short problem' =>
      obtain rfl : problem' = problem := h
      exact hstop problem'

/-- A machine does alike in states that are alike with tokens that are alike. -/
structure Machine.Respects (m : Machine σ α) (R : σ → σ → Prop) (T : Token → Token → Prop)
    (E : ReadError → ReadError → Prop) (D : α → α → Prop) : Prop where
  token {q q' : σ} {t t' : Token} : R q q' → T t t' →
    Move.Alike R E D (m.onToken q t) (m.onToken q' t')
  finish {q q' : σ} : R q q' → EndMove.Alike R (m.onEnd q) (m.onEnd q')

namespace Machine

variable {m : Machine σ α} {R : σ → σ → Prop} {T : Token → Token → Prop}
  {E : ReadError → ReadError → Prop} {D : α → α → Prop} {q q' : σ} {ts ts' : List Token}

theorem exists_outcome_done {t : Token} {value : α} (h : (m.onToken q t).next = .done value)
    (ts : List Token) : ∃ rest, m.outcome q (t :: ts) = .done value rest := by
  rw [outcome]
  split <;> simp_all

/-- Runs on tokens that are alike end alike. -/
theorem Respects.outcome (hm : m.Respects R T E D) (hq : R q q') (hts : List.Forall₂ T ts ts') :
    Outcome.Alike E D (m.outcome q ts) (m.outcome q' ts') := by
  fun_induction Machine.outcome m q ts generalizing q' ts' with
  | case1 q problem hn =>
    obtain rfl := List.forall₂_nil_left_iff.mp hts
    have hend := hm.finish hq
    rw [hn] at hend
    rw [outcome_nil_refuse hend.of_refuse]
    rfl
  | case2 q events q₁ hn ih =>
    obtain rfl := List.forall₂_nil_left_iff.mp hts
    have hend := hm.finish hq
    rw [hn] at hend
    obtain ⟨events', q₂, hn', hq₂⟩ := hend.of_go
    rw [outcome_nil_go hn']
    exact ih hq₂ .nil
  | case3 q t ts e hn =>
    obtain ⟨t', ts', ht, -, rfl⟩ := List.forall₂_cons_left_iff.mp hts
    have hstep := (hm.token hq ht).next
    rw [hn] at hstep
    obtain ⟨e', hn', he⟩ := hstep.of_fail
    rw [outcome_fail hn']
    exact he
  | case4 q t ts value hn =>
    obtain ⟨t', ts', ht, -, rfl⟩ := List.forall₂_cons_left_iff.mp hts
    have hstep := (hm.token hq ht).next
    rw [hn] at hstep
    obtain ⟨value', hn', hvalue⟩ := hstep.of_done
    obtain ⟨rest', hrest'⟩ := exists_outcome_done hn' ts'
    rw [hrest']
    exact hvalue
  | case5 q t ts q₁ hn htake ih =>
    obtain ⟨t', ts', ht, hrest, rfl⟩ := List.forall₂_cons_left_iff.mp hts
    obtain ⟨htoken, hstep⟩ := hm.token hq ht
    rw [hn] at hstep
    obtain ⟨q₂, hn', hq₂⟩ := hstep.of_go
    rw [outcome_take hn' (htoken.trans htake)]
    exact ih hq₂ hrest
  | case6 q t ts q₁ hn hleave ih =>
    obtain ⟨t', ts', ht, hrest, rfl⟩ := List.forall₂_cons_left_iff.mp hts
    obtain ⟨htoken, hstep⟩ := hm.token hq ht
    rw [hn] at hstep
    obtain ⟨q₂, hn', hq₂⟩ := hstep.of_go
    rw [outcome_leave hn' (htoken ▸ hleave)]
    exact ih hq₂ (.cons ht hrest)

end Machine
end ConstraintText

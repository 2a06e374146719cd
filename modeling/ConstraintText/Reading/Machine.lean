import ConstraintText.Reading.Event

/-!
# Reading machines

A reading machine goes from state to state, looking at one token at a time. A state either uses
the token or leaves it to the state it goes to; states that leave tokens to each other have falling
ranks, so every run ends. What a machine does at the end of the text is told apart from what it does
with a token, since there is nothing to use.
-/
namespace ConstraintText

/-- What becomes of the token a state has looked at: used, held back, or held back unreported. -/
inductive Disposition
  | take
  | pushBack
  | peek
  deriving DecidableEq, Repr

inductive Next (σ α : Type)
  | go (state : σ)
  | fail (error : ReadError)
  | done (value : α)

structure Move (σ α : Type) where
  token : Disposition
  events : List ReadEvent
  next : Next σ α

namespace Move

variable {σ α : Type}

def take (state : σ) : Move σ α := ⟨.take, [], .go state⟩

def leave (state : σ) : Move σ α := ⟨.pushBack, [], .go state⟩

def refuse (problem : Problem) (t : Token) : Move σ α :=
  ⟨.take, [], .fail (.refused (.atToken problem t))⟩

def fault (f : Fault) : Move σ α := ⟨.take, [], .fail (.fault f)⟩

end Move

inductive EndMove (σ : Type)
  | go (events : List ReadEvent) (state : σ)
  | refuse (problem : Problem)

structure Machine (σ α : Type) where
  onToken : σ → Token → Move σ α
  onEnd : σ → EndMove σ
  rank : σ → Nat
  rank_onToken {q q' : σ} {t : Token} : (onToken q t).next = .go q' →
    (onToken q t).token ≠ .take → rank q' < rank q
  rank_onEnd {q q' : σ} {events : List ReadEvent} : onEnd q = .go events q' → rank q' < rank q

namespace TokenStream

/-- The stream after a state has looked at a token, and what is reported of it. -/
def dispose (s : TokenStream) (d : Disposition) (t : Token) :
    Except Fault (TokenStream × List ReadEvent) :=
  match d with
  | .take => .ok (s, [])
  | .pushBack => (s.pushBack t).map fun s' => (s', [.pushedBack t])
  | .peek => (s.pushBack t).map fun s' => (s', [])

theorem size_scan_le {s : TokenStream} (h : s.pending = none) : s.scan.2.size ≤ s.size := by
  have hr := s.scanner.next_rest_le
  have hs : s.scan.2.pending = none := by unfold scan; split <;> exact h
  simp only [size, hs, h, rest_scan, Option.isSome_none, Bool.false_eq_true, if_false]
  omega

theorem size_next_le (s : TokenStream) : s.next.2.size ≤ s.size := by
  unfold next
  split
  · rename_i t h
    simp [size, h]
  · rename_i h
    exact size_scan_le h

theorem size_scan_lt {s : TokenStream} {t : Token} (h : s.pending = none)
    (ht : s.scan.1 = .ok (some t)) : s.scan.2.size + 2 ≤ s.size := by
  have hgap : Scanner.afterGap false s.scanner.rest ≠ [] := by
    intro hg
    simp [scan, Scanner.next, hg, Token.isFinish] at ht
  have hr := Scanner.next_rest_lt hgap
  have hs : s.scan.2.pending = none := by unfold scan; split <;> exact h
  simp only [size, hs, h, rest_scan, Option.isSome_none, Bool.false_eq_true, if_false]
  omega

theorem size_next_lt {s : TokenStream} {t : Token} (ht : s.next.1 = .ok (some t)) :
    s.next.2.size < s.size := by
  cases hp : s.pending with
  | some held => simp [next, hp, size]
  | none =>
    have hn : s.next = s.scan := by simp [next, hp]
    rw [hn] at ht ⊢
    have := size_scan_lt hp ht
    omega

theorem size_pushBack {s s' : TokenStream} {t : Token} (h : s.pushBack t = .ok s') :
    s'.size = s.size + 1 := by
  cases s with
  | mk scanner pending =>
    cases pending with
    | some held => simp [pushBack] at h
    | none => simp only [pushBack, Except.ok.injEq] at h; subst h; rfl

theorem size_dispose_le {s s' : TokenStream} {d : Disposition} {t : Token}
    {events : List ReadEvent} (hd : s.dispose d t = .ok (s', events)) : s'.size ≤ s.size + 1 := by
  cases d with
  | take => simp only [dispose, Except.ok.injEq, Prod.mk.injEq] at hd; rw [← hd.1]; omega
  | pushBack =>
    cases hb : s.pushBack t with
    | error f => simp [dispose, hb, Except.map] at hd
    | ok s'' =>
      have := size_pushBack hb
      simp only [dispose, hb, Except.map, Except.ok.injEq, Prod.mk.injEq] at hd
      rw [← hd.1]; omega
  | peek =>
    cases hb : s.pushBack t with
    | error f => simp [dispose, hb, Except.map] at hd
    | ok s'' =>
      have := size_pushBack hb
      simp only [dispose, hb, Except.map, Except.ok.injEq, Prod.mk.injEq] at hd
      rw [← hd.1]; omega

end TokenStream

namespace Machine

variable {σ α : Type}

theorem lex_of_le {a b c d : Nat} (h : a ≤ b) (hr : c < d) :
    Prod.Lex (· < ·) (· < ·) (a, c) (b, d) := by
  rcases Nat.lt_or_eq_of_le h with hlt | heq
  · exact Prod.Lex.left _ _ hlt
  · subst heq
    exact Prod.Lex.right _ hr

/-- Runs a machine on a stream until it is done or fails. -/
def run (m : Machine σ α) (s : TokenStream) (q : σ) : Reading α :=
  match _hn : s.next with
  | (.error e, s') => .error (.lexical e) s'
  | (.ok none, s') =>
    match _hq : m.onEnd q with
    | .refuse problem => .error (.refused (s'.refusal none problem)) s'
    | .go events q' => (m.run s' q').after events
  | (.ok (some t), s') =>
    match _hd : s'.dispose (m.onToken q t).token t with
    | .error f => .error (.fault f) s'
    | .ok (s'', events) =>
      match _hq : (m.onToken q t).next with
      | .fail e => (Reading.error e s'').after (events ++ (m.onToken q t).events)
      | .done value => (Reading.ok value s'').after (events ++ (m.onToken q t).events)
      | .go q' => (m.run s'' q').after (events ++ (m.onToken q t).events)
termination_by (s.size, m.rank q)
decreasing_by
  · have hle := s.size_next_le
    rw [_hn] at hle
    exact lex_of_le hle (m.rank_onEnd _hq)
  · have hlt : s'.size < s.size := by
      have h := TokenStream.size_next_lt (s := s) (t := t) (by rw [_hn])
      rwa [_hn] at h
    by_cases ht : (m.onToken q t).token = .take
    · rw [ht] at _hd
      simp only [TokenStream.dispose, Except.ok.injEq, Prod.mk.injEq] at _hd
      exact Prod.Lex.left _ _ (_hd.1 ▸ hlt)
    · have hle := TokenStream.size_dispose_le _hd
      exact lex_of_le (by omega) (m.rank_onToken _hq ht)

theorem run_of_end (m : Machine σ α) {s s' : TokenStream} (q : σ)
    (h : s.next = (.ok none, s')) :
    m.run s q = match m.onEnd q with
      | .refuse problem => .error (.refused (s'.refusal none problem)) s'
      | .go events q' => (m.run s' q').after events := by
  rw [run]
  split
  · simp_all
  · simp_all only [Prod.mk.injEq, true_and]
    split <;> simp_all
  · simp_all

theorem run_of_token (m : Machine σ α) {s s' : TokenStream} {t : Token} (q : σ)
    (h : s.next = (.ok (some t), s')) :
    m.run s q = match s'.dispose (m.onToken q t).token t with
      | .error f => .error (.fault f) s'
      | .ok (s'', events) =>
        match (m.onToken q t).next with
        | .fail e => (Reading.error e s'').after (events ++ (m.onToken q t).events)
        | .done value => (Reading.ok value s'').after (events ++ (m.onToken q t).events)
        | .go q' => (m.run s'' q').after (events ++ (m.onToken q t).events) := by
  rw [run]
  split
  · simp_all
  · simp_all
  · rename_i t' s₁ hn
    obtain ⟨rfl, rfl⟩ : t = t' ∧ s' = s₁ := by
      rw [h] at hn
      simpa using hn
    split
    · simp_all
    · rename_i hd
      simp only [hd]
      split <;> simp_all

theorem run_of_lexical (m : Machine σ α) {s s' : TokenStream} {e : LexError} (q : σ)
    (h : s.next = (.error e, s')) : m.run s q = .error (.lexical e) s' := by
  rw [run]
  split <;> simp_all

end Machine
end ConstraintText

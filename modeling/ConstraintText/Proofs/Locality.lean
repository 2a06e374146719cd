import ConstraintText.Proofs.Acceptance

/-!
# What a reading depends on

A reading that succeeds uses the tokens of its object and no others: the last one that it looks at is
the last one of the object. So it succeeds alike wherever a stream has these tokens to give, and it
leaves the stream right behind them.
-/
namespace ConstraintText

namespace TokenStream

variable {s s' s'' : TokenStream} {t : Token} {ts : List Token}

theorem Takes.unique (h : s.Takes ts s') (h' : s.Takes ts s'') : s' = s'' := by
  induction h with
  | nil s =>
    cases h'
    rfl
  | cons hn _ ih =>
    cases h' with
    | cons hn' hs' =>
      obtain ⟨-, rfl⟩ := Prod.mk.inj (hn.symm.trans hn')
      exact ih hs'

theorem tokens_of_next (h : s.next = (.ok (some t), s')) : s.tokens = t :: s'.tokens := by
  obtain ⟨scanner, pending⟩ := s
  cases pending with
  | some held =>
    simp only [next, Prod.mk.injEq, Except.ok.injEq, Option.some.injEq] at h
    obtain ⟨rfl, rfl⟩ := h
    rfl
  | none =>
    obtain ⟨hscan, ht, hp⟩ := next_of_scan h
    rw [tokens_of_pending_none rfl, tokens_of_pending_none hp, Scanner.leading_of_token hscan ht]

theorem Takes.tokens (h : s.Takes ts s') : s.tokens = ts ++ s'.tokens := by
  induction h with
  | nil s => rfl
  | cons hn _ ih => rw [tokens_of_next hn, ih, List.cons_append]

theorem Takes.peek (h : s.Takes (t :: ts) s') :
    ∃ s₁, s.peek = (.ok (some t), s₁) ∧ s₁.Takes (t :: ts) s' := by
  cases h with
  | cons hn hs =>
    obtain ⟨scanner, pending⟩ := s
    cases pending with
    | some held =>
      simp only [next, Prod.mk.injEq, Except.ok.injEq, Option.some.injEq] at hn
      obtain ⟨rfl, rfl⟩ := hn
      exact ⟨⟨scanner, some held⟩, rfl, .cons rfl hs⟩
    | none =>
      rename_i s₁
      obtain ⟨scanner₁, pending₁⟩ := s₁
      obtain ⟨-, -, hp⟩ := next_of_scan hn
      obtain rfl : pending₁ = none := hp
      have hscan : scan ⟨scanner, none⟩ = (.ok (some t), ⟨scanner₁, none⟩) := hn
      exact ⟨⟨scanner₁, some t⟩, by simp [TokenStream.peek, hscan], .cons rfl hs⟩

end TokenStream

namespace Reading

variable {α β : Type}

/-- Whether a reader that succeeds takes tokens on which it succeeds alike wherever a stream has them
to give, and takes no others. -/
def IsLocal (read : TokenStream → Reading α) : Prop :=
  ∀ ⦃s value⦄, (read s).result = .ok value →
    ∃ ts, ts ≠ [] ∧ s.Takes ts (read s).stream ∧ ∀ ⦃s₁ s'⦄, s₁.Takes ts s' →
      (read s₁).result = .ok value ∧ (read s₁).stream = s'

variable {read : TokenStream → Reading α}

theorem IsLocal.map (h : IsLocal read) (f : α → β) :
    IsLocal fun s => (read s).bind fun a s => ok (f a) s := by
  have hstream : ∀ {s a}, (read s).result = .ok a →
      ((read s).bind fun a s => ok (f a) s).stream = (read s).stream := by
    intro s a ha
    simp only [bind, ha, ok, after]
  intro s b hb
  obtain ⟨a, ha, hfa⟩ := bind_ok_iff.mp hb
  obtain ⟨ts, hne, htakes, hagain⟩ := h ha
  refine ⟨ts, hne, by rwa [hstream ha], fun s₁ s' htakes₁ => ?_⟩
  obtain ⟨ha₁, hs₁⟩ := hagain htakes₁
  exact ⟨bind_ok_iff.mpr ⟨a, ha₁, hfa⟩, (hstream ha₁).trans hs₁⟩

/-- A reader may look at the first token to choose how to go on. -/
theorem IsLocal.of_peek {behind : Token → TokenStream → Reading α}
    (h : ∀ t, IsLocal (behind t))
    (hread : ∀ {s t s'}, s.peek = (.ok (some t), s') → read s = behind t s')
    (hpeek : ∀ {s value}, (read s).result = .ok value → ∃ t s', s.peek = (.ok (some t), s')) :
    IsLocal read := by
  intro s value hvalue
  obtain ⟨t, s₀, hp⟩ := hpeek hvalue
  rw [hread hp] at hvalue ⊢
  obtain ⟨ts, hne, htakes₀, hagain⟩ := h t hvalue
  have htakes := TokenStream.Takes.of_peek hp htakes₀ hne
  refine ⟨ts, hne, htakes, fun s₁ s' htakes₁ => ?_⟩
  -- the token looked at is the first one of the object on either stream
  obtain ⟨u, us, rfl⟩ := List.exists_cons_of_ne_nil hne
  obtain ⟨s₂, hp₂, -⟩ := htakes.peek
  obtain ⟨rfl, rfl⟩ : t = u ∧ s₀ = s₂ := by simpa [hp] using hp₂
  obtain ⟨s₃, hp₃, htakes₃⟩ := htakes₁.peek
  rw [hread hp₃]
  exact hagain htakes₃

end Reading

namespace Machine

variable {σ α : Type} {m : Machine σ α} {q : σ} {value : α}

theorem outcome_append_of_failed {ts : List Token} {e : ReadError}
    (h : m.outcome q ts = .failed e) (rest : List Token) :
    m.outcome q (ts ++ rest) = .failed e := by
  fun_induction outcome m q ts with
  | case1 q problem hq => simp at h
  | case2 q events q' hq ih =>
    obtain ⟨problem, hp⟩ := m.exists_short q'
    simp [hp] at h
  | case3 q t ts e' hq =>
    rw [List.cons_append, outcome_fail hq]
    exact h
  | case4 q t ts v hq => simp at h
  | case5 q t ts q' hq ht ih => rw [List.cons_append, outcome_take hq ht, ih h]
  | case6 q t ts q' hq ht ih =>
    rw [List.cons_append, outcome_leave hq ht, ← List.cons_append, ih h]

/-- Whether a machine is done only with tokens that it uses. -/
def EndsInside (m : Machine σ α) : Prop :=
  ∀ q t value, (m.onToken q t).next = .done value → (m.onToken q t).token = .take

theorem EndsInside.outcome_append (hm : m.EndsInside) {us rest : List Token}
    (h : m.outcome q us = .done value rest) :
    ∃ ts, ts ≠ [] ∧ us = ts ++ rest ∧ ∀ rest', m.outcome q (ts ++ rest') = .done value rest' := by
  fun_induction outcome m q us with
  | case1 q problem hq => simp at h
  | case2 q events q' hq ih =>
    obtain ⟨problem, hp⟩ := m.exists_short q'
    simp [hp] at h
  | case3 q t ts e hq => simp at h
  | case4 q t ts v hq =>
    have ht := hm q t v hq
    rw [Outcome.done.injEq, if_pos ht] at h
    obtain ⟨rfl, rfl⟩ := h
    exact ⟨[t], by simp, rfl, fun rest' => outcome_done hq ht⟩
  | case5 q t ts q' hq ht ih =>
    obtain ⟨us, -, rfl, hrest⟩ := ih h
    exact ⟨t :: us, by simp, rfl, fun rest' => by
      rw [List.cons_append, outcome_take hq ht, hrest]⟩
  | case6 q t ts q' hq ht ih =>
    obtain ⟨us, hne, he, hrest⟩ := ih h
    obtain ⟨u, us, rfl⟩ := List.exists_cons_of_ne_nil hne
    obtain ⟨rfl, rfl⟩ := List.cons.inj he
    exact ⟨t :: us, hne, rfl, fun rest' => by
      rw [List.cons_append, outcome_leave hq ht, ← List.cons_append, hrest]⟩

/-- A run that succeeds does so on any stream that has its tokens to give. -/
theorem EndsInside.isLocal_run (hm : m.EndsInside) (q : σ) : Reading.IsLocal fun s => m.run s q := by
  intro s value h
  obtain ⟨rest, ho⟩ := run_ok_iff.mp h
  obtain ⟨ts, hne, he, hrest⟩ := hm.outcome_append ho
  have htaken : ∀ {s₁ : TokenStream} {rest' : List Token}, s₁.tokens = ts ++ rest' →
      s₁.Takes ts (m.run s₁ q).stream := by
    intro s₁ rest' he₁
    have ho₁ : m.outcome q s₁.tokens = .done value rest' := by rw [he₁, hrest]
    obtain ⟨us, -, he', htakes⟩ := run_takes hm ho₁
    obtain rfl : us = ts := List.append_cancel_right (he'.symm.trans he₁)
    exact htakes
  refine ⟨ts, hne, htaken he, fun s₁ s' htakes₁ => ?_⟩
  exact ⟨run_ok_iff.mpr ⟨_, by rw [htakes₁.tokens, hrest]⟩, (htaken htakes₁.tokens).unique htakes₁⟩

end Machine

namespace Formula

theorem endsInside_machine : machine.EndsInside := fun _ _ _ => token_of_done

end Formula

namespace Matrix

theorem endsInside_machine : machine.EndsInside := by
  rintro ⟨nParam, point⟩ t u h
  cases point with
  | firstInteger => rfl
  | rowCount job => rfl
  | secondInteger first =>
    simp only [machine, onToken, onSecondInteger] at h ⊢
    split at h
    · split at h <;> simp at h
    · rename_i hl
      rw [if_neg hl]
      exact token_onColumnCount
  | columnCount job rows => exact token_onColumnCount
  | rowType job progress =>
    revert h
    simp only [machine, onToken, onRowType, refuseEntry]
    repeat' split
    all_goals simp [Move.refuse, Move.take]
  | entry job progress kind entries left =>
    revert h
    simp only [machine, onToken, onEntry, refuseEntry]
    repeat' split
    all_goals simp [Move.fault, Move.take]

end Matrix

namespace Reading

/-- What is read before it is completed is what the tokens of an object say, in either notation. -/
theorem isLocal_drafts (wanted : Option Nat) : IsLocal (drafts wanted) := by
  let behind (t : Token) (s : TokenStream) : Reading MapUnion :=
    if t.kind = .integer then Matrix.read wanted s
    else (Formula.read wanted s).bind fun m s => ok ⟨m.space, [m]⟩ s
  have hbehind : ∀ t, IsLocal (behind t) := by
    intro t
    unfold behind
    split
    · exact Matrix.endsInside_machine.isLocal_run _
    · exact (Formula.endsInside_machine.isLocal_run _).map _
  refine IsLocal.of_peek hbehind ?_ ?_
  · intro s t s' hp
    simp only [drafts, hp, behind]
  · intro s v h
    rcases hp : s.peek with ⟨e | t?, s'⟩
    · simp [drafts, hp, error] at h
    · cases t? with
      | none => simp [drafts, hp, error] at h
      | some t => exact ⟨t, s', rfl⟩

theorem isLocal_readMap (config : ReadConfig) (wanted : Option Nat) :
    IsLocal (readMap config wanted) := by
  intro s u h
  obtain ⟨v, hv, rfl⟩ := readMap_ok_iff_drafts.mp h
  obtain ⟨ts, hne, htakes, hagain⟩ := isLocal_drafts wanted hv
  refine ⟨ts, hne, ?_, fun s₁ s' htakes₁ => ?_⟩
  · rwa [(readMap_eq_drafts config wanted s).2]
  · obtain ⟨hv₁, hs₁⟩ := hagain htakes₁
    exact ⟨readMap_ok_iff_drafts.mpr ⟨v, hv₁, rfl⟩, (readMap_eq_drafts config wanted s₁).2.trans hs₁⟩

end Reading
end ConstraintText

import ConstraintText.Proofs.Renaming
import ConstraintText.Proofs.Totality

/-!
# Neither layout nor the choice of names matters

Two texts whose tokens agree, but for where they stand, how integers are written and which names are
chosen, are read as the same system with the names of each, or are refused for the same cause at the
same token. A reading sees of its text only kinds, values and which names are equal.
-/
namespace ConstraintText

namespace Scanner

theorem leadingTokens_append_finish {ts : List Token} {t : Token} (ht : t.isFinish = true)
    (hts : ∀ u ∈ ts, u.isFinish = false) (items : List (Except LexError Token)) :
    leadingTokens (ts.map .ok ++ .ok t :: items) = ts ∧
      stopOf (ts.map .ok ++ .ok t :: items) = .ok t.span.start := by
  induction ts with
  | nil => simp [leadingTokens, stopOf, ht]
  | cons u ts ih =>
    obtain ⟨hu, hrest⟩ := List.forall_mem_cons.mp hts
    simp [leadingTokens, stopOf, hu, ih hrest]

variable {source : String} {ts : List Token}

theorem isPlaced_of_tokens (h : (ofString source).tokens = .ok ts) :
    ∀ t ∈ ts, t.span.IsPlaced source := by
  intro t ht
  have hitem : Except.ok t ∈ (ofString source).items :=
    items_of_tokens h ▸ List.mem_map_of_mem ht
  obtain ⟨i, hi, hget⟩ := List.getElem_of_mem hitem
  have hin : ((ofString source).skip i).IsIn source := isIn_iterate source i
  have hpoints := hin.pointsInto_next
  rw [← getElem_items i hi, hget] at hpoints
  exact hpoints.1

/-- The tokens of a text are those that a reading sees and the end token. -/
theorem exists_finish_of_tokens (h : (ofString source).tokens = .ok ts) :
    ∃ t, ts = (TokenStream.ofString source).tokens ++ [t] ∧
      (ofString source).stop = .ok (.endOf source) := by
  have hitems := items_of_tokens h
  obtain ⟨front, t, place, hfront, hkind, hspan, hplace, hmem⟩ := (items_cover source).finish
  obtain ⟨us, last, rfl, rfl, hlast⟩ := List.map_eq_append_iff.mp (hitems.symm.trans hfront)
  obtain ⟨t', rfl, ht'⟩ := List.map_eq_singleton_iff.mp hlast
  obtain rfl : t' = t := Except.ok.inj ht'
  have hfinish : t'.isFinish = true := by simp [Token.isFinish, hkind]
  have hus : ∀ u ∈ us, u.isFinish = false := fun u hu => hmem _ (List.mem_map_of_mem hu)
  obtain ⟨hleading, hstop⟩ := leadingTokens_append_finish hfinish hus []
  have hplaced := (isPlaced_of_tokens h t' (by simp)).start
  have hend : t'.span.start = .endOf source := by
    refine hplaced.eq_of_offset (Location.isPlaceOf_endOf source) ?_
    rw [hspan, Location.offset_endOf]
    exact hplace
  refine ⟨t', ?_, ?_⟩
  · rw [TokenStream.tokens_of_pending_none rfl, leading]
    change us ++ [t'] = leadingTokens (ofString source).items ++ [t']
    rw [hfront, hleading]
  · rw [stop, hfront, hstop, hend]

theorem le_of_tokens {i j : Nat} {t u : Token} (h : (ofString source).tokens = .ok ts)
    (hij : i ≤ j) (ht : ts[i]? = some t) (hu : ts[j]? = some u) :
    t.span.start.offset ≤ u.span.start.offset ∧ t.span.stop.offset ≤ u.span.stop.offset := by
  have hitems := items_of_tokens h
  have hproper : ∀ t ∈ ts, t.span.start.offset ≤ t.span.stop.offset := fun t ht =>
    proper_itemSpan (.ok t) (hitems ▸ List.mem_map_of_mem ht)
  have hordered := (ofString source).pairwise_items
  rw [hitems, List.pairwise_map, List.pairwise_iff_getElem] at hordered
  obtain ⟨hi, rfl⟩ := List.getElem?_eq_some_iff.mp ht
  obtain ⟨hj, rfl⟩ := List.getElem?_eq_some_iff.mp hu
  rcases hij.eq_or_lt with rfl | hlt
  · exact ⟨le_rfl, le_rfl⟩
  · have hnext : ts[i].span.stop.offset ≤ ts[j].span.start.offset := hordered i j hi hj hlt
    have hfirst := hproper ts[i] (List.getElem_mem hi)
    have hsecond := hproper ts[j] (List.getElem_mem hj)
    omega

/-- Two tokens of a text span what stands from the first up to the second. -/
theorem merge_of_tokens {i j : Nat} {t u : Token} (h : (ofString source).tokens = .ok ts)
    (hij : i ≤ j) (ht : ts[i]? = some t) (hu : ts[j]? = some u) :
    t.span.merge u.span = ⟨t.span.start, u.span.stop⟩ ∧
      u.span.merge t.span = ⟨t.span.start, u.span.stop⟩ := by
  have htplaced := isPlaced_of_tokens h t (List.mem_of_getElem? ht)
  have huplaced := isPlaced_of_tokens h u (List.mem_of_getElem? hu)
  obtain ⟨hstart, hstop⟩ := le_of_tokens h hij ht hu
  exact ⟨htplaced.merge_of_le huplaced hstart hstop, huplaced.merge_of_ge htplaced hstart hstop⟩

end Scanner

def Token.Pairs (ts ts' : List Token) (t t' : Token) : Prop :=
  ∃ i : Nat, ts[i]? = some t ∧ ts'[i]? = some t'

def Token.names (ts : List Token) : Set String :=
  {name | ∃ t ∈ ts, t.kind = .identifier ∧ t.lexeme = name}

/-- Whether two refusals of two texts with the tokens `ts` and `ts'` are the same up to layout and
names: they have the same cause, and they point at the same token, at what stands from one token up
to another, or at the end. -/
inductive Refusal.Corresponds (source source' : String) (ts ts' : List Token) :
    Refusal → Refusal → Prop
  | token (problem : Problem) {t t' : Token} : Token.Pairs ts ts' t t' →
      Corresponds source source' ts ts' (.atToken problem t) (.atToken problem t')
  | spanned (problem : Problem) {i j : Nat} {t t' u u' : Token} : i ≤ j →
      ts[i]? = some t → ts'[i]? = some t' → ts[j]? = some u → ts'[j]? = some u' →
      Corresponds source source' ts ts' ⟨problem, ⟨t.span.start, u.span.stop⟩, none⟩
        ⟨problem, ⟨t'.span.start, u'.span.stop⟩, none⟩
  | finish (problem : Problem) :
      Corresponds source source' ts ts' (.atPlace problem (.endOf source))
        (.atPlace problem (.endOf source'))

/-- Two errors correspond if both are refusals that do. -/
def ReadError.Corresponds (source source' : String) (ts ts' : List Token) :
    ReadError → ReadError → Prop
  | .refused refusal, .refused refusal' => refusal.Corresponds source source' ts ts' refusal'
  | _, _ => False

section

variable {r : String → String} {source source' : String} {ts ts' : List Token}

theorem Token.isRenaming_pairs (halike : List.Forall₂ (Token.IsRenamed r) ts ts')
    (hr : (Token.names ts).InjOn r) :
    IsRenaming r (Token.names ts) (Token.Pairs ts ts') where
  injOn := hr
  token := by
    rintro t t' ⟨i, ht, ht'⟩
    obtain ⟨hi, rfl⟩ := List.getElem?_eq_some_iff.mp ht
    obtain ⟨hi', rfl⟩ := List.getElem?_eq_some_iff.mp ht'
    exact halike.get hi hi'
  mem := by
    rintro t t' ⟨i, ht, -⟩ hk
    exact ⟨t, List.mem_of_getElem? ht, hk, rfl⟩

theorem Token.forall₂_pairs {us us' : List Token} (hlength : us.length = us'.length)
    (back back' : List Token) :
    List.Forall₂ (Token.Pairs (us ++ back) (us' ++ back')) us us' := by
  refine List.forall₂_iff_get.mpr ⟨hlength, fun i hi hi' => ⟨i, ?_, ?_⟩⟩
  · rw [List.getElem?_append_left hi, List.get_eq_getElem, List.getElem?_eq_getElem hi]
  · rw [List.getElem?_append_left hi', List.get_eq_getElem, List.getElem?_eq_getElem hi']

theorem Refusal.Alike.corresponds (h : (Scanner.ofString source).tokens = .ok ts)
    (h' : (Scanner.ofString source').tokens = .ok ts') {refusal refusal' : Refusal}
    (hr : refusal.Alike (Token.Pairs ts ts') refusal') :
    refusal.Corresponds source source' ts ts' refusal' := by
  cases hr with
  | token problem ht => exact .token problem ht
  | @spanned problem t t' u u' ht hu =>
    obtain ⟨i, ht, ht'⟩ := ht
    obtain ⟨j, hu, hu'⟩ := hu
    rcases Nat.le_total i j with hij | hij
    · rw [(Scanner.merge_of_tokens h hij ht hu).1, (Scanner.merge_of_tokens h' hij ht' hu').1]
      exact .spanned problem hij ht ht' hu hu'
    · rw [(Scanner.merge_of_tokens h hij hu ht).2, (Scanner.merge_of_tokens h' hij hu' ht').2]
      exact .spanned problem hij hu hu' ht ht'

/-- A fault would correspond to any other, but it blames no text. -/
theorem ReadError.Alike.corresponds (h : (Scanner.ofString source).tokens = .ok ts)
    (h' : (Scanner.ofString source').tokens = .ok ts') {e e' : ReadError}
    (he : e.Alike (Token.Pairs ts ts') e') (hblames : e.BlamesText) :
    e.Corresponds source source' ts ts' e' := by
  cases e with
  | refused refusal =>
    cases e' with
    | refused refusal' => exact Refusal.Alike.corresponds h h' he
    | _ => exact he.elim
  | fault f => exact hblames.elim
  | _ => exact he.elim

theorem TokenStream.beginsWithInteger_ofString (h : (Scanner.ofString source).tokens = .ok ts)
    (hfirst : ∀ t ∈ ts.head?, t.kind ≠ .integer) :
    (TokenStream.ofString source).beginsWithInteger = false := by
  obtain ⟨finish, rfl, -⟩ := Scanner.exists_finish_of_tokens h
  rw [TokenStream.beginsWithInteger]
  cases hts : (TokenStream.ofString source).tokens with
  | nil => rfl
  | cons t rest =>
    have hk := hfirst t (by simp [hts])
    simpa using hk

end

namespace Reading

variable {r : String → String} {source source' : String} {ts ts' : List Token}

theorem outcome_renamed (h : (Scanner.ofString source).tokens = .ok ts)
    (h' : (Scanner.ofString source').tokens = .ok ts')
    (halike : List.Forall₂ (Token.IsRenamed r) ts ts') (hr : (Token.names ts).InjOn r)
    (wanted : Option Nat) :
    Outcome.Alike (ReadError.Alike (Token.Pairs ts ts')) (fun m m' => m' = m.mapNames r)
      (Formula.machine.outcome ⟨⟨[]⟩, .beginning wanted⟩ (TokenStream.ofString source).tokens)
      (Formula.machine.outcome ⟨⟨[]⟩, .beginning wanted⟩
        (TokenStream.ofString source').tokens) := by
  have hrenaming := Token.isRenaming_pairs halike hr
  obtain ⟨last, rfl, -⟩ := Scanner.exists_finish_of_tokens h
  obtain ⟨last', rfl, -⟩ := Scanner.exists_finish_of_tokens h'
  have hlength := halike.length_eq
  rw [List.length_append, List.length_append, List.length_singleton, List.length_singleton,
    Nat.add_right_cancel_iff] at hlength
  refine (Formula.respects_machine hrenaming).outcome ?_ (Token.forall₂_pairs hlength _ _)
  exact Formula.alike_of_opening? (by simp) rfl

theorem drafts_renamed (h : (Scanner.ofString source).tokens = .ok ts)
    (h' : (Scanner.ofString source').tokens = .ok ts')
    (hfirst : ∀ t ∈ ts.head?, t.kind ≠ .integer)
    (halike : List.Forall₂ (Token.IsRenamed r) ts ts') (hr : (Token.names ts).InjOn r)
    (wanted : Option Nat) :
    ResultsAlike (ReadError.Corresponds source source' ts ts') (fun u u' => u' = u.mapNames r)
      (drafts wanted (.ofString source)).result (drafts wanted (.ofString source')).result := by
  have hfirst' : ∀ t ∈ ts'.head?, t.kind ≠ .integer := by
    cases halike with
    | nil => simp
    | cons ht _ => simpa [ht.kind] using hfirst
  obtain ⟨-, -, hstop⟩ := Scanner.exists_finish_of_tokens h
  obtain ⟨-, -, hstop'⟩ := Scanner.exists_finish_of_tokens h'
  have hblames := blamesText_drafts wanted source
  refine ResultsAlike.imp (E := fun e e' => e.BlamesText → e.Corresponds source source' ts ts' e')
    ?_ fun e e' he hcorresponds => hcorresponds (hblames e he)
  rw [drafts_result_of_formula (TokenStream.beginsWithInteger_ofString h hfirst),
    drafts_result_of_formula (TokenStream.beginsWithInteger_ofString h' hfirst')]
  refine ResultsAlike.map ((outcome_renamed h h' halike hr wanted).results
    (fun e e' he hblames => he.corresponds h h' hblames) fun problem _ => ?_) ?_
  · change ReadError.Corresponds _ _ _ _ ((Scanner.ofString source).stopError problem)
      ((Scanner.ofString source').stopError problem)
    rw [Scanner.stopError, Scanner.stopError, hstop, hstop']
    exact .finish problem
  · rintro m _ rfl
    rfl

/-- For every two texts that are tokenized without an error, begin with no integer and have the same
tokens, but for their places, the spelling of integers and a renaming that keeps the names of the
first text apart, and for every number of parameters and all settings: either both are read, and
what is read differs in the names alone, or both are refused for the same cause and at tokens that
correspond or at the end. -/
theorem readMap_renamed (h : (Scanner.ofString source).tokens = .ok ts)
    (h' : (Scanner.ofString source').tokens = .ok ts')
    (hfirst : ∀ t ∈ ts.head?, t.kind ≠ .integer)
    (halike : List.Forall₂ (Token.IsRenamed r) ts ts') (hr : (Token.names ts).InjOn r)
    (config : ReadConfig) (wanted : Option Nat) :
    ResultsAlike (ReadError.Corresponds source source' ts ts') (fun u u' => u' = u.mapNames r)
      (readMap config wanted (.ofString source)).result
      (readMap config wanted (.ofString source')).result := by
  rw [(readMap_eq_drafts config wanted _).1, (readMap_eq_drafts config wanted _).1]
  refine (drafts_renamed h h' hfirst halike hr wanted).map ?_
  rintro u _ rfl
  exact u.complete_mapNames r config

/-- Two names change places: a formula is read under both choices, and it is refused under both, at
its first tuple, if two parameters are wanted. -/
theorem readMap_renamed_swapped :
    let source := "[n] -> \x7b [i] : 2i >= n \x7d"
    let source' := "[ i ]->\x7b[n]: # twice\n 02n >= i\x7d"
    let r : String → String := Equiv.swap "i" "n"
    let system : BasicMap :=
      ⟨⟨1, 0, 1, [some "n"], [], [some "i"]⟩, 0, [], [[0, -1, 2]], [], ⟨false, true⟩⟩
    let result (wanted : Option Nat) (text : String) :=
      (readMap .standard wanted (.ofString text)).result
    ∃ ts ts', (Scanner.ofString source).tokens = .ok ts ∧
      (Scanner.ofString source').tokens = .ok ts' ∧ (∀ t ∈ ts.head?, t.kind ≠ .integer) ∧
      List.Forall₂ (Token.IsRenamed r) ts ts' ∧ (Token.names ts).InjOn r ∧
      result none source = .ok ⟨system.space, [system]⟩ ∧
      result none source' = .ok ⟨system.space.mapNames r, [system.mapNames r]⟩ ∧
      ∃ e e', result (some 2) source = .error e ∧ result (some 2) source' = .error e' ∧
        e.Corresponds source source' ts ts' e' := by
  intro source source' r system result
  let ts := (Scanner.ofString source).tokens.toOption.getD []
  let ts' := (Scanner.ofString source').tokens.toOption.getD []
  have h : (Scanner.ofString source).tokens = .ok ts := by
    unfold ts source
    cbv
  have h' : (Scanner.ofString source').tokens = .ok ts' := by
    unfold ts' source'
    cbv
  have hfirst : ∀ t ∈ ts.head?, t.kind ≠ .integer := by
    have hkind : ts.head?.map Token.kind = some .leftBracket := by
      unfold ts source
      cbv
    intro t ht
    have hbracket : t.kind = .leftBracket := by simpa [Option.mem_def.mp ht] using hkind
    simp [hbracket]
  have halike : List.Forall₂ (Token.IsRenamed r) ts ts' := by
    unfold ts ts' source source' r
    refine of_decide_eq_true ?_
    cbv
  have hr : (Token.names ts).InjOn r := (Equiv.swap "i" "n").injective.injOn
  have hread : result none source = .ok ⟨system.space, [system]⟩ := by
    unfold result source system
    cbv
  have hrefused : result (some 2) source =
      .error (.refused ⟨.parameterCount 2 1, ⟨⟨1, 1, 0⟩, ⟨1, 4, 3⟩⟩, none⟩) := by
    unfold result source
    cbv
  refine ⟨ts, ts', h, h', hfirst, halike, hr, hread, ?_, ?_⟩
  · have hresults : ResultsAlike _ _ (result none source) (result none source') :=
      readMap_renamed h h' hfirst halike hr .standard none
    rw [hread] at hresults
    obtain ⟨u, hu, rfl⟩ := hresults.of_ok
    exact hu
  · have hresults : ResultsAlike _ _ (result (some 2) source) (result (some 2) source') :=
      readMap_renamed h h' hfirst halike hr .standard (some 2)
    rw [hrefused] at hresults
    obtain ⟨e', he', hcorresponds⟩ := hresults.of_error
    exact ⟨_, e', hrefused, he', hcorresponds⟩

end Reading
end ConstraintText

import ConstraintText.Proofs.MatrixSafety

/-!
# Every text is read or refused

A reading gives an object, or an error that blames the text: a character that begins no lexeme or a
refusal. The faults of a reading do not occur, and neither does a number without a value. On the way
no place, column or count leaves 64 bits, no row is indexed or copied beyond its length and no part
of a union is over another space.
-/
namespace ConstraintText

/-- Whether an error blames the text and nothing else. -/
def ReadError.BlamesText : ReadError → Prop
  | .lexical e => e.IsUnexpectedChar
  | .refused _ => True
  | .fault _ => False
  | .io _ => False

namespace TokenStream

theorem isUnexpectedChar_of_next {s s' : TokenStream} {e : LexError}
    (h : s.next = (.error e, s')) : e.IsUnexpectedChar := by
  obtain ⟨scanner, pending⟩ := s
  cases pending with
  | some held => simp [next] at h
  | none =>
    have hsound := scanner.isSoundItem_next
    rcases hn : scanner.next with ⟨item, scanner'⟩
    cases item with
    | ok t => simp [next, scan, hn] at h
    | error e' =>
      rw [hn] at hsound
      simp only [next, scan, hn, Prod.mk.injEq, Except.error.injEq] at h
      exact h.1 ▸ hsound

theorem isUnexpectedChar_of_peek {s s' : TokenStream} {e : LexError}
    (h : s.peek = (.error e, s')) : e.IsUnexpectedChar := by
  obtain ⟨scanner, pending⟩ := s
  cases pending with
  | some held => simp [peek] at h
  | none =>
    rcases hn : scan ⟨scanner, none⟩ with ⟨item, s''⟩
    cases item with
    | ok t => simp [peek, hn] at h
    | error e' =>
      simp only [peek, hn, Prod.mk.injEq, Except.error.injEq] at h
      have hnext : next ⟨scanner, none⟩ = (.error e', s'') := hn
      exact h.1 ▸ isUnexpectedChar_of_next hnext

theorem hasValue_of_mem (source : String) : ∀ t ∈ (ofString source).tokens, t.HasValue :=
  fun _ h => Scanner.hasValue_of_leading h

end TokenStream

namespace Reading

variable {α β : Type} {r : Reading α} {f : α → TokenStream → Reading β}

/-- Whether a reading fails only with errors that blame the text. -/
def BlamesText (r : Reading α) : Prop := ∀ e, r.result = .error e → e.BlamesText

theorem blamesText_ok (value : α) (s : TokenStream) : (ok value s).BlamesText := by
  intro e h
  simp [ok] at h

theorem blamesText_lexical {e : LexError} (he : e.IsUnexpectedChar) (s : TokenStream) :
    (error (.lexical e) s : Reading α).BlamesText := by
  intro e' h
  obtain rfl := Except.error.inj h
  exact he

theorem blamesText_refused (refusal : Refusal) (s : TokenStream) :
    (error (.refused refusal) s : Reading α).BlamesText := by
  intro e h
  obtain rfl := Except.error.inj h
  trivial

theorem BlamesText.bind (hr : r.BlamesText) (hf : ∀ value s, (f value s).BlamesText) :
    (r.bind f).BlamesText := by
  intro e h
  unfold Reading.bind at h
  split at h
  · exact hf _ _ e h
  · rename_i e' he
    obtain rfl := Except.error.inj h
    exact hr _ he

end Reading

/-- A machine whose steps fail only by refusing gives no other error on a stream. -/
theorem Machine.Stays.blamesText {σ α : Type} {m : Machine σ α} {I : σ → List Token → Prop}
    {Q : α → Prop} (hm : m.Stays I Q) {q : σ} {s : TokenStream} (hq : I q s.tokens) :
    (m.run s q).BlamesText := by
  have hends := hm.ends hq
  have hagrees := m.run_agrees s q
  intro e he
  cases ho : m.outcome q s.tokens with
  | done value rest =>
    rw [ho] at hagrees
    simp [hagrees.1] at he
  | failed e' =>
    rw [ho] at hends hagrees
    obtain ⟨r, rfl⟩ := hends
    obtain rfl := Except.error.inj (hagrees.symm.trans he)
    trivial
  | short problem =>
    rw [ho] at hagrees
    obtain rfl := Except.error.inj (hagrees.symm.trans he)
    unfold Scanner.stopError
    split
    · exact Scanner.isUnexpectedChar_of_stop ‹_›
    · trivial

namespace Reading

variable {α : Type}

theorem blamesText_drafts (wanted : Option Nat) (source : String) :
    (drafts wanted (.ofString source)).BlamesText := by
  have hv := TokenStream.hasValue_of_mem source
  cases hts : (TokenStream.ofString source).tokens with
  | nil =>
    rcases TokenStream.peek_of_tokens_nil hts with ⟨e, s', hp, -⟩ | ⟨s', hp, -⟩
    · simp only [drafts, hp]
      exact blamesText_lexical (TokenStream.isUnexpectedChar_of_peek hp) s'
    · simp only [drafts, hp]
      exact blamesText_refused _ s'
  | cons t ts =>
    -- looking at the first token leaves the tokens to come as they are
    obtain ⟨s', hp, hs', -⟩ := TokenStream.peek_of_tokens_cons hts
    rw [← hs'] at hv
    simp only [drafts, hp]
    split
    · exact Matrix.stays.blamesText (Matrix.fits_firstInteger hv)
    · have hformula : (Formula.read wanted s').BlamesText :=
        (Formula.stays _).blamesText (Formula.fits_beginning wanted hv)
      exact hformula.bind fun m s => blamesText_ok _ s

theorem blamesText_readMap (config : ReadConfig) (wanted : Option Nat) (source : String) :
    (readMap config wanted (.ofString source)).BlamesText := by
  intro e h
  have hdrafts := blamesText_drafts wanted source
  rw [(readMap_eq_drafts _ _ _).1] at h
  cases hr : (drafts wanted (.ofString source)).result with
  | ok u => simp [hr, Except.map] at h
  | error e' =>
    rw [hr] at h
    obtain rfl := Except.error.inj h
    exact hdrafts _ hr

theorem blamesText_onlyPart (u : MapUnion) (s : TokenStream) : (onlyPart u s).BlamesText := by
  unfold onlyPart
  split
  · exact blamesText_ok _ s
  · exact blamesText_ok _ s
  · exact blamesText_refused _ s

theorem blamesText_finish (config : ReadConfig) (s : TokenStream) :
    (finish config s).BlamesText := by
  unfold finish
  split
  · intro e h
    rcases hn : s.next with ⟨item, s'⟩
    match item with
    | .error e' =>
      simp only [TokenStream.expectEnd, hn] at h
      obtain rfl := Except.error.inj h
      exact TokenStream.isUnexpectedChar_of_next hn
    | .ok none => simp [TokenStream.expectEnd, hn] at h
    | .ok (some t) =>
      simp only [TokenStream.expectEnd, hn] at h
      obtain rfl := Except.error.inj h
      trivial
  · exact blamesText_ok _ s

theorem blamesText_fromText (config : ReadConfig) {read : TokenStream → Reading α}
    {source : String} (h : (read (.ofString source)).BlamesText) :
    (fromText config read source).BlamesText :=
  h.bind fun _ s => (blamesText_finish config s).bind fun _ s => blamesText_ok _ s

theorem blamesText_readBasicMap (config : ReadConfig) (wanted : Option Nat) (source : String) :
    (readBasicMap config wanted (.ofString source)).BlamesText :=
  (blamesText_readMap config wanted source).bind blamesText_onlyPart

theorem blamesText_readBasicSet (config : ReadConfig) (wanted : Option Nat) (source : String) :
    (readBasicSet config wanted (.ofString source)).BlamesText := by
  refine (blamesText_readBasicMap config wanted source).bind fun m s => ?_
  split
  · exact blamesText_ok _ s
  · exact blamesText_refused _ s

theorem blamesText_readSet (config : ReadConfig) (wanted : Option Nat) (source : String) :
    (readSet config wanted (.ofString source)).BlamesText := by
  refine (blamesText_readMap config wanted source).bind fun u s => ?_
  split
  · exact blamesText_ok _ s
  · exact blamesText_refused _ s

/-- The spaces of what has been read are counted by 64 bits, and those of the parts are alike. -/
theorem bounds_of_drafts {wanted : Option Nat} {source : String}
    (hsource : source.utf8ByteSize < 2 ^ 63) {u : MapUnion}
    (h : (drafts wanted (.ofString source)).result = .ok u) :
    1 + u.space.totalDim ≤ Decimal.largestCount ∧ ∀ m ∈ u.parts,
      m.rowLength ≤ Decimal.largestCount ∧ u.space.isCompatible m.space = true := by
  have hlargest : Decimal.largestCount = 2 ^ 64 - 1 := rfl
  have htokens := length_tokens_ofString source
  cases hb : (TokenStream.ofString source).beginsWithInteger with
  | true =>
    obtain ⟨rest, ho⟩ := (drafts_ok_iff_of_matrices hb).mp h
    obtain ⟨columns, ws, ts, -, hd, rfl⟩ := Matrix.outcome_iff.mp ho
    obtain ⟨hn, hcolumns⟩ := hd.columns_bounds
    have htotal : (Space.unnamed (wanted.getD 0) 0 (columns - 2 - wanted.getD 0)).totalDim =
        columns - 2 := by
      simp only [Space.totalDim, Space.unnamed]
      omega
    refine ⟨by simp only [htotal]; omega, ?_⟩
    intro m hm
    obtain ⟨w, hw, rfl⟩ := List.mem_map.mp hm
    obtain rfl := hd.columns_eq w hw
    refine ⟨?_, ?_⟩
    · rw [Matrix.Written.draft, Matrix.rowLength_system]
      omega
    · simp [Matrix.Written.draft, Matrix.system, Space.isCompatible]
  | false =>
    obtain ⟨m, rest, ho, rfl⟩ := (drafts_ok_iff_of_formula hb).mp h
    have hfits := Formula.fits_beginning wanted (TokenStream.hasValue_of_mem source)
    have hends := (Formula.stays _).ends hfits
    have houtcome : Formula.machine.outcome ⟨.empty, .beginning wanted⟩
        (TokenStream.ofString source).tokens = .done m rest := ho
    rw [houtcome] at hends
    obtain ⟨n, hn, hm⟩ := hends
    have hlength := hm.rowLength
    refine ⟨?_, ?_⟩
    · have htotal := hm.totalDim
      rw [BasicMap.totalDim] at htotal
      simp only
      omega
    · intro m' hm'
      rw [List.mem_singleton.mp hm']
      exact ⟨by omega, by simp [Space.isCompatible]⟩

end Reading

namespace Object

theorem blamesText_read {kind : ObjectKind} (hkind : kind ≠ .vector) (config : ReadConfig)
    (wanted : Option Nat) (format : Format) (source : String) {e : ReadError}
    (h : (read kind config wanted format source).1 = .error e) : e.BlamesText := by
  have hmap : ∀ {α : Type} {make : α → Object} {result : Except ReadError α},
      result.map make = .error e → result = .error e := by
    intro α make result hresult
    cases result with
    | ok value => simp [Except.map] at hresult
    | error e' => simpa [Except.map] using hresult
  cases kind with
  | vector => exact absurd rfl hkind
  | basicMap =>
    have hr := Reading.blamesText_readBasicMap config wanted source
    exact Reading.blamesText_fromText config hr e (hmap h)
  | basicSet =>
    have hr := Reading.blamesText_readBasicSet config wanted source
    exact Reading.blamesText_fromText config hr e (hmap h)
  | map =>
    have hr := Reading.blamesText_readMap config wanted source
    exact Reading.blamesText_fromText config hr e (hmap h)
  | set =>
    have hr := Reading.blamesText_readSet config wanted source
    exact Reading.blamesText_fromText config hr e (hmap h)

/-- Whatever a text of less than `2 ^ 63` bytes is, however many parameters are wanted and whatever
the settings, it is read or refused. Each item is scanned with places of 64 bits and cut out of the
text between characters. Wherever the reading gets, as a formula or as matrices, counts of 64 bits,
indices of rows and lengths of rows pass their checks. For matrices these are also the checks of
completing each one and joining it to those before it as soon as it has been read, whether or not
the text is refused further on. They pass as well when all that has been read is completed, joined
and, if nothing is left of it, replaced by the contradiction. -/
theorem read_total (kind : ObjectKind) (hkind : kind ≠ .vector) (config : ReadConfig)
    (wanted : Option Nat) (format : Format) (source : String)
    (hsource : source.utf8ByteSize < 2 ^ 63) :
    let s := TokenStream.ofString source
    (∀ e, (read kind config wanted format source).1 = .error e → e.BlamesText) ∧
    (∀ n, let scanner := (fun scanner : Scanner => scanner.next.2)^[n] (.ofString source)
      scanner.next64? source = some scanner.next) ∧
    Formula.machine.Passes Formula.checks ⟨.empty, .beginning wanted⟩ s.tokens ∧
    Matrix.machine.Passes (Matrix.checks config) ⟨wanted.getD 0, .firstInteger⟩ s.tokens ∧
    ∀ u, (Reading.drafts wanted s).result = .ok u →
      u.complete64? config = some (u.complete config) ∧
        (BasicMap.unconstrained u.space).setToEmpty64? = some (BasicMap.empty u.space) := by
  intro s
  have hlargest : Decimal.largestCount = 2 ^ 64 - 1 := rfl
  have htokens : s.tokens.length ≤ source.utf8ByteSize + 1 := length_tokens_ofString source
  have hv : ∀ t ∈ s.tokens, t.HasValue := TokenStream.hasValue_of_mem source
  refine ⟨fun e he => blamesText_read hkind config wanted format source he, fun n => ?_,
    Formula.passes wanted hv (by omega), Matrix.passes config _ hv, fun u hu => ?_⟩
  · exact Scanner.next64?_eq (Scanner.isIn_iterate source n) (by omega)
  · obtain ⟨hspace, hparts⟩ := Reading.bounds_of_drafts hsource hu
    refine ⟨MapUnion.complete64?_eq config fun m hm => ?_, BasicMap.setToEmpty64?_eq hspace⟩
    exact ⟨(Reading.isDraft_of_drafts hu m hm).isUniform, hparts m hm⟩

/-- A map where a set is wanted: it is read and then refused. -/
theorem read_total_map_as_set :
    let source := "[n] -> \x7b [i] -> [j] : exists (k : i = 2k) and j <= n \x7d"
    let s := TokenStream.ofString source
    source.utf8ByteSize < 2 ^ 63 ∧
      (∃ e, (read .set .standard none .isl source).1 = .error e ∧ e.BlamesText) ∧
      Formula.machine.Passes Formula.checks ⟨.empty, .beginning none⟩ s.tokens ∧
      ∃ u, (Reading.drafts none s).result = .ok u ∧
        u.complete64? .standard = some (u.complete .standard) := by
  intro source s
  have hsize : source.utf8ByteSize < 2 ^ 63 := by decide
  obtain ⟨herrors, -, hformula, -, hdrafts⟩ :=
    read_total .set (by decide) .standard none .isl source hsize
  let space : Space := ⟨1, 1, 1, [some "n"], [some "i"], [some "j"]⟩
  have herror : (read .set .standard none .isl source).1 =
      .error (.refused (.atPlace (.notASet space) ⟨1, 55, 54⟩)) := by cbv
  have hdraft : (Reading.drafts none s).result = .ok
      ⟨space, [⟨space, 1, [[0, 0, 1, 0, -2]], [[0, 1, 0, -1, 0]], [[0, 0, 0, 0, 0, 0]],
        ⟨false, false⟩⟩]⟩ := by cbv
  exact ⟨hsize, ⟨_, herror, herrors _ herror⟩, hformula, _, hdraft, (hdrafts _ hdraft).1⟩

end Object
end ConstraintText

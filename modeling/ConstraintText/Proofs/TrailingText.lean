import ConstraintText.Proofs.Locality
import ConstraintText.Proofs.MatrixReading
import ConstraintText.Proofs.RoundTrip
import ConstraintText.Proofs.Totality
import ConstraintText.Proofs.Sessions

/-!
# Text behind an object

An object ends with its last token: a closing brace or an integer. A lenient reader stops there,
and a strict one looks at the one item behind. So strictness changes no object and no error of an
object; it only refuses what stands behind.
-/
namespace ConstraintText

namespace Scanner

variable {s s' : Scanner} {ts : List Token}

theorem Scans.items (h : s.Scans ts s') : s.items = ts.map .ok ++ s'.items := by
  induction h with
  | nil s => rfl
  | cons hn ht _ ih => rw [items_of_token hn ht, ih, List.map_cons, List.cons_append]

theorem exists_scans {us : List Token} (h : s.leading = ts ++ us) : ∃ s', s.Scans ts s' := by
  induction ts generalizing s with
  | nil => exact ⟨s, .nil s⟩
  | cons t ts ih =>
    rcases hn : s.next with ⟨item, s₁⟩
    cases item with
    | error e => simp [leading_of_error hn] at h
    | ok u =>
      cases hu : u.isFinish with
      | true => simp [leading_of_finish hn hu] at h
      | false =>
        rw [leading_of_token hn hu, List.cons_append, List.cons.injEq] at h
        obtain ⟨rfl, hrest⟩ := h
        obtain ⟨s', hs'⟩ := ih hrest
        exact ⟨s', .cons hn hu hs'⟩

theorem Scans.isIn {source : String} (h : s.Scans ts s') (hs : s.IsIn source) :
    s'.IsIn source := by
  induction h with
  | nil s => exact hs
  | cons hn _ _ ih =>
    have hnext := hs.next
    rw [hn] at hnext
    exact ih hnext

theorem Scans.stop_getLast? (h : s.Scans ts s') : ∀ t ∈ ts.getLast?, t.span.stop = s'.place := by
  induction h with
  | nil s => simp
  | @cons s s₁ s' t ts hn _ hs ih =>
    cases ts with
    | nil =>
      cases hs
      have hstop := stop_itemSpan_next s
      rw [hn] at hstop
      simpa [itemSpan] using hstop
    | cons u us => simpa using ih

theorem Scans.place_ofString {source : String} {used : List Char}
    (h : (ofString source).Scans ts s') (hused : source.toList = used ++ s'.rest) :
    s'.place = Location.start.afterAll used := by
  obtain ⟨front, hfront, hplace⟩ := h.isIn (isIn_ofString source)
  rw [hplace, List.append_cancel_right (hfront.symm.trans hused)]

theorem Scans.getElem?_items (h : s.Scans ts s') : s.items[ts.length]? = some s'.next.1 := by
  rw [h.items, List.getElem?_append_right (by simp)]
  simpa [← List.head?_eq_getElem?] using head?_items s'

/-- The end is next if only a gap is left, and a token or a character that begins none if not. -/
theorem next_of_isGap (s : Scanner) :
    (IsGap true s.rest ∧ ∃ t, s.next.1 = .ok t ∧ t.isFinish = true) ∨
      (¬ IsGap true s.rest ∧ ∃ t, s.next.1 = .ok t ∧ t.isFinish = false) ∨
      (¬ IsGap true s.rest ∧ ∃ e, s.next.1 = .error e ∧ e.IsUnexpectedChar) := by
  rw [isGap_iff_afterGap]
  have hsound := s.isSoundItem_next
  rcases hn : s.next with ⟨item, s'⟩
  rw [hn] at hsound
  cases item with
  | error e =>
    refine .inr (.inr ⟨fun hg => ?_, e, rfl, hsound⟩)
    simp [next, hg] at hn
  | ok t =>
    rw [← isFinish_next hn]
    cases ht : t.isFinish with
    | true => exact .inl ⟨rfl, t, rfl, ht⟩
    | false => exact .inr (.inl ⟨by simp, t, rfl, ht⟩)

end Scanner

/-- Whether tokens are those of one object, in either notation. -/
def IsObject (nParam : Nat) (ts : List Token) : Prop :=
  (∃ f : Formula.Tree, f.Derives ts) ∨ ∃ columns ws, Matrix.DerivesText nParam columns ws ts

theorem IsObject.exists_getLast? {nParam : Nat} {ts : List Token} (h : IsObject nParam ts) :
    ∃ last, ts.getLast? = some last ∧ (last.kind = .rightBrace ∨ last.kind = .integer) := by
  rcases h with ⟨f, hf⟩ | ⟨columns, ws, hws⟩
  · obtain ⟨hne, hlast⟩ := Reading.kind_getLast?_of_derives hf
    obtain ⟨last, hl⟩ := List.getLast?_isSome.mpr hne |> Option.isSome_iff_exists.mp
    exact ⟨last, hl, .inl (hlast last hl)⟩
  · obtain ⟨hne, hkind⟩ := hws.kind
    obtain ⟨last, hl⟩ := List.getLast?_isSome.mpr hne |> Option.isSome_iff_exists.mp
    exact ⟨last, hl, .inr (hkind last (List.mem_of_getLast? hl))⟩

namespace TokenStream

theorem Takes.of_scans {s s' : Scanner} {ts : List Token} (h : s.Scans ts s') :
    Takes ⟨s, none⟩ ts ⟨s', none⟩ := by
  induction h with
  | nil s => exact .nil _
  | cons hn ht _ ih => exact .cons (by simp [next, scan, hn, ht]) ih

/-- What a strict reading finds behind its object: the next item, which should be the end. -/
theorem expectEnd_of_next {s : TokenStream} (hp : s.pending = none) :
    s.expectEnd.1 = match s.scanner.next.1 with
      | .error e => .error (.lexical e)
      | .ok t => if t.isFinish then .ok () else .error (.refused (.atToken .trailingInput t)) := by
  obtain ⟨scanner, pending⟩ := s
  obtain rfl : pending = none := hp
  rcases hn : scanner.next with ⟨item, scanner'⟩
  cases item with
  | error e => simp [expectEnd, next, scan, hn]
  | ok t => cases ht : t.isFinish <;> simp [expectEnd, next, scan, hn, ht, refusal]

end TokenStream

namespace Reading

/-- A reading that succeeds takes the tokens of one object. -/
theorem takes_of_drafts {wanted : Option Nat} {s : TokenStream} {v : MapUnion}
    (h : (drafts wanted s).result = .ok v) :
    ∃ ts, IsObject (wanted.getD 0) ts ∧ s.Takes ts (drafts wanted s).stream := by
  obtain ⟨ts, -, htakes, -⟩ := isLocal_drafts wanted h
  have htokens := htakes.tokens
  refine ⟨ts, ?_, htakes⟩
  cases hi : s.beginsWithInteger with
  | true =>
    obtain ⟨rest, ho⟩ := (drafts_ok_iff_of_matrices hi).mp h
    obtain ⟨s', hs', hread⟩ := drafts_of_matrices wanted hi
    have hagrees := Matrix.machine.run_agrees s' ⟨wanted.getD 0, .firstInteger⟩
    rw [hs', ho] at hagrees
    obtain ⟨columns, ws, front, he, hws, -⟩ := Matrix.outcome_iff.mp ho
    obtain rfl : (drafts wanted s).stream.tokens = rest := hread ▸ hagrees.2
    exact .inr ⟨columns, ws, List.append_cancel_right (he.symm.trans htokens) ▸ hws⟩
  | false =>
    obtain ⟨m, rest, ho, -⟩ := (drafts_ok_iff_of_formula hi).mp h
    obtain ⟨us, hus, htakes'⟩ := drafts_takes hi ho
    obtain ⟨f, fs, hd, he, -⟩ := Formula.Tree.outcome_done_iff.mp ho
    obtain rfl : us = ts := List.append_cancel_right (htakes'.tokens.symm.trans htokens)
    exact .inl ⟨f, List.append_cancel_right (he.symm.trans hus) ▸ hd⟩

/-- A formula fails in its tokens or is done with them, whatever stands behind. -/
theorem outcome_of_derives {f : Formula.Tree} {fs : List Token} (hd : f.Derives fs)
    (wanted : Option Nat) :
    (∃ e, ∀ rest, Formula.machine.outcome ⟨⟨[]⟩, .beginning wanted⟩ (fs ++ rest) = .failed e) ∨
      ∃ m, ∀ rest, Formula.machine.outcome ⟨⟨[]⟩, .beginning wanted⟩ (fs ++ rest) = .done m rest := by
  by_cases hw : f.ParamsFit wanted
  · simp only [Formula.Tree.outcome_derives hd hw]
    cases Formula.Occurrence.offence? [] f.occurrences with
    | some r => exact .inl ⟨.refused r, fun rest => rfl⟩
    | none => exact .inr ⟨f.system wanted, fun rest => rfl⟩
  · obtain ⟨e, he⟩ := Formula.Tree.outcome_derives_fail hd hw []
    rw [List.append_nil] at he
    exact .inl ⟨e, fun rest => Machine.outcome_append_of_failed he rest⟩

theorem readMap_of_derives {f : Formula.Tree} {fs : List Token} (hd : f.Derives fs)
    (config : ReadConfig) (wanted : Option Nat) :
    ∃ result, ∀ {s s' : TokenStream}, s.Takes fs s' → (readMap config wanted s).result = result ∧
      (∀ u, result = .ok u → (readMap config wanted s).stream = s') := by
  obtain ⟨front, closing, hfs, hfront, -⟩ := hd.exists_front
  have hi : ∀ {s s' : TokenStream}, s.Takes fs s' → s.beginsWithInteger = false := by
    intro s s' h
    exact beginsWithInteger_of_front hfront (by rw [h.tokens, hfs, List.append_assoc])
  rcases outcome_of_derives hd wanted with ⟨e, he⟩ | ⟨m, hm⟩
  · refine ⟨.error e, fun {s s'} h => ⟨?_, by simp⟩⟩
    rw [(readMap_eq_drafts config wanted s).1, drafts_result_of_formula (hi h), h.tokens, he]
    rfl
  · refine ⟨.ok (MapUnion.complete ⟨m.space, [m]⟩ config), fun {s s'} h => ⟨?_, fun _ _ => ?_⟩⟩
    · rw [(readMap_eq_drafts config wanted s).1, drafts_result_of_formula (hi h), h.tokens, hm]
      rfl
    · obtain ⟨ts, he, htakes⟩ := drafts_takes (hi h) (h.tokens ▸ hm s'.tokens)
      obtain rfl : fs = ts := List.append_cancel_right (h.tokens.symm.trans he)
      rw [(readMap_eq_drafts config wanted s).2]
      exact htakes.unique h

end Reading

namespace Reading

variable {α β : Type}

theorem result_bind (r : Reading α) (f : α → TokenStream → Reading β) :
    (r.bind f).result = r.result.bind fun a => (f a r.stream).result := by
  unfold bind
  cases r.result <;> rfl

theorem bind_ok (r : Reading α) : r.bind ok = r := by
  obtain ⟨result, s, events⟩ := r
  cases result <;> simp [bind, ok, after]

theorem bind_assoc {γ : Type} (r : Reading α) (f : α → TokenStream → Reading β)
    (g : β → TokenStream → Reading γ) :
    (r.bind f).bind g = r.bind fun a s => (f a s).bind g := by
  obtain ⟨result, s, events⟩ := r
  cases result with
  | error e => rfl
  | ok a =>
    simp only [bind, after]
    cases (f a s).result <;> simp

/-- Whether objects are made of maps where the stream stands, and nothing is taken for them. -/
structure Makes (make : MapUnion → TokenStream → Reading α) : Prop where
  stream (u : MapUnion) (s : TokenStream) : (make u s).stream = s
  place (u : MapUnion) {s s' : TokenStream} :
    s.place = s'.place → (make u s).result = (make u s').result

theorem Makes.stream_bind {make : MapUnion → TokenStream → Reading α} (h : Makes make)
    (r : Reading MapUnion) : (r.bind make).stream = r.stream := by
  obtain ⟨result, s, events⟩ := r
  cases result with
  | error e => rfl
  | ok u => exact h.stream u s

theorem makes_ok : Makes ok where
  stream _ _ := rfl
  place _ _ _ _ := rfl

theorem makes_onlyPart : Makes onlyPart where
  stream u s := by
    unfold onlyPart
    split <;> rfl
  place u s s' h := by
    unfold onlyPart
    split
    · rfl
    · rfl
    · simp only [error, TokenStream.refusal, h]

theorem Makes.bind {make : MapUnion → TokenStream → Reading α} (h : Makes make)
    {f : α → TokenStream → Reading β}
    (hf : ∀ a, (∃ b, f a = ok b) ∨
      ∃ problem, f a = fun s => error (.refused (s.refusal none problem)) s) :
    Makes fun u s => (make u s).bind f where
  stream u s := by
    unfold Reading.bind
    cases (make u s).result with
    | error e => exact h.stream u s
    | ok a =>
      have hs := h.stream u s
      rcases hf a with ⟨b, hb⟩ | ⟨problem, hp⟩
      · simp [hb, ok, after, hs]
      · simp [hp, error, after, hs]
  place u s s' hplace := by
    rw [result_bind, result_bind, h.place u hplace, h.stream, h.stream]
    cases (make u s').result with
    | error e => rfl
    | ok a =>
      rcases hf a with ⟨b, hb⟩ | ⟨problem, hp⟩
      · simp [Except.bind, hb, ok]
      · simp [Except.bind, hp, error, TokenStream.refusal, hplace]

theorem makes_of_cases {f : MapUnion → TokenStream → Reading α}
    (hf : ∀ u, (∃ a, f u = ok a) ∨
      ∃ problem, f u = fun s => error (.refused (s.refusal none problem)) s) : Makes f := by
  have hbind : (fun u s => (ok u s).bind f) = f := by
    funext u s
    simp [bind, ok, after]
  exact hbind ▸ makes_ok.bind hf

/-- Whether a reader of texts makes its results of maps, where their reading stops, and then looks at
what is left. -/
def ReadsMaps (wanted : Option Nat) (read : ReadConfig → String → Except ReadError α) : Prop :=
  ∃ make : MapUnion → TokenStream → Except ReadError α,
    (∀ u {s s'}, s.place = s'.place → make u s = make u s') ∧
    ∀ config source, read config source =
      let maps := readMap config wanted (.ofString source)
      maps.result.bind fun u => (make u maps.stream).bind fun a =>
        (finish config maps.stream).result.map fun _ => a

theorem Makes.readsMaps {make : MapUnion → TokenStream → Reading α} (h : Makes make)
    (wanted : Option Nat) (f : α → β) : ReadsMaps wanted fun config source =>
      (fromText config (fun s => (readMap config wanted s).bind make) source).result.map f := by
  refine ⟨fun u s => (make u s).result.map f, fun u s s' hp => ?_, fun config source => ?_⟩
  · dsimp only
    rw [h.place u hp]
  · simp only [fromText, result_bind]
    rcases readMap config wanted (.ofString source) with ⟨result, s, events⟩
    cases result with
    | error e => rfl
    | ok u =>
      simp only [h.stream_bind, Except.bind]
      cases (make u s).result with
      | error e => rfl
      | ok a => cases (finish config s).result <;> rfl

theorem readsMaps_read {kind : ObjectKind} (hk : kind ≠ .vector) (wanted : Option Nat)
    (format : Format) :
    ReadsMaps wanted fun config source => (Object.read kind config wanted format source).1 := by
  cases kind with
  | vector => exact absurd rfl hk
  | map =>
    have hread := makes_ok.readsMaps wanted Object.map
    simp only [bind_ok] at hread
    exact hread
  | basicMap => exact makes_onlyPart.readsMaps wanted Object.basicMap
  | basicSet =>
    change ReadsMaps wanted fun config source =>
      (fromText config (fun s => readBasicSet config wanted s) source).result.map Object.basicSet
    unfold readBasicSet readBasicMap
    simp only [bind_assoc]
    refine (makes_onlyPart.bind fun m => ?_).readsMaps wanted Object.basicSet
    cases BasicSet.ofBasicMap? m with
    | some set => exact .inl ⟨set, rfl⟩
    | none => exact .inr ⟨.notASet m.space, rfl⟩
  | set =>
    change ReadsMaps wanted fun config source =>
      (fromText config (fun s => readSet config wanted s) source).result.map Object.set
    unfold readSet
    refine (makes_of_cases fun u => ?_).readsMaps wanted Object.set
    cases SetUnion.ofMapUnion? u with
    | some set => exact .inl ⟨set, rfl⟩
    | none => exact .inr ⟨.notASet u.space, rfl⟩

section ReadsMaps

variable {wanted : Option Nat} {read : ReadConfig → String → Except ReadError α} {simplify : Bool}
  {source : String}

/-- A strict reader fails where a lenient one does. Where the lenient one succeeds, the strict one
looks at what is left behind the maps. -/
theorem ReadsMaps.strict (h : ReadsMaps wanted read) (simplify : Bool) (source : String) :
    (∃ e, read ⟨simplify, false⟩ source = .error e ∧ read ⟨simplify, true⟩ source = .error e) ∨
      ∃ u a, (readMap ⟨simplify, false⟩ wanted (.ofString source)).result = .ok u ∧
        read ⟨simplify, false⟩ source = .ok a ∧ read ⟨simplify, true⟩ source =
          (readMap ⟨simplify, false⟩ wanted (.ofString source)).stream.expectEnd.1.map
            fun _ => a := by
  obtain ⟨make, -, hread⟩ := h
  have hmaps : readMap ⟨simplify, true⟩ wanted (.ofString source) =
      readMap ⟨simplify, false⟩ wanted (.ofString source) := rfl
  simp only [hread, hmaps]
  rcases readMap ⟨simplify, false⟩ wanted (.ofString source) with ⟨result, s, events⟩
  cases result with
  | error e => exact .inl ⟨e, rfl, rfl⟩
  | ok u =>
    simp only [Except.bind]
    cases make u s with
    | error e => exact .inl ⟨e, rfl, rfl⟩
    | ok a => exact .inr ⟨u, a, rfl, rfl, rfl⟩

theorem ReadsMaps.strict_of_ok (h : ReadsMaps wanted read) {a : α}
    (ha : read ⟨simplify, false⟩ source = .ok a) : ∃ ts s', IsObject (wanted.getD 0) ts ∧
      (Scanner.ofString source).Scans ts s' ∧ read ⟨simplify, true⟩ source =
        match s'.next.1 with
        | .error e => .error (.lexical e)
        | .ok t => if t.isFinish then .ok a
          else .error (.refused (.atToken .trailingInput t)) := by
  rcases h.strict simplify source with ⟨e, he, -⟩ | ⟨u, a', hu, ha', hstrict⟩
  · cases ha.symm.trans he
  · obtain rfl : a' = a := Except.ok.inj (ha'.symm.trans ha)
    obtain ⟨v, hv, -⟩ := readMap_ok_iff_drafts.mp hu
    obtain ⟨ts, hobject, htakes⟩ := takes_of_drafts hv
    rw [← (readMap_eq_drafts ⟨simplify, false⟩ wanted _).2] at htakes
    obtain ⟨hscans, hp⟩ := htakes.scans rfl
    refine ⟨ts, _, hobject, hscans, ?_⟩
    rw [hstrict, TokenStream.expectEnd_of_next hp]
    split
    · rfl
    · split <;> rfl

theorem ReadsMaps.lenient_of_derives (h : ReadsMaps wanted read) {f : Formula.Tree}
    {fs : List Token} (hd : f.Derives fs) {source' : String} {s s' : Scanner}
    (hs : (Scanner.ofString source).Scans fs s) (hs' : (Scanner.ofString source').Scans fs s')
    (hplace : s.place = s'.place) :
    read ⟨simplify, false⟩ source = read ⟨simplify, false⟩ source' := by
  obtain ⟨make, hmake, hread⟩ := h
  obtain ⟨result, hresult⟩ := readMap_of_derives hd ⟨simplify, false⟩ wanted
  obtain ⟨hr, hstream⟩ := hresult (TokenStream.Takes.of_scans hs)
  obtain ⟨hr', hstream'⟩ := hresult (TokenStream.Takes.of_scans hs')
  simp only [hread, TokenStream.ofString, hr, hr']
  cases result with
  | error e => rfl
  | ok u =>
    have hsame : make u ⟨s, none⟩ = make u ⟨s', none⟩ := hmake u hplace
    simp only [Except.bind, hstream u rfl, hstream' u rfl, hsame]
    rfl

end ReadsMaps

end Reading

namespace Object
open Reading

/-- Strictness only adds a check of what stands behind an object. The object ends where its last
token does: if nothing but blanks and comments follows, a strict reader gives what the lenient one
gives, else it refuses the first token behind, or fails with the character that begins none. Errors
stay the same. A lenient reader sees nothing of what stands behind the closing brace of a formula. -/
theorem read_strict {kind : ObjectKind} (hk : kind ≠ .vector) (simplify : Bool)
    (wanted : Option Nat) (format : Format) (source : String) :
    let lenient (text : String) := (read kind ⟨simplify, false⟩ wanted format text).1
    let strict := (read kind ⟨simplify, true⟩ wanted format source).1
    (∀ e, lenient source = .error e → strict = .error e) ∧
    (∀ object, lenient source = .ok object →
      ∃ (ts : List Token) (last : Token) (used rest : List Char),
        IsObject (wanted.getD 0) ts ∧
        (Scanner.ofString source).items.take ts.length = ts.map .ok ∧
        ts.getLast? = some last ∧ (last.kind = .rightBrace ∨ last.kind = .integer) ∧
        source.toList = used ++ rest ∧ last.span.stop = Location.start.afterAll used ∧
        ((IsGap true rest ∧ strict = .ok object) ∨
          (¬ IsGap true rest ∧ ∃ t, (Scanner.ofString source).items[ts.length]? = some (.ok t) ∧
            strict = .error (.refused (.atToken .trailingInput t))) ∨
          (¬ IsGap true rest ∧ ∃ e, (Scanner.ofString source).items[ts.length]? = some (.error e) ∧
            e.IsUnexpectedChar ∧ strict = .error (.lexical e)))) ∧
    ∀ (f : Formula.Tree) (fs behind : List Token), f.Derives fs →
      (TokenStream.ofString source).tokens = fs ++ behind →
      ∃ used rest : List Char, source.toList = used ++ rest ∧ used.getLast? = some '}' ∧
        (∀ last ∈ fs.getLast?, last.span.stop = Location.start.afterAll used) ∧
        ∀ tail, lenient (String.ofList (used ++ tail)) = lenient source := by
  have hreads := readsMaps_read hk wanted format
  refine ⟨fun e he => ?_, fun object hobject => ?_, fun f fs behind hd htokens => ?_⟩
  · rcases hreads.strict simplify source with ⟨e', he', hstrict⟩ | ⟨u, a, -, ha, -⟩
    · exact hstrict.trans (he'.symm.trans he)
    · cases he.symm.trans ha
  · obtain ⟨ts, s', hts, hscans, hstrict⟩ := hreads.strict_of_ok hobject
    obtain ⟨last, hlast, hkind⟩ := hts.exists_getLast?
    obtain ⟨used, hused, -, -⟩ := hscans.append_rest
    refine ⟨ts, last, used, s'.rest, hts, by simp [hscans.items], hlast, hkind, hused, ?_, ?_⟩
    · rw [hscans.stop_getLast? last hlast, hscans.place_ofString hused]
    · rw [hscans.getElem?_items, hstrict]
      rcases s'.next_of_isGap with ⟨hgap, t, ht, hend⟩ | ⟨hgap, t, ht, hend⟩ | ⟨hgap, e, he, hchar⟩
      · exact .inl ⟨hgap, by simp [ht, hend]⟩
      · exact .inr (.inl ⟨hgap, t, by rw [ht], by simp [ht, hend]⟩)
      · exact .inr (.inr ⟨hgap, e, by rw [he], hchar, by simp [he]⟩)
  · obtain ⟨s', hscans⟩ := Scanner.exists_scans htokens
    obtain ⟨used, hused, -, hbrace⟩ := hscans.append_rest
    obtain ⟨hne, hlast⟩ := kind_getLast?_of_derives hd
    obtain ⟨hend, hagain⟩ := hbrace hlast
    refine ⟨used, s'.rest, hused, hend hne, fun last hl => ?_, fun tail => ?_⟩
    · rw [hscans.stop_getLast? last hl, hscans.place_ofString hused]
    · have hscans' : (Scanner.ofString (String.ofList (used ++ tail))).Scans fs
          ⟨tail, s'.place, s'.newLine⟩ := by
        simpa [Scanner.ofString, TokenStream.ofString] using hagain tail
      exact hreads.lenient_of_derives hd hscans' hscans rfl

/-- A set with a character behind it that begins no token, matrices with an integer behind them, and a
map where a set is asked for. -/
theorem read_strict_set :
    let lenient (text : String) := (read .set ⟨true, false⟩ none .isl text).1
    let strict (text : String) := (read .set ⟨true, true⟩ none .isl text).1
    let marked := "\x7b [i] : i = 2 \x7d # two\n $"
    let matrix := "1 3\n0 1 -2\n5"
    let map := "\x7b [i] -> [j] \x7d $"
    (∃ object used rest, lenient marked = .ok object ∧ marked.toList = used ++ rest ∧
      ¬ IsGap true rest ∧
      strict marked = .error (.lexical ⟨.unexpectedChar '$', ⟨⟨2, 2, 23⟩, ⟨2, 3, 24⟩⟩⟩)) ∧
    (∃ object used rest, lenient matrix = .ok object ∧ matrix.toList = used ++ rest ∧
      ¬ IsGap true rest ∧
      strict matrix = .error (.refused ⟨.trailingInput, ⟨⟨3, 1, 11⟩, ⟨3, 2, 12⟩⟩, some "5"⟩)) ∧
    ∃ e, lenient map = .error e ∧ strict map = .error e := by
  intro lenient strict marked matrix map
  have hmarked : strict marked =
      .error (.lexical ⟨.unexpectedChar '$', ⟨⟨2, 2, 23⟩, ⟨2, 3, 24⟩⟩⟩) := by
    unfold strict marked
    cbv
  have hmatrix : strict matrix =
      .error (.refused ⟨.trailingInput, ⟨⟨3, 1, 11⟩, ⟨3, 2, 12⟩⟩, some "5"⟩) := by
    unfold strict matrix
    cbv
  have hok : ∀ {text e}, (∃ object, lenient text = .ok object) → strict text = .error e →
      ∃ object used rest, lenient text = .ok object ∧ text.toList = used ++ rest ∧
        ¬ IsGap true rest ∧ strict text = .error e := by
    rintro text e ⟨object, hobject⟩ he
    obtain ⟨-, hrest, -⟩ := read_strict (show ObjectKind.set ≠ .vector by decide) true none .isl text
    obtain ⟨ts, last, used, rest, -, -, -, -, hused, -, hcases⟩ := hrest object hobject
    refine ⟨object, used, rest, hobject, hused, ?_, he⟩
    rcases hcases with ⟨-, hstrict⟩ | ⟨hgap, -⟩ | ⟨hgap, -⟩
    · cases he.symm.trans hstrict
    · exact hgap
    · exact hgap
  refine ⟨hok ⟨_, by unfold lenient marked; cbv⟩ hmarked,
    hok ⟨_, by unfold lenient matrix; cbv⟩ hmatrix, ?_⟩
  have hmap : ∃ e, lenient map = .error e := ⟨_, by unfold lenient map; cbv⟩
  obtain ⟨e, he⟩ := hmap
  obtain ⟨herror, -⟩ := read_strict (show ObjectKind.set ≠ .vector by decide) true none .isl map
  exact ⟨e, he, herror e he⟩

end Object
end ConstraintText

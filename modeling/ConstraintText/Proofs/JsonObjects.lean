import ConstraintText.Json.Decode
import ConstraintText.Proofs.CheckedCounts
import ConstraintText.Proofs.JsonDocuments
import Mathlib.Data.Nat.Digits.Lemmas

/-!
# Objects read back

An integer is its sign times the number its digits stand for; a structure is found field by field,
as no field has the name of another. So the document of an object is taken back as the object, and
as that document is plain, so are its compact text and its pretty text. Counts are the one thing
that can go wrong: they must have 64 bits, as they do where a program runs.
-/
namespace ConstraintText.Json

/-- Whether a value is written as a plain document, and that document is taken as the value. -/
structure Keeps {α : Type} (encode : α → Json) (decode : Json → Option α) (a : α) : Prop where
  plain : (encode a).IsPlain
  decoded : decode (encode a) = some a

theorem digits32_eq (n : Nat) : digits32 n = Nat.digits (2 ^ 32) n := by
  fun_induction digits32 n with
  | case1 => simp
  | case2 n hn ih =>
    rw [ih, Nat.digits_def' (by norm_num) (Nat.pos_of_ne_zero hn)]
    norm_num

theorem ofDigits32_eq (ds : List Nat) : ofDigits32 ds = Nat.ofDigits (2 ^ 32) ds := by
  rw [Nat.ofDigits_eq_foldr]
  rfl

theorem ofDigits32_digits32 (n : Nat) : ofDigits32 (digits32 n) = n := by
  rw [digits32_eq, ofDigits32_eq, Nat.ofDigits_digits]

theorem le_largestDigit_of_mem {d n : Nat} (h : d ∈ digits32 n) : d ≤ largestDigit := by
  have hbase : d < 2 ^ 32 := Nat.digits_lt_base (by norm_num) (digits32_eq n ▸ h)
  rw [largestDigit]
  omega

theorem keeps_natural {bound n : Nat} (h : n ≤ bound) : Keeps natural (natural? bound) n :=
  ⟨.number rfl, by simp [natural, natural?, h]⟩

theorem sign?_ofSign (i : Int) : sign? (ofSign i) = some i.sign := by
  rcases lt_trichotomy i 0 with h | rfl | h
  · simp [ofSign, sign?, h, Int.sign_eq_neg_one_of_neg h]
  · rfl
  · simp [ofSign, sign?, Int.sign_eq_one_of_pos h, h.le]

theorem keeps_list {α : Type} {encode : α → Json} {decode : Json → Option α} {as : List α}
    (h : ∀ a ∈ as, Keeps encode decode a) :
    Keeps (fun as => .array (as.map encode)) (listOf? decode) as where
  plain := .array (by simpa using fun a ha => (h a ha).plain)
  decoded := by
    have hback : as.mapM (decode ∘ encode) = some (as.map id) :=
      mapM_eq_some fun a ha => (h a ha).decoded
    simpa [listOf?, items?, List.mapM_map] using hback

theorem keeps_digits (n : Nat) : Keeps (fun ds => .array (ds.map natural))
    (listOf? (natural? largestDigit)) (digits32 n) :=
  keeps_list fun _ hd => keeps_natural (le_largestDigit_of_mem hd)

theorem keeps_int (i : Int) : Keeps ofInt int? i where
  plain := by
    refine .array fun v hv => ?_
    rcases List.mem_pair.mp hv with rfl | rfl
    · exact .number rfl
    · exact (keeps_digits i.natAbs).plain
  decoded := by
    simp only [int?, ofInt, items?, sign?_ofSign, (keeps_digits i.natAbs).decoded,
      ofDigits32_digits32, Option.bind_eq_bind, Option.bind_some, Option.pure_def]
    rw [Int.sign_mul_natAbs]

/-- Minus one, and the digits nought and one. -/
example : compact (ofInt (-(2 ^ 32))) = "[-1,[0,1]]" := by cbv

theorem keeps_row (row : List Int) : Keeps ofRow row? row := keeps_list fun i _ => keeps_int i

theorem keeps_rows (rows : List (List Int)) : Keeps ofRows rows? rows :=
  keeps_list fun row _ => keeps_row row

theorem keeps_name (name : Option String) : Keeps ofName name? name := by
  cases name with
  | none => exact ⟨.null, rfl⟩
  | some name => exact ⟨.string name, rfl⟩

theorem keeps_names (names : List (Option String)) : Keeps ofNames names? names :=
  keeps_list fun name _ => keeps_name name

def record (fields : List (String × Json)) : Json :=
  .object (fields.map fun f => member f.1 f.2)

theorem isPlain_record {fields : List (String × Json)} (h : ∀ f ∈ fields, f.2.IsPlain) :
    (record fields).IsPlain := by
  refine .object ?_ ?_
  · rw [List.forall_mem_map]
    exact fun _ _ => rfl
  · rw [List.forall_mem_map]
    exact h

theorem filter_fields {fields : List (String × Json)} (hn : (fields.map (·.1)).Nodup)
    {f : String × Json} (hf : f ∈ fields) : fields.filter (·.1 == f.1) = [f] := by
  induction fields with
  | nil => simp at hf
  | cons g fields ih =>
    rw [List.map_cons, List.nodup_cons] at hn
    rcases List.mem_cons.mp hf with rfl | hf
    · have hother : fields.filter (·.1 == f.1) = [] := by
        rw [List.filter_eq_nil_iff]
        intro g hg he
        exact hn.1 (List.mem_map.mpr ⟨g, hg, by simpa using he⟩)
      simp [hother]
    · have hne : g.1 ≠ f.1 := fun he => hn.1 (he ▸ List.mem_map_of_mem hf)
      simp [hne, ih hn.2 hf]

theorem only?_record {fields : List (String × Json)} (hn : (fields.map (·.1)).Nodup)
    {f : String × Json} (hf : f ∈ fields) :
    only? (fields.map fun f => member f.1 f.2) f.1 = some f.2 := by
  have hkey : ((fun m : Option String × Json => m.1 == some f.1) ∘ fun g : String × Json =>
      member g.1 g.2) = fun g => g.1 == f.1 := by
    funext g
    simp [member]
  rw [only?, List.filter_map, hkey, filter_fields hn hf]
  rfl

theorem fields?_record {fields : List (String × Json)} (hn : (fields.map (·.1)).Nodup) :
    fields? (fields.map (·.1)) (record fields) = some (fields.map (·.2)) := by
  have hkeys : (fields.map fun f => member f.1 f.2).all (·.1.isSome) = true := by simp [member]
  have hvalues : fields.mapM (only? (fields.map fun f => member f.1 f.2) ∘ (·.1)) =
      some (fields.map (·.2)) := mapM_eq_some fun f hf => only?_record hn hf
  rw [record, fields?, if_pos hkeys, List.mapM_map, hvalues]

/-- A structure is kept if its fields are plain and it is what their values make. -/
theorem Keeps.record {α : Type} {encode : α → Json} {decode : Json → Option α} {a : α}
    (names : List String) (values : List Json) (hnames : names.Nodup)
    (hlength : names.length = values.length) (hencode : encode a = Json.record (names.zip values))
    (hplain : ∀ v ∈ values, v.IsPlain)
    (hdecode : fields? names (encode a) = some values → decode (encode a) = some a) :
    Keeps encode decode a := by
  have hfst : (names.zip values).map (·.1) = names := List.map_fst_zip hlength.le
  have hsnd : (names.zip values).map (·.2) = values := List.map_snd_zip hlength.ge
  have hnodup : ((names.zip values).map (·.1)).Nodup := by rwa [hfst]
  have hfields := fields?_record hnodup
  rw [hfst, hsnd, ← hencode] at hfields
  refine ⟨?_, hdecode hfields⟩
  rw [hencode]
  exact isPlain_record fun f hf => hplain f.2 (List.of_mem_zip hf).2

theorem keeps_kind (kind : ConstraintKind) :
    Keeps (fun kind => ofString (ConstraintKind.title kind)) ConstraintKind.ofJson? kind := by
  cases kind with
  | equality => exact ⟨.string _, by simp [ConstraintKind.ofJson?, ofString, choice?]⟩
  | inequality => exact ⟨.string _, by simp [ConstraintKind.ofJson?, ofString, choice?]; decide⟩

end ConstraintText.Json

namespace ConstraintText

open Json

/-- Whether the counts of a value have 64 bits. -/
@[mk_iff] structure Location.Fits64 (l : Location) : Prop where
  line : l.line ≤ Decimal.largestCount
  column : l.column ≤ Decimal.largestCount
  offset : l.offset ≤ Decimal.largestCount

@[mk_iff] structure Span.Fits64 (s : Span) : Prop where
  start : s.start.Fits64
  stop : s.stop.Fits64

@[mk_iff] structure Space.Fits64 (s : Space) : Prop where
  nParam : s.nParam ≤ Decimal.largestCount
  nIn : s.nIn ≤ Decimal.largestCount
  nOut : s.nOut ≤ Decimal.largestCount

@[mk_iff] structure BasicMap.Fits64 (m : BasicMap) : Prop where
  space : m.space.Fits64
  nDiv : m.nDiv ≤ Decimal.largestCount

@[mk_iff] structure MapUnion.Fits64 (u : MapUnion) : Prop where
  space : u.space.Fits64
  parts : ∀ m ∈ u.parts, m.Fits64

instance (l : Location) : Decidable l.Fits64 :=
  decidable_of_iff' _ (Location.fits64_iff l)

instance (s : Span) : Decidable s.Fits64 := decidable_of_iff' _ (Span.fits64_iff s)

instance (s : Space) : Decidable s.Fits64 := decidable_of_iff' _ (Space.fits64_iff s)

instance (m : BasicMap) : Decidable m.Fits64 := decidable_of_iff' _ (BasicMap.fits64_iff m)

instance (u : MapUnion) : Decidable u.Fits64 := decidable_of_iff' _ (MapUnion.fits64_iff u)

theorem Location.keeps {l : Location} (h : l.Fits64) : Keeps toJson ofJson? l := by
  have hline := keeps_natural h.line
  have hcolumn := keeps_natural h.column
  have hoffset := keeps_natural h.offset
  refine .record ["line", "column", "offset"] [natural l.line, natural l.column, natural l.offset]
    ?_ rfl rfl ?_ fun hfields => ?_
  · simp
  · simp [hline.plain, hcolumn.plain, hoffset.plain]
  · simp [ofJson?, hfields, count?, hline.decoded, hcolumn.decoded, hoffset.decoded]

theorem Span.keeps {s : Span} (h : s.Fits64) : Keeps toJson ofJson? s := by
  have hstart := Location.keeps h.start
  have hstop := Location.keeps h.stop
  refine .record ["start", "end"] [s.start.toJson, s.stop.toJson] ?_ rfl rfl ?_ fun hfields => ?_
  · simp
  · simp [hstart.plain, hstop.plain]
  · simp [ofJson?, hfields, hstart.decoded, hstop.decoded]

theorem Space.keeps {s : Space} (h : s.Fits64) : Keeps toJson ofJson? s := by
  have hparam := keeps_natural h.nParam
  have hin := keeps_natural h.nIn
  have hout := keeps_natural h.nOut
  have hparams := keeps_names s.paramNames
  have hins := keeps_names s.inNames
  have houts := keeps_names s.outNames
  refine .record ["n_param", "n_in", "n_out", "param_names", "in_names", "out_names"]
    [natural s.nParam, natural s.nIn, natural s.nOut, ofNames s.paramNames, ofNames s.inNames,
      ofNames s.outNames] ?_ rfl rfl ?_ fun hfields => ?_
  · simp
  · simp [hparam.plain, hin.plain, hout.plain, hparams.plain, hins.plain, houts.plain]
  · simp [ofJson?, hfields, count?, hparam.decoded, hin.decoded, hout.decoded, hparams.decoded,
      hins.decoded, houts.decoded]

theorem Constraint.keeps (c : Constraint) : Keeps toJson ofJson? c := by
  have hkind := keeps_kind c.kind
  have hcoeffs := keeps_row c.coeffs
  refine .record ["kind", "coeffs"] [ofString c.kind.title, ofRow c.coeffs] ?_ rfl rfl ?_
    fun hfields => ?_
  · simp
  · simp [hkind.plain, hcoeffs.plain]
  · simp [ofJson?, hfields, hkind.decoded, hcoeffs.decoded]

theorem Flags.keeps (f : Flags) : Keeps toJson ofJson? f := by
  refine .record ["empty", "finalized"] [.bool f.empty, .bool f.finalized] ?_ rfl rfl ?_
    fun hfields => ?_
  · simp
  · simp [IsPlain.bool]
  · simp [ofJson?, hfields, bool?]

theorem BasicMap.keeps {m : BasicMap} (h : m.Fits64) : Keeps toJson ofJson? m := by
  have hspace := Space.keeps h.space
  have hdiv := keeps_natural h.nDiv
  have hequalities := keeps_rows m.equalities
  have hinequalities := keeps_rows m.inequalities
  have hdivs := keeps_rows m.divs
  have hflags := Flags.keeps m.flags
  refine .record ["space", "n_div", "eq", "ineq", "div", "flags"]
    [m.space.toJson, natural m.nDiv, ofRows m.equalities, ofRows m.inequalities, ofRows m.divs,
      m.flags.toJson] ?_ rfl rfl ?_ fun hfields => ?_
  · simp
  · simp [hspace.plain, hdiv.plain, hequalities.plain, hinequalities.plain, hdivs.plain,
      hflags.plain]
  · simp [ofJson?, hfields, count?, hspace.decoded, hdiv.decoded, hequalities.decoded,
      hinequalities.decoded, hdivs.decoded, hflags.decoded]

theorem MapUnion.keeps {u : MapUnion} (h : u.Fits64) : Keeps toJson ofJson? u := by
  have hspace := Space.keeps h.space
  have hparts := keeps_list fun m hm => BasicMap.keeps (h.parts m hm)
  refine .record ["space", "basic_maps"] [u.space.toJson, .array (u.parts.map BasicMap.toJson)]
    ?_ rfl rfl ?_ fun hfields => ?_
  · simp
  · simp [hspace.plain, hparts.plain]
  · simp [ofJson?, hfields, hspace.decoded, hparts.decoded]

theorem BasicSet.keeps {s : BasicSet} (h : s.toBasicMap.Fits64) : Keeps toJson ofJson? s :=
  ⟨(BasicMap.keeps h).plain, by simp [ofJson?, toJson, (BasicMap.keeps h).decoded]⟩

theorem SetUnion.keeps {s : SetUnion} (h : s.toMapUnion.Fits64) : Keeps toJson ofJson? s :=
  ⟨(MapUnion.keeps h).plain, by simp [ofJson?, toJson, (MapUnion.keeps h).decoded]⟩

theorem IntVector.keeps (v : IntVector) : Keeps toJson ofJson? v := by
  have helements := keeps_row v.elements
  refine .record ["el"] [ofRow v.elements] ?_ rfl rfl ?_ fun hfields => ?_
  · simp
  · simp [helements.plain]
  · simp [ofJson?, hfields, helements.decoded]

/-- The keys of an object in the order they are written. -/
def Json.keys : Json → List (Option String)
  | .object members => members.map (·.1)
  | _ => []

/-- Whether a value is written as an object with given fields in order, and both the compact text
and the pretty text of that object are read back as the value. -/
structure Json.ReadsBack {α : Type} (fields : List String) (encode : α → Json)
    (decode : Json → Option α) (a : α) : Prop where
  keys : (encode a).keys = fields.map some
  compact : (parse? (compact (encode a))).bind decode = some a
  pretty : (parse? (pretty (encode a))).bind decode = some a

theorem Json.Keeps.readsBack {α : Type} {fields : List String} {encode : α → Json}
    {decode : Json → Option α} {a : α} (h : Keeps encode decode a)
    (hkeys : (encode a).keys = fields.map some) : ReadsBack fields encode decode a where
  keys := hkeys
  compact := by rw [parse?_compact h.plain, Option.bind_some, h.decoded]
  pretty := by rw [parse?_pretty h.plain, Option.bind_some, h.decoded]

/-- All that is written as JSON reads back, in both layouts: any names, any integers, and counts of
64 bits. A structure is an object of its fields in order, a set is written as its map, and an
integer as its sign and its digits to base `2 ^ 32`, least significant first. -/
theorem Json.objects_readBack :
    (∀ i : Int, ofInt i = .array [.number ⟨i < 0, i.sign.natAbs, []⟩,
      .array ((Nat.digits (2 ^ 32) i.natAbs).map natural)]) ∧
    (∀ s : Space, s.Fits64 →
      ReadsBack ["n_param", "n_in", "n_out", "param_names", "in_names", "out_names"]
        Space.toJson Space.ofJson? s) ∧
    (∀ c : Constraint, ReadsBack ["kind", "coeffs"] Constraint.toJson Constraint.ofJson? c) ∧
    (∀ m : BasicMap, m.Fits64 → ReadsBack ["space", "n_div", "eq", "ineq", "div", "flags"]
      BasicMap.toJson BasicMap.ofJson? m) ∧
    (∀ s : BasicSet, s.toBasicMap.Fits64 → s.toJson = s.toBasicMap.toJson ∧
      ReadsBack ["space", "n_div", "eq", "ineq", "div", "flags"]
        BasicSet.toJson BasicSet.ofJson? s) ∧
    (∀ u : MapUnion, u.Fits64 →
      ReadsBack ["space", "basic_maps"] MapUnion.toJson MapUnion.ofJson? u) ∧
    (∀ s : SetUnion, s.toMapUnion.Fits64 → s.toJson = s.toMapUnion.toJson ∧
      ReadsBack ["space", "basic_maps"] SetUnion.toJson SetUnion.ofJson? s) ∧
    (∀ v : IntVector, ReadsBack ["el"] IntVector.toJson IntVector.ofJson? v) ∧
    ∀ s : Span, s.Fits64 → ReadsBack ["start", "end"] Span.toJson Span.ofJson? s := by
  refine ⟨fun i => ?_, fun s h => ?_, fun c => ?_, fun m h => ?_, fun s h => ⟨rfl, ?_⟩,
    fun u h => ?_, fun s h => ⟨rfl, ?_⟩, fun v => ?_, fun s h => ?_⟩
  · rw [ofInt, ofSign, digits32_eq]
  · exact (Space.keeps h).readsBack rfl
  · exact c.keeps.readsBack rfl
  · exact (BasicMap.keeps h).readsBack rfl
  · exact (BasicSet.keeps h).readsBack rfl
  · exact (MapUnion.keeps h).readsBack rfl
  · exact (SetUnion.keeps h).readsBack rfl
  · exact v.keeps.readsBack rfl
  · exact (Span.keeps h).readsBack rfl

/-- The largest counts, names with every sort of escape and with none, an empty name beside no name,
and integers of no digit, of one and of several. -/
theorem Json.objects_readBack_extremes :
    ReadsBack ["n_param", "n_in", "n_out", "param_names", "in_names", "out_names"]
        Space.toJson Space.ofJson?
        ⟨2 ^ 64 - 1, 0, 1, [some "\"\\/\n\x01\x7fé🙂", none], [], [some ""]⟩ ∧
      ReadsBack ["kind", "coeffs"] Constraint.toJson Constraint.ofJson?
        ⟨.inequality, [0, -1, 2 ^ 64, -(2 ^ 96) - 5]⟩ ∧
      ReadsBack ["space", "n_div", "eq", "ineq", "div", "flags"] BasicMap.toJson BasicMap.ofJson?
        ⟨.unnamed 1 2 (2 ^ 64 - 1), 2 ^ 64 - 1, [[0, -(2 ^ 64)]], [[], [7]], [], ⟨true, false⟩⟩ ∧
      ReadsBack ["space", "n_div", "eq", "ineq", "div", "flags"] BasicSet.toJson BasicSet.ofJson?
        ⟨⟨.unnamed 0 0 1, 0, [], [], [[0]], ⟨false, true⟩⟩⟩ ∧
      ReadsBack ["space", "basic_maps"] MapUnion.toJson MapUnion.ofJson?
        ⟨.unnamed 1 0 0, [⟨.unnamed 0 0 0, 1, [[-2 ^ 32]], [], [], ⟨false, false⟩⟩]⟩ ∧
      ReadsBack ["space", "basic_maps"] SetUnion.toJson SetUnion.ofJson? ⟨⟨.unnamed 0 0 0, []⟩⟩ ∧
      ReadsBack ["el"] IntVector.toJson IntVector.ofJson? ⟨[0, 1, -(2 ^ 32), 2 ^ 200]⟩ ∧
      ReadsBack ["start", "end"] Span.toJson Span.ofJson?
        ⟨⟨1, 1, 0⟩, ⟨2 ^ 64 - 1, 2 ^ 32, 2 ^ 64 - 1⟩⟩ := by
  obtain ⟨-, hspace, hconstraint, hmap, hset, hmaps, hsets, hvector, hspan⟩ := objects_readBack
  exact ⟨hspace _ (by decide), hconstraint _, hmap _ (by decide), (hset _ (by decide)).2,
    hmaps _ (by decide), (hsets _ (by decide)).2, hvector _, hspan _ (by decide)⟩

end ConstraintText

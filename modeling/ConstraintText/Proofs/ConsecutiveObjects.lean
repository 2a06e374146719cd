import ConstraintText.Proofs.Displacement
import ConstraintText.Proofs.Locality
import ConstraintText.Proofs.Places

/-!
# Objects one behind another

Where a text holds one object and nothing behind it, lines of another text may follow. The object is
read as before, and from there on everything is read as from the other text alone, with the places
moved by the lines in front. The reading of the one object leaves nothing to the next.
-/
namespace ConstraintText

namespace Cut

theorem takeWhile_append_line {p : Char → Bool} (hp : p '\n' = false) (cs ds : List Char) :
    (cs ++ '\n' :: ds).takeWhile p = cs.takeWhile p := by
  induction cs with
  | nil => simp [hp]
  | cons c cs ih => simp [List.takeWhile_cons, ih]

theorem dropWhile_append_line {p : Char → Bool} (hp : p '\n' = false) (cs ds : List Char) :
    (cs ++ '\n' :: ds).dropWhile p = cs.dropWhile p ++ '\n' :: ds := by
  induction cs with
  | nil => simp [hp]
  | cons c cs ih =>
    simp only [List.cons_append, List.dropWhile_cons, ih]
    split <;> rfl

def append (cut : Cut) (cs : List Char) : Cut := ⟨cut.kind, cut.tail, cut.rest ++ cs⟩

theorem number_append_line (cs ds : List Char) :
    number (cs ++ '\n' :: ds) = (number cs).append ('\n' :: ds) := by
  simp only [number, append, takeWhile_append_line (p := Char.isDigit) (by decide),
    dropWhile_append_line (p := Char.isDigit) (by decide)]

theorem word_append_line (c : Char) (cs ds : List Char) :
    word c (cs ++ '\n' :: ds) = (word c cs).append ('\n' :: ds) := by
  have hline : Character.continuesIdentifier '\n' = false := by decide
  simp only [word, append, takeWhile_append_line hline, dropWhile_append_line hline]

theorem pair_append_line {d : Char} (hd : d ≠ '\n') (short long : TokenKind) (cs ds : List Char) :
    pair d short long (cs ++ '\n' :: ds) = (pair d short long cs).append ('\n' :: ds) := by
  unfold pair
  cases cs with
  | nil => simp [hd.symm, append]
  | cons c cs =>
    by_cases hc : c = d <;> simp [hc, append]

theorem dash_append_line (cs ds : List Char) :
    dash (cs ++ '\n' :: ds) = (dash cs).append ('\n' :: ds) := by
  have hfirst : ((cs ++ '\n' :: ds).head?.any Char.isDigit) = (cs.head?.any Char.isDigit) := by
    cases cs <;> simp
  unfold dash
  rw [hfirst]
  split
  · exact number_append_line cs ds
  · exact pair_append_line (by decide) _ _ cs ds

/-- No lexeme goes on behind a line feed. -/
theorem ofChars?_append_line (c : Char) (cs ds : List Char) :
    ofChars? c (cs ++ '\n' :: ds) = (ofChars? c cs).map (·.append ('\n' :: ds)) := by
  unfold ofChars?
  split
  · rfl
  · simp only [dash_append_line, number_append_line, word_append_line,
      pair_append_line (d := '=') (by decide)]
    repeat' split
    all_goals rfl

theorem item_append (cut : Cut) (ds : List Char) (c : Char) (start : Location) (newLine : Bool) :
    (cut.append ds).item c start newLine = cut.item c start newLine := rfl

end Cut

namespace Scanner

def append (s : Scanner) (cs : List Char) : Scanner := ⟨s.rest ++ cs, s.place, s.newLine⟩

theorem append_ofString (source text : String) :
    (ofString source).append text.toList = ofString (source ++ text) := by
  simp [append, ofString]

variable {s s' : Scanner} {t : Token}

theorem next_append_line (h : s.next = (.ok t, s')) (ht : t.isFinish = false) (ds : List Char) :
    (s.append ('\n' :: ds)).next = (.ok t, s'.append ('\n' :: ds)) := by
  obtain ⟨c, cs, cut, hg, hc⟩ := exists_cut h ht
  rw [next_of_cut hg hc, Prod.mk.injEq] at h
  obtain ⟨hitem, rfl⟩ := h
  obtain ⟨hgap, hafter⟩ := gap_append_of_afterGap hg (cs ++ '\n' :: ds)
  have hrest : s.rest ++ '\n' :: ds = gap false s.rest ++ c :: (cs ++ '\n' :: ds) := by
    rw [← List.cons_append, ← hg, ← List.append_assoc, gap_append]
  rw [← hrest] at hgap hafter
  have hcut : Cut.ofChars? c (cs ++ '\n' :: ds) = some (cut.append ('\n' :: ds)) := by
    rw [Cut.ofChars?_append_line, hc, Option.map_some]
  rw [next_of_cut (s := s.append _) hafter hcut, Cut.item_append]
  simp only [start, onNewLine, append, hgap]
  exact Prod.ext hitem rfl

theorem gap_append_line {inComment : Bool} {cs : List Char} (h : afterGap inComment cs = [])
    (ds : List Char) :
    gap inComment (cs ++ '\n' :: ds) = cs ++ '\n' :: gap false ds ∧
      afterGap inComment (cs ++ '\n' :: ds) = afterGap false ds := by
  fun_induction gap inComment cs <;> simp_all [afterGap, gap]

/-- Behind the last token of a text come the items of the lines behind it. -/
theorem next_append_line_of_gap (h : afterGap false s.rest = []) (ds : List Char) :
    (s.append ('\n' :: ds)).next = next ⟨ds, (s.place.afterAll s.rest).after '\n', true⟩ := by
  obtain ⟨hgap, hafter⟩ := gap_append_line h ds
  have hplace : s.place.afterAll (s.rest ++ '\n' :: gap false ds) =
      ((s.place.afterAll s.rest).after '\n').afterAll (gap false ds) := by
    rw [Location.afterAll_append, Location.afterAll_cons]
  have hline : (s.newLine || (s.rest ++ '\n' :: gap false ds).contains '\n') =
      (true || (gap false ds).contains '\n') := by simp
  simp only [next, append, hgap, hafter, hplace, hline]

end Scanner

namespace TokenStream

def append (s : TokenStream) (cs : List Char) : TokenStream := ⟨s.scanner.append cs, s.pending⟩

theorem append_ofString (source text : String) :
    (ofString source).append text.toList = ofString (source ++ text) := by
  rw [append, ofString, Scanner.append_ofString]
  rfl

theorem Takes.append_line {s s' : TokenStream} {ts : List Token} (h : s.Takes ts s')
    (ds : List Char) : (s.append ('\n' :: ds)).Takes ts (s'.append ('\n' :: ds)) := by
  induction h with
  | nil s => exact .nil _
  | @cons s s₁ s' t ts hn _ ih =>
    refine .cons ?_ ih
    obtain ⟨scanner, pending⟩ := s
    cases pending with
    | some held =>
      simp only [next, Prod.mk.injEq, Except.ok.injEq, Option.some.injEq] at hn
      obtain ⟨rfl, rfl⟩ := hn
      rfl
    | none =>
      obtain ⟨hscan, ht, hp⟩ := next_of_scan hn
      have hnext := Scanner.next_append_line hscan ht ds
      simp only [next, append, scan, hnext, ht, hp]
      rfl

/-- Whether two streams have the same items to come, from the same places on. -/
def SameItems (s s' : TokenStream) : Prop :=
  s = s' ∨ s.pending = none ∧ s'.pending = none ∧ s.scanner.next = s'.scanner.next

namespace SameItems

variable {s s' : TokenStream}

theorem next (h : s.SameItems s') : s.next = s'.next := by
  rcases h with rfl | ⟨hp, hp', hn⟩
  · rfl
  · simp only [TokenStream.next, scan, hp, hp', hn]

theorem peek (h : s.SameItems s') : s.peek = s'.peek := by
  rcases h with rfl | ⟨hp, hp', hn⟩
  · rfl
  · simp only [TokenStream.peek, scan, hp, hp', hn]

end SameItems
end TokenStream

namespace Reading

variable {s s' : TokenStream}

theorem readMap_of_sameItems (h : s.SameItems s') (config : ReadConfig) (wanted : Option Nat) :
    readMap config wanted s = readMap config wanted s' := by
  rw [readMap, readMap, h.peek]

end Reading

namespace Call

variable {s s' : TokenStream}

theorem read_of_sameItems (h : s.SameItems s') (config : ReadConfig) (call : Call) :
    (call.read config s).result = (call.read config s').result ∧
      (call.read config s).stream.SameItems (call.read config s').stream := by
  have hread : call ≠ .finish → call.read config s = call.read config s' := by
    intro hne
    cases call with
    | finish => exact absurd rfl hne
    | map wanted => simp only [read, Reading.readMap_of_sameItems h]
    | basicMap wanted => simp only [read, Reading.readBasicMap, Reading.readMap_of_sameItems h]
    | set wanted => simp only [read, Reading.readSet, Reading.readMap_of_sameItems h]
    | basicSet wanted =>
      simp only [read, Reading.readBasicSet, Reading.readBasicMap, Reading.readMap_of_sameItems h]
  by_cases hf : call = .finish
  · subst hf
    simp only [read, Reading.finish]
    split
    · rw [TokenStream.expectEnd, TokenStream.expectEnd, h.next]
      exact ⟨rfl, .inl rfl⟩
    · exact ⟨rfl, h⟩
  · rw [hread hf]
    exact ⟨rfl, .inl rfl⟩

/-- The results of calls on a stream, each on what the one before it has left. -/
def results (config : ReadConfig) : List Call → TokenStream → List (Except ReadError (Option Object))
  | [], _ => []
  | call :: calls, s =>
    (call.read config s).result :: results config calls (call.read config s).stream

theorem results_of_sameItems (h : s.SameItems s') (config : ReadConfig) (calls : List Call) :
    results config calls s = results config calls s' := by
  induction calls generalizing s s' with
  | nil => rfl
  | cons call calls ih =>
    obtain ⟨hresult, hstream⟩ := call.read_of_sameItems h config
    rw [results, results, hresult, ih hstream]

theorem results_displace (config : ReadConfig) (calls : List Call) (d : Displacement)
    (s : TokenStream) : results config calls (s.displace d) =
      (results config calls s).map (·.mapError (·.displace d)) := by
  induction calls generalizing s with
  | nil => rfl
  | cons call calls ih =>
    rw [results, read_displace, results, List.map_cons, ← ih]
    rfl

end Call

/-- How far the lines of a source, and the line feed behind them, move a text. -/
def Displacement.behind (source : String) : Displacement :=
  ⟨source.toList.count '\n' + 1, source.utf8ByteSize + 1⟩

theorem Location.after_lines (source : String) :
    (start.afterAll source.toList).after '\n' = start.displace (.behind source) := by
  have hline := line_afterAll_start source.toList
  have hoffset : (start.afterAll source.toList).offset = source.utf8ByteSize := offset_endOf source
  have hsize : ('\n').utf8Size = 1 := by decide
  rw [after, if_pos rfl, hline, hoffset, hsize]
  simp [displace, Displacement.behind, start, Nat.add_comm]

namespace Reading

/-- A text holds one object and nothing but blanks and comments behind it. Then whatever lines follow
the object is read as before, and whatever is asked for behind it is given as from these lines alone,
with the spans of errors moved by the lines in front. -/
theorem readMap_consecutive {config : ReadConfig} {wanted : Option Nat} {source : String}
    {u : MapUnion} (h : (readMap config wanted (.ofString source)).result = .ok u)
    (hgap : IsGap true (readMap config wanted (.ofString source)).stream.scanner.rest)
    (text : String) :
    let first := readMap config wanted (.ofString (source ++ "\n" ++ text))
    first.result = .ok u ∧ ∀ calls : List Call, Call.results config calls first.stream =
      (Call.results config calls (.ofString text)).map (·.mapError (·.displace (.behind source))) := by
  obtain ⟨ts, -, htakes, hagain⟩ := isLocal_readMap config wanted h
  have hstart : (TokenStream.ofString source).append ('\n' :: text.toList) =
      .ofString (source ++ "\n" ++ text) := by
    rw [String.append_assoc, ← TokenStream.append_ofString]
    simp
  have htakes' := htakes.append_line text.toList
  rw [hstart] at htakes'
  obtain ⟨hresult, hstream⟩ := hagain htakes'
  refine ⟨hresult, fun calls => ?_⟩
  -- behind the object the stream has the items of the lines, at the places they have there
  obtain ⟨front, hfront, hplace⟩ :=
    ((TokenStream.isIn_ofString source).moves (moves_readMap config wanted _)).scanner
  have hpending := (htakes.scans rfl).2
  generalize (readMap config wanted (.ofString source)).stream = s at *
  have hlines : (s.scanner.place.afterAll s.scanner.rest).after '\n' =
      Location.start.displace (.behind source) := by
    rw [hplace, ← Location.afterAll_append, ← hfront, Location.after_lines]
  have hsame : (s.append ('\n' :: text.toList)).SameItems
      ((TokenStream.ofString text).displace (.behind source)) := by
    refine .inr ⟨hpending, rfl, ?_⟩
    rw [TokenStream.append, Scanner.next_append_line_of_gap (Scanner.isGap_iff_afterGap.mp hgap), hlines]
    rfl
  rw [hstream, Call.results_of_sameItems hsame, Call.results_displace]

/-- Behind a set with a comment stand a matrix, which is read, and a set with a name that is not
declared, which is refused in the fifth line. What is left of it is not nothing. -/
theorem readMap_consecutive_mixed :
    let source := "# one\n\x7b [i] : i = 2 \x7d # set"
    let text := "1 3\n0 1 -2\n[n] -> \x7b [i] : i = m \x7d"
    let config : ReadConfig := ⟨true, true⟩
    let system (names : List (Option String)) : BasicMap :=
      ⟨⟨0, 0, 1, [], [], names⟩, 0, [[-2, 1]], [], [], ⟨false, true⟩⟩
    let first := readMap config none (.ofString (source ++ "\n" ++ text))
    first.result = .ok ⟨(system [some "i"]).space, [system [some "i"]]⟩ ∧
    Call.results config [.basicMap none, .map (some 1), .finish] first.stream =
      [.ok (some (.basicMap (system []))),
        .error (.refused ⟨.unknownName, ⟨⟨5, 20, 58⟩, ⟨5, 21, 59⟩⟩, some "m"⟩),
        .error (.refused ⟨.trailingInput, ⟨⟨5, 22, 60⟩, ⟨5, 23, 61⟩⟩, some "\x7d"⟩)] := by
  intro source text config system first
  have h : (readMap config none (.ofString source)).result =
      .ok ⟨(system [some "i"]).space, [system [some "i"]]⟩ := by
    unfold source config system
    cbv
  have hgap : IsGap true (readMap config none (.ofString source)).stream.scanner.rest := by
    refine Scanner.isGap_iff_afterGap.mpr ?_
    unfold source config
    cbv
  obtain ⟨hresult, hcalls⟩ := readMap_consecutive h hgap text
  refine ⟨hresult, (hcalls _).trans ?_⟩
  unfold source text config system
  cbv

end Reading
end ConstraintText

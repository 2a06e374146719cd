import ConstraintText.Proofs.Items
import ConstraintText.Proofs.Outcome
import ConstraintText.Reading

/-!
# One reading after another

A reader may be called again on the stream that the reading before has left, whether that reading
failed or not. Whatever the calls, the scanner of the stream stays in its source, and a token that
the stream holds back has been scanned from the source.
-/
namespace ConstraintText

/-- A token other than the end token, scanned somewhere in a source. -/
def Token.IsScanned (source : String) (t : Token) : Prop :=
  t.isFinish = false ∧ ∃ s : Scanner, s.IsIn source ∧ s.next.1 = .ok t

def LexError.IsScanned (source : String) (e : LexError) : Prop :=
  ∃ s : Scanner, s.IsIn source ∧ s.next.1 = .error e

structure TokenStream.IsIn (source : String) (s : TokenStream) : Prop where
  scanner : s.scanner.IsIn source
  pending : ∀ t ∈ s.pending, t.IsScanned source

namespace TokenStream

variable {source : String} {s s' : TokenStream} {t : Token}

theorem isIn_ofString (source : String) : (ofString source).IsIn source :=
  ⟨Scanner.isIn_ofString source, by simp [ofString]⟩

theorem IsIn.scan (h : s.IsIn source) : s.scan.2.IsIn source := by
  have hnext := h.scanner.next
  unfold TokenStream.scan
  split <;> rename_i hn <;> rw [hn] at hnext <;> exact ⟨hnext, h.pending⟩

theorem IsIn.isScanned_of_scan (h : s.IsIn source) (hs : s.scan.1 = .ok (some t)) :
    t.IsScanned source := by
  rcases hn : s.scanner.next with ⟨item, scanner⟩
  cases item with
  | error e => simp [TokenStream.scan, hn] at hs
  | ok u =>
    cases hu : u.isFinish with
    | true => simp [TokenStream.scan, hn, hu] at hs
    | false =>
      obtain rfl : u = t := by simpa [TokenStream.scan, hn, hu] using hs
      exact ⟨hu, s.scanner, h.scanner, by rw [hn]⟩

theorem IsIn.isScanned_of_scan_error {e : LexError} (h : s.IsIn source)
    (hs : s.scan.1 = .error e) : e.IsScanned source := by
  rcases hn : s.scanner.next with ⟨item, scanner⟩
  cases item with
  | ok u => simp [TokenStream.scan, hn] at hs
  | error e' =>
    obtain rfl : e' = e := by simpa [TokenStream.scan, hn] using hs
    exact ⟨s.scanner, h.scanner, by rw [hn]⟩

theorem IsIn.next (h : s.IsIn source) : s.next.2.IsIn source := by
  unfold TokenStream.next
  split
  · exact ⟨h.scanner, by simp⟩
  · exact h.scan

theorem IsIn.isScanned_of_next (h : s.IsIn source) (hs : s.next.1 = .ok (some t)) :
    t.IsScanned source := by
  unfold TokenStream.next at hs
  split at hs
  · rename_i held hheld
    obtain rfl : held = t := by simpa using hs
    exact h.pending held hheld
  · exact h.isScanned_of_scan hs

theorem IsIn.isScanned_of_next_error {e : LexError} (h : s.IsIn source)
    (hs : s.next.1 = .error e) : e.IsScanned source := by
  unfold TokenStream.next at hs
  split at hs
  · simp at hs
  · exact h.isScanned_of_scan_error hs

theorem IsIn.next_eq {result : Except LexError (Option Token)} (h : s.IsIn source)
    (hn : s.next = (result, s')) : s'.IsIn source := by
  have hnext := h.next
  rwa [hn] at hnext

/-- What readers do with a stream: they take what is next, and may hold back a token that they have
taken. -/
inductive Moves (s : TokenStream) : TokenStream → Prop
  | refl : Moves s s
  | next {s' : TokenStream} (h : Moves s s') : Moves s s'.next.2
  | hold {s' s'' : TokenStream} {t : Token} (h : Moves s s')
      (hn : s'.next = (.ok (some t), s'')) : Moves s ⟨s''.scanner, some t⟩

theorem Moves.trans {s'' : TokenStream} (h : s.Moves s') (h' : s'.Moves s'') : s.Moves s'' := by
  induction h' with
  | refl => exact h
  | next _ ih => exact ih.next
  | hold _ hn ih => exact ih.hold hn

theorem Moves.next_eq {result : Except LexError (Option Token)} (hn : s.next = (result, s')) :
    s.Moves s' := by
  have hmoves : s.Moves s.next.2 := Moves.refl.next
  rwa [hn] at hmoves

theorem Moves.dispose_eq {s'' : TokenStream} {d : Disposition} {events : List ReadEvent}
    (hn : s.next = (.ok (some t), s')) (hd : s'.dispose d t = .ok (s'', events)) :
    s.Moves s'' := by
  have hp : s'.pending = none := by
    have hpending := s.pending_next
    rwa [hn] at hpending
  by_cases htake : d = .take
  · obtain rfl := htake
    obtain ⟨rfl, -⟩ := Prod.mk.inj (Except.ok.inj hd)
    exact .next_eq hn
  · obtain ⟨events', hdispose⟩ := dispose_of_ne_take hp htake t
    rw [hdispose] at hd
    obtain ⟨rfl, -⟩ := Prod.mk.inj (Except.ok.inj hd)
    exact Moves.refl.hold hn

theorem Moves.peek (s : TokenStream) : s.Moves s.peek.2 := by
  obtain ⟨scanner, pending⟩ := s
  cases pending with
  | some held => exact .refl
  | none =>
    rcases hs : TokenStream.scan ⟨scanner, none⟩ with ⟨item, s'⟩
    have hn : TokenStream.next ⟨scanner, none⟩ = (item, s') := hs
    have hp : s'.pending = none := by
      have hpending := pending_next ⟨scanner, none⟩
      rwa [hn] at hpending
    match item with
    | .error e =>
      simp only [TokenStream.peek, hs]
      exact .next_eq hn
    | .ok none =>
      obtain ⟨scanner', pending'⟩ := s'
      obtain rfl : pending' = none := hp
      simp only [TokenStream.peek, hs]
      exact .next_eq hn
    | .ok (some t) =>
      simp only [TokenStream.peek, hs]
      exact Moves.refl.hold hn

theorem Moves.expectEnd (s : TokenStream) : s.Moves s.expectEnd.2 := by
  unfold TokenStream.expectEnd
  split <;> exact .next_eq ‹_›

theorem IsIn.moves (h : s.IsIn source) (hm : s.Moves s') : s'.IsIn source := by
  induction hm with
  | refl => exact h
  | next _ ih => exact ih.next
  | @hold s' s'' t _ hn ih =>
    have hscanned : t.IsScanned source := ih.isScanned_of_next (by rw [hn])
    exact ⟨(ih.next_eq hn).scanner, by simpa using hscanned⟩

theorem IsIn.isScanned_of_peek_error {e : LexError} (h : s.IsIn source)
    (hs : s.peek.1 = .error e) : e.IsScanned source := by
  unfold TokenStream.peek at hs
  split at hs
  · simp at hs
  · split at hs
    · rename_i e' s' hscan
      obtain rfl := Except.error.inj hs
      exact h.isScanned_of_scan_error (by rw [hscan])
    · simp at hs

end TokenStream

theorem Machine.moves_run {σ α : Type} (m : Machine σ α) (s : TokenStream) (q : σ) :
    s.Moves (m.run s q).stream := by
  fun_induction m.run s q with
  | case1 s q e s' hn => exact .next_eq hn
  | case2 s q s' hn problem hq => exact .next_eq hn
  | case3 s q s' hn events q' hq ih => exact .trans (.next_eq hn) ih
  | case4 s q t s' hn f hd => exact .next_eq hn
  | case5 s q t s' hn s'' events hd e hq => exact .dispose_eq hn hd
  | case6 s q t s' hn s'' events hd value hq => exact .dispose_eq hn hd
  | case7 s q t s' hn s'' events hd q' hq ih => exact .trans (.dispose_eq hn hd) ih

namespace Reading

variable {α β : Type} {s : TokenStream}

theorem moves_bind {r : Reading α} {f : α → TokenStream → Reading β} (h : s.Moves r.stream)
    (hf : ∀ value s, TokenStream.Moves s (f value s).stream) : s.Moves (r.bind f).stream := by
  unfold bind
  split
  · exact h.trans (hf _ _)
  · exact h

theorem moves_readMap (config : ReadConfig) (wanted : Option Nat) (s : TokenStream) :
    s.Moves (readMap config wanted s).stream := by
  have hpeek := TokenStream.Moves.peek s
  unfold readMap
  split <;> rename_i hp <;> rw [hp] at hpeek
  · exact hpeek
  · exact hpeek
  · split
    · exact moves_bind (hpeek.trans (Matrix.machine.moves_run _ _)) fun _ _ => .refl
    · exact moves_bind (hpeek.trans (Formula.machine.moves_run _ _)) fun _ _ => .refl

theorem moves_onlyPart (u : MapUnion) (s : TokenStream) : s.Moves (onlyPart u s).stream := by
  unfold onlyPart
  split <;> exact .refl

theorem moves_readBasicMap (config : ReadConfig) (wanted : Option Nat) (s : TokenStream) :
    s.Moves (readBasicMap config wanted s).stream :=
  moves_bind (moves_readMap config wanted s) moves_onlyPart

theorem moves_readBasicSet (config : ReadConfig) (wanted : Option Nat) (s : TokenStream) :
    s.Moves (readBasicSet config wanted s).stream := by
  refine moves_bind (moves_readBasicMap config wanted s) fun m s => ?_
  split <;> exact .refl

theorem moves_readSet (config : ReadConfig) (wanted : Option Nat) (s : TokenStream) :
    s.Moves (readSet config wanted s).stream := by
  refine moves_bind (moves_readMap config wanted s) fun u s => ?_
  split <;> exact .refl

theorem moves_finish (config : ReadConfig) (s : TokenStream) :
    s.Moves (finish config s).stream := by
  unfold finish
  split
  · exact .expectEnd s
  · exact .refl

end Reading

/-- What a stream may be asked for: an object, or that nothing be left. -/
inductive Call
  | map (wanted : Option Nat)
  | basicMap (wanted : Option Nat)
  | set (wanted : Option Nat)
  | basicSet (wanted : Option Nat)
  | finish
  deriving DecidableEq, Repr

/-- What a call gives: its object, if it asks for one. -/
def Call.read (config : ReadConfig) (call : Call) (s : TokenStream) : Reading (Option Object) :=
  match call with
  | .map wanted => (Reading.readMap config wanted s).bind fun u s => .ok (some (.map u)) s
  | .basicMap wanted =>
    (Reading.readBasicMap config wanted s).bind fun m s => .ok (some (.basicMap m)) s
  | .set wanted => (Reading.readSet config wanted s).bind fun u s => .ok (some (.set u)) s
  | .basicSet wanted =>
    (Reading.readBasicSet config wanted s).bind fun m s => .ok (some (.basicSet m)) s
  | .finish => (Reading.finish config s).bind fun _ s => .ok none s

/-- The streams of a source that calls lead to. -/
inductive TokenStream.IsReached (source : String) : TokenStream → Prop
  | start : IsReached source (.ofString source)
  | call {s : TokenStream} (config : ReadConfig) (call : Call) (h : IsReached source s) :
      IsReached source (call.read config s).stream

theorem Call.moves_read (config : ReadConfig) (call : Call) (s : TokenStream) :
    s.Moves (call.read config s).stream := by
  cases call with
  | map wanted => exact Reading.moves_bind (Reading.moves_readMap config wanted s) fun _ _ => .refl
  | basicMap wanted =>
    exact Reading.moves_bind (Reading.moves_readBasicMap config wanted s) fun _ _ => .refl
  | set wanted => exact Reading.moves_bind (Reading.moves_readSet config wanted s) fun _ _ => .refl
  | basicSet wanted =>
    exact Reading.moves_bind (Reading.moves_readBasicSet config wanted s) fun _ _ => .refl
  | finish => exact Reading.moves_bind (Reading.moves_finish config s) fun _ _ => .refl

namespace TokenStream

variable {source : String} {s : TokenStream}

/-- Calls one after the other move a stream along. -/
theorem IsReached.moves (h : s.IsReached source) : (ofString source).Moves s := by
  induction h with
  | start => exact .refl
  | call config call _ ih => exact ih.trans (call.moves_read config _)

theorem IsReached.isIn (h : s.IsReached source) : s.IsIn source :=
  (isIn_ofString source).moves h.moves

end TokenStream

end ConstraintText

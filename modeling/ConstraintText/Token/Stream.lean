import ConstraintText.Error

/-!
# Token streams

A stream scans tokens on demand and can take one token back. The end of the text is not a token of
the stream: past it the stream yields nothing, however often it is asked.
-/
namespace ConstraintText

structure TokenStream where
  scanner : Scanner
  pending : Option Token
  deriving DecidableEq, Repr

namespace TokenStream

def ofString (source : String) : TokenStream := ⟨.ofString source, none⟩

/-- Where errors without a token point: behind the last item scanned. -/
def place (s : TokenStream) : Location := s.scanner.place

/-- The token to come, straight from the text. -/
def scan (s : TokenStream) : Except LexError (Option Token) × TokenStream :=
  match s.scanner.next with
  | (.error e, scanner) => (.error e, ⟨scanner, s.pending⟩)
  | (.ok t, scanner) => (.ok (if t.isFinish then none else some t), ⟨scanner, s.pending⟩)

def next (s : TokenStream) : Except LexError (Option Token) × TokenStream :=
  match s.pending with
  | some t => (.ok (some t), ⟨s.scanner, none⟩)
  | none => s.scan

/-- Takes a token back, which only works when none is held. -/
def pushBack (s : TokenStream) (t : Token) : Except Fault TokenStream :=
  match s.pending with
  | some held => .error (.pushBackOverflow held t)
  | none => .ok ⟨s.scanner, some t⟩

def peek (s : TokenStream) : Except LexError (Option Token) × TokenStream :=
  match s.pending with
  | some t => (.ok (some t), s)
  | none =>
    match s.scan with
    | (.error e, s') => (.error e, s')
    | (.ok t, s') => (.ok t, ⟨s'.scanner, t⟩)

/-- A refusal of a token, or of the end of the text. -/
def refusal (s : TokenStream) (t : Option Token) (problem : Problem) : Refusal :=
  match t with
  | some t => .atToken problem t
  | none => .atPlace problem s.place

def endRefusal (s : TokenStream) : Refusal := s.refusal none .unexpectedEnd

def eatIf (s : TokenStream) (kind : TokenKind) : Except ReadError Bool × TokenStream :=
  match s.next with
  | (.error e, s') => (.error (.lexical e), s')
  | (.ok none, s') => (.ok false, s')
  | (.ok (some t), s') =>
    if t.kind = kind then (.ok true, s')
    else match s'.pushBack t with
      | .error f => (.error (.fault f), s')
      | .ok s'' => (.ok false, s'')

/-- Takes the next token, which must be of the kind; one that is not is taken all the same. -/
def eat (s : TokenStream) (kind : TokenKind) : Except ReadError Token × TokenStream :=
  match s.next with
  | (.error e, s') => (.error (.lexical e), s')
  | (.ok none, s') => (.error (.refused (s'.refusal none (.expectedToken kind))), s')
  | (.ok (some t), s') =>
    if t.kind = kind then (.ok t, s')
    else (.error (.refused (s'.refusal (some t) (.expectedToken kind))), s')

/-- Nothing may be left. -/
def expectEnd (s : TokenStream) : Except ReadError Unit × TokenStream :=
  match s.next with
  | (.error e, s') => (.error (.lexical e), s')
  | (.ok none, s') => (.ok (), s')
  | (.ok (some t), s') => (.error (.refused (s'.refusal (some t) .trailingInput)), s')

theorem pending_next (s : TokenStream) : s.next.2.pending = none := by
  unfold next
  split
  · rfl
  · rename_i h
    unfold scan
    split <;> exact h

theorem rest_scan (s : TokenStream) : s.scan.2.scanner = s.scanner.next.2 := by
  unfold scan
  split <;> simp [*]

/-- Characters left to scan, each counted twice, and the token held. Reading on makes it smaller. -/
def size (s : TokenStream) : Nat :=
  2 * s.scanner.rest.length + (if s.pending.isSome then 1 else 0)

end TokenStream
end ConstraintText

import ConstraintText.Token.Stream

/-!
# What a reading reports

Besides its result a reading tells what it did on the way, in order. Nothing depends on these
reports; a log may show them.
-/
namespace ConstraintText

inductive ReadEvent
  | pushedBack (token : Token)
  | tuple (size : Nat) (opening : Span)
  | existentials (extra columns : Nat)
  | basicMap (space : Space) (nEqualities nInequalities nDiv : Nat)
  | matrices (n : Nat)
  | matrix (rows columns dims params : Nat)
  | vector (size : Nat)
  deriving DecidableEq, Repr

/-- The outcome of reading from a stream: the object or the error, what is left, and the reports. -/
structure Reading (α : Type) where
  result : Except ReadError α
  stream : TokenStream
  events : List ReadEvent

namespace Reading

variable {α β : Type}

def ok (value : α) (s : TokenStream) : Reading α := ⟨.ok value, s, []⟩

def error (e : ReadError) (s : TokenStream) : Reading α := ⟨.error e, s, []⟩

def after (r : Reading α) (events : List ReadEvent) : Reading α :=
  ⟨r.result, r.stream, events ++ r.events⟩

/-- Goes on with the object that was read and with the stream behind it. -/
def bind (r : Reading α) (f : α → TokenStream → Reading β) : Reading β :=
  match r.result with
  | .ok value => (f value r.stream).after r.events
  | .error e => ⟨.error e, r.stream, r.events⟩

def outcome (r : Reading α) : Except ReadError α × List ReadEvent := (r.result, r.events)

end Reading
end ConstraintText

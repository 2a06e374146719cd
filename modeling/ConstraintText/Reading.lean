import ConstraintText.BasicMap.Simplify
import ConstraintText.IntVector.Reading
import ConstraintText.MapUnion
import ConstraintText.Reading.Formula
import ConstraintText.Reading.Matrix

/-!
# Reading constraint systems

A text that begins with an integer is read as matrices, any other as a formula. What has been read
is simplified, unless the settings forbid it, and marked as finished; basic maps that are then known
to be empty leave the union. Settings may also refuse text behind the object.
-/
namespace ConstraintText

structure ReadConfig where
  simplify : Bool
  rejectTrailing : Bool
  deriving DecidableEq, Repr

namespace ReadConfig

/-- Simplify, and leave text behind the object alone. -/
def standard : ReadConfig := ⟨true, false⟩

end ReadConfig

/-- A system whose reading is complete. -/
def BasicMap.complete (m : BasicMap) (config : ReadConfig) : BasicMap :=
  (if config.simplify then m.simplify else m).finalize

/-- A union with complete parts, without those known to be empty. -/
def MapUnion.complete (u : MapUnion) (config : ReadConfig) : MapUnion :=
  ⟨u.space, (u.parts.map (·.complete config)).filter (!·.flags.empty)⟩

namespace Reading

def readFormula (config : ReadConfig) (wanted : Option Nat) (s : TokenStream) :
    Reading MapUnion :=
  (Formula.read wanted s).bind fun m s =>
    let m := m.complete config
    (ok (.ofBasicMap m) s).after
      [.basicMap m.space m.equalities.length m.inequalities.length m.nDiv]

def readMatrices (config : ReadConfig) (wanted : Option Nat) (s : TokenStream) :
    Reading MapUnion :=
  (Matrix.read wanted s).bind fun u s => ok (u.complete config) s

/-- Reads a union of basic maps; `wanted` is the number of parameters the caller wants. -/
def readMap (config : ReadConfig) (wanted : Option Nat) (s : TokenStream) : Reading MapUnion :=
  match s.peek with
  | (.error e, s') => error (.lexical e) s'
  | (.ok none, s') => error (.refused s'.endRefusal) s'
  | (.ok (some t), s') =>
    if t.kind = .integer then (readMatrices config wanted s').after [.pushedBack t]
    else readFormula config wanted s'

/-- The only part of a union; a union without parts gives the contradiction. -/
def onlyPart (u : MapUnion) (s : TokenStream) : Reading BasicMap :=
  match u.parts with
  | [] => ok (BasicMap.empty u.space).finalize s
  | [m] => ok m s
  | ms => error (.refused (s.refusal none (.severalDisjuncts ms.length))) s

def readBasicMap (config : ReadConfig) (wanted : Option Nat) (s : TokenStream) :
    Reading BasicMap :=
  (readMap config wanted s).bind onlyPart

def readBasicSet (config : ReadConfig) (wanted : Option Nat) (s : TokenStream) :
    Reading BasicSet :=
  (readBasicMap config wanted s).bind fun m s =>
    match BasicSet.ofBasicMap? m with
    | some set => ok set s
    | none => error (.refused (s.refusal none (.notASet m.space))) s

def readSet (config : ReadConfig) (wanted : Option Nat) (s : TokenStream) : Reading SetUnion :=
  (readMap config wanted s).bind fun u s =>
    match SetUnion.ofMapUnion? u with
    | some set => ok set s
    | none => error (.refused (s.refusal none (.notASet u.space))) s

/-- Checks what is left behind an object. -/
def finish (config : ReadConfig) (s : TokenStream) : Reading Unit :=
  if config.rejectTrailing then
    match s.expectEnd with
    | (result, s') => ⟨result, s', []⟩
  else ok () s

/-- Reads one object from a whole text. -/
def fromText {α : Type} (config : ReadConfig) (read : TokenStream → Reading α) (source : String) :
    Reading α :=
  (read (.ofString source)).bind fun value s => (finish config s).bind fun _ s => ok value s

end Reading

inductive ObjectKind
  | basicMap
  | basicSet
  | map
  | set
  | vector
  deriving DecidableEq, Repr

inductive Object
  | basicMap (m : BasicMap)
  | basicSet (s : BasicSet)
  | map (u : MapUnion)
  | set (s : SetUnion)
  | vector (v : IntVector)
  deriving DecidableEq, Repr

namespace Object

def readVector (format : Format) (source : String) :
    Except ReadError IntVector × List ReadEvent :=
  match format with
  | .polylib => IntVector.readReported source
  | .isl => (.error (.refused (.atPlace (.unsupportedFormat .isl) .start)), [])

/-- Reads an object of the kind from a whole text. Only vectors depend on the format. -/
def read (kind : ObjectKind) (config : ReadConfig) (wanted : Option Nat) (format : Format)
    (source : String) : Except ReadError Object × List ReadEvent :=
  let lift {α : Type} (make : α → Object) (outcome : Except ReadError α × List ReadEvent) :=
    (outcome.1.map make, outcome.2)
  match kind with
  | .basicMap =>
    lift .basicMap (Reading.fromText config (Reading.readBasicMap config wanted) source).outcome
  | .basicSet =>
    lift .basicSet (Reading.fromText config (Reading.readBasicSet config wanted) source).outcome
  | .map => lift .map (Reading.fromText config (Reading.readMap config wanted) source).outcome
  | .set => lift .set (Reading.fromText config (Reading.readSet config wanted) source).outcome
  | .vector => lift .vector (readVector format source)

def decode (bytes : ByteArray) : Except ReadError String :=
  match String.fromUTF8? bytes with
  | none => .error (.io .notUtf8)
  | some source => .ok source

/-- The object as the reader would accept it again. -/
def text? : Object → Option String
  | basicMap m => m.text?
  | basicSet s => s.toBasicMap.text?
  | map u => u.text?
  | set s => s.toMapUnion.text?
  | vector v => some v.text

end Object
end ConstraintText

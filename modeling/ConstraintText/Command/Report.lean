import ConstraintText.Command.Log
import ConstraintText.Json.Encode

/-!
# What the command reports

From the options and the bytes of the input follow the log, and the text to write or the failure.
A failure is a summary and the causes below it, the nearest first.
-/
namespace ConstraintText.Command

structure Failure where
  summary : String
  causes : List String
  deriving DecidableEq, Repr

namespace Failure

def causeLines : List String → List String
  | [cause] => ["    " ++ cause ++ "\n"]
  | causes => causes.mapIdx fun i cause => s!"    {i}: {cause}\n"

def text (f : Failure) : String :=
  s!"Error: {f.summary}\n\nCaused by:\n" ++ String.join (causeLines f.causes)

/-- The causes of an error: its message, then what it says of itself. -/
def causesOf (e : ReadError) : List String :=
  match e with
  | .lexical _ => [e.message, e.cause]
  | .refused _ => [e.message, e.cause]
  | .fault _ => [e.message]
  | .io _ => [e.message, e.cause]

def ofIo (attempt path : String) (failure : IoFailure) : Failure :=
  ⟨s!"Failed to {attempt} file: {Dump.quoted path}", [failure.message]⟩

end Failure

structure Report where
  code : Nat
  stdout : String
  stderr : String
  deriving DecidableEq, Repr

def render (emit : Emit) (o : Object) : String :=
  match emit with
  | .text => o.text?.getD ""
  | .json => o.toJson.pretty
  | .dump => o.dump.pretty

def kindTitle : ObjectKind → String
  | .basicMap => "BasicMap"
  | .basicSet => "BasicSet"
  | .map => "Map"
  | .set => "Set"
  | .vector => "Vector"

def version : String := "0.1.0"

def openingLog (o : Options) : List LogLine :=
  [.main .info s!"polyread v{version}", .main .debug s!"Input file: {Dump.quoted o.input}"]

def readingLog (o : Options) : List LogLine :=
  [.main .debug s!"Read config: {o.config.dump.compact}",
    .main .info s!"Reading {kindTitle o.kind}..."]

/-- The log of an error: its message and the excerpt it points at. -/
def errorLog (source : String) (e : ReadError) : List LogLine :=
  .main .error e.message ::
    match e.span?.bind (Excerpt.excerpt? source) with
    | none => []
    | some excerpt => [.main .error ("\n" ++ excerpt)]

/-- The log of a run and the text to write, or the failure. -/
def process (o : Options) (input : Except IoFailure ByteArray) :
    List LogLine × Except Failure String :=
  let unreadable (failure : IoFailure) :=
    (openingLog o, .error (.ofIo "read input" o.input failure))
  match input with
  | .error failure => unreadable failure
  | .ok bytes =>
    match Object.decode bytes with
    | .error _ => unreadable .notUtf8
    | .ok source =>
      let outcome := Object.read o.kind o.config o.nparam o.format source
      let log := openingLog o ++ readingLog o ++ outcome.2.map .ofEvent
      match outcome.1 with
      | .ok object => (log, .ok (render o.emit object))
      | .error e =>
        (log ++ errorLog source e,
          .error ⟨s!"Failed to read {Dump.quoted o.input}", Failure.causesOf e⟩)

def logText (o : Options) (log : List LogLine) : String := LogLine.textUpTo (.limit o) log

def failed (log : String) (failure : Failure) : Report := ⟨1, "", log ++ failure.text⟩

def printed (log text : String) : Report := ⟨0, text ++ "\n", log⟩

def stored (log path : String) : Except IoFailure Unit → Report
  | .ok _ => ⟨0, "", log⟩
  | .error failure => failed log (.ofIo "write output" path failure)

def helpText : String :=
  "Reads integer constraint systems in set/map or PolyLib notation\n\n" ++
  "Usage: polyread [OPTIONS] <FILE>\n\n" ++
  "Arguments:\n" ++
  "  <FILE>  Input file\n\n" ++
  "Options:\n" ++
  "  -o, --output <FILE>    Output file (defaults to stdout)\n" ++
  "  -k, --kind <KIND>      What kind of object the input holds [default: map] " ++
  "[possible values: basic-map, basic-set, map, set, vector]\n" ++
  "      --nparam <N>       Expected number of parameters\n" ++
  "  -f, --format <FORMAT>  Input format (vectors only support polylib) [default: polylib] " ++
  "[possible values: isl, polylib]\n" ++
  "      --emit <EMIT>      Output representation [default: text] " ++
  "[possible values: text, json, debug]\n" ++
  "      --no-simplify      Keep constraints exactly as written\n" ++
  "      --strict           Reject input left over after the object\n" ++
  "  -v, --verbose...       Verbose output (-v, -vv, -vvv)\n" ++
  "  -q, --quiet            Quiet mode (suppress warnings)\n" ++
  "  -h, --help             Print help\n" ++
  "  -V, --version          Print version\n"

def stopped : Stop → Report
  | .usage =>
    ⟨2, "", "error: invalid arguments\n\nUsage: polyread [OPTIONS] <FILE>\n\n" ++
      "For more information, try '--help'.\n"⟩
  | .help => ⟨0, helpText, ""⟩
  | .version => ⟨0, s!"polyread {version}\n", ""⟩

end ConstraintText.Command

import ConstraintText.Reading

/-!
# Command line options

The command takes one input file and switches. A switch with a value is given it behind an equals
sign, as the next argument, or, in its short form, right behind its letter; short switches without
values may share one dash. Behind a double dash everything is a file. A switch may be given once,
the verbosity switch any number of times. The arguments are read in order, and the first error,
request for help or request for the version ends the reading.
-/
namespace ConstraintText.Command

inductive Emit
  | text
  | json
  | dump
  deriving DecidableEq, Repr

inductive Switch
  | output
  | kind
  | nparam
  | format
  | emit
  | noSimplify
  | strict
  | verbose
  | quiet
  | help
  | version
  deriving DecidableEq, Repr

namespace Switch

def ofLong? (name : String) : Option Switch :=
  match name with
  | "output" => some .output
  | "kind" => some .kind
  | "nparam" => some .nparam
  | "format" => some .format
  | "emit" => some .emit
  | "no-simplify" => some .noSimplify
  | "strict" => some .strict
  | "verbose" => some .verbose
  | "quiet" => some .quiet
  | "help" => some .help
  | "version" => some .version
  | _ => none

def ofShort? (c : Char) : Option Switch :=
  match c with
  | 'o' => some .output
  | 'k' => some .kind
  | 'f' => some .format
  | 'v' => some .verbose
  | 'q' => some .quiet
  | 'h' => some .help
  | 'V' => some .version
  | _ => none

def takesValue : Switch → Bool
  | output => true
  | kind => true
  | nparam => true
  | format => true
  | emit => true
  | _ => false

end Switch

/-- Why no object is read: the arguments are wrong, or something else was asked for. -/
inductive Stop
  | usage
  | help
  | version
  deriving DecidableEq, Repr

structure Given where
  input : Option String
  output : Option String
  kind : Option ObjectKind
  nparam : Option Nat
  format : Option Format
  emit : Option Emit
  noSimplify : Bool
  strict : Bool
  verbose : Nat
  quiet : Bool
  deriving DecidableEq, Repr

structure Options where
  input : String
  output : Option String
  kind : ObjectKind
  nparam : Option Nat
  format : Format
  emit : Emit
  config : ReadConfig
  verbose : Nat
  quiet : Bool
  deriving DecidableEq, Repr

def kindOfWord? (word : String) : Option ObjectKind :=
  match word with
  | "basic-map" => some .basicMap
  | "basic-set" => some .basicSet
  | "map" => some .map
  | "set" => some .set
  | "vector" => some .vector
  | _ => none

def formatOfWord? (word : String) : Option Format :=
  match word with
  | "isl" => some .isl
  | "polylib" => some .polylib
  | _ => none

def emitOfWord? (word : String) : Option Emit :=
  match word with
  | "text" => some .text
  | "json" => some .json
  | "debug" => some .dump
  | _ => none

def path? (word : String) : Option String := if word = "" then none else some word

namespace Given

def nothing : Given := ⟨none, none, none, none, none, none, false, false, 0, false⟩

/-- A value for a place that must still be free. -/
def once {α : Type} (old : Option α) (value : Option α) : Except Stop (Option α) :=
  match old, value with
  | none, some a => .ok (some a)
  | _, _ => .error .usage

def setValue (g : Given) (switch : Switch) (word : String) : Except Stop Given := do
  match switch with
  | .output => return { g with output := ← once g.output (path? word) }
  | .kind => return { g with kind := ← once g.kind (kindOfWord? word) }
  | .nparam => return { g with nparam := ← once g.nparam (Decimal.count? word.toList) }
  | .format => return { g with format := ← once g.format (formatOfWord? word) }
  | .emit => return { g with emit := ← once g.emit (emitOfWord? word) }
  | _ => throw .usage

def setFlag (g : Given) (switch : Switch) : Except Stop Given :=
  match switch with
  | .noSimplify => if g.noSimplify then .error .usage else .ok { g with noSimplify := true }
  | .strict => if g.strict then .error .usage else .ok { g with strict := true }
  | .quiet => if g.quiet then .error .usage else .ok { g with quiet := true }
  | .verbose => .ok { g with verbose := g.verbose + 1 }
  | .help => .error .help
  | .version => .error .version
  | _ => .error .usage

def setInput (g : Given) (word : String) : Except Stop Given := do
  return { g with input := ← once g.input (path? word) }

/-- Short switches behind one dash; the last one may still need the next argument as its value. -/
def addShort (g : Given) : List Char → Except Stop (Given × Option Switch)
  | [] => .ok (g, none)
  | c :: cs =>
    match Switch.ofShort? c with
    | none => .error .usage
    | some switch =>
      if switch.takesValue then
        if cs = [] then .ok (g, some switch)
        else
          let word := String.ofList (if cs.head? = some '=' then cs.tail else cs)
          (g.setValue switch word).map fun g => (g, none)
      else (g.setFlag switch).bind fun g => g.addShort cs

def addLong (g : Given) (chars : List Char) : Except Stop (Given × Option Switch) :=
  let name := String.ofList (chars.takeWhile (· ≠ '='))
  match Switch.ofLong? name, chars.dropWhile (· ≠ '=') with
  | none, _ => .error .usage
  | some switch, [] =>
    if switch.takesValue then .ok (g, some switch)
    else (g.setFlag switch).map fun g => (g, none)
  | some switch, _ :: value =>
    if switch.takesValue then
      (g.setValue switch (String.ofList value)).map fun g => (g, none)
    else .error .usage

/-- The arguments from some point on, where a switch may wait for its value. -/
def addArguments (g : Given) (waiting : Option Switch) : List String → Except Stop Given
  | [] => if waiting.isSome then .error .usage else .ok g
  | word :: rest =>
    match waiting, word.toList with
    | some _, '-' :: _ :: _ => .error .usage
    | some switch, _ => (g.setValue switch word).bind fun g => g.addArguments none rest
    | none, ['-', '-'] => rest.foldlM setInput g
    | none, '-' :: '-' :: chars =>
      (g.addLong chars).bind fun (g, waiting) => g.addArguments waiting rest
    | none, '-' :: c :: chars =>
      (g.addShort (c :: chars)).bind fun (g, waiting) => g.addArguments waiting rest
    | none, _ => (g.setInput word).bind fun g => g.addArguments none rest

end Given

/-- The options that a list of arguments asks for. Without switches a union is read and printed. -/
def Options.ofArguments (arguments : List String) : Except Stop Options := do
  let g ← Given.nothing.addArguments none arguments
  match g.input with
  | none => throw .usage
  | some input =>
    return ⟨input, g.output, g.kind.getD .map, g.nparam, g.format.getD .polylib,
      g.emit.getD .text, ⟨!g.noSimplify, g.strict⟩, g.verbose, g.quiet⟩

end ConstraintText.Command

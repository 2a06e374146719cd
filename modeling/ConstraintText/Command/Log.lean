import ConstraintText.Command.Options
import ConstraintText.Command.PlainText
import ConstraintText.Dump

/-!
# The log of the command

A log line has a level and the part of the program it comes from. Only lines up to a chosen level
are shown. A message of several lines is indented from its second line on, and what it quotes from
the input is shown as plain text.
-/
namespace ConstraintText.Command

inductive Level
  | error
  | warn
  | info
  | debug
  | trace
  deriving DecidableEq, Repr

namespace Level

def rank : Level → Nat
  | error => 0
  | warn => 1
  | info => 2
  | debug => 3
  | trace => 4

def text : Level → String
  | error => "ERROR"
  | warn => "WARN "
  | info => "INFO "
  | debug => "DEBUG"
  | trace => "TRACE"

def limit (o : Options) : Level :=
  if o.quiet then .error
  else match o.verbose with
    | 0 => .warn
    | 1 => .info
    | 2 => .debug
    | _ => .trace

end Level

structure LogLine where
  level : Level
  topic : String
  message : String
  deriving DecidableEq, Repr

namespace LogLine

def main (level : Level) (message : String) : LogLine := ⟨level, "polyread", message⟩

def ofEvent : ReadEvent → LogLine
  | .pushedBack t => ⟨.trace, "polyread::frontend::stream", s!"push back {t.text}"⟩
  | .tuple size opening =>
    ⟨.trace, "polyread::frontend::parser", s!"tuple of {size} names at {opening.text}"⟩
  | .existentials extra columns =>
    ⟨.trace, "polyread::frontend::parser",
      s!"{extra} existentials, {columns} columns per row"⟩
  | .basicMap space nEqualities nInequalities nDiv =>
    ⟨.debug, "polyread::frontend::parser",
      s!"read basic map {space.text} with {nEqualities} equalities, " ++
        s!"{nInequalities} inequalities, {nDiv} existentials"⟩
  | .matrices n => ⟨.debug, "polyread::frontend::polylib", s!"reading {n} polylib matrices"⟩
  | .matrix rows columns dims params =>
    ⟨.trace, "polyread::frontend::polylib",
      s!"polylib matrix {rows}x{columns}: {dims} dims, {params} params"⟩
  | .vector size => ⟨.debug, "polyread::frontend::vector", s!"read vector of size {size}"⟩

def text (line : LogLine) : String :=
  let message := "\n    ".intercalate (line.message.splitOn "\n")
  PlainText.ofString s!"[{line.level.text} {line.topic}] {message}\n"

def textUpTo (limit : Level) (lines : List LogLine) : String :=
  String.join ((lines.filter (·.level.rank ≤ limit.rank)).map text)

end LogLine
end ConstraintText.Command

import ConstraintText.Command.Report

/-!
# The command

Reads the file that the arguments name and writes what it holds, or reports why it cannot.
-/
namespace ConstraintText.Command

/-- Whether an error has a number; some system calls report it negated. -/
def hasNumber (code number : UInt32) : Bool := code == number || code == 0 - number

def failureOf (e : IO.Error) : IoFailure :=
  match e with
  | .noFileOrDirectory _ _ _ => .noSuchFile
  | .inappropriateType _ code _ => if hasNumber code 20 then .notDirectory else .isDirectory
  | .invalidArgument _ code words => if hasNumber code 36 then .nameTooLong else .other words
  | e => .other (toString e)

def attempt {α : Type} (action : IO α) : IO (Except IoFailure α) := do
  match ← action.toBaseIO with
  | .ok a => return .ok a
  | .error e => return .error (failureOf e)

def emitReport (r : Report) : IO UInt32 := do
  IO.eprint r.stderr
  IO.print r.stdout
  return r.code.toUInt32

def runOnSystem (arguments : List String) : IO UInt32 := do
  match Options.ofArguments arguments with
  | .error stop => emitReport (stopped stop)
  | .ok o =>
    let (log, result) := process o (← attempt (IO.FS.readBinFile o.input))
    let log := logText o log
    match result, o.output with
    | .error failure, _ => emitReport (failed log failure)
    | .ok text, none => emitReport (printed log text)
    | .ok text, some path =>
      emitReport (stored log path (← attempt (IO.FS.writeFile path text)))

end ConstraintText.Command

def main (arguments : List String) : IO UInt32 :=
  ConstraintText.Command.runOnSystem arguments

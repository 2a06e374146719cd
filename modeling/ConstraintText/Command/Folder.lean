import ConstraintText.Command.Report

/-!
# Running the command in a folder

A folder holds files by name. A run reads one path and may write another. A path is followed step by
step, from the folder or, if it begins with a slash, from the root. Of the folders outside little is
known: there are some above the folder, the root has one of devices and one of temporary files, and
what is written there is not seen again.
-/
namespace ConstraintText.Command

structure Folder where
  files : List (String × ByteArray)

/-- What a path leads to: this folder, another one, or a file. -/
inductive Place
  | here
  | root
  | devices
  | elsewhere
  | file (bytes : ByteArray)

namespace Place

def isFolder : Place → Bool
  | file _ => false
  | _ => true

/-- The folder above a folder; above the root is the root. -/
def parent : Place → Place
  | root => root
  | devices => root
  | _ => elsewhere

end Place

namespace Folder

def longestName : Nat := 255

def longestPath : Nat := 4095

def get? (f : Folder) (name : String) : Option ByteArray := (f.files.find? (·.1 == name)).map (·.2)

/-- What a name stands for in a place. The null device is an empty file. -/
def entry? (f : Folder) (place : Place) (name : String) : Option Place :=
  match place with
  | .here => (f.get? name).map .file
  | .root =>
    if name = "dev" then some .devices else if name = "tmp" then some .elsewhere else none
  | .devices => if name = "null" then some (.file .empty) else none
  | _ => none

def checkName (name : String) : Except IoFailure Unit :=
  if name.utf8ByteSize ≤ longestName then .ok () else .error .nameTooLong

/-- One step of a path. A file leads nowhere, not even to itself. -/
def step (f : Folder) (place : Place) (name : String) : Except IoFailure Place :=
  if !place.isFolder then .error .notDirectory
  else if name = "." then .ok place
  else if name = ".." then .ok place.parent
  else (checkName name).bind fun _ =>
    match f.entry? place name with
    | none => .error .noSuchFile
    | some place => .ok place

def steps (path : String) : List String := (path.splitOn "/").filter (· ≠ "")

def start (path : String) : Place := if path.startsWith "/" then .root else .here

def follow (f : Folder) (path : String) (steps : List String) : Except IoFailure Place :=
  if path.utf8ByteSize ≤ longestPath then steps.foldlM f.step (start path)
  else .error .nameTooLong

/-- The bytes of a file. A slash behind a path asks for a folder, which has none. -/
def read (f : Folder) (path : String) : Except IoFailure ByteArray :=
  (f.follow path (steps path)).bind fun
    | .file bytes => if path.endsWith "/" then .error .notDirectory else .ok bytes
    | _ => .error .isDirectory

def put (f : Folder) (name : String) (bytes : ByteArray) : Folder :=
  ⟨(name, bytes) :: f.files.filter (·.1 ≠ name)⟩

def writeIn (f : Folder) (place : Place) (name : String) (bytes : ByteArray) :
    Except IoFailure Folder :=
  (checkName name).bind fun _ =>
    match place, f.entry? place name with
    | .here, _ => .ok (f.put name bytes)
    | _, none => .ok f
    | _, some other => if other.isFolder then .error .isDirectory else .ok f

/-- The folder after writing to a path. The last step must be the name of a file, with no slash
behind it. -/
def write (f : Folder) (path : String) (bytes : ByteArray) : Except IoFailure Folder :=
  (f.follow path (steps path).dropLast).bind fun place =>
    match (steps path).getLast? with
    | none => .error .isDirectory
    | some name =>
      if !place.isFolder then .error .notDirectory
      else if name = "." ∨ name = ".." ∨ path.endsWith "/" then .error .isDirectory
      else f.writeIn place name bytes

def run (f : Folder) (arguments : List String) : Report × Folder :=
  match Options.ofArguments arguments with
  | .error stop => (stopped stop, f)
  | .ok o =>
    let (log, result) := process o (f.read o.input)
    let log := logText o log
    match result, o.output with
    | .error failure, _ => (failed log failure, f)
    | .ok text, none => (printed log text, f)
    | .ok text, some path =>
      match f.write path text.toUTF8 with
      | .ok g => (stored log path (.ok ()), g)
      | .error failure => (stored log path (.error failure), f)

end Folder
end ConstraintText.Command

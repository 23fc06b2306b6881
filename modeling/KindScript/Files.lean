/-!
# Files

What a path leads to, as far as a program that only reads can see. A view of the
files is a function on paths; a working directory in memory is one such view.
-/

namespace KindScript

namespace Files

/-- What stands at a path. -/
inductive Entry where
  | file (content : ByteArray)
  | directory
  | missing
  /-- The path goes on below a file. -/
  | belowFile

/-- The files as they are seen from the working directory. -/
abbrev View := String → Entry

/-- Why a file has no text. -/
inductive ReadError where
  | missing
  | belowFile
  | directory
  | notText
deriving DecidableEq, Repr

def ReadError.message : ReadError → String
  | missing => "No such file or directory (os error 2)"
  | belowFile => "Not a directory (os error 20)"
  | directory => "Is a directory (os error 21)"
  | notText => "stream did not contain valid UTF-8"

namespace View

variable (view : View) (path : String)

def isFile : Bool :=
  match view path with
  | .file _ => true
  | _ => false

/-- Something stands at the path. -/
def isPresent : Bool :=
  match view path with
  | .file _ | .directory => true
  | _ => false

/-- The text of a file. -/
def read : Except ReadError String :=
  match view path with
  | .missing => .error .missing
  | .belowFile => .error .belowFile
  | .directory => .error .directory
  | .file content =>
    match String.fromUTF8? content with
    | some text => .ok text
    | none => .error .notText

end View

end Files

end KindScript

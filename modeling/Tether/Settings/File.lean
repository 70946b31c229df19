import Tether.Settings.Document

/-!
# Settings in a file

Settings are kept in a file of a directory. Reading them fails if there is no such file, if it
holds no text, or if the text is not a document with settings.
-/

namespace Tether

/-- Why a file could not be read. -/
inductive FileError
  | notFound
  | isDirectory
  deriving DecidableEq, Inhabited

/-- The text of a file error. -/
def FileError.message : FileError → String
  | .notFound => "No such file or directory (os error 2)"
  | .isDirectory => "Is a directory (os error 21)"

/-- The files of the present directory, by name. -/
structure Directory where
  files : List (String × ByteArray) := []

/-- The bytes of a file. A point names the directory itself. -/
def Directory.read (d : Directory) (path : String) : Except FileError ByteArray :=
  if path = "." then .error .isDirectory
  else
    match d.files.find? fun f => f.1 = path with
    | some (_, bytes) => .ok bytes
    | none => .error .notFound

/-- Why settings could not be loaded. -/
inductive LoadError
  | unreadable (path : String) (error : FileError)
  | notText (path : String)
  | malformed
  deriving DecidableEq, Inhabited

/-- The error that a failure to load settings is. -/
def LoadError.toError : LoadError → Error
  | .unreadable path error => .config (path ++ ": " ++ error.message)
  | .notText path => .config (path ++ ": stream did not contain valid UTF-8")
  | .malformed => .config "not a document with settings"

/-- Load settings from a file. -/
def Settings.load (d : Directory) (path : String) : Except LoadError Settings :=
  match d.read path with
  | .error error => .error (.unreadable path error)
  | .ok bytes =>
    match String.fromUTF8? bytes with
    | none => .error (.notText path)
    | some text =>
      match Settings.ofText? text with
      | none => .error .malformed
      | some settings => .ok settings

end Tether

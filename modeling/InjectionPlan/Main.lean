import InjectionPlan.Session
import Std.Time.Format

/-!
# The command

The outer layer: files, environment and streams of the process. What is done with them is decided
by the session.
-/

namespace InjectionPlan

namespace FileError

def ofSystem : IO.Error → FileError
  | .noFileOrDirectory _ _ _ => .notFound
  | .alreadyExists _ 17 _ => .alreadyExists
  | .inappropriateType _ 20 _ => .notDirectory
  | .inappropriateType _ 21 _ => .isDirectory
  | .invalidArgument _ 22 _ => .nameWithZero
  | .invalidArgument _ _ _ => .nameTooLong
  | .permissionDenied _ code details => .other s!"{details} (os error {code})"
  | .resourceExhausted _ code details => .other s!"{details} (os error {code})"
  | error => .other (toString error)

def attempting {α : Type} (action : IO α) : IO (Except FileError α) := do
  try return .ok (← action) catch error => return .error (ofSystem error)

end FileError

instance : FileSystem IO where
  present path := do
    try
      discard <| IO.FS.realPath path
      return true
    catch _ => return false
  isDirectory path := do
    try (← IO.FS.realPath path).isDir catch _ => return false
  read path := FileError.attempting (IO.FS.readFile path)
  makeDirectory path := FileError.attempting (IO.FS.createDir path)
  write path text := FileError.attempting (IO.FS.writeFile path text)

namespace Surroundings

def variablesFile : String := "/proc/self/environ"

/-- The variables of a text in which a zero character ends each of them. -/
def variablesOfText (text : String) : List (String × String) :=
  (Text.pieces '\x00' text.toList).filterMap fun entry =>
    match entry.dropWhile (· ≠ '=') with
    | _ :: value => some (String.ofList (entry.takeWhile (· ≠ '=')), String.ofList value)
    | [] => none

def ofProcess : IO Surroundings := do
  let text ← try IO.FS.readFile variablesFile catch _ => pure ""
  let environment := variablesOfText text
  return { environment, home := ConfigSource.homeOf environment }

end Surroundings

namespace LogFile

def append (file : LogFile) (text : String) : IO Unit := do
  let today := Std.Time.PlainDate.ofEpochDay (← Std.Time.Timestamp.now).toDaysSinceUnixEpoch
  let ready : Except FileError Unit ← FileSystem.ensureAll file.directory
  if let .ok () := ready then
    let handle ← IO.FS.Handle.mk (file.pathOn today.toSQLDateString) .append
    handle.putStr text

end LogFile

end InjectionPlan

open InjectionPlan in
def main (arguments : List String) : IO UInt32 := do
  let session : Session ← Session.ofArguments (← Surroundings.ofProcess) arguments
  if let some file := session.logFile then
    file.append session.logText
  let output ← IO.getStdout
  output.putStr session.output
  output.flush
  let errors ← IO.getStderr
  errors.putStr session.errorOutput
  return session.exitCode.toUInt32

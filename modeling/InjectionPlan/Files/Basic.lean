import InjectionPlan.Files.Path

/-!
# Files

What a run asks of the files around it. The operations can be given for any monad, so a run can
be looked at over a value that holds all files.
-/

namespace InjectionPlan

inductive FileError where
  | notFound
  | alreadyExists
  | notDirectory
  | isDirectory
  /-- A name or the whole path has too many bytes. -/
  | nameTooLong
  /-- A name has the character in it that ends texts for the system. -/
  | nameWithZero
  | other (reason : String)
  deriving DecidableEq

def FileError.message : FileError → String
  | .notFound => "No such file or directory (os error 2)"
  | .alreadyExists => "File exists (os error 17)"
  | .notDirectory => "Not a directory (os error 20)"
  | .isDirectory => "Is a directory (os error 21)"
  | .nameTooLong => "File name too long (os error 36)"
  | .nameWithZero => "file name contained an unexpected NUL byte"
  | .other reason => reason

class FileSystem (m : Type → Type) where
  /-- A file or directory is there. -/
  present : String → m Bool
  isDirectory : String → m Bool
  read : String → m (Except FileError String)
  /-- Makes a directory in a directory that is there. -/
  makeDirectory : String → m (Except FileError Unit)
  write : String → String → m (Except FileError Unit)

namespace FileSystem

variable {m : Type → Type} [Monad m] [FileSystem m]

/-- Makes a directory, where it may be there already. -/
def ensure (path : String) : m (Except FileError Unit) := do
  match ← makeDirectory path with
  | .ok () => pure (.ok ())
  | .error error => do
    if ← isDirectory path then pure (.ok ()) else pure (.error error)

/-- Makes a directory and those above it that are missing, at most so many. -/
def ensureAbove : Nat → String → m (Except FileError Unit)
  | 0, _ => pure (.error .notFound)
  | limit + 1, path => do
    if path = "" then pure (.ok ())
    else match ← makeDirectory path with
      | .ok () => pure (.ok ())
      | .error .notFound =>
        match Path.parent? path with
        | none => pure (.error (.other "failed to create whole tree"))
        | some parent =>
          match ← ensureAbove limit parent with
          | .ok () => ensure path
          | .error error => pure (.error error)
      | .error error => do
        if ← isDirectory path then pure (.ok ()) else pure (.error error)

/-- Makes a directory and those above it that are missing. A parent is a shorter path. -/
def ensureAll (path : String) : m (Except FileError Unit) :=
  ensureAbove (path.length + 1) path

end FileSystem

end InjectionPlan

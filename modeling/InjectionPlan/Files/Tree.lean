import InjectionPlan.Files.Basic

/-!
# Files as a value

A tree of files, given by the names that lead from the root to each file or directory. Relative
paths begin at a working directory, which may stand below other directories.
-/

namespace InjectionPlan

inductive FileEntry where
  | directory
  | file (text : String)
  deriving DecidableEq

/-- Files and directories by the names that lead to them. -/
structure FileTree where
  entries : List (List String × FileEntry) := []
  working : List String := []
  deriving DecidableEq

namespace FileTree

/-- What stands at a place. The working directory and those above it are always there. -/
def at? (tree : FileTree) (place : List String) : Option FileEntry :=
  if place.isPrefixOf tree.working then some .directory
  else (tree.entries.find? fun entry => entry.1 = place).map Prod.snd

def put (tree : FileTree) (place : List String) (entry : FileEntry) : FileTree :=
  if (tree.at? place).isSome then
    { tree with
      entries := tree.entries.map fun old => if old.1 = place then (place, entry) else old }
  else { tree with entries := tree.entries ++ [(place, entry)] }

/-- The greatest number of bytes in a name. -/
def nameLimit : Nat := 255

/-- The greatest number of bytes in a path. -/
def pathLimit : Nat := 4095

/-- One step along a path. Only from a directory can a path go on, and the root is above
itself. -/
def step (tree : FileTree) (place : List String) (segment : String) :
    Except FileError (List String) :=
  match tree.at? place with
  | none => .error .notFound
  | some (.file _) => .error .notDirectory
  | some .directory =>
    if segment = "" ∨ segment = "." then .ok place
    else if segment = ".." then .ok place.dropLast
    else if segment.utf8ByteSize > nameLimit then .error .nameTooLong
    else .ok (place ++ [segment])

/-- The place that a path leads to, which may be free. -/
def locate (tree : FileTree) (path : String) : Except FileError (List String) :=
  if path = "" then .error .notFound
  else if '\x00' ∈ path.toList then .error .nameWithZero
  else if path.utf8ByteSize > pathLimit then .error .nameTooLong
  else (Path.segments path).foldlM tree.step (if Path.isAbsolute path then [] else tree.working)

def find (tree : FileTree) (path : String) : Except FileError FileEntry := do
  let place ← tree.locate path
  match tree.at? place with
  | some entry => pure entry
  | none => throw .notFound

def read (tree : FileTree) (path : String) : Except FileError String := do
  match ← tree.find path with
  | .file text => pure text
  | .directory => throw .isDirectory

def makeDirectory (tree : FileTree) (path : String) : Except FileError FileTree := do
  let place ← tree.locate path
  match tree.at? place with
  | some _ => throw .alreadyExists
  | none => pure (tree.put place .directory)

/-- The tree with a text in a file. A path that ends in a slash names a directory, whatever
stands there. -/
def write (tree : FileTree) (path text : String) : Except FileError FileTree := do
  let name := String.ofList (path.toList.reverse.dropWhile (· = '/')).reverse
  let place ← tree.locate (if name = "" then path else name)
  if name ≠ path ∨ tree.at? place = some .directory then throw .isDirectory
  else pure (tree.put place (.file text))

/-- The tree with a file or directory below the working directory, and the directories above
it. -/
def add (tree : FileTree) (path : String) (entry : FileEntry) : FileTree :=
  let names := (Path.segments path).filter fun name => name ≠ "" && name ≠ "."
  let above := (List.range names.length).foldl (fun tree count =>
    let place := tree.working ++ names.take count
    if (tree.at? place).isSome then tree else tree.put place .directory) tree
  above.put (tree.working ++ names) entry

def pathTo? (tree : FileTree) (place : List String) : Option String :=
  if tree.working.isPrefixOf place then some ("/".intercalate (place.drop tree.working.length))
  else none

/-- The files below the working directory that are new or have another text than before, by
their paths. -/
def changes (before after : FileTree) : List (String × String) :=
  after.entries.filterMap fun (place, entry) =>
    match entry with
    | .directory => none
    | .file text =>
      if before.at? place = some entry then none
      else (after.pathTo? place).map fun path => (path, text)

/-- An operation that changes the tree when it succeeds. -/
def attempt (change : FileTree → Except FileError FileTree) :
    StateM FileTree (Except FileError Unit) := do
  match change (← get) with
  | .ok tree => do
    set tree
    pure (.ok ())
  | .error error => pure (.error error)

instance : FileSystem (StateM FileTree) where
  present path := do return ((← get).find path).toOption.isSome
  isDirectory path := do return ((← get).find path).toOption = some .directory
  read path := do return (← get).read path
  makeDirectory path := attempt fun tree => tree.makeDirectory path
  write path text := attempt fun tree => tree.write path text

end FileTree

end InjectionPlan

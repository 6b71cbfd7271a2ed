import InjectionPlan.Text.Name

/-!
# Paths

A path is a text in which slashes separate the names of directories. Repeated slashes and single
points between names mean nothing.
-/

namespace InjectionPlan.Path

def segments (path : String) : List String :=
  (Text.pieces '/' path.toList).map String.ofList

def isAbsolute (path : String) : Bool := path.toList.head? = some '/'

/-- A segment that is a name; a point counts only where the path begins. -/
def isPart (path : String) (index : Nat) (segment : String) : Bool :=
  segment ≠ "" && (segment ≠ "." || (index = 0 && !isAbsolute path))

/-- The positions of the segments that are names. -/
def parts (path : String) : List Nat :=
  ((segments path).zipIdx.filter fun (segment, index) => isPart path index segment).map Prod.snd

/-- The path without its last name. A path without names has no parent. -/
def parent? (path : String) : Option String :=
  match (parts path).reverse with
  | [] => none
  | [_] => some (if isAbsolute path then "/" else "")
  | _ :: previous :: _ => some ("/".intercalate ((segments path).take (previous + 1)))

/-- The last name of a path, unless it leads upwards. -/
def fileName? (path : String) : Option String :=
  ((parts path).getLast?.bind fun index => (segments path)[index]?).filter fun name =>
    name ≠ "." && name ≠ ".."

/-- The last name of a path without what follows its last point. A point at the start of a name
does not count. -/
def stem? (path : String) : Option String :=
  (fileName? path).map fun name =>
    match name.toList.reverse.dropWhile (· ≠ '.') with
    | _ :: before => if before.isEmpty then name else String.ofList before.reverse
    | [] => name

def join (path name : String) : String :=
  if path = "" then name
  else if path.toList.getLast? = some '/' then path ++ name
  else path ++ "/" ++ name

end InjectionPlan.Path

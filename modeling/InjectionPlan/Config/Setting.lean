import InjectionPlan.Config.Basic
import InjectionPlan.Config.Entries

/-!
# Settings from several sources

Each source of configuration gives a tree of settings. A later source is laid over an earlier
one: tables are joined entry by entry, anything else takes the place of what was there. Settings
that no source gives have their defaults.
-/

namespace InjectionPlan

open Json (Tree)

/-- A setting as a source gives it. No setting of a run is a number, so the value of a number is
not kept. -/
inductive Setting where
  | flag (value : Bool)
  | number
  | text (value : String)
  | list (items : List Setting)
  | table (entries : List (String × Setting))

namespace Setting

mutual

/-- The setting `later` laid over the setting `earlier`. -/
def overlay (earlier : Setting) : (later : Setting) → Setting
  | .table entries =>
    match earlier with
    | .table old => .table (entriesOver old entries)
    | _ => .table entries
  | .flag value => .flag value
  | .number => .number
  | .text value => .text value
  | .list items => .list items

def entriesOver (earlier : List (String × Setting)) :
    List (String × Setting) → List (String × Setting)
  | [] => earlier
  | (key, value) :: rest =>
    let value := match Entries.get? key earlier with
      | some old => overlay old value
      | none => value
    entriesOver (Entries.put key value earlier) rest

end

/-- A setting at the end of a path of keys. -/
def nested (value : Setting) : List String → Setting
  | [] => value
  | key :: rest => .table [(key, nested value rest)]

def units (s : String) : List Json.CodeUnit := s.toList.map .char

mutual

/-- The setting in the shape in which records are read. -/
def tree : Setting → Tree
  | .flag value => .bool value
  | .number => .number (.ofNat 0)
  | .text value => .string (units value)
  | .list items => .array (treeItems items) none
  | .table entries => .object (treeEntries entries) none

def treeItems : List Setting → List Tree
  | [] => []
  | item :: rest => tree item :: treeItems rest

def treeEntries : List (String × Setting) → List (Tree × Tree)
  | [] => []
  | (key, value) :: rest => (.string (units key), tree value) :: treeEntries rest

end

/-- The configuration that the settings give. A list stands for a table of its items; items
beyond the last field are ignored. -/
def config? (setting : Setting) : Option Config :=
  (Config.decode .ignored setting.tree).toOption

end Setting

end InjectionPlan

import InjectionPlan.Toml.Node
import InjectionPlan.Toml.Scalar
import InjectionPlan.Toml.Text

/-!
# TOML documents

A document is read line by line into tables. A document that breaks a rule gives no settings at
all.
-/

namespace InjectionPlan.Toml

/-- The most levels of lists and tables inside a value. -/
def deepestValue : Nat := 79

mutual

/-- A value, where lists and tables may be nested `depth` levels deep. -/
def value : Nat → Nat → List Char → Option (Setting × List Char)
  | 0, _, _ => none
  | fuel + 1, depth, cs =>
    match text? cs with
    | some found => found.map fun (text, rest) => (.text text, rest)
    | none =>
      match cs, depth with
      | '[' :: _, 0 => none
      | '{' :: _, 0 => none
      | '[' :: rest, depth + 1 =>
        (items fuel depth rest).map fun (list, rest) => (.list list, rest)
      | '{' :: rest, depth + 1 =>
        match skipBlanks rest with
        | '}' :: rest => some (.table [], rest)
        | rest => (entries fuel depth [] rest).map fun (table, rest) =>
          (.table (Node.settings table), rest)
      | cs, _ => scalar cs

/-- The items of a list up to the closing bracket. Lines may end between them, and a comma may
stand before the bracket. -/
def items : Nat → Nat → List Char → Option (List Setting × List Char)
  | 0, _, _ => none
  | fuel + 1, depth, cs =>
    match skipLines cs.length cs with
    | ']' :: rest => some ([], rest)
    | cs => (value fuel depth cs).bind fun (item, rest) =>
      match skipLines rest.length rest with
      | ',' :: rest => (items fuel depth rest).map fun (list, rest) => (item :: list, rest)
      | ']' :: rest => some ([item], rest)
      | _ => none

/-- The entries of a table on one line up to the closing brace, put into `table`. -/
def entries : Nat → Nat → Node.Entries → List Char → Option (Node.Entries × List Char)
  | 0, _, _, _ => none
  | fuel + 1, depth, table, cs => do
    let ((path, name), rest) ← key cs
    match rest with
    | '=' :: rest =>
      let (setting, rest) ← value fuel depth (skipBlanks rest)
      let table ← Node.assign path name setting .header table
      match skipBlanks rest with
      | ',' :: rest => entries fuel depth table rest
      | '}' :: rest => some (table, rest)
      | _ => none
    | _ => none

end

/-- What a document has defined so far, and the path of the last header. -/
structure State where
  root : Node.Entries := []
  path : List String := []

namespace State

/-- Defines a key in the table of the last header. -/
def assign (state : State) (path : List String) (name : String) (setting : Setting) :
    Option State :=
  (Node.change .passed (Node.assign path name setting) state.path .header state.root).map
    fun root => { state with root }

def header (state : State) (listed : Bool) (path : List String) (name : String) : Option State :=
  let final (_ : Origin) : Node.Entries → Option Node.Entries :=
    if listed then Node.openListed name else Node.openTable name
  (Node.change .passed final path .header state.root).map fun root =>
    { root, path := path ++ [name] }

end State

def closeHeader? (listed : Bool) : List Char → Option (List Char)
  | ']' :: ']' :: rest => if listed then some rest else none
  | ']' :: rest => if listed then none else some rest
  | _ => none

/-- One line: a header, a key with its value, or nothing. The rest of the line follows. -/
def line (state : State) (cs : List Char) : Option (State × List Char) :=
  let header (listed : Bool) (cs : List Char) : Option (State × List Char) := do
    let ((path, name), rest) ← key cs
    let rest ← closeHeader? listed rest
    let state ← state.header listed path name
    pure (state, rest)
  match cs with
  | '[' :: '[' :: rest => header true rest
  | '[' :: rest => header false rest
  | [] => some (state, [])
  | c :: rest =>
    if c == '#' || c == '\n' || c == '\r' then some (state, c :: rest)
    else do
      let ((path, name), rest) ← key (c :: rest)
      match rest with
      | '=' :: rest =>
        let rest := skipBlanks rest
        let (setting, rest) ← value (2 * rest.length + 2) deepestValue rest
        let state ← state.assign path name setting
        pure (state, rest)
      | _ => none

def lines : Nat → State → List Char → Option State
  | 0, _, _ => none
  | fuel + 1, state, cs => do
    let (state, rest) ← line state (skipBlanks cs)
    match ← closeLine? rest with
    | [] => pure state
    | rest => lines fuel state rest

/-- The text without a byte order mark before it. -/
def dropMark : List Char → List Char
  | c :: rest => if c = '\uFEFF' then rest else c :: rest
  | [] => []

/-- The settings of a document, unless it breaks a rule. -/
def settings? (text : String) : Option Setting :=
  let cs := dropMark text.toList
  (lines (cs.length + 1) {} cs).map fun state => .table (Node.settings state.root)

end InjectionPlan.Toml

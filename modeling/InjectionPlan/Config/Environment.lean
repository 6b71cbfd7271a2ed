import InjectionPlan.Config.Setting
import InjectionPlan.Text.Decimal
import InjectionPlan.Text.Hex
import InjectionPlan.Text.Name

/-!
# Settings from environment variables

A variable whose name begins with the prefix and two underscores gives one setting. Two
underscores in the rest of the name separate the keys of its path; neither case nor blanks around
the name or around the path matter. The value is read in a notation of its own; a value that
cannot be read is a text as it stands.
-/

namespace InjectionPlan.Environment

/-- The blanks around values. -/
def isSpace (c : Char) : Bool :=
  c == ' ' || c == '\t' || c == '\n' || c == '\x0c' || c == '\r'

def skipSpace (cs : List Char) : List Char := cs.dropWhile isSpace

def isSeparator (c : Char) : Bool :=
  c == ',' || c == '{' || c == '}' || c == '[' || c == ']'

def isKeyChar (c : Char) : Bool := c.isAlphanum || c == '_' || c == '-'

def isTextChar (c : Char) : Bool := c == '\t' || (0x20 ≤ c.toNat && c.toNat ≠ 0x7f)

/-- The characters up to the closing quote, and what follows it. -/
def quoted : Nat → List Char → Option (List Char × List Char)
  | 0, _ => none
  | fuel + 1, cs =>
    let go (c : Char) (rest : List Char) : Option (List Char × List Char) :=
      (quoted fuel rest).map fun (text, rest) => (c :: text, rest)
    match cs with
    | '"' :: rest => some ([], rest)
    | '\\' :: '"' :: rest => go '"' rest
    | '\\' :: '\\' :: rest => go '\\' rest
    | '\\' :: 'b' :: rest => go '\x08' rest
    | '\\' :: 't' :: rest => go '\t' rest
    | '\\' :: 'n' :: rest => go '\n' rest
    | '\\' :: 'f' :: rest => go '\x0c' rest
    | '\\' :: 'r' :: rest => go '\r' rest
    | '\\' :: 'u' :: rest => (Text.hexChar? 4 rest).bind fun (c, rest) => go c rest
    | '\\' :: 'U' :: rest => (Text.hexChar? 8 rest).bind fun (c, rest) => go c rest
    | '\\' :: _ => none
    | c :: rest => if isTextChar c then go c rest else none
    | [] => none

def quotedText (cs : List Char) : Option (String × List Char) :=
  (quoted (cs.length + 1) cs).map fun (text, rest) => (String.ofList text, rest)

/-- The one character before a closing quote, and what follows the quote. -/
def character : List Char → Option (Char × List Char)
  | c :: '\'' :: rest => some (c, rest)
  | _ => none

/-- A value without quotes and brackets: a number, or a text. -/
def plain (text : List Char) : Setting :=
  let text := Text.trimChars text
  if Text.isFractional text || Text.isInteger text then .number
  else .text (String.ofList text)

def key (cs : List Char) : Option (String × List Char) :=
  match cs with
  | '"' :: rest => quotedText rest
  | cs =>
    match cs.takeWhile isKeyChar with
    | [] => none
    | name => some (String.ofList name, cs.dropWhile isKeyChar)

mutual

/-- The value that the text begins with, and what follows it after blanks. -/
def value : Nat → List Char → Option (Setting × List Char)
  | 0, _ => none
  | fuel + 1, cs =>
    let found : Option (Setting × List Char) := match skipSpace cs with
      | 't' :: 'r' :: 'u' :: 'e' :: rest => some (.flag true, rest)
      | 'f' :: 'a' :: 'l' :: 's' :: 'e' :: rest => some (.flag false, rest)
      | '"' :: rest => (quotedText rest).map fun (text, rest) => (.text text, rest)
      | '\'' :: rest => (character rest).map fun (c, rest) => (.text (String.singleton c), rest)
      | '[' :: rest => (items fuel rest).map fun (list, rest) => (.list list, rest)
      | '{' :: rest => (entries fuel [] rest).map fun (table, rest) => (.table table, rest)
      | cs =>
        let text := cs.takeWhile fun c => !isSeparator c
        some (plain text, cs.drop text.length)
    found.map fun (setting, rest) => (setting, skipSpace rest)

/-- The items of a list up to the closing bracket. A comma may stand before the bracket. -/
def items : Nat → List Char → Option (List Setting × List Char)
  | 0, _ => none
  | fuel + 1, cs =>
    match cs with
    | ']' :: rest => some ([], rest)
    | cs => (value fuel cs).bind fun (item, rest) =>
      match rest with
      | ',' :: rest => (items fuel rest).map fun (list, rest) => (item :: list, rest)
      | ']' :: rest => some ([item], rest)
      | _ => none

/-- The entries of a table up to the closing brace, put into `table`. -/
def entries : Nat → List (String × Setting) → List Char →
    Option (List (String × Setting) × List Char)
  | 0, _, _ => none
  | fuel + 1, table, cs =>
    match cs with
    | '}' :: rest => some (table, rest)
    | cs => (key (skipSpace cs)).bind fun (name, rest) =>
      match skipSpace rest with
      | '=' :: rest => (value fuel rest).bind fun (setting, rest) =>
        let table := Entries.put name setting table
        match rest with
        | ',' :: rest => entries fuel table rest
        | '}' :: rest => some (table, rest)
        | _ => none
      | _ => none

end

/-- The setting of a value. Every part takes a character at least, which bounds the fuel. -/
def setting (text : String) : Setting :=
  let cs := text.toList
  match value (2 * cs.length + 2) cs with
  | some (setting, []) => setting
  | _ => .text text

/-- The text with a point for every two underscores. -/
def pointed : List Char → List Char
  | '_' :: '_' :: rest => '.' :: pointed rest
  | c :: rest => c :: pointed rest
  | [] => []

/-- The path of keys that the name of a variable gives under a prefix. -/
def path? (start name : String) : Option (List String) :=
  let start := (Text.lower start).toList ++ ['_', '_']
  let name := Text.trimChars (Text.lower name).toList
  if start.isPrefixOf name then
    let keys := Text.pieces '.' (pointed (Text.trimChars (name.drop start.length)))
    if keys.any List.isEmpty then none else some (keys.map String.ofList)
  else none

/-- The settings of all variables under a prefix, later ones laid over earlier ones. -/
def settings (start : String) (environment : List (String × String)) : Setting :=
  environment.foldl (fun known (name, text) =>
    match path? start name with
    | some keys => known.overlay (Setting.nested (setting text) keys)
    | none => known) (.table [])

end InjectionPlan.Environment

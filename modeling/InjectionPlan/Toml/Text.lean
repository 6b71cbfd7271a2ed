import InjectionPlan.Text.Hex

/-!
# Texts and keys of a TOML document

The parts of a document below values: blanks, comments, line ends, the four kinds of strings,
and keys. A reader answers what it found and what follows it.
-/

namespace InjectionPlan.Toml

def skipBlanks (cs : List Char) : List Char := cs.dropWhile fun c => c == ' ' || c == '\t'

def isBeyondAscii (c : Char) : Bool := 0x80 ≤ c.toNat

/-- A character that may stand in a comment or between single quotes, the quote included. -/
def isPlainChar (c : Char) : Bool :=
  c == '\t' || (0x20 ≤ c.toNat && c.toNat ≤ 0x7e) || isBeyondAscii c

def lineEnd? : List Char → Option (List Char)
  | '\n' :: rest => some rest
  | '\r' :: '\n' :: rest => some rest
  | _ => none

def skipComment : List Char → List Char
  | '#' :: rest => rest.dropWhile isPlainChar
  | cs => cs

/-- The text after the rest of a line, where only blanks and a comment may stand. -/
def closeLine? (cs : List Char) : Option (List Char) :=
  match skipComment (skipBlanks cs) with
  | [] => some []
  | cs => lineEnd? cs

def skipLines : Nat → List Char → List Char
  | 0, cs => cs
  | fuel + 1, cs =>
    let cs := skipComment (skipBlanks cs)
    match lineEnd? cs with
    | some rest => skipLines fuel rest
    | none => cs

/-- The escapes of a character between double quotes, without the backslash. -/
def escape : List Char → Option (Char × List Char)
  | 'b' :: rest => some ('\x08', rest)
  | 't' :: rest => some ('\t', rest)
  | 'n' :: rest => some ('\n', rest)
  | 'f' :: rest => some ('\x0c', rest)
  | 'r' :: rest => some ('\r', rest)
  | '"' :: rest => some ('"', rest)
  | '\\' :: rest => some ('\\', rest)
  | 'u' :: rest => Text.hexChar? 4 rest
  | 'U' :: rest => Text.hexChar? 8 rest
  | _ => none

/-- Skips blanks and line ends of every kind. -/
def skipGap : List Char → List Char
  | ' ' :: rest => skipGap rest
  | '\t' :: rest => skipGap rest
  | '\n' :: rest => skipGap rest
  | '\r' :: '\n' :: rest => skipGap rest
  | cs => cs

/-- The characters between double quotes, up to the closing one. -/
def basicChars : Nat → List Char → Option (List Char × List Char)
  | 0, _ => none
  | fuel + 1, cs =>
    match cs with
    | '"' :: rest => some ([], rest)
    | '\\' :: rest => do
      let (c, rest) ← escape rest
      let (text, rest) ← basicChars fuel rest
      pure (c :: text, rest)
    | c :: rest => do
      if isPlainChar c then
        let (text, rest) ← basicChars fuel rest
        pure (c :: text, rest)
      else none
    | [] => none

def literalChars (cs : List Char) : Option (List Char × List Char) :=
  let inner := cs.takeWhile fun c => isPlainChar c && c != '\''
  match cs.drop inner.length with
  | '\'' :: rest => some (inner, rest)
  | _ => none

/-- A run of quotes inside a text that three of them close: the quotes that belong to the text,
and whether the text is closed. Up to two quotes may stand before the closing ones. -/
def quoteRun (length : Nat) : Nat × Bool :=
  if length < 3 then (length, false) else (min (length - 3) 2, true)

/-- The characters between three quotes of a kind, up to the closing ones. Escapes count between
double quotes only; there a backslash at the end of a line skips to the next text. -/
def longChars (quote : Char) : Nat → List Char → Option (List Char × List Char)
  | 0, _ => none
  | fuel + 1, cs =>
    match cs with
    | [] => none
    | c :: rest =>
      if c = quote then
        let length := (cs.takeWhile (· == quote)).length
        let (kept, closed) := quoteRun length
        let quotes := List.replicate kept quote
        if closed then some (quotes, cs.drop (kept + 3))
        else (longChars quote fuel (cs.drop length)).map fun (text, rest) => (quotes ++ text, rest)
      else if c = '\\' ∧ quote = '"' then
        match lineEnd? (skipBlanks rest) with
        | some rest => longChars quote fuel (skipGap rest)
        | none => do
          let (c, rest) ← escape rest
          let (text, rest) ← longChars quote fuel rest
          pure (c :: text, rest)
      else match lineEnd? cs with
        | some rest => (longChars quote fuel rest).map fun (text, rest) => ('\n' :: text, rest)
        | none =>
          if isPlainChar c then
            (longChars quote fuel rest).map fun (text, rest) => (c :: text, rest)
          else none

/-- A text between three quotes of a kind. A line end after the opening quotes is left out. -/
def longText (quote : Char) (cs : List Char) : Option (String × List Char) :=
  (longChars quote (cs.length + 1) ((lineEnd? cs).getD cs)).map fun (text, rest) =>
    (String.ofList text, rest)

def lineText? : List Char → Option (Option (String × List Char))
  | '"' :: rest =>
    some ((basicChars (rest.length + 1) rest).map fun (text, rest) => (String.ofList text, rest))
  | '\'' :: rest =>
    some ((literalChars rest).map fun (text, rest) => (String.ofList text, rest))
  | _ => none

def text? : List Char → Option (Option (String × List Char))
  | '"' :: '"' :: '"' :: rest => some (longText '"' rest)
  | '\'' :: '\'' :: '\'' :: rest => some (longText '\'' rest)
  | cs => lineText? cs

def isKeyChar (c : Char) : Bool := c.isAlphanum || c == '_' || c == '-'

def keyPart (cs : List Char) : Option (String × List Char) :=
  match lineText? cs with
  | some found => found
  | none =>
    match cs.takeWhile isKeyChar with
    | [] => none
    | name => some (String.ofList name, cs.drop name.length)

/-- The parts of a key that points separate, with blanks around them, at most so many. -/
def keyParts : Nat → List Char → Option (List String × List Char)
  | 0, _ => none
  | limit + 1, cs => do
    let (part, rest) ← keyPart (skipBlanks cs)
    match skipBlanks rest with
    | '.' :: rest => do
      let (parts, rest) ← keyParts limit rest
      pure (part :: parts, rest)
    | rest => pure ([part], rest)

/-- The most parts that a key may have. -/
def longestKey : Nat := 79

/-- A key: the parts before the last one, and the last one. -/
def key (cs : List Char) : Option ((List String × String) × List Char) := do
  let (parts, rest) ← keyParts longestKey cs
  match parts.getLast? with
  | some last => pure ((parts.dropLast, last), rest)
  | none => none

end InjectionPlan.Toml

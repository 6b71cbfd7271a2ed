import InjectionPlan.Source.Snapshot

/-!
# Drafting a snapshot

A draft grows by one type or one declaration at a time. Each new type gets the next handle.
Composite types take their text from the types they are made of, as those stand at that time.
-/

namespace InjectionPlan

/-- A snapshot in the making. -/
structure Draft where
  snapshot : Snapshot := {}
  deriving DecidableEq

namespace Draft

/-- The handle of the next type; past the last handle it is the last one. -/
def nextId (draft : Draft) : TypeId :=
  ⟨(min draft.snapshot.types.length (UInt32.size - 1)).toUInt32⟩

def add (draft : Draft) (entry : TypeEntry) : TypeId × Draft :=
  (draft.nextId,
    ⟨{ draft.snapshot with types := draft.snapshot.types ++ [entry] }⟩)

/-- The text of a type, empty beyond the table. -/
def text (draft : Draft) (ty : TypeId) : String :=
  ((draft.snapshot.entry? ty).map TypeEntry.text).getD ""

/-- A type that is only a text: primitive or structural. -/
def plain (draft : Draft) (text : String) : TypeId × Draft := draft.add { text }

def named (draft : Draft) (name : String) (kind : SymbolKind) (file : String) : TypeId × Draft :=
  draft.add { text := name, symbol := some ⟨name, kind, some file⟩ }

def typeParameter (draft : Draft) (name : String) : TypeId × Draft :=
  draft.add { text := name, symbol := some ⟨name, .typeParameter, none⟩ }

def commaSeparated (texts : List String) : String := ", ".intercalate texts

/-- A generic type with arguments. It has the name and the present bases of the generic type. -/
def instantiate (draft : Draft) (generic : TypeId) (arguments : List TypeId) : TypeId × Draft :=
  let entry := (draft.snapshot.entry? generic).getD { text := "" }
  let inner := commaSeparated (arguments.map draft.text)
  draft.add {
    text := entry.text ++ "<" ++ inner ++ ">"
    symbol := entry.symbol
    arguments := arguments
    bases := entry.bases }

/-- A structural type with one signature. -/
def callable (draft : Draft) (signature : Signature) : TypeId × Draft :=
  let parameter (p : Parameter) : String := p.name ++ ": " ++ draft.text p.type
  let inner := commaSeparated (signature.parameters.map parameter)
  draft.add {
    text := "(" ++ inner ++ ") => " ++ draft.text signature.returns
    signatures := [signature] }

/-- Changes the entry of a type; beyond the table nothing happens. -/
def modify (draft : Draft) (ty : TypeId) (change : TypeEntry → TypeEntry) : Draft :=
  ⟨{ draft.snapshot with types := draft.snapshot.types.modify ty.index change }⟩

def setBases (draft : Draft) (ty : TypeId) (bases : List TypeId) : Draft :=
  draft.modify ty fun entry => { entry with bases }

def addSignature (draft : Draft) (ty : TypeId) (signature : Signature) : Draft :=
  draft.modify ty fun entry => { entry with signatures := entry.signatures ++ [signature] }

def declare (draft : Draft) (declaration : Declaration) : Draft :=
  ⟨{ draft.snapshot with declarations := draft.snapshot.declarations ++ [declaration] }⟩

end Draft

end InjectionPlan

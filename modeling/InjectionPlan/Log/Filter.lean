import InjectionPlan.Log
import InjectionPlan.Text.Decimal
import InjectionPlan.Text.Name

/-!
# Log filters

A filter is a list of directives. A directive says how important an event must be to be kept, for
all events or for those of some components. Of the directives that speak of an event the most
specific one decides, and of several that are alike the last.
-/

namespace InjectionPlan

/-- How important events must be, and which events are meant. -/
structure LogDirective where
  /-- What the path of the component begins with. -/
  target : Option String := none
  /-- A field that the event must have. -/
  field : Option String := none
  /-- Only events inside a span are meant. No event lies in one. -/
  inSpan : Bool := false
  /-- The least important level, or none for no event at all. -/
  least : Option LogLevel := some .trace
  deriving DecidableEq

namespace LogDirective

def words : List (String × Option LogLevel) :=
  [("off", none), ("error", some .error), ("warn", some .warn), ("info", some .info),
    ("debug", some .debug), ("trace", some .trace)]

def numbers : List (Option LogLevel) :=
  [none, some .error, some .warn, some .info, some .debug, some .trace]

def level? (cs : List Char) : Option (Option LogLevel) :=
  let digits := if cs.head? = some '+' then cs.tail else cs
  if Text.isDigits digits then numbers[Text.decimalValue digits]?
  else (words.find? fun (word, _) => Text.sameButCase word (String.ofList cs)).map Prod.snd

/-- The directive with the level of a text; without a text every level is meant. -/
def withLevel (directive : LogDirective) (cs : List Char) : Option LogDirective :=
  if cs.isEmpty then some directive
  else (level? cs).map fun least => { directive with least }

def opens (c : Char) : Bool :=
  c == '[' || c == '-' || c == ':' || c == '_' || Text.isLetter c || Text.isNumeral c

/-- The directive of a text: a target, a span or a field in brackets, an equals sign and a
level, where parts may be missing. The form is that of the text without blanks around it, but
the parts are taken from the text itself at the same positions, so a blank before or behind a
part belongs to it. -/
def ofChars? (cs : List Char) : Option LogDirective :=
  let form := Text.trimChars cs
  let part (start length : Nat) : String := String.ofList ((cs.drop start).take length)
  let ending (directive : LogDirective) (start : Nat) : Option LogDirective :=
    match form.drop start with
    | [] => some directive
    | '=' :: _ => directive.withLevel (cs.drop (start + 1))
    | _ => none
  let size := (form.takeWhile fun c => c != '=' && c != '[').length
  let target := if size = 0 then none else some (part 0 size)
  if !form.head?.any opens then none
  else match form.drop size with
    | [] => match level? cs with
      | some least => some { least }
      | none => some { target := String.ofList cs }
    | '[' :: rest =>
      let span := rest.takeWhile fun c => c != ']' && c != '\x7b'
      let stop := size + 1 + span.length
      match form.drop stop with
      | ']' :: _ => ending { target, inSpan := true } (stop + 1)
      | _ :: rest =>
        let length := (rest.takeWhile fun c => c != '\x7d').length
        let field := part (stop + 1) length
        let inSpan := !span.isEmpty || field.contains '='
        match rest.drop length with
        | '\x7d' :: ']' :: _ =>
          if length = 0 then none else ending { target, field, inSpan } (stop + length + 3)
        | _ => none
      | [] => none
    | _ => ending { target } size

def concerns (directive : LogDirective) (event : Event) : Bool :=
  !directive.inSpan &&
    directive.target.all (fun target => target.toList.isPrefixOf event.component.path.toList) &&
    directive.field.all fun field => field ∈ "message" :: event.fields.map Prod.fst

/-- The length of the target, which counts more than a field. -/
def targetSize (directive : LogDirective) : Nat :=
  (directive.target.map fun target => target.utf8ByteSize + 1).getD 0

/-- The directive is not less specific than another one. -/
def outranks (directive other : LogDirective) : Bool :=
  other.targetSize < directive.targetSize ||
    (other.targetSize = directive.targetSize &&
      !(directive.field.getD "" < other.field.getD ""))

def admits (directive : LogDirective) (event : Event) : Bool :=
  directive.least.any fun least => event.level.rank ≤ least.rank

end LogDirective

structure LogFilter where
  directives : List LogDirective
  deriving DecidableEq

namespace LogFilter

/-- The variable that gives a filter and overrides the configuration. -/
def variableName : String := "DIWIRE_LOG"

/-- The filter of some directives. Without any, errors are kept. -/
def ofDirectives : List LogDirective → LogFilter
  | [] => ⟨[{ least := some .error }]⟩
  | directives => ⟨directives⟩

def pieces (text : String) : List (List Char) :=
  (Text.pieces ',' text.toList).filter fun piece => !piece.isEmpty

def ofText? (text : String) : Option LogFilter :=
  ((pieces text).mapM LogDirective.ofChars?).map ofDirectives

/-- The filter of a text without the directives that cannot be read. -/
def ofReadable (text : String) : LogFilter :=
  ofDirectives ((pieces text).filterMap LogDirective.ofChars?)

/-- The filter of a run: that of the variable if it can be read, and else that of the configured
level. -/
def choose (environment : List (String × String)) (logging : LogConfig) : LogFilter :=
  ((environment.lookup variableName).bind ofText?).getD (ofReadable logging.level)

def deciding? (filter : LogFilter) (event : Event) : Option LogDirective :=
  (filter.directives.filter fun directive => directive.concerns event).foldl
    (fun best directive =>
      if best.all directive.outranks then some directive else best) none

def admits (filter : LogFilter) (event : Event) : Bool :=
  (filter.deciding? event).any fun directive => directive.admits event

end LogFilter

end InjectionPlan

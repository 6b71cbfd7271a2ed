import InjectionPlan.Run

/-!
# The command line

What the arguments of a command ask for. Arguments are read from left to right, and the first one
that cannot be used, or that asks for help or the version, decides.
-/

namespace InjectionPlan

inductive ValueOption where
  | snapshot
  | config
  | output
  deriving DecidableEq

inductive Flag where
  | pretty
  | compact
  | summary
  deriving DecidableEq

inductive UsageError where
  | noSnapshot
  | noValue (option : ValueOption)
  | givenTwice (name : String)
  /-- The plan cannot be both indented and on one line. -/
  | conflict
  | unexpected (argument : String)
  deriving DecidableEq

namespace ValueOption

def name : ValueOption → String
  | .snapshot => "snapshot"
  | .config => "config"
  | .output => "output"

def ofLetter? : Char → Option ValueOption
  | 's' => some .snapshot
  | 'c' => some .config
  | 'o' => some .output
  | _ => none

end ValueOption

namespace Flag

def name : Flag → String
  | .pretty => "pretty"
  | .compact => "compact"
  | .summary => "summary"

end Flag

def usage : String :=
  "Usage: diwire [--config <FILE>] [--output <FILE>] [--pretty | --compact] [--summary] " ++
    "--snapshot <FILE>\n"

def UsageError.message : UsageError → String
  | .noSnapshot => "error: --snapshot is required\n" ++ usage
  | .noValue option => s!"error: --{option.name} needs a value\n" ++ usage
  | .givenTwice name => s!"error: --{name} is given twice\n" ++ usage
  | .conflict => "error: --pretty and --compact exclude each other\n" ++ usage
  | .unexpected argument => s!"error: unexpected argument '{argument}'\n" ++ usage

inductive Argument where
  /-- The end of the options. -/
  | separator
  | version
  | help
  | flag (flag : Flag)
  /-- An option whose value stands in the same argument, or else in the next one. -/
  | valued (option : ValueOption) (value : Option String)
  | other
  deriving DecidableEq

namespace Argument

/-- The argument that begins with two dashes, by its name and the text after an equals sign. -/
def ofName (name : String) (value : Option String) : Argument :=
  match name, value with
  | "snapshot", value => .valued .snapshot value
  | "config", value => .valued .config value
  | "output", value => .valued .output value
  | "pretty", none => .flag .pretty
  | "compact", none => .flag .compact
  | "summary", none => .flag .summary
  | "version", none => .version
  | "help", none => .help
  | _, _ => .other

/-- The argument that begins with one dash, by its letter and the text after it. An equals sign
may stand before a value. -/
def ofLetter (letter : Char) (rest : List Char) : Argument :=
  match letter, ValueOption.ofLetter? letter with
  | _, some option =>
    match rest with
    | [] => .valued option none
    | '=' :: value => .valued option (some (String.ofList value))
    | value => .valued option (some (String.ofList value))
  | 'V', none => .version
  | 'h', none => .help
  | _, none => .other

def ofText (text : String) : Argument :=
  match text.toList with
  | ['-', '-'] => .separator
  | '-' :: '-' :: rest =>
    let name := rest.takeWhile (· ≠ '=')
    let value := match rest.dropWhile (· ≠ '=') with
      | _ :: value => some (String.ofList value)
      | [] => none
    ofName (String.ofList name) value
  | '-' :: letter :: rest => ofLetter letter rest
  | _ => .other

end Argument

structure Given where
  values : List (ValueOption × String) := []
  flags : List Flag := []
  deriving DecidableEq

inductive Invocation where
  | version
  | help
  /-- A run, with the file of the configuration if one is asked for. -/
  | run (options : RunOptions) (config : Option String)
  deriving DecidableEq

namespace Given

def value? (given : Given) (option : ValueOption) : Option String := given.values.lookup option

/-- Adds a value. A value is not empty, and no option is given twice. -/
def withValue (given : Given) (option : ValueOption) (value : String) : Except UsageError Given :=
  if value = "" then .error (.noValue option)
  else if (given.value? option).isSome then .error (.givenTwice option.name)
  else .ok { given with values := (option, value) :: given.values }

def withFlag (given : Given) (flag : Flag) : Except UsageError Given :=
  if flag ∈ given.flags then .error (.givenTwice flag.name)
  else .ok { given with flags := flag :: given.flags }

def pretty? (given : Given) : Option Bool :=
  if .pretty ∈ given.flags then some true
  else if .compact ∈ given.flags then some false
  else none

def invocation (given : Given) : Except UsageError Invocation :=
  if .pretty ∈ given.flags ∧ .compact ∈ given.flags then .error .conflict
  else
    match given.value? .snapshot with
    | none => .error .noSnapshot
    | some snapshot =>
      let options : RunOptions :=
        ⟨snapshot, given.value? .output, given.pretty?, .summary ∈ given.flags⟩
      .ok (.run options (given.value? .config))

end Given

namespace Invocation

/-- A separate value may be a lone dash, and otherwise begins with another character. -/
def standsAlone (text : String) : Bool := text.toList.head? ≠ some '-' || text = "-"

def readOn : List String → Given → Except UsageError Invocation
  | [], given => given.invocation
  | argument :: rest, given =>
    match Argument.ofText argument with
    | .version => .ok .version
    | .help => .ok .help
    | .flag flag => (given.withFlag flag).bind (readOn rest)
    | .valued option (some value) => (given.withValue option value).bind (readOn rest)
    | .valued option none =>
      match rest with
      | [] => .error (.noValue option)
      | value :: rest =>
        if standsAlone value then (given.withValue option value).bind (readOn rest)
        else .error (.noValue option)
    | .separator =>
      match rest with
      | [] => given.invocation
      | extra :: _ => .error (.unexpected extra)
    | .other => .error (.unexpected argument)

def ofArguments (arguments : List String) : Except UsageError Invocation := readOn arguments {}

end Invocation

end InjectionPlan

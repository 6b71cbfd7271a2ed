import InjectionPlan.Config.Setting
import InjectionPlan.Text.Decimal
import InjectionPlan.Text.Hex
import InjectionPlan.Text.Name

/-!
# Plain values of a TOML document

Truth values, numbers, dates and times are written without quotes. Each is one run of
characters; only between a date and a time a blank may stand.
-/

namespace InjectionPlan.Toml

def isScalarChar (c : Char) : Bool :=
  c.isAlphanum || c == '_' || c == '.' || c == '+' || c == '-' || c == ':'

/-- Digits, where single underscores may stand between them. -/
def isGrouped (isDigit : Char → Bool) (cs : List Char) : Bool :=
  (Text.pieces '_' cs).all fun piece => !piece.isEmpty && piece.all isDigit

def ungrouped (cs : List Char) : List Char := cs.filter (· ≠ '_')

/-- A decimal integer without sign. A leading zero stands alone. -/
def isDecimal (cs : List Char) : Bool :=
  isGrouped Char.isDigit cs && (cs.head? ≠ some '0' || cs.length = 1)

def valueIn (base : Nat) (digits : List Char) : Nat :=
  digits.foldl (fun n c => base * n + (Text.hexValue? c).getD 0) 0

/-- An integer of 64 bits, with a sign or to another base than ten. -/
def isInteger : List Char → Bool
  | '0' :: 'x' :: cs => based 16 cs
  | '0' :: 'o' :: cs => based 8 cs
  | '0' :: 'b' :: cs => based 2 cs
  | '-' :: cs => isDecimal cs && Text.decimalValue (ungrouped cs) ≤ UInt64.size / 2
  | '+' :: cs => isDecimal cs && Text.decimalValue (ungrouped cs) < UInt64.size / 2
  | cs => isDecimal cs && Text.decimalValue (ungrouped cs) < UInt64.size / 2
where
  /-- Digits to a base, of a value that fits. -/
  based (base : Nat) (cs : List Char) : Bool :=
    isGrouped (fun c => (Text.hexValue? c).any (· < base)) cs &&
      valueIn base (ungrouped cs) < UInt64.size / 2

def exponent? : List Char → Option (Bool × List Char)
  | '-' :: cs => if isGrouped Char.isDigit cs then some (true, ungrouped cs) else none
  | '+' :: cs => if isGrouped Char.isDigit cs then some (false, ungrouped cs) else none
  | cs => if isGrouped Char.isDigit cs then some (false, ungrouped cs) else none

/-- The least number that is rounded to infinity in double precision: it lies half a unit above
the largest finite one. -/
def infinityBound : Nat := Nat.pow 2 1024 - Nat.pow 2 970

/-- A number is rounded to infinity in double precision. The number of its digits decides unless
it is near the bound, which has 309 digits. -/
def isTooLarge (whole fraction : List Char) (exponent : Option (Bool × List Char)) : Bool :=
  let significand := Text.decimalValue (whole ++ fraction)
  let shift : Int := match exponent with
    | none => 0
    | some (true, digits) => -(Text.decimalValue digits : Int)
    | some (false, digits) => Text.decimalValue digits
  let scale : Int := shift - fraction.length
  let size : Int := scale + (Nat.toDigits 10 significand).length
  if significand = 0 || size < 309 then false
  else if size > 309 then true
  else
    significand * Nat.pow 10 scale.toNat ≥ infinityBound * Nat.pow 10 (-scale).toNat

/-- A number with a point or an exponent, without its sign. A positive one must not be too
large. -/
def isFraction (negative : Bool) (cs : List Char) : Bool :=
  let isMark (c : Char) : Bool := c == 'e' || c == 'E'
  let whole := cs.takeWhile fun c => c != '.' && !isMark c
  let afterWhole := cs.drop whole.length
  let fits (fraction : List Char) (exponent : Option (Bool × List Char)) : Bool :=
    negative || !isTooLarge (ungrouped whole) (ungrouped fraction) exponent
  let close (fraction : List Char) : List Char → Bool
    | [] => fits fraction none
    | _ :: rest => match exponent? rest with
      | some exponent => fits fraction (some exponent)
      | none => false
  isDecimal whole && match afterWhole with
    | [] => false
    | '.' :: rest =>
      let fraction := rest.takeWhile fun c => !isMark c
      isGrouped Char.isDigit fraction && close fraction (rest.drop fraction.length)
    | rest => close [] rest

def isFloat (cs : List Char) : Bool :=
  let unsigned := Text.dropSign cs
  unsigned = ['i', 'n', 'f'] || unsigned = ['n', 'a', 'n'] ||
    isFraction (cs.head? = some '-') unsigned

/-- The number of two digits, if it lies in a range. -/
def twoDigits? (low high : Nat) (a b : Char) : Option Nat :=
  if a.isDigit && b.isDigit then
    let n := Text.decimalValue [a, b]
    if low ≤ n ∧ n ≤ high then some n else none
  else none

def daysIn (year month : Nat) : Nat :=
  if month = 2 then
    if year % 4 = 0 ∧ (year % 100 ≠ 0 ∨ year % 400 = 0) then 29 else 28
  else if month = 4 ∨ month = 6 ∨ month = 9 ∨ month = 11 then 30
  else 31

def afterDate? : List Char → Option (List Char)
  | y₁ :: y₂ :: y₃ :: y₄ :: '-' :: m₁ :: m₂ :: '-' :: d₁ :: d₂ :: rest => do
    if [y₁, y₂, y₃, y₄].all Char.isDigit then
      let month ← twoDigits? 1 12 m₁ m₂
      let day ← twoDigits? 1 31 d₁ d₂
      if day ≤ daysIn (Text.decimalValue [y₁, y₂, y₃, y₄]) month then some rest else none
    else none
  | _ => none

def afterTime? : List Char → Option (List Char)
  | h₁ :: h₂ :: ':' :: m₁ :: m₂ :: ':' :: s₁ :: s₂ :: rest => do
    let _ ← twoDigits? 0 23 h₁ h₂
    let _ ← twoDigits? 0 59 m₁ m₂
    let _ ← twoDigits? 0 60 s₁ s₂
    match rest with
    | '.' :: rest =>
      if (rest.takeWhile Char.isDigit).isEmpty then none else some (rest.dropWhile Char.isDigit)
    | rest => some rest
  | _ => none

def isOffset : List Char → Bool
  | [] => true
  | ['Z'] => true
  | ['z'] => true
  | [sign, h₁, h₂, ':', m₁, m₂] =>
    (sign == '+' || sign == '-') && (twoDigits? 0 23 h₁ h₂).isSome &&
      (twoDigits? 0 59 m₁ m₂).isSome
  | _ => false

def isZonedTime (cs : List Char) : Bool := (afterTime? cs).any isOffset

/-- A date, a time of day, or both. -/
def isMoment (cs : List Char) : Bool :=
  match afterDate? cs with
  | some [] => true
  | some (c :: rest) => (c == 'T' || c == 't') && isZonedTime rest
  | none => afterTime? cs = some []

/-- The value of a run of characters. A moment has no settings in it. -/
def scalar? (cs : List Char) : Option Setting :=
  if cs = ['t', 'r', 'u', 'e'] then some (.flag true)
  else if cs = ['f', 'a', 'l', 's', 'e'] then some (.flag false)
  else if isMoment cs then some (.table [])
  else if isInteger cs || isFloat cs then some .number
  else none

/-- The time of day that follows a date after a blank, left out of the text. -/
def dropTime : List Char → List Char
  | ' ' :: rest =>
    let time := rest.takeWhile isScalarChar
    if isZonedTime time then rest.drop time.length else ' ' :: rest
  | rest => rest

def scalar (cs : List Char) : Option (Setting × List Char) :=
  let run := cs.takeWhile isScalarChar
  let rest := cs.drop run.length
  (scalar? run).map fun setting =>
    (setting, if afterDate? run = some [] then dropTime rest else rest)

end InjectionPlan.Toml

/-!
# Decimal numerals in plain text

Whether a text is a number in the plain notation of integers and of floating-point numbers.
-/

namespace InjectionPlan.Text

def dropSign : List Char → List Char
  | '+' :: rest => rest
  | '-' :: rest => rest
  | cs => cs

def decimalValue (digits : List Char) : Nat :=
  digits.foldl (fun n c => 10 * n + (c.toNat - '0'.toNat)) 0

/-- Digits, at least one. -/
def isDigits (cs : List Char) : Bool := !cs.isEmpty && cs.all Char.isDigit

/-- An integer of 64 bits, signed or unsigned. -/
def isInteger (cs : List Char) : Bool :=
  isDigits (dropSign cs) &&
    decimalValue (dropSign cs) ≤ (if cs.head? = some '-' then UInt64.size / 2 else UInt64.size - 1)

/-- An exponent, or nothing. -/
def isExponent : List Char → Bool
  | [] => true
  | c :: rest => (c == 'e' || c == 'E') && isDigits (dropSign rest)

/-- A number with a point and an exponent that may be missing. On one side of the point a digit
must stand. -/
def isFractional (cs : List Char) : Bool :=
  let unsigned := dropSign cs
  let whole := unsigned.takeWhile Char.isDigit
  match unsigned.dropWhile Char.isDigit with
  | '.' :: rest =>
    !(whole.isEmpty && (rest.takeWhile Char.isDigit).isEmpty) &&
      isExponent (rest.dropWhile Char.isDigit)
  | _ => false

end InjectionPlan.Text

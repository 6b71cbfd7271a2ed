import InjectionPlan.Text.Decimal

/-!
# Number literals

A JSON number is kept as it is written. Two questions are asked of it: whether it is the
literal of a 32-bit word, and whether it lies beyond the range of double precision.
-/

namespace InjectionPlan.Json

/-- A number as it is written: digits before and after the point, and the exponent. -/
structure Number where
  negative : Bool
  whole : List Char
  fraction : List Char
  /-- The sign of the exponent, true for a minus, and its digits. -/
  exponent : Option (Bool × List Char)
  deriving DecidableEq

namespace Number

def ofNat (n : Nat) : Number := ⟨false, Nat.toDigits 10 n, [], none⟩

def word? (n : Number) : Option UInt32 :=
  if n.negative || !n.fraction.isEmpty || n.exponent.isSome then none
  else
    let value := Text.decimalValue n.whole
    if value < UInt32.size then some value.toUInt32 else none

/-- Nearest number with 53 significant bits, a tie going to the even neighbour. -/
def round53 (n : Nat) : Nat :=
  let excess := n.log2 + 1 - 53
  let unit := Nat.pow 2 excess
  let quotient := n / unit
  let twice := 2 * (n % unit)
  if twice > unit || (twice = unit && quotient % 2 = 1) then (quotient + 1) * unit
  else quotient * unit

/-- The leading digits that fit into 64 bits, and how many digits follow them. -/
def leading (digits : List Char) : Nat × Nat :=
  digits.foldl (fun (kept, dropped) c =>
    let next := 10 * kept + (c.toNat - '0'.toNat)
    if dropped = 0 && next < UInt64.size then (next, 0) else (kept, dropped + 1)) (0, 0)

/-- The number is too large for double precision. The significand and the power of ten are
each rounded before they are multiplied. -/
def isBeyondDouble (n : Number) : Bool :=
  let (significand, dropped) := leading (n.whole ++ n.fraction)
  let shift : Int := match n.exponent with
    | none => 0
    | some (true, digits) => -(Text.decimalValue digits : Int)
    | some (false, digits) => Text.decimalValue digits
  let scale : Int := shift + dropped - n.fraction.length
  if significand = 0 || scale < 0 then false
  else if scale > 308 then true
  else round53 (round53 significand * round53 (Nat.pow 10 scale.toNat)) ≥ Nat.pow 2 1024

end Number

end InjectionPlan.Json

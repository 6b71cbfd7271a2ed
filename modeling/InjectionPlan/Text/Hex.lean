/-!
# Hexadecimal escapes

Characters given by the hexadecimal digits of their code point.
-/

namespace InjectionPlan.Text

def hexValue? (c : Char) : Option Nat :=
  if '0' ≤ c ∧ c ≤ '9' then some (c.toNat - '0'.toNat)
  else if 'a' ≤ c ∧ c ≤ 'f' then some (c.toNat - 'a'.toNat + 10)
  else if 'A' ≤ c ∧ c ≤ 'F' then some (c.toNat - 'A'.toNat + 10)
  else none

def hexNumber? (digits : List Char) : Option Nat :=
  digits.foldl (fun n c => match n, hexValue? c with
    | some n, some d => some (16 * n + d)
    | _, _ => none) (some 0)

/-- The character of a code point. Halves of surrogate pairs are none. -/
def charOf? (code : Nat) : Option Char :=
  if h : code.isValidChar then some (Char.ofNatAux code h) else none

/-- The character that the first so many hexadecimal digits give, and what follows them. -/
def hexChar? (count : Nat) (cs : List Char) : Option (Char × List Char) :=
  if (cs.take count).length < count then none
  else match (hexNumber? (cs.take count)).bind charOf? with
    | some c => some (c, cs.drop count)
    | none => none

end InjectionPlan.Text

/-!
# Letter case

Words of a fixed vocabulary are compared without regard to the case of ASCII letters. No other
letter becomes a letter of such a word when its case is lowered: the one that becomes an ASCII
letter alone is the Kelvin sign, and no word here has a `k`.
-/

namespace InjectionPlan.Text

/-- The text with its ASCII letters in lower case. -/
def lower (s : String) : String := String.ofList (s.toList.map Char.toLower)

/-- The texts differ at most in the case of ASCII letters. -/
def sameButCase (a b : String) : Bool := lower a == lower b

end InjectionPlan.Text

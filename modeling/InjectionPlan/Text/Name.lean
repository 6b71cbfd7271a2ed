import InjectionPlan.Text.Letter
import InjectionPlan.Text.Numeral

/-!
# Dotted names

A name is a letter, an underscore or a dollar sign, followed by any number of those and of
numerals. A dotted name is one or more names joined by single dots.
-/

namespace InjectionPlan.Text

/-- The pieces between the separators; a text without a separator is one piece. -/
def pieces (separator : Char) : List Char → List (List Char)
  | [] => [[]]
  | c :: cs =>
    if c = separator then [] :: pieces separator cs
    else match pieces separator cs with
      | [] => [[c]]
      | piece :: rest => (c :: piece) :: rest

def opensName (c : Char) : Bool := isLetter c || c == '_' || c == '$'

def continuesName (c : Char) : Bool := opensName c || isNumeral c

def isName : List Char → Bool
  | [] => false
  | c :: cs => opensName c && cs.all continuesName

/-- One or more names joined by single dots. -/
def isDottedName (s : String) : Bool := (pieces '.' s.toList).all isName

theorem pieces_ne_nil (separator : Char) (cs : List Char) : pieces separator cs ≠ [] := by
  cases cs with
  | nil => simp [pieces]
  | cons c cs =>
    simp only [pieces]
    split
    · simp
    · split <;> simp

theorem pieces_append_cons (separator : Char) (a b : List Char) :
    pieces separator (a ++ separator :: b) = pieces separator a ++ pieces separator b := by
  induction a with
  | nil => simp [pieces]
  | cons c a ih =>
    simp only [List.cons_append, pieces, ih]
    split
    · simp
    · cases h : pieces separator a with
      | nil => exact absurd h (pieces_ne_nil separator a)
      | cons piece rest => simp

end InjectionPlan.Text

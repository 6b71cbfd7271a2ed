import InjectionPlan.Proofs.JsonLayouts

/-!
# Reading back what is written

The reader finds in the text of a value, in any layout, the tree of the value. The tree is given
outright, so that decoders are proved about trees and never about texts.
-/

namespace InjectionPlan.Json

/-! ## The tree of a value -/

namespace Value

/-- A character as it is read back: one that is written as its code stays a code. -/
def unitOf (c : Char) : CodeUnit :=
  if c ∈ shortEscaped ∨ 0x20 ≤ c.toNat then .char c else .escaped c.toNat

def unitsOf (text : String) : List CodeUnit := text.toList.map unitOf

mutual

def tree : Value → Tree
  | .null => .null
  | .bool b => .bool b
  | .number n => .number (.ofNat n)
  | .string text => .string (unitsOf text)
  | .array items => .array (itemTrees items) none
  | .object members => .object (memberTrees members) none

def itemTrees : List Value → List Tree
  | [] => []
  | item :: rest => tree item :: itemTrees rest

def memberTrees : List (String × Value) → List (Tree × Tree)
  | [] => []
  | (key, value) :: rest => (.string (unitsOf key), tree value) :: memberTrees rest

end

/-! ## Strings -/

theorem chars?_unitOf_cons (c : Char) (rest : List CodeUnit) :
    CodeUnit.chars? (unitOf c :: rest) = (CodeUnit.chars? rest).map (c :: ·) := by
  unfold unitOf
  split
  case isTrue => rw [CodeUnit.chars?]
  case isFalse h =>
    obtain ⟨-, hlt⟩ := not_or.mp h
    -- A control character is no half of a surrogate pair, whatever follows it.
    have hlead : CodeUnit.isLead c.toNat = false := by simp [CodeUnit.isLead]; omega
    have htrail : CodeUnit.isTrail c.toNat = false := by simp [CodeUnit.isTrail]; omega
    have hc : Char.ofNat c.toNat = c := Char.ofNat_toNat c
    match rest with
    | [] => simp [CodeUnit.chars?, hlead, htrail, hc]
    | .char _ :: _ => simp [CodeUnit.chars?, hlead, htrail, hc]
    | .escaped _ :: _ => simp [CodeUnit.chars?, hlead, htrail, hc]

theorem chars?_unitsOf (text : String) : CodeUnit.chars? (unitsOf text) = some text.toList := by
  unfold unitsOf
  induction text.toList with
  | nil => rfl
  | cons c cs ih => rw [List.map_cons, chars?_unitOf_cons, ih]; rfl

theorem text?_unitsOf (text : String) : Tree.text? (unitsOf text) = some text := by
  rw [Tree.text?, chars?_unitsOf]
  exact congrArg some (String.ofList_toList)

end Value

namespace Reader

open Value (unitOf unitsOf escape escape_of_mem escape_of_lt escape_of_le hexDigit shortEscaped)

theorem hexNumber?_code {n : Nat} (h : n < 0x20) :
    Text.hexNumber? ['0', '0', hexDigit (n / 16), hexDigit (n % 16)] = some n := by
  revert n
  decide

theorem units_escape (c : Char) (rest : List Char) :
    Reader.units (escape c ++ rest) =
      (unitOf c :: (Reader.units rest).1, (Reader.units rest).2) := by
  by_cases hshort : c ∈ shortEscaped
  · obtain ⟨letter, hescape, hread, hu⟩ := escape_of_mem hshort
    have hunit : unitOf c = .char c := if_pos (Or.inl hshort)
    rw [hescape, hunit]
    simp [Reader.units, hread, hu]
  · rcases Nat.lt_or_ge c.toNat 0x20 with hlt | hle
    · have hunit : unitOf c = .escaped c.toNat := if_neg (not_or.mpr ⟨hshort, by omega⟩)
      rw [escape_of_lt hshort hlt, hunit]
      simp [Reader.units, hexNumber?_code hlt]
    · have hunit : unitOf c = .char c := if_pos (Or.inr hle)
      simp only [shortEscaped, List.mem_cons, not_or] at hshort
      rw [escape_of_le (by simpa [shortEscaped] using hshort) hle, hunit]
      simp [Reader.units, hshort, Nat.not_lt.mpr hle]

theorem string_quoted (text : String) (rest : List Char) :
    string (text.toList.flatMap escape ++ '"' :: rest) = (.string (unitsOf text), some rest) := by
  have hunits : Reader.units (text.toList.flatMap escape ++ '"' :: rest) =
      (unitsOf text, .ok rest) := by
    unfold unitsOf
    induction text.toList with
    | nil => rw [List.flatMap_nil, List.nil_append, Reader.units]; rfl
    | cons c cs ih =>
      rw [List.flatMap_cons, List.append_assoc, units_escape, ih]
      rfl
  rw [string, hunits]

/-! ## Numbers and constants -/

theorem head_toDigits {n : Nat} (h : 0 < n) {c : Char} {cs : List Char}
    (hcs : Nat.toDigits 10 n = c :: cs) : c ≠ '0' := by
  induction n using Nat.strongRecOn generalizing c cs with
  | ind n ih =>
    rcases Nat.lt_or_ge n 10 with hlt | hge
    · rw [Nat.toDigits_of_lt_base hlt] at hcs
      obtain ⟨rfl, -⟩ := List.cons.inj hcs
      have hdigits : ∀ d < 10, 0 < d → d.digitChar ≠ '0' := by decide
      exact hdigits n hlt h
    · rw [Nat.toDigits_of_base_le (by decide) hge] at hcs
      obtain ⟨c', cs', hcs'⟩ := List.exists_cons_of_ne_nil (Nat.toDigits_ne_nil (n := n / 10))
      rw [hcs'] at hcs
      obtain ⟨rfl, -⟩ := List.cons.inj hcs
      exact ih (n / 10) (by omega) (by omega) hcs'

theorem exponent_of_ends (negative : Bool) (whole digits : List Char) {rest : List Char}
    (h : Layout.Ends rest) :
    exponent negative whole digits rest = (.number ⟨negative, whole, digits, none⟩, some rest) := by
  match rest with
  | [] => rfl
  | c :: rest =>
    obtain ⟨-, -, he, hE⟩ := h.head
    rw [exponent]
    · exact fun _ heq => he (List.cons.inj heq).1
    · exact fun _ heq => hE (List.cons.inj heq).1

theorem fraction_of_ends (negative : Bool) (whole : List Char) {rest : List Char}
    (h : Layout.Ends rest) :
    fraction negative whole rest = (.number ⟨negative, whole, [], none⟩, some rest) := by
  rw [fraction]
  · exact exponent_of_ends negative whole [] h
  · rintro digits rfl
    exact h.head.2.1 rfl

theorem number_toDigits (n : Nat) {rest : List Char} (h : Layout.Ends rest) :
    number false (Nat.toDigits 10 n ++ rest) = (.number (.ofNat n), some rest) := by
  rcases Nat.eq_zero_or_pos n with rfl | hpos
  · have hzero : Nat.toDigits 10 0 = ['0'] := by decide
    rw [Number.ofNat, hzero]
    match rest with
    | [] => rfl
    | c :: rest => simp [number, h.head.1, fraction_of_ends false ['0'] h]
  · obtain ⟨c, cs, hcs⟩ := List.exists_cons_of_ne_nil (Nat.toDigits_ne_nil (n := n) (b := 10))
    have hdigits : ∀ d ∈ c :: cs, d.isDigit = true := fun d hd =>
      Nat.isDigit_of_mem_toDigits (by decide) (by decide) (hcs ▸ hd)
    have hrest : rest.takeWhile Char.isDigit = [] ∧ rest.dropWhile Char.isDigit = rest := by
      match rest with
      | [] => exact ⟨rfl, rfl⟩
      | c :: rest => simp [h.head.1]
    have htake : (c :: (cs ++ rest)).takeWhile Char.isDigit = c :: cs := by
      rw [← List.cons_append, List.takeWhile_append_of_pos hdigits, hrest.1, List.append_nil]
    have hdrop : (c :: (cs ++ rest)).dropWhile Char.isDigit = rest := by
      rw [← List.cons_append, List.dropWhile_append_of_pos hdigits, hrest.2]
    rw [Number.ofNat, hcs, List.cons_append, number, htake, hdrop]
    · exact fraction_of_ends false (c :: cs) h
    · rintro _ heq
      exact head_toDigits hpos hcs (List.cons.inj heq).1

theorem constant_append (value : Tree) (name rest : List Char) :
    constant value name (name ++ rest) = (value, some rest) := by
  induction name with
  | nil => rw [List.nil_append, constant]
  | cons c name ih => rw [List.cons_append, constant, if_pos rfl, ih]

/-! ## Values -/

theorem skipSpace_append {blanks cs : List Char} (h : ∀ c ∈ blanks, isSpace c = true) :
    skipSpace (blanks ++ cs) = skipSpace cs :=
  List.dropWhile_append_of_pos h

theorem skipSpace_cons {c : Char} {cs : List Char} (h : isSpace c = false) :
    skipSpace (c :: cs) = c :: cs :=
  List.dropWhile_cons_of_neg (by simp [h])

theorem scalar_of_isDigit {c : Char} {cs : List Char} (h : c.isDigit = true) :
    scalar (c :: cs) = number false (c :: cs) := by
  rw [scalar, if_pos h]
  all_goals
    rintro rfl
    exact absurd h (by decide)

theorem value_of_head (fuel : Nat) {blanks : List Char} {c : Char} (cs : List Char)
    (hblanks : ∀ c ∈ blanks, isSpace c = true) (hspace : isSpace c = false) (hlist : c ≠ '[')
    (hobject : c ≠ '{') : value (fuel + 1) (blanks ++ c :: cs) = scalar (c :: cs) := by
  rw [value, skipSpace_append hblanks, skipSpace_cons hspace]
  split
  · next heq => exact absurd (List.cons.inj heq).1 hlist
  · next heq => exact absurd (List.cons.inj heq).1 hobject
  · rfl

theorem value_quoted (fuel : Nat) (blanks : List Char) (text : String) (rest : List Char)
    (hblanks : ∀ c ∈ blanks, isSpace c = true) :
    value (fuel + 1) (blanks ++ (Value.quoted text ++ rest)) =
      (.string (unitsOf text), some rest) := by
  rw [Value.quoted, List.cons_append, List.append_assoc, value_of_head fuel _ hblanks rfl
    (by decide) (by decide), scalar]
  exact string_quoted text rest

variable (layout : Layout)

mutual

/-- A value in any layout is read as its tree, and what follows it is left. The fuel for a part
is twice the length of its text: one for the value and one for its place in a list. -/
theorem value_chars (level : Nat) (v : Value) (fuel : Nat) (blanks : List Char) {after : List Char}
    (hblanks : ∀ c ∈ blanks, isSpace c = true) (hrest : Layout.Ends after)
    (hfuel : 2 * (layout.chars level v).length ≤ fuel) :
    value fuel (blanks ++ (layout.chars level v ++ after)) = (v.tree, some after) := by
  obtain ⟨first, others, hfirst, -⟩ := layout.exists_chars_eq level v
  obtain ⟨fuel, rfl⟩ : ∃ n, fuel = n + 1 :=
    ⟨fuel - 1, by rw [hfirst, List.length_cons] at hfuel; omega⟩
  clear hfirst
  match v with
  | .null =>
    rw [Layout.chars, List.cons_append, value_of_head fuel _ hblanks rfl (by decide) (by decide),
      scalar, constant_append, Value.tree]
  | .bool true =>
    rw [Layout.chars, List.cons_append, value_of_head fuel _ hblanks rfl (by decide) (by decide),
      scalar, constant_append, Value.tree]
  | .bool false =>
    rw [Layout.chars, List.cons_append, value_of_head fuel _ hblanks rfl (by decide) (by decide),
      scalar, constant_append, Value.tree]
  | .string text =>
    rw [Layout.chars, value_quoted fuel blanks text after hblanks, Value.tree]
  | .number n =>
    obtain ⟨c, cs, hcs, hdigit⟩ := Layout.exists_toDigits_eq n
    have hne : c ≠ '[' ∧ c ≠ '{' := by
      constructor <;> rintro rfl <;> exact absurd hdigit (by decide)
    rw [Layout.chars, hcs, List.cons_append, value_of_head fuel _ hblanks
      (Layout.isSpace_of_isDigit hdigit) hne.1 hne.2, scalar_of_isDigit hdigit,
      ← List.cons_append, ← hcs, number_toDigits n hrest, Value.tree]
  | .array [] =>
    rw [Layout.chars, List.cons_append, value, skipSpace_append hblanks, skipSpace_cons rfl]
    rfl
  | .object [] =>
    rw [Layout.chars, List.cons_append, value, skipSpace_append hblanks, skipSpace_cons rfl]
    rfl
  | .array (item :: rest) =>
    simp only [Layout.chars, List.length_cons, List.length_append] at hfuel
    obtain ⟨fuel, rfl⟩ : ∃ n, fuel = n + 1 := ⟨fuel - 1, by omega⟩
    obtain ⟨c, cs, hcs, hspace, hclose⟩ := layout.exists_chars_eq (level + 1) item
    have hitem := value_chars (level + 1) item fuel [] (fun _ h => absurd h List.not_mem_nil)
      (layout.ends_items level rest after) (by omega)
    have hitems := items_chars level rest hitem (by omega)
    rw [List.nil_append, hcs, List.cons_append] at hitems
    simp only [Layout.chars, List.cons_append, List.append_assoc, value,
      skipSpace_append hblanks, skipSpace_cons (show isSpace '[' = false from rfl),
      skipSpace_append (layout.isSpace_line (level + 1)), hcs, skipSpace_cons hspace]
    simp [hclose, hitems, Value.tree, Value.itemTrees]
  | .object ((key, member) :: rest) =>
    simp only [Layout.chars, List.length_cons, List.length_append] at hfuel
    obtain ⟨fuel, rfl⟩ : ∃ n, fuel = n + 2 := ⟨fuel - 2, by omega⟩
    have hkey := value_quoted fuel [] key
      (':' :: (layout.gap ++ (layout.chars (level + 1) member ++
        (layout.members level rest ++ after)))) (fun _ h => absurd h List.not_mem_nil)
    have hmember := value_chars (level + 1) member (fuel + 1) layout.gap layout.isSpace_gap
      (layout.ends_members level rest after) (by omega)
    have hmembers := members_chars level rest hkey hmember (by omega)
    simp only [Layout.chars, List.cons_append, List.append_assoc, value, Value.quoted,
      skipSpace_append hblanks, skipSpace_cons (show isSpace '{' = false from rfl),
      skipSpace_append (layout.isSpace_line (level + 1)),
      skipSpace_cons (show isSpace '"' = false from rfl), List.nil_append] at hmembers ⊢
    simp [hmembers, Value.tree, Value.memberTrees]

theorem items_chars (level : Nat) (rest : List Value) {fuel : Nat} {text after : List Char}
    {first : Tree} (hfirst : value fuel text = (first, some (layout.items level rest ++ after)))
    (hfuel : 2 * (layout.items level rest).length ≤ fuel) :
    items (fuel + 1) text = (first :: Value.itemTrees rest, none, some after) := by
  rw [items, hfirst]
  match rest with
  | [] =>
    simp only [Layout.items, List.append_assoc, skipSpace_append (layout.isSpace_line level)]
    rfl
  | item :: rest =>
    simp only [Layout.items, List.length_cons, List.length_append] at hfuel
    obtain ⟨fuel, rfl⟩ : ∃ n, fuel = n + 1 := ⟨fuel - 1, by omega⟩
    have hitem := value_chars (level + 1) item fuel (layout.line (level + 1))
      (layout.isSpace_line (level + 1)) (layout.ends_items level rest after) (by omega)
    have hitems := items_chars level rest hitem (by omega)
    simp only [Layout.items, List.cons_append, List.append_assoc,
      skipSpace_cons (show isSpace ',' = false from rfl), hitems, Value.itemTrees]

theorem members_chars (level : Nat) (rest : List (String × Value)) {fuel : Nat}
    {text between after : List Char} {key : String} {first : Tree}
    (hkey : value fuel text = (.string (unitsOf key), some (':' :: between)))
    (hfirst : value fuel between = (first, some (layout.members level rest ++ after)))
    (hfuel : 2 * (layout.members level rest).length ≤ fuel) :
    members (fuel + 1) text =
      ((.string (unitsOf key), first) :: Value.memberTrees rest, none, some after) := by
  rw [members, hkey]
  simp only [skipSpace_cons (show isSpace ':' = false from rfl), hfirst]
  match rest with
  | [] =>
    simp only [Layout.members, List.append_assoc, skipSpace_append (layout.isSpace_line level)]
    rfl
  | (key', member) :: rest =>
    simp only [Layout.members, List.length_cons, List.length_append] at hfuel
    obtain ⟨fuel, rfl⟩ : ∃ n, fuel = n + 2 := ⟨fuel - 2, by omega⟩
    have hkey' := value_quoted fuel (layout.line (level + 1)) key'
      (':' :: (layout.gap ++ (layout.chars (level + 1) member ++
        (layout.members level rest ++ after)))) (layout.isSpace_line (level + 1))
    have hmember := value_chars (level + 1) member (fuel + 1) layout.gap layout.isSpace_gap
      (layout.ends_members level rest after) (by omega)
    have hmembers := members_chars level rest hkey' hmember (by omega)
    simp only [Layout.members, List.cons_append, List.append_assoc,
      skipSpace_cons (show isSpace ',' = false from rfl), hmembers, Value.memberTrees]

end

end Reader

/-- A decoder finds in the text of a value what it finds in the tree of the value. -/
theorem decodeText_layout {α : Type} (decode : Tree → Except Fault α) (layout : Layout) (v : Value)
    {blanks : List Char} (hblanks : ∀ c ∈ blanks, isSpace c = true) :
    decodeText decode (String.ofList (layout.chars 0 v ++ blanks)) = decode v.tree := by
  have hvalue := Reader.value_chars layout 0 v (2 * (layout.chars 0 v ++ blanks).length + 2) []
    (fun _ h => absurd h List.not_mem_nil) (Layout.ends_of_isSpace hblanks)
    (by rw [List.length_append]; omega)
  have hrest : skipSpace blanks = [] := by
    rw [← List.append_nil blanks, Reader.skipSpace_append hblanks]
    rfl
  have hread : Document.read (String.ofList (layout.chars 0 v ++ blanks)) = ⟨v.tree, true⟩ := by
    rw [List.nil_append] at hvalue
    simp only [Document.read, String.toList_ofList, hvalue, hrest, List.isEmpty_nil]
  rw [decodeText, hread]
  cases decode v.tree <;> rfl

theorem decodeText_compact {α : Type} (decode : Tree → Except Fault α) (v : Value) :
    decodeText decode v.compact = decode v.tree := by
  have htext := decodeText_layout decode .flat v (fun _ h => absurd h List.not_mem_nil)
  rwa [List.append_nil, Layout.chars_flat] at htext

/-- A line feed at the end of a text does not matter. -/
theorem decodeText_line {α : Type} (decode : Tree → Except Fault α) (v : Value) (pretty : Bool) :
    decodeText decode ((if pretty then v.pretty else v.compact) ++ "\n") = decode v.tree := by
  have hblank : ∀ c ∈ ['\n'], isSpace c = true := fun c h => List.mem_singleton.mp h ▸ rfl
  cases pretty with
  | true =>
    have htext := decodeText_layout decode .indented v hblank
    rwa [Layout.chars_indented, String.ofList_append] at htext
  | false =>
    have htext := decodeText_layout decode .flat v hblank
    rwa [Layout.chars_flat, String.ofList_append] at htext

end InjectionPlan.Json

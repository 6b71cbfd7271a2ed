import InjectionPlan.Json.Reader
import InjectionPlan.Json.Writer

/-!
# Layouts of a JSON text

Both writers put the same parts down in the same order and differ only in the blanks before an
item and after a colon. A layout says which blanks these are, so that what holds of every layout
holds of the text on one line and of the indented one.
-/

namespace InjectionPlan.Json

/-- The blanks that a writer may choose. -/
structure Layout where
  /-- What begins the line of an item, and that of a bracket, at a level of nesting. -/
  line : Nat → List Char
  /-- What stands between the colon of a member and its value. -/
  gap : List Char
  isSpace_line : ∀ level, ∀ c ∈ line level, isSpace c = true
  isSpace_gap : ∀ c ∈ gap, isSpace c = true

namespace Layout

def flat : Layout where
  line _ := []
  gap := []
  isSpace_line _ _ h := absurd h (List.not_mem_nil)
  isSpace_gap _ h := absurd h (List.not_mem_nil)

theorem isSpace_newline {level : Nat} {c : Char} (h : c ∈ Value.newline level) :
    isSpace c = true := by
  rcases List.mem_cons.mp h with rfl | h
  · rfl
  · rw [List.eq_of_mem_replicate h]
    rfl

def indented : Layout where
  line := Value.newline
  gap := [' ']
  isSpace_line _ _ h := isSpace_newline h
  isSpace_gap c h := by rw [List.mem_singleton.mp h]; rfl

mutual

/-- The value at a level of nesting. -/
def chars (layout : Layout) : Nat → Value → List Char
  | _, .null => ['n', 'u', 'l', 'l']
  | _, .bool true => ['t', 'r', 'u', 'e']
  | _, .bool false => ['f', 'a', 'l', 's', 'e']
  | _, .number n => Nat.toDigits 10 n
  | _, .string text => Value.quoted text
  | _, .array [] => ['[', ']']
  | level, .array (item :: rest) =>
    '[' :: (layout.line (level + 1) ++ (layout.chars (level + 1) item ++ layout.items level rest))
  | _, .object [] => ['{', '}']
  | level, .object ((key, value) :: rest) =>
    '{' :: (layout.line (level + 1) ++ (Value.quoted key ++ ':' :: (layout.gap ++
      (layout.chars (level + 1) value ++ layout.members level rest))))

/-- The items after the first, and the bracket that closes the list. -/
def items (layout : Layout) : Nat → List Value → List Char
  | level, [] => layout.line level ++ [']']
  | level, item :: rest =>
    ',' :: (layout.line (level + 1) ++ (layout.chars (level + 1) item ++ layout.items level rest))

def members (layout : Layout) : Nat → List (String × Value) → List Char
  | level, [] => layout.line level ++ ['}']
  | level, (key, value) :: rest =>
    ',' :: (layout.line (level + 1) ++ (Value.quoted key ++ ':' :: (layout.gap ++
      (layout.chars (level + 1) value ++ layout.members level rest))))

end

/-! ## The two writers -/

mutual

theorem chars_flat (level : Nat) (value : Value) :
    flat.chars level value = value.compactChars := by
  match value with
  | .null => simp only [chars, Value.compactChars]
  | .bool true => simp only [chars, Value.compactChars]
  | .bool false => simp only [chars, Value.compactChars]
  | .number n => simp only [chars, Value.compactChars]
  | .string text => simp only [chars, Value.compactChars]
  | .array [] => simp only [chars, Value.compactChars]
  | .array (item :: rest) =>
    simp only [chars, Value.compactChars, chars_flat _ item, items_flat level rest]
    rfl
  | .object [] => simp only [chars, Value.compactChars]
  | .object ((key, value) :: rest) =>
    simp only [chars, Value.compactChars, chars_flat _ value, members_flat level rest]
    rfl

theorem items_flat (level : Nat) (rest : List Value) :
    flat.items level rest = Value.compactItems rest := by
  match rest with
  | [] => rw [items, Value.compactItems]; rfl
  | item :: rest =>
    simp only [items, Value.compactItems, chars_flat _ item, items_flat level rest]
    rfl

theorem members_flat (level : Nat) (rest : List (String × Value)) :
    flat.members level rest = Value.compactMembers rest := by
  match rest with
  | [] => rw [members, Value.compactMembers]; rfl
  | (key, value) :: rest =>
    simp only [members, Value.compactMembers, chars_flat _ value, members_flat level rest]
    rfl

end

mutual

theorem chars_indented (level : Nat) (value : Value) :
    indented.chars level value = Value.prettyChars level value := by
  match value with
  | .null => simp only [chars, Value.prettyChars]
  | .bool true => simp only [chars, Value.prettyChars]
  | .bool false => simp only [chars, Value.prettyChars]
  | .number n => simp only [chars, Value.prettyChars]
  | .string text => simp only [chars, Value.prettyChars]
  | .array [] => simp only [chars, Value.prettyChars]
  | .array (item :: rest) =>
    simp only [chars, Value.prettyChars, chars_indented _ item, items_indented level rest,
      List.append_assoc]
    rfl
  | .object [] => simp only [chars, Value.prettyChars]
  | .object ((key, value) :: rest) =>
    simp only [chars, Value.prettyChars, chars_indented _ value, members_indented level rest,
      List.append_assoc, List.cons_append]
    rfl

theorem items_indented (level : Nat) (rest : List Value) :
    indented.items level rest = Value.prettyItems level rest := by
  match rest with
  | [] => rw [items, Value.prettyItems]; rfl
  | item :: rest =>
    simp only [items, Value.prettyItems, chars_indented _ item, items_indented level rest,
      List.append_assoc]
    rfl

theorem members_indented (level : Nat) (rest : List (String × Value)) :
    indented.members level rest = Value.prettyMembers level rest := by
  match rest with
  | [] => rw [members, Value.prettyMembers]; rfl
  | (key, value) :: rest =>
    simp only [members, Value.prettyMembers, chars_indented _ value,
      members_indented level rest, List.append_assoc, List.cons_append]
    rfl

end

/-! ## What a text begins with, and what ends a part of it -/

/-- What follows a part of a text: nothing, a blank, or what closes or separates parts. None of
these would lengthen a number. -/
def Ends (cs : List Char) : Prop :=
  ∀ c ∈ cs.head?, isSpace c = true ∨ c = ',' ∨ c = ']' ∨ c = '}'

theorem Ends.head {c : Char} {cs : List Char} (h : Ends (c :: cs)) :
    c.isDigit = false ∧ c ≠ '.' ∧ c ≠ 'e' ∧ c ≠ 'E' := by
  rcases h c rfl with hspace | rfl | rfl | rfl
  · simp only [isSpace, Bool.or_eq_true, beq_iff_eq] at hspace
    rcases hspace with ((rfl | rfl) | rfl) | rfl <;> decide
  · decide
  · decide
  · decide

theorem ends_of_isSpace {cs : List Char} (h : ∀ c ∈ cs, isSpace c = true) : Ends cs :=
  fun c hc => Or.inl (h c (List.mem_of_mem_head? hc))

theorem ends_append {blanks cs : List Char} (h : ∀ c ∈ blanks, isSpace c = true) (hcs : Ends cs) :
    Ends (blanks ++ cs) := by
  cases blanks with
  | nil => exact hcs
  | cons c blanks =>
    intro c' hc'
    obtain rfl : c = c' := Option.some.inj hc'
    exact Or.inl (h c (List.mem_cons_self))

variable (layout : Layout)

theorem ends_items (level : Nat) (rest : List Value) (after : List Char) :
    Ends (layout.items level rest ++ after) := by
  cases rest with
  | nil =>
    rw [items, List.append_assoc]
    exact ends_append (layout.isSpace_line level) (by rintro c ⟨⟩; simp)
  | cons item rest =>
    rw [items]
    rintro c ⟨⟩
    simp

theorem ends_members (level : Nat) (rest : List (String × Value)) (after : List Char) :
    Ends (layout.members level rest ++ after) := by
  cases rest with
  | nil =>
    rw [members, List.append_assoc]
    exact ends_append (layout.isSpace_line level) (by rintro c ⟨⟩; simp)
  | cons member rest =>
    rw [members]
    rintro c ⟨⟩
    simp

theorem isSpace_of_isDigit {c : Char} (h : c.isDigit = true) : isSpace c = false := by
  rw [Bool.eq_false_iff]
  intro hspace
  simp only [isSpace, Bool.or_eq_true, beq_iff_eq] at hspace
  rcases hspace with ((rfl | rfl) | rfl) | rfl <;> exact absurd h (by decide)

/-- A number is written with a digit first. -/
theorem exists_toDigits_eq (n : Nat) :
    ∃ c cs, Nat.toDigits 10 n = c :: cs ∧ c.isDigit = true := by
  obtain ⟨c, cs, hcs⟩ := List.exists_cons_of_ne_nil (Nat.toDigits_ne_nil (n := n) (b := 10))
  exact ⟨c, cs, hcs,
    Nat.isDigit_of_mem_toDigits (by decide) (by decide) (hcs ▸ List.mem_cons_self)⟩

/-- The text of a value begins with a character that is neither a blank nor the bracket that
closes a list. -/
theorem exists_chars_eq (level : Nat) (value : Value) :
    ∃ c cs, layout.chars level value = c :: cs ∧ isSpace c = false ∧ c ≠ ']' := by
  match value with
  | .null => exact ⟨_, _, by rw [chars], rfl, by decide⟩
  | .bool true => exact ⟨_, _, by rw [chars], rfl, by decide⟩
  | .bool false => exact ⟨_, _, by rw [chars], rfl, by decide⟩
  | .string text => exact ⟨_, _, by rw [chars, Value.quoted], rfl, by decide⟩
  | .array [] => exact ⟨_, _, by rw [chars], rfl, by decide⟩
  | .array (item :: rest) => exact ⟨_, _, by rw [chars], rfl, by decide⟩
  | .object [] => exact ⟨_, _, by rw [chars], rfl, by decide⟩
  | .object (member :: rest) => exact ⟨_, _, by rw [chars], rfl, by decide⟩
  | .number n =>
    obtain ⟨c, cs, hcs, hdigit⟩ := exists_toDigits_eq n
    refine ⟨c, cs, by rw [chars, hcs], isSpace_of_isDigit hdigit, ?_⟩
    rintro rfl
    exact absurd hdigit (by decide)

end Layout

/-! ## Characters of strings -/

namespace Value

/-- The characters with an escape that is a single letter. -/
def shortEscaped : List Char := ['"', '\\', '\x08', '\t', '\n', '\x0c', '\r']

theorem escape_of_mem {c : Char} (h : c ∈ shortEscaped) :
    ∃ letter, escape c = ['\\', letter] ∧ Reader.escaped? letter = some c ∧ letter ≠ 'u' := by
  simp only [shortEscaped, List.mem_cons, List.not_mem_nil, or_false] at h
  rcases h with rfl | rfl | rfl | rfl | rfl | rfl | rfl <;> exact ⟨_, rfl, rfl, by decide⟩

theorem escape_of_lt {c : Char} (h : c ∉ shortEscaped) (hlt : c.toNat < 0x20) :
    escape c = ['\\', 'u', '0', '0', hexDigit (c.toNat / 16), hexDigit (c.toNat % 16)] := by
  simp only [shortEscaped, List.mem_cons, List.not_mem_nil, or_false, not_or] at h
  simp [escape, h, hlt]

theorem escape_of_le {c : Char} (h : c ∉ shortEscaped) (hle : 0x20 ≤ c.toNat) :
    escape c = [c] := by
  simp only [shortEscaped, List.mem_cons, List.not_mem_nil, or_false, not_or] at h
  simp [escape, h, Nat.not_lt.mpr hle]

theorem le_toNat_of_escaped? {letter c : Char} (h : Reader.escaped? letter = some c) :
    0x20 ≤ letter.toNat := by
  unfold Reader.escaped? at h
  split at h
  case h_9 => cases h
  all_goals decide

theorem le_toNat_escape {c written : Char} (h : written ∈ escape c) : 0x20 ≤ written.toNat := by
  by_cases hshort : c ∈ shortEscaped
  · obtain ⟨letter, hescape, hread, -⟩ := escape_of_mem hshort
    rw [hescape] at h
    simp only [List.mem_cons, List.not_mem_nil, or_false] at h
    rcases h with rfl | rfl
    · decide
    · exact le_toNat_of_escaped? hread
  · rcases Nat.lt_or_ge c.toNat 0x20 with hlt | hle
    · have hdigit : ∀ n < 16, 0x20 ≤ (hexDigit n).toNat := by decide
      rw [escape_of_lt hshort hlt] at h
      simp only [List.mem_cons, List.not_mem_nil, or_false] at h
      rcases h with rfl | rfl | rfl | rfl | rfl | rfl
      · decide
      · decide
      · decide
      · decide
      · exact hdigit _ (by omega)
      · exact hdigit _ (by omega)
    · rw [escape_of_le hshort hle] at h
      rw [List.mem_singleton.mp h]
      exact hle

theorem le_toNat_quoted {text : String} {c : Char} (h : c ∈ quoted text) : 0x20 ≤ c.toNat := by
  simp only [quoted, List.mem_cons, List.mem_append, List.mem_flatMap, List.not_mem_nil,
    or_false] at h
  rcases h with rfl | ⟨source, -, h⟩ | rfl
  · decide
  · exact le_toNat_escape h
  · decide

/-! ## A text on one line -/

theorem le_toNat_of_all {word : List Char} {c : Char}
    (hall : (word.all fun c => 0x20 ≤ c.toNat) = true) (h : c ∈ word) : 0x20 ≤ c.toNat :=
  of_decide_eq_true (List.all_eq_true.mp hall c h)

theorem le_toNat_of_isDigit {c : Char} (h : c.isDigit = true) : 0x20 ≤ c.toNat := by
  simp only [Char.isDigit, ge_iff_le, Bool.and_eq_true, decide_eq_true_eq,
    UInt32.le_iff_toNat_le] at h
  exact Nat.le_trans (by decide) h.1

mutual

/-- A text on one line has no control character, whatever its strings hold. -/
theorem le_toNat_compactChars (value : Value) {c : Char} (h : c ∈ compactChars value) :
    0x20 ≤ c.toNat := by
  match value with
  | .null | .bool true | .bool false | .array [] | .object [] =>
    exact le_toNat_of_all (by decide) h
  | .number n =>
    rw [compactChars] at h
    exact le_toNat_of_isDigit (Nat.isDigit_of_mem_toDigits (by decide) (by decide) h)
  | .string text => exact le_toNat_quoted (by rwa [compactChars] at h)
  | .array (item :: rest) =>
    rw [compactChars, List.mem_cons, List.mem_append] at h
    rcases h with rfl | h | h
    · decide
    · exact le_toNat_compactChars item h
    · exact le_toNat_compactItems rest h
  | .object ((key, value) :: rest) =>
    rw [compactChars, List.mem_cons, List.mem_append, List.mem_cons, List.mem_append] at h
    rcases h with rfl | h | rfl | h | h
    · decide
    · exact le_toNat_quoted h
    · decide
    · exact le_toNat_compactChars value h
    · exact le_toNat_compactMembers rest h

theorem le_toNat_compactItems (rest : List Value) {c : Char} (h : c ∈ compactItems rest) :
    0x20 ≤ c.toNat := by
  match rest with
  | [] =>
    rw [compactItems] at h
    rw [List.mem_singleton.mp h]
    decide
  | item :: rest =>
    rw [compactItems, List.mem_cons, List.mem_append] at h
    rcases h with rfl | h | h
    · decide
    · exact le_toNat_compactChars item h
    · exact le_toNat_compactItems rest h

theorem le_toNat_compactMembers (rest : List (String × Value)) {c : Char}
    (h : c ∈ compactMembers rest) : 0x20 ≤ c.toNat := by
  match rest with
  | [] =>
    rw [compactMembers] at h
    rw [List.mem_singleton.mp h]
    decide
  | (key, value) :: rest =>
    rw [compactMembers, List.mem_cons, List.mem_append, List.mem_cons, List.mem_append] at h
    rcases h with rfl | h | rfl | h | h
    · decide
    · exact le_toNat_quoted h
    · decide
    · exact le_toNat_compactChars value h
    · exact le_toNat_compactMembers rest h

end

theorem newline_notMem_compact (value : Value) : '\n' ∉ value.compact.toList := by
  intro h
  rw [compact, String.toList_ofList] at h
  exact absurd (le_toNat_compactChars value h) (by decide)

end Value

end InjectionPlan.Json

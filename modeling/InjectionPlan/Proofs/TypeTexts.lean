import InjectionPlan.Proofs.PlanReferences
import Mathlib.Data.List.DropRight

/-!
# Texts of types without a symbol

A type without a symbol is asked for by its text. The text gives a name when a dotted name is all of
it, or stands before its first angle bracket. What stands behind that bracket is not looked at, so a
composite type that begins with a generic one passes for that one. `namesReferences_iff` says for
which texts that happens, and which texts are refused wherever a key is needed.
-/

namespace InjectionPlan

namespace Text

/-- How many angle brackets are open behind some characters. The head of an arrow closes none. -/
def angleDepth : List Char → Int
  | [] => 0
  | '=' :: '>' :: rest => angleDepth rest
  | '<' :: rest => angleDepth rest + 1
  | '>' :: rest => angleDepth rest - 1
  | _ :: rest => angleDepth rest

/-- One list of generic arguments: the bracket that it begins with is open until the last
character. -/
def IsArgumentList (chars : List Char) : Prop :=
  chars.head? = some '<' ∧ chars.getLast? = some '>' ∧
    ∀ length < chars.length, 0 < length → 1 ≤ angleDepth (chars.take length)

instance (chars : List Char) : Decidable (IsArgumentList chars) :=
  inferInstanceAs (Decidable (_ ∧ _ ∧ _))

/-- A name, blanks or none, and an angle bracket with the rest behind it. -/
def Bracketed (name rest text : List Char) : Prop :=
  ∃ blanks : List Char, (∀ c ∈ blanks, isBlank c = true) ∧ text = name ++ (blanks ++ '<' :: rest)

/-- A name, or a name with blanks or none and one list of generic arguments behind it. -/
def IsReference (name text : List Char) : Prop :=
  text = name ∨ ∃ rest, Bracketed name rest text ∧ IsArgumentList ('<' :: rest)

/-! ## Characters of names -/

theorem mem_pieces {separator c : Char} {cs : List Char} (h : c ∈ cs) :
    c = separator ∨ ∃ piece ∈ pieces separator cs, c ∈ piece := by
  induction cs with
  | nil => cases h
  | cons first cs ih =>
    rw [pieces]
    split
    · next hfirst =>
      rcases List.mem_cons.mp h with rfl | h
      · exact Or.inl hfirst
      · refine (ih h).imp_right fun hfound => ?_
        obtain ⟨piece, hpiece, hc⟩ := hfound
        exact ⟨piece, List.mem_cons_of_mem _ hpiece, hc⟩
    · cases hp : pieces separator cs with
      | nil => exact absurd hp (pieces_ne_nil separator cs)
      | cons piece rest =>
        rw [hp] at ih
        rcases List.mem_cons.mp h with rfl | h
        · exact Or.inr ⟨c :: piece, List.mem_cons_self, List.mem_cons_self⟩
        · refine (ih h).imp_right fun hpiece => ?_
          obtain ⟨found, hfound, hc⟩ := hpiece
          rcases List.mem_cons.mp hfound with rfl | hfound
          · exact ⟨first :: found, List.mem_cons_self, List.mem_cons_of_mem _ hc⟩
          · exact ⟨found, List.mem_cons_of_mem _ hfound, hc⟩

theorem continuesName_of_isName {piece : List Char} {c : Char} (h : isName piece = true)
    (hc : c ∈ piece) : continuesName c = true := by
  cases piece with
  | nil => cases hc
  | cons first rest =>
    rw [isName, Bool.and_eq_true, List.all_eq_true] at h
    rcases List.mem_cons.mp hc with rfl | hc
    · rw [continuesName, h.1, Bool.true_or]
    · exact h.2 c hc

/-- A dotted name consists of dots and of what names consist of. -/
theorem eq_dot_or_continuesName {name : String} {c : Char} (h : isDottedName name = true)
    (hc : c ∈ name.toList) : c = '.' ∨ continuesName c = true := by
  have hpieces : c = '.' ∨ ∃ piece ∈ pieces '.' name.toList, c ∈ piece := mem_pieces hc
  refine hpieces.imp_right fun ⟨piece, hpiece, hin⟩ => ?_
  exact continuesName_of_isName (List.all_eq_true.mp h piece hpiece) hin

theorem ne_bracket_of_mem {name : String} {c : Char} (h : isDottedName name = true)
    (hc : c ∈ name.toList) : c ≠ '<' := by
  rintro rfl
  rcases eq_dot_or_continuesName h hc with hdot | hname
  · cases hdot
  · exact absurd hname (by decide +kernel)

/-- No blank can stand in a name. -/
theorem continuesName_of_isBlank {c : Char} (h : isBlank c = true) : continuesName c = false := by
  obtain ⟨range, hrange, hlow, hhigh⟩ := inRanges_iff.mp h
  have htable : ∀ range ∈ blankRanges, range.2 < range.1 + 16 ∧ ∀ k < 16,
      range.1 + k ≤ range.2 → continuesName (Char.ofNat (range.1 + k)) = false := by
    decide +kernel
  obtain ⟨hshort, hnone⟩ := htable range hrange
  have hc : c = Char.ofNat (range.1 + (c.toNat - range.1)) := by
    rw [Nat.add_sub_cancel' hlow, Char.ofNat_toNat]
  rw [hc]
  exact hnone _ (by omega) (by omega)

theorem isBlank_of_mem {name : String} {c : Char} (h : isDottedName name = true)
    (hc : c ∈ name.toList) : isBlank c = false := by
  rcases eq_dot_or_continuesName h hc with rfl | hname
  · decide
  · by_contra hblank
    cases hname.symm.trans (continuesName_of_isBlank (by simpa using hblank))

theorem ne_bracket_of_isBlank {c : Char} (h : isBlank c = true) : c ≠ '<' := by
  rintro rfl
  cases h

/-! ## Trimmed texts -/

/-- A text is what is left without the blanks at its end, and those blanks. -/
theorem dropBlankEnd_append (cs : List Char) :
    ∃ blanks, (∀ c ∈ blanks, isBlank c = true) ∧ cs = dropBlankEnd cs ++ blanks :=
  ⟨cs.rtakeWhile isBlank, fun _ => List.mem_rtakeWhile_imp,
    List.rdropWhile_append_rtakeWhile.symm⟩

/-- Blanks at the end are dropped up to a text without blanks. -/
theorem dropBlankEnd_append_blanks {text blanks : List Char} (htext : ∀ c ∈ text, isBlank c = false)
    (hblanks : ∀ c ∈ blanks, isBlank c = true) : dropBlankEnd (text ++ blanks) = text := by
  rw [dropBlankEnd, List.reverse_append,
    List.dropWhile_append_of_pos fun c hc => hblanks c (List.mem_reverse.mp hc)]
  have hkept : text.reverse.dropWhile isBlank = text.reverse := by
    cases hr : text.reverse with
    | nil => rfl
    | cons c rest =>
      have hc : c ∈ text := List.mem_reverse.mp (hr ▸ List.mem_cons_self)
      simp [htext c hc]
  rw [hkept, List.reverse_reverse]

theorem trimChars_trimChars (cs : List Char) : trimChars (trimChars cs) = trimChars cs := by
  have hopen : (trimChars cs).dropWhile isBlank = trimChars cs := by
    cases ht : trimChars cs with
    | nil => rfl
    | cons c rest =>
      obtain ⟨blanks, -, happend⟩ := dropBlankEnd_append (cs.dropWhile isBlank)
      have hc : isBlank c = false := by
        have hhead := List.head?_dropWhile_not isBlank cs
        rw [happend, ← trimChars, ht] at hhead
        exact hhead
      simp [hc]
  rw [trimChars, hopen]
  change (trimChars cs).rdropWhile isBlank = trimChars cs
  exact List.rdropWhile_idempotent isBlank _

theorem toList_trim (s : String) : (trim s).toList = trimChars s.toList := by simp [trim]

end Text

open Text

/-! ## The name of a text -/

theorem bareTypeName_trim (s : String) : bareTypeName (trim s) =
    if '<' ∈ trimChars s.toList then
      String.ofList (dropBlankEnd ((trimChars s.toList).takeWhile (· ≠ '<')))
    else trim s := by
  unfold bareTypeName
  dsimp only
  rw [toList_trim, trimChars_trimChars, trim]

/-- The name of a trimmed text is all of it or stands before its first bracket. -/
theorem bareTypeName_cases (s : String) :
    (trim s).toList = (bareTypeName (trim s)).toList ∨
      ∃ rest, Bracketed (bareTypeName (trim s)).toList rest (trim s).toList := by
  rw [bareTypeName_trim, toList_trim]
  split
  · next hbracket =>
    obtain ⟨blanks, hblanks, hhead⟩ :=
      dropBlankEnd_append ((trimChars s.toList).takeWhile (· ≠ '<'))
    cases hrest : (trimChars s.toList).dropWhile (· ≠ '<') with
    | nil =>
      have hall := List.dropWhile_eq_nil_iff.mp hrest '<' hbracket
      cases hall
    | cons c rest =>
      obtain rfl : c = '<' := by
        have hstop := List.head?_dropWhile_not (fun c => decide (c ≠ '<')) (trimChars s.toList)
        rw [hrest] at hstop
        simpa using hstop
      refine Or.inr ⟨rest, blanks, hblanks, ?_⟩
      rw [String.toList_ofList, ← List.append_assoc, ← hhead, ← hrest,
        List.takeWhile_append_dropWhile]
  · exact Or.inl (toList_trim s).symm

theorem bareTypeName_of_eq {s name : String} (hname : isDottedName name = true)
    (h : (trim s).toList = name.toList) : bareTypeName (trim s) = name := by
  rcases bareTypeName_cases s with hall | ⟨rest, blanks, -, hsplit⟩
  · exact String.toList_injective (hall.symm.trans h)
  · have hin : '<' ∈ name.toList := by rw [← h, hsplit]; simp
    exact absurd rfl (ne_bracket_of_mem hname hin)

theorem bareTypeName_of_bracketed {s name : String} {rest : List Char}
    (hname : isDottedName name = true) (h : Bracketed name.toList rest (trim s).toList) :
    bareTypeName (trim s) = name := by
  obtain ⟨blanks, hblanks, hsplit⟩ := h
  have hbefore : ∀ c ∈ name.toList ++ blanks, decide (c ≠ '<') = true := by
    intro c hc
    rcases List.mem_append.mp hc with hc | hc
    · exact decide_eq_true (ne_bracket_of_mem hname hc)
    · exact decide_eq_true (ne_bracket_of_isBlank (hblanks c hc))
  rw [toList_trim] at hsplit
  rw [bareTypeName_trim, hsplit, if_pos (by simp), ← List.append_assoc,
    List.takeWhile_append_of_pos hbefore, List.takeWhile_cons_of_neg (by simp), List.append_nil,
    dropBlankEnd_append_blanks (fun c hc => isBlank_of_mem hname hc) hblanks, String.ofList_toList]

/-- The bracket behind a name is the first one, so what stands behind it is determined. -/
theorem Text.Bracketed.unique {name : String} {rest other text : List Char}
    (hname : isDottedName name = true) (h : Bracketed name.toList rest text)
    (h' : Bracketed name.toList other text) : rest = other := by
  have hdrop : ∀ {behind : List Char}, Bracketed name.toList behind text →
      text.dropWhile (· ≠ '<') = '<' :: behind := by
    rintro behind ⟨blanks, hblanks, rfl⟩
    rw [List.dropWhile_append_of_pos fun c hc => decide_eq_true (ne_bracket_of_mem hname hc),
      List.dropWhile_append_of_pos fun c hc => decide_eq_true (ne_bracket_of_isBlank (hblanks c hc)),
      List.dropWhile_cons_of_neg (by simp)]
  exact (List.cons.inj ((hdrop h).symm.trans (hdrop h'))).2

theorem not_mem_primitiveTypes_of_bracketed {name rest : List Char} {text : String}
    (h : Bracketed name rest text.toList) : text ∉ primitiveTypes := by
  have hplain : ∀ primitive ∈ primitiveTypes, '<' ∉ primitive.toList := by decide
  obtain ⟨blanks, -, hsplit⟩ := h
  intro hin
  exact hplain text hin (by rw [hsplit]; simp)

namespace Oracle

variable {oracle : Oracle} {ty : TypeId}

/-- The name that the type is asked for by is no primitive type, and the text refers to it. -/
def NamesReferences (oracle : Oracle) (ty : TypeId) : Prop :=
  ∀ name, oracle.classify ty = some (.named name) → name ∉ primitiveTypes ∧
    IsReference name.toList (trim (oracle.text ty)).toList

/-- A dotted name is all of the text, or stands in it before the first bracket. -/
def Spells (oracle : Oracle) (ty : TypeId) (name : String) : Prop :=
  isDottedName name = true ∧ ((trim (oracle.text ty)).toList = name.toList ∨
    ∃ rest, Bracketed name.toList rest (trim (oracle.text ty)).toList)

theorem classify_of_symbol_eq_none (h : oracle.symbol ty = none) :
    oracle.classify ty = if trim (oracle.text ty) ∈ primitiveTypes then some .primitive
      else if isDottedName (bareTypeName (trim (oracle.text ty))) then
        some (.named (bareTypeName (trim (oracle.text ty)))) else none := by
  simp only [classify, h]

theorem spells_iff {name : String} : oracle.Spells ty name ↔
    isDottedName name = true ∧ bareTypeName (trim (oracle.text ty)) = name := by
  refine and_congr_right fun hname => ⟨?_, ?_⟩
  · rintro (hall | ⟨rest, hbracketed⟩)
    · exact bareTypeName_of_eq hname hall
    · exact bareTypeName_of_bracketed hname hbracketed
  · rintro rfl
    exact bareTypeName_cases (oracle.text ty)

theorem classify_eq_named_iff (h : oracle.symbol ty = none) {name : String} :
    oracle.classify ty = some (.named name) ↔
      trim (oracle.text ty) ∉ primitiveTypes ∧ oracle.Spells ty name := by
  rw [classify_of_symbol_eq_none h, spells_iff]
  split
  · next hprimitive => simp [hprimitive]
  · next hprimitive =>
    split
    · next hdotted => grind
    · next hdotted => grind

theorem classify_eq_none_iff (h : oracle.symbol ty = none) :
    oracle.classify ty = none ↔
      trim (oracle.text ty) ∉ primitiveTypes ∧ ∀ name, ¬ oracle.Spells ty name := by
  simp only [spells_iff]
  rw [classify_of_symbol_eq_none h]
  split
  · next hprimitive => simp [hprimitive]
  · next hprimitive =>
    split
    · next hdotted => grind
    · next hdotted => grind

end Oracle

/-- A type without a symbol is asked for by a name that its text refers to exactly when a bracket
behind a dotted name opens one list of arguments and the name is no primitive type. Where a key is
needed a text is refused exactly when it is no primitive type and no dotted name is all of it or
stands before its first bracket. -/
theorem namesReferences_iff {oracle : Oracle} {ty : TypeId} (h : oracle.symbol ty = none) :
    (oracle.NamesReferences ty ↔ ∀ name rest, isDottedName name = true →
      Bracketed name.toList rest (trim (oracle.text ty)).toList →
        name ∉ primitiveTypes ∧ IsArgumentList ('<' :: rest)) ∧
    ∀ declaration, (∃ error, oracle.requireKey declaration ty = .error error) ↔
      trim (oracle.text ty) ∉ primitiveTypes ∧ ∀ name, ¬ oracle.Spells ty name := by
  refine ⟨⟨fun hlaw name rest hname hbracketed => ?_, fun hlists name hkey => ?_⟩,
    fun declaration => ?_⟩
  · have hkey := (Oracle.classify_eq_named_iff h).mpr
      ⟨not_mem_primitiveTypes_of_bracketed hbracketed, hname, Or.inr ⟨rest, hbracketed⟩⟩
    obtain ⟨hprimitive, hreference⟩ := hlaw name hkey
    refine ⟨hprimitive, ?_⟩
    rcases hreference with hall | ⟨other, hother, hlist⟩
    · obtain ⟨blanks, -, hsplit⟩ := hbracketed
      have hin : '<' ∈ name.toList := by rw [← hall, hsplit]; simp
      exact absurd rfl (ne_bracket_of_mem hname hin)
    · exact hbracketed.unique hname hother ▸ hlist
  · obtain ⟨hprimitive, hname, hall | ⟨rest, hbracketed⟩⟩ :=
      (Oracle.classify_eq_named_iff h).mp hkey
    · exact ⟨String.toList_injective hall ▸ hprimitive, Or.inl hall⟩
    · obtain ⟨hname, hlist⟩ := hlists name rest hname hbracketed
      exact ⟨hname, Or.inr ⟨rest, hbracketed, hlist⟩⟩
  · rw [← Oracle.classify_eq_none_iff h, Oracle.requireKey]
    cases oracle.classify ty <;> simp

/-- A generic type with an arrow among its arguments, and blanks around and inside. -/
def listenerMap : Snapshot where
  types := [{ text := " Map <Id, (event: Event<Id>) => void> " }]

theorem namesReferences_listenerMap : listenerMap.oracle.symbol ⟨0⟩ = none ∧
    listenerMap.oracle.classify ⟨0⟩ = some (.named "Map") ∧
    listenerMap.oracle.NamesReferences ⟨0⟩ := by
  have hsymbol : listenerMap.oracle.symbol ⟨0⟩ = none := rfl
  refine ⟨hsymbol, by decide +kernel, (namesReferences_iff hsymbol).1.mpr ?_⟩
  intro name rest hname hbracketed
  obtain rfl : "Map" = name :=
    (show bareTypeName (trim (listenerMap.oracle.text ⟨0⟩)) = "Map" by decide +kernel).symm.trans
      (bareTypeName_of_bracketed hname hbracketed)
  have hknown : Bracketed "Map".toList "Id, (event: Event<Id>) => void>".toList
      (trim (listenerMap.oracle.text ⟨0⟩)).toList :=
    ⟨[' '], List.forall_mem_singleton.mpr (by decide +kernel), by decide +kernel⟩
  obtain rfl := hbracketed.unique hname hknown
  exact ⟨by decide +kernel, by decide +kernel⟩

/-- A factory that takes an array of a generic type and produces a union that begins with that. -/
def unionProduct : Snapshot where
  types := [
    { text := "A<B> | C" },
    { text := "A<B>[]" },
    { text := "(x: A<B>[]) => A<B> | C", signatures := [⟨[⟨"x", ⟨1⟩⟩], ⟨0⟩⟩] }]
  declarations := [
    { name := "make", kind := .function, tags := [⟨"injectable", none⟩], type := ⟨2⟩ }]

/-- The union is taken for its first member and the array for its elements, and a plan is made. -/
theorem not_namesReferences_union : unionProduct.validate = .ok unionProduct ∧
    unionProduct.oracle.symbol ⟨0⟩ = none ∧ ¬ unionProduct.oracle.NamesReferences ⟨0⟩ ∧
    ∃ plan, resolve unionProduct.oracle {} = .ok plan ∧ plan.ids = [⟨"AToken"⟩] ∧
      plan.factories.map (fun planned => (planned.factory.deps, planned.target)) =
        [([⟨"AToken"⟩], ⟨"AToken"⟩)] := by
  have hfault : unionProduct.fault? = none := by decide +kernel
  refine ⟨by rw [Snapshot.validate, hfault], rfl, fun hlaw => ?_,
    exists_plan_of_any (by decide +kernel)⟩
  obtain ⟨-, hall | ⟨rest, hbracketed, hlist⟩⟩ := hlaw "A" (by decide +kernel)
  · exact absurd hall (by decide +kernel)
  · have hunion : Bracketed "A".toList "B> | C".toList
        (trim (unionProduct.oracle.text ⟨0⟩)).toList := ⟨[], by simp, by decide +kernel⟩
    obtain rfl := hbracketed.unique (by decide +kernel) hunion
    exact absurd hlist (by decide +kernel)

end InjectionPlan

import InjectionPlan.Proofs.KeyedLists
import InjectionPlan.Registry

/-!
# The registry as a list of first requests

A registry is asked to mint names and to record files, in any order and any number of times. What it
holds then can be read off what it was asked: the names as they were requested first, in that order,
and for each id the first file that counted when it was recorded. Ids are told apart as names are,
so looking up an id is looking up a name.
-/

namespace InjectionPlan

/-! ## What a registry is asked -/

namespace Registry

inductive Ask where
  | request (name : String) (cardinality : Cardinality) (origin : Origin)
  | record (id : TokenId) (file : String)
  deriving DecidableEq

def ask (registry : Registry) : Ask → Registry
  | .request name cardinality origin => registry.request name cardinality origin
  | .record id file => registry.record id file

def askAll (registry : Registry) (asks : List Ask) : Registry := asks.foldl ask registry

/-- The requests for names, as the tokens that each would mint. -/
def requested (asks : List Ask) : List Minted :=
  asks.filterMap fun
    | .request name cardinality origin => some ⟨name, cardinality, origin⟩
    | .record _ _ => none

/-- The id is that of a requested name. -/
def Names (suffix : String) (requests : List Minted) (id : TokenId) : Prop :=
  ∃ minted ∈ requests, TokenId.derive minted.name suffix = id

instance (suffix : String) (requests : List Minted) (id : TokenId) :
    Decidable (Names suffix requests id) :=
  inferInstanceAs (Decidable (∃ minted ∈ requests, _))

/-- The records of files with a path, each for an id of which the name was requested before. -/
def recorded (suffix : String) (before : List Minted) : List Ask → List (TokenId × String)
  | [] => []
  | .request name cardinality origin :: later =>
    recorded suffix (before ++ [⟨name, cardinality, origin⟩]) later
  | .record id file :: later =>
    if file ≠ "" ∧ Names suffix before id then (id, file) :: recorded suffix before later
    else recorded suffix before later

theorem requested_append (first second : List Ask) :
    requested (first ++ second) = requested first ++ requested second :=
  List.filterMap_append

theorem recorded_append (suffix : String) (before : List Minted) (first second : List Ask) :
    recorded suffix before (first ++ second) =
      recorded suffix before first ++ recorded suffix (before ++ requested first) second := by
  induction first generalizing before with
  | nil => simp [recorded, requested]
  | cons ask first ih =>
    cases ask with
    | request name cardinality origin =>
      simp only [List.cons_append, recorded, ih]
      simp [requested]
    | record id file =>
      simp only [List.cons_append, recorded, ih]
      split <;> simp [requested]

/-! ## Steps and runs -/

/-- The registry holds the first requests and the first files of what it was asked. -/
structure Holding (registry : Registry) (suffix : String) (asks : List Ask) : Prop where
  minted : registry.minted = firsts Minted.name (requested asks)
  imports : registry.imports.entries = firsts Prod.fst (recorded suffix [] asks)
  suffix : registry.suffix = suffix

namespace Holding

variable {registry : Registry} {suffix : String} {asks : List Ask}

theorem new (suffix : String) : (Registry.new suffix).Holding suffix [] := ⟨rfl, rfl, rfl⟩

theorem idFor (h : registry.Holding suffix asks) (name : String) :
    registry.idFor name = .derive name suffix := by
  rw [Registry.idFor, h.suffix]

theorem contains_iff (h : registry.Holding suffix asks) (name : String) :
    registry.contains name = true ↔ name ∈ (requested asks).map Minted.name := by
  rw [Registry.contains_iff, h.minted, mem_map_firsts]

theorem knows_iff (h : registry.Holding suffix asks) (id : TokenId) :
    registry.knows id = true ↔ Names suffix (requested asks) id := by
  have hname : ∀ known : List Minted, (∃ minted ∈ known, registry.idFor minted.name = id) ↔
      ∃ name ∈ known.map Minted.name, registry.idFor name = id := by
    intro known
    simp
  rw [Registry.knows_iff, hname, h.minted]
  simp only [mem_map_firsts, h.idFor]
  simp [Names]

theorem request (h : registry.Holding suffix asks) (name : String) (cardinality : Cardinality)
    (origin : Origin) : (registry.request name cardinality origin).Holding suffix
      (asks ++ [.request name cardinality origin]) := by
  refine ⟨?_, ?_, by rw [suffix_request, h.suffix]⟩
  · have hlast : requested [.request name cardinality origin] = [⟨name, cardinality, origin⟩] :=
      rfl
    rw [requested_append, hlast, firsts_concat]
    split
    · next hasked =>
      rw [request_of_contains _ _ ((h.contains_iff name).mpr hasked), h.minted]
    · next hnew =>
      have hfresh : registry.contains name = false := by
        rw [← Bool.not_eq_true, h.contains_iff]
        exact hnew
      rw [minted_request_of_not_contains _ _ hfresh, h.minted]
  · rw [imports_request, h.imports, recorded_append]
    simp [recorded]

theorem record (h : registry.Holding suffix asks) (id : TokenId) (file : String) :
    (registry.record id file).Holding suffix (asks ++ [.record id file]) := by
  refine ⟨?_, ?_, by rw [suffix_record, h.suffix]⟩
  · rw [minted_record, h.minted, requested_append]
    simp [requested]
  · rw [recorded_append, List.nil_append, recorded, recorded]
    unfold Registry.record
    have hcounts : (file.isEmpty || !registry.knows id) = false ↔
        file ≠ "" ∧ Names suffix (requested asks) id := by
      rw [Bool.or_eq_false_iff, ← h.knows_iff]
      simp
    by_cases hcount : file ≠ "" ∧ Names suffix (requested asks) id
    · rw [if_pos hcount, firsts_concat, hcounts.mpr hcount, if_neg Bool.false_ne_true]
      have hknown : registry.imports.contains id = true ↔
          id ∈ (recorded suffix [] asks).map Prod.fst := by
        rw [Table.contains_iff, Table.keys, h.imports, mem_map_firsts]
      split
      · next hin => rw [Table.insertNew_of_contains file (hknown.mpr hin), h.imports]
      · next hnew =>
        have hfresh : registry.imports.contains id = false := by
          rw [← Bool.not_eq_true, hknown]
          exact hnew
        rw [Table.entries_insertNew_of_not_contains file hfresh, h.imports]
    · have hidle : (file.isEmpty || !registry.knows id) = true := by
        rw [← Bool.not_eq_false, hcounts]
        exact hcount
      rw [if_neg hcount, List.append_nil, if_pos hidle, h.imports]

theorem askAll (suffix : String) (asks : List Ask) :
    ((Registry.new suffix).askAll asks).Holding suffix asks := by
  induction asks using List.reverseRecOn with
  | nil => exact new suffix
  | append_singleton asks ask ih =>
    rw [Registry.askAll, List.foldl_append]
    cases ask with
    | request name cardinality origin => exact ih.request name cardinality origin
    | record id file => exact ih.record id file

/-- Asked by a test of names, the registry gives the first request that passes. -/
theorem find?_minted (h : registry.Holding suffix asks) (test : String → Bool) :
    (registry.minted.find? fun minted => test minted.name) =
      (requested asks).find? fun minted => test minted.name := by
  rw [h.minted]
  exact find?_firsts test (requested asks)

theorem get?_eq (h : registry.Holding suffix asks) (name : String) :
    registry.get? name = (requested asks).find? fun minted => minted.name = name := by
  rw [get?_eq_find?]
  exact h.find?_minted fun found => decide (found = name)

theorem entry?_eq (h : registry.Holding suffix asks) (id : TokenId) : registry.entry? id =
    (requested asks).find? fun minted => TokenId.derive minted.name suffix = id := by
  unfold entry?
  simp only [h.idFor]
  exact h.find?_minted fun name => decide (TokenId.derive name suffix = id)

theorem entry?_ne_none_iff (h : registry.Holding suffix asks) (name : String) :
    registry.entry? (registry.idFor name) ≠ none ↔ name ∈ (requested asks).map Minted.name := by
  rw [← h.contains_iff, ← knows_idFor, ← Option.isSome_iff_ne_none, Registry.entry?,
    List.find?_isSome, Registry.knows_iff]
  simp

theorem get?_imports (h : registry.Holding suffix asks) (id : TokenId) :
    registry.imports.get? id =
      ((recorded suffix [] asks).find? fun entry => entry.1 = id).map Prod.snd := by
  rw [Table.get?, h.imports]
  exact congrArg _ (find?_firsts (fun found => decide (found = id)) _)

/-- A record that does not count changes nothing. -/
theorem record_idle (h : registry.Holding suffix asks) {id : TokenId} {file : String}
    (hidle : file = "" ∨ ¬ Names suffix (requested asks) id) : registry.record id file = registry := by
  unfold Registry.record
  rw [← h.knows_iff] at hidle
  refine if_pos ?_
  rcases hidle with rfl | hunknown
  · rfl
  · rw [Bool.not_eq_true] at hunknown
    rw [hunknown, Bool.not_false, Bool.or_true]

end Holding

/-- An id stands at the position of its name and at no other. -/
theorem indexOf?_eq_some_iff {registry : Registry} {id : TokenId} {position : Nat} :
    registry.indexOf? id = some position ↔
      ∃ minted, registry.minted[position]? = some minted ∧ registry.idFor minted.name = id := by
  rw [indexOf?, List.findIdx?_eq_some_iff_getElem]
  constructor
  · intro ⟨hlt, hid, _⟩
    exact ⟨_, List.getElem?_eq_getElem hlt, of_decide_eq_true hid⟩
  · rintro ⟨minted, hminted, rfl⟩
    obtain ⟨hlt, rfl⟩ := List.getElem?_eq_some_iff.mp hminted
    refine ⟨hlt, decide_eq_true rfl, fun earlier hearlier hid => ?_⟩
    have hname := registry.idFor_injective (of_decide_eq_true hid)
    have hsame := position_eq (List.getElem?_eq_getElem (Nat.lt_trans hearlier hlt)) hminted hname
    exact absurd hsame (Nat.ne_of_lt hearlier)

/-- The registry is the list of the first requests with the first files that were recorded for them,
and whatever it is asked about it answers from that list. -/
structure FirstWins (registry : Registry) (suffix : String) (asks : List Ask) : Prop where
  idFor : ∀ name, registry.idFor name = .derive name suffix
  minted : registry.minted = firsts Minted.name (requested asks)
  size : registry.size = (firsts Minted.name (requested asks)).length
  get? : ∀ name, registry.get? name = (requested asks).find? fun minted => minted.name = name
  contains : ∀ name, registry.contains name = true ↔ name ∈ (requested asks).map Minted.name
  entry? : ∀ id, registry.entry? id =
    (requested asks).find? fun minted => TokenId.derive minted.name suffix = id
  present : ∀ name, registry.entry? (registry.idFor name) ≠ none ↔
    name ∈ (requested asks).map Minted.name
  indexOf? : ∀ id position, registry.indexOf? id = some position ↔
    ∃ minted, registry.minted[position]? = some minted ∧ registry.idFor minted.name = id
  imports : registry.imports.entries = firsts Prod.fst (recorded suffix [] asks)
  file : ∀ id, registry.imports.get? id =
    ((recorded suffix [] asks).find? fun entry => entry.1 = id).map Prod.snd

/-- Whatever a new registry is asked, it lists the requested names as they were requested first, and
the files as they were recorded first. Records without a path and records for ids of which the name
was not requested before are as if they had not been made. -/
theorem firstWins_askAll (suffix : String) (asks : List Ask) :
    ((Registry.new suffix).askAll asks).FirstWins suffix asks ∧
    ∀ before id file later, asks = before ++ .record id file :: later →
      file = "" ∨ ¬ Names suffix (requested before) id →
        (Registry.new suffix).askAll asks = (Registry.new suffix).askAll (before ++ later) := by
  constructor
  · have hholds := Holding.askAll suffix asks
    constructor
    case idFor => exact hholds.idFor
    case minted => exact hholds.minted
    case size => exact congrArg List.length hholds.minted
    case get? => exact hholds.get?_eq
    case contains => exact hholds.contains_iff
    case entry? => exact hholds.entry?_eq
    case present => exact hholds.entry?_ne_none_iff
    case indexOf? => exact fun _ _ => indexOf?_eq_some_iff
    case imports => exact hholds.imports
    case file => exact hholds.get?_imports
  · rintro before id file later rfl hidle
    have hrecord := (Holding.askAll suffix before).record_idle hidle
    unfold askAll at hrecord ⊢
    rw [List.foldl_append, List.foldl_append, List.foldl_cons, ask, hrecord]

/-- The first request and the first file that counts are kept. The first record comes before the
request, and the second one has no path. -/
example : let registry := (Registry.new "Token").askAll [
      .record ⟨"StoreToken"⟩ "early.ts", .request "Store" .multi .annotated,
      .record ⟨"StoreToken"⟩ "", .record ⟨"StoreToken"⟩ "store.ts",
      .request "Store" .single .implicit, .record ⟨"StoreToken"⟩ "late.ts"]
    registry.minted = [⟨"Store", .multi, .annotated⟩] ∧
      registry.imports.entries = [(⟨"StoreToken"⟩, "store.ts")] := by decide

end Registry

end InjectionPlan

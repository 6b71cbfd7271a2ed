import InjectionPlan.Table
import InjectionPlan.Token

/-!
# The registry of tokens

The registry lists the minted names in the order of their first request. The first request
fixes the cardinality and the origin of a token, and the first file recorded for a minted token
is the file it is imported from. Tokens are told apart by their ids, which are the names with the
suffix of the registry: to ask for a name is to ask for its id. Different names have different ids,
so the answer is about that name only.
-/

namespace InjectionPlan

/-- A name that has a token. -/
structure Minted where
  name : String
  cardinality : Cardinality
  origin : Origin
  deriving DecidableEq

/-- The minted names and the files of their tokens. -/
structure Registry where
  suffix : String
  minted : List Minted := []
  /-- The declaring file of a token, in the order of recording. -/
  imports : Table TokenId String := .empty
  /-- An id is minted once. -/
  distinct : (minted.map fun minted => TokenId.derive minted.name suffix).Nodup := by
    exact List.nodup_nil

namespace Registry

def new (suffix : String) : Registry := { suffix }

/-- The id of a name, minted or not. -/
def idFor (registry : Registry) (name : String) : TokenId := .derive name registry.suffix

def tokenOf (registry : Registry) (minted : Minted) : Token :=
  .mint minted.name registry.suffix minted.cardinality

/-- The ids in the order of first request. -/
def ids (registry : Registry) : List TokenId :=
  registry.minted.map fun minted => registry.idFor minted.name

def entry? (registry : Registry) (id : TokenId) : Option Minted :=
  registry.minted.find? fun minted => registry.idFor minted.name = id

def knows (registry : Registry) (id : TokenId) : Bool :=
  registry.minted.any fun minted => registry.idFor minted.name = id

def indexOf? (registry : Registry) (id : TokenId) : Option Nat :=
  registry.minted.findIdx? fun minted => registry.idFor minted.name = id

def size (registry : Registry) : Nat := registry.minted.length

def get? (registry : Registry) (name : String) : Option Minted :=
  registry.entry? (registry.idFor name)

def contains (registry : Registry) (name : String) : Bool :=
  registry.knows (registry.idFor name)

theorem idFor_injective (registry : Registry) : Function.Injective registry.idFor := by
  intro a b h
  have ht : a ++ registry.suffix = b ++ registry.suffix := congrArg TokenId.text h
  exact (String.append_left_inj registry.suffix).mp ht

@[simp]
theorem idFor_inj {registry : Registry} {a b : String} :
    registry.idFor a = registry.idFor b ↔ a = b :=
  registry.idFor_injective.eq_iff

theorem knows_iff {registry : Registry} {id : TokenId} :
    registry.knows id = true ↔ ∃ minted ∈ registry.minted, registry.idFor minted.name = id := by
  simp [knows]

theorem mem_ids {registry : Registry} {id : TokenId} :
    id ∈ registry.ids ↔ registry.knows id = true := by
  simp [ids, knows]

theorem nodup_ids (registry : Registry) : registry.ids.Nodup := registry.distinct

/-- A name is minted once. -/
theorem nodup_names (registry : Registry) : (registry.minted.map Minted.name).Nodup := by
  have hids : ((registry.minted.map Minted.name).map registry.idFor).Nodup := by
    rw [List.map_map]
    exact registry.nodup_ids
  exact List.Pairwise.of_map registry.idFor (fun _ _ => mt (congrArg registry.idFor)) hids

@[simp]
theorem knows_idFor (registry : Registry) (name : String) :
    registry.knows (registry.idFor name) = registry.contains name := rfl

/-- A token is found by its name as it is by its id. -/
theorem get?_eq_find? (registry : Registry) (name : String) :
    registry.get? name = registry.minted.find? fun minted => minted.name = name := by
  simp only [get?, entry?, idFor_inj]

theorem contains_iff {registry : Registry} {name : String} :
    registry.contains name = true ↔ name ∈ registry.minted.map Minted.name := by
  rw [contains, knows_iff, List.mem_map]
  simp only [idFor_inj]

/-- A name stands at one position. -/
theorem position_eq {registry : Registry} {i j : Nat} {a b : Minted}
    (ha : registry.minted[i]? = some a) (hb : registry.minted[j]? = some b)
    (h : a.name = b.name) : i = j := by
  have hlt : i < (registry.minted.map Minted.name).length := by
    rw [List.length_map]
    exact (List.getElem?_eq_some_iff.mp ha).1
  refine (List.getElem?_inj hlt registry.nodup_names).mp ?_
  rw [List.getElem?_map, List.getElem?_map, ha, hb, Option.map_some, Option.map_some, h]

theorem eq_of_name {registry : Registry} {a b : Minted} (ha : a ∈ registry.minted)
    (hb : b ∈ registry.minted) (h : a.name = b.name) : a = b := by
  obtain ⟨i, hi⟩ := List.getElem?_of_mem ha
  obtain ⟨j, hj⟩ := List.getElem?_of_mem hb
  have hij := position_eq hi hj h
  subst hij
  exact Option.some.inj (hi.symm.trans hj)

theorem entry?_eq_some {registry : Registry} {id : TokenId} {minted : Minted} :
    registry.entry? id = some minted ↔
      minted ∈ registry.minted ∧ registry.idFor minted.name = id := by
  constructor
  · intro h
    exact ⟨List.mem_of_find?_eq_some h, by simpa using List.find?_some h⟩
  · rintro ⟨hm, rfl⟩
    cases hf : registry.entry? (registry.idFor minted.name) with
    | none => exact absurd (List.find?_eq_none.mp hf minted hm) (by simp)
    | some other =>
      have hn : other.name = minted.name := by simpa using List.find?_some hf
      exact congrArg some (eq_of_name (List.mem_of_find?_eq_some hf) hm hn)

theorem get?_eq_some {registry : Registry} {name : String} {minted : Minted} :
    registry.get? name = some minted ↔ minted ∈ registry.minted ∧ minted.name = name := by
  rw [get?, entry?_eq_some, idFor_inj]

/-- Mints a token for the name on its first request; a later request changes nothing. -/
def request (registry : Registry) (name : String) (cardinality : Cardinality) (origin : Origin) :
    Registry :=
  if h : registry.contains name = true then registry
  else
    { registry with
      minted := registry.minted ++ [⟨name, cardinality, origin⟩]
      distinct := by exact nodup_map_concat registry.distinct (mt mem_ids.mp h) }

/-- Records the file that declares the type of a token. An empty path and an id without a token
are ignored, and the first file stays. -/
def record (registry : Registry) (id : TokenId) (file : String) : Registry :=
  if file.isEmpty || !registry.knows id then registry
  else { registry with imports := registry.imports.insertNew id file }

def record? (registry : Registry) (id : TokenId) : Option String → Registry
  | some file => registry.record id file
  | none => registry

theorem request_of_contains {registry : Registry} {name : String} (cardinality : Cardinality)
    (origin : Origin) (h : registry.contains name = true) :
    registry.request name cardinality origin = registry := by
  unfold request
  exact dif_pos h

/-- A new name comes last. -/
theorem minted_request_of_not_contains {registry : Registry} {name : String}
    (cardinality : Cardinality) (origin : Origin) (h : registry.contains name = false) :
    (registry.request name cardinality origin).minted =
      registry.minted ++ [⟨name, cardinality, origin⟩] := by
  unfold request
  rw [dif_neg (Bool.eq_false_iff.mp h)]

@[simp]
theorem suffix_request (registry : Registry) (name : String) (cardinality : Cardinality)
    (origin : Origin) : (registry.request name cardinality origin).suffix = registry.suffix := by
  unfold request
  split <;> rfl

@[simp]
theorem contains_request {registry : Registry} {name other : String} {cardinality : Cardinality}
    {origin : Origin} :
    (registry.request name cardinality origin).contains other = true ↔
      registry.contains other = true ∨ other = name := by
  cases h : registry.contains name with
  | true =>
    rw [request_of_contains cardinality origin h]
    exact ⟨Or.inl, fun ho => ho.elim id fun e => e ▸ h⟩
  | false =>
    rw [contains_iff, contains_iff, minted_request_of_not_contains cardinality origin h]
    simp [eq_comm]

/-- A request decides what is minted for its name only if nothing is. -/
theorem get?_request (registry : Registry) (name other : String) (cardinality : Cardinality)
    (origin : Origin) : (registry.request name cardinality origin).get? other =
      (registry.get? other).or
        (if name = other then some ⟨name, cardinality, origin⟩ else none) := by
  cases h : registry.contains name with
  | true =>
    rw [request_of_contains cardinality origin h]
    by_cases hname : name = other
    · obtain ⟨minted, hm, hn⟩ := List.mem_map.mp (contains_iff.mp h)
      rw [get?_eq_some.mpr ⟨hm, hn.trans hname⟩, Option.some_or]
    · rw [if_neg hname, Option.or_none]
  | false =>
    rw [get?_eq_find?, minted_request_of_not_contains cardinality origin h, List.find?_append,
      ← get?_eq_find?]
    by_cases hname : name = other <;> simp [hname]

@[simp]
theorem idFor_request (registry : Registry) (name other : String) (cardinality : Cardinality)
    (origin : Origin) :
    (registry.request name cardinality origin).idFor other = registry.idFor other := by
  simp [idFor]

@[simp]
theorem imports_request (registry : Registry) (name : String) (cardinality : Cardinality)
    (origin : Origin) : (registry.request name cardinality origin).imports = registry.imports := by
  unfold request
  split <;> rfl

/-- A file with a path is recorded for a token that has none. -/
theorem get?_imports_record (registry : Registry) (id other : TokenId) (file : String) :
    (registry.record id file).imports.get? other = (registry.imports.get? other).or
      (if id = other ∧ file ≠ "" ∧ registry.knows id = true then some file else none) := by
  unfold record
  by_cases hignored : (file.isEmpty || !registry.knows id) = true
  · have hnone : ¬ (id = other ∧ file ≠ "" ∧ registry.knows id = true) := by
      intro ⟨_, hpath, hknown⟩
      rw [hknown, Bool.not_true, Bool.or_false, String.isEmpty_iff] at hignored
      exact hpath hignored
    rw [if_pos hignored, if_neg hnone, Option.or_none]
  · rw [if_neg hignored]
    rw [Bool.or_eq_true, not_or, Bool.not_eq_true', Bool.not_eq_false, String.isEmpty_iff] at hignored
    have hid : (id = other ∧ file ≠ "" ∧ registry.knows id = true) ↔ id = other :=
      and_iff_left hignored
    simp only [hid]
    exact Table.get?_insertNew registry.imports id other file

@[simp]
theorem minted_record (registry : Registry) (id : TokenId) (file : String) :
    (registry.record id file).minted = registry.minted := by
  unfold record
  split <;> rfl

@[simp]
theorem get?_record (registry : Registry) (id : TokenId) (file name : String) :
    (registry.record id file).get? name = registry.get? name := by
  rw [get?_eq_find?, get?_eq_find?, minted_record]

@[simp]
theorem suffix_record (registry : Registry) (id : TokenId) (file : String) :
    (registry.record id file).suffix = registry.suffix := by
  unfold record
  split <;> rfl

end Registry

end InjectionPlan

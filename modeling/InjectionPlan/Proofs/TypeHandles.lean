import InjectionPlan.Proofs.AlikePasses
import InjectionPlan.Proofs.ClosedSnapshots
import InjectionPlan.Proofs.PlanReferences

/-!
# Type handles

A handle is a position in a type table and nothing else. A snapshot whose types stand at other
positions of a table, among any other types, has the same resolution.
-/

namespace InjectionPlan

/-! ## Other handles for the same types -/

section Handles

variable (handle : TypeId → TypeId)

def Parameter.mapTypes (parameter : Parameter) : Parameter :=
  { parameter with type := handle parameter.type }

def Signature.mapTypes (signature : Signature) : Signature :=
  ⟨signature.parameters.map (Parameter.mapTypes handle), handle signature.returns⟩

def TypeEntry.mapTypes (entry : TypeEntry) : TypeEntry :=
  { entry with
    arguments := entry.arguments.map handle
    bases := entry.bases.map handle
    signatures := entry.signatures.map (Signature.mapTypes handle) }

def Declaration.mapTypes (declaration : Declaration) : Declaration :=
  { declaration with
    type := handle declaration.type
    aliased := declaration.aliased.map handle
    parameters := declaration.parameters.map (Parameter.mapTypes handle) }

end Handles

/-- The oracle answers what the entry of a type table says. -/
structure Oracle.Answers (oracle : Oracle) (ty : TypeId) (entry : TypeEntry) : Prop where
  symbol : oracle.symbol ty = entry.symbol
  text : oracle.text ty = entry.text
  arguments : oracle.arguments ty = entry.arguments
  bases : oracle.bases ty = entry.bases
  signatures : oracle.signatures ty = entry.signatures

namespace Snapshot

/-- The second snapshot has the types of the first one under other handles, and the declarations
of the first one and no others. Its table may have more types. -/
structure Renumbers (handle : TypeId → TypeId) (small large : Snapshot) : Prop where
  injective : ∀ a b, small.knows a = true → small.knows b = true → handle a = handle b → a = b
  entries : ∀ ty entry, small.entry? ty = some entry →
    large.entry? (handle ty) = some (entry.mapTypes handle)
  declarations : large.declarations = small.declarations.map (Declaration.mapTypes handle)

/-- The first handle is known, and the second one is what it is renumbered to. -/
def Under (snapshot : Snapshot) (handle : TypeId → TypeId) (ty ty' : TypeId) : Prop :=
  snapshot.knows ty = true ∧ ty' = handle ty

variable {snapshot : Snapshot} {ty : TypeId}

/-- A snapshot answers from its table. -/
theorem oracle_answers {entry : TypeEntry} (h : snapshot.entry? ty = some entry) :
    snapshot.oracle.Answers ty entry := by
  constructor <;> simp [oracle, h]

section Alike

variable {handle : TypeId → TypeId}

theorem forall₂_types {types : List TypeId} (hknown : ∀ ty ∈ types, snapshot.knows ty = true) :
    List.Forall₂ (snapshot.Under handle) types (types.map handle) :=
  forall₂_map fun ty hin => ⟨hknown ty hin, rfl⟩

theorem forall₂_parameters {parameters : List Parameter}
    (hknown : ∀ ty ∈ parameters.map Parameter.type, snapshot.knows ty = true) :
    List.Forall₂ (Parameter.Alike (snapshot.Under handle)) parameters
      (parameters.map (Parameter.mapTypes handle)) :=
  forall₂_map fun _ hp => ⟨rfl, hknown _ (List.mem_map_of_mem hp), rfl⟩

theorem alike_declaration {declaration : Declaration}
    (hknown : ∀ ty ∈ declaration.references, snapshot.knows ty = true) :
    Declaration.Alike (snapshot.Under handle) declaration (declaration.mapTypes handle) := by
  rw [Declaration.references, List.forall_mem_cons, List.forall_mem_append] at hknown
  obtain ⟨htype, htarget, hparameter⟩ := hknown
  have haliased : Option.Rel (snapshot.Under handle) declaration.aliased
      (declaration.aliased.map handle) := by
    cases ha : declaration.aliased with
    | none => exact .none
    | some target => exact .some ⟨htarget target (by simp [ha]), rfl⟩
  exact ⟨rfl, rfl, rfl, rfl, rfl, rfl, ⟨htype, rfl⟩, haliased, forall₂_parameters hparameter⟩

theorem alike_signature {signature : Signature}
    (hknown : ∀ ty ∈ signature.references, snapshot.knows ty = true) :
    Signature.Alike (snapshot.Under handle) signature (signature.mapTypes handle) := by
  rw [Signature.references, List.forall_mem_cons] at hknown
  exact ⟨forall₂_parameters hknown.2, hknown.1, rfl⟩

/-- A snapshot is like a code base that has its types under other handles, whatever that answers
about handles that stand for none of them: what a known type mentions is known. -/
theorem alike_oracle {other : Oracle}
    (injective : ∀ a b, snapshot.knows a = true → snapshot.knows b = true →
      handle a = handle b → a = b)
    (answers : ∀ ty entry, snapshot.entry? ty = some entry →
      other.Answers (handle ty) (entry.mapTypes handle))
    (declarations : other.declarations = snapshot.declarations.map (Declaration.mapTypes handle))
    (hclosed : snapshot.Closed) :
    Oracle.Alike (snapshot.Under handle) snapshot.oracle other := by
  have hentry : ∀ ty, snapshot.knows ty = true → ∃ entry ∈ snapshot.types,
      snapshot.oracle.Answers ty entry ∧ other.Answers (handle ty) (entry.mapTypes handle) := by
    intro ty hknown
    obtain ⟨entry, hm, he⟩ := exists_entry_of_knows hknown
    exact ⟨entry, hm, oracle_answers he, answers ty entry he⟩
  constructor
  case unique =>
    constructor
    · intro ty ty' other hty hty'
      exact injective ty ty' hty.1 hty'.1 (hty.2.symm.trans hty'.2)
    · intro ty ty' other hty hother
      exact hty.2.trans hother.2.symm
  case declarations =>
    show List.Forall₂ _ snapshot.declarations other.declarations
    rw [declarations]
    exact forall₂_map fun declaration hd =>
      alike_declaration (hclosed.declarations declaration hd)
  case symbol =>
    rintro ty _ ⟨hty, rfl⟩
    obtain ⟨entry, -, he, he'⟩ := hentry ty hty
    rw [he.symbol, he'.symbol]
    rfl
  case text =>
    rintro ty _ ⟨hty, rfl⟩
    obtain ⟨entry, -, he, he'⟩ := hentry ty hty
    rw [he.text, he'.text]
    rfl
  case arguments =>
    rintro ty _ ⟨hty, rfl⟩
    obtain ⟨entry, hm, he, he'⟩ := hentry ty hty
    rw [he.arguments, he'.arguments]
    exact forall₂_types fun argument ha => hclosed.entries entry hm argument
      (List.mem_append_left _ (List.mem_append_left _ ha))
  case bases =>
    rintro ty _ ⟨hty, rfl⟩
    obtain ⟨entry, hm, he, he'⟩ := hentry ty hty
    rw [he.bases, he'.bases]
    exact forall₂_types fun base hb => hclosed.entries entry hm base
      (List.mem_append_left _ (List.mem_append_right _ hb))
  case signatures =>
    rintro ty _ ⟨hty, rfl⟩
    obtain ⟨entry, hm, he, he'⟩ := hentry ty hty
    rw [he.signatures, he'.signatures]
    exact forall₂_map fun signature hs => alike_signature fun ty hr =>
      hclosed.entries entry hm ty (List.mem_append_right _ (List.mem_flatMap_of_mem hs hr))

end Alike

/-- Renumbered snapshots are alike. -/
theorem Renumbers.alike {handle : TypeId → TypeId} {small large : Snapshot}
    (h : Renumbers handle small large) (hclosed : small.Closed) :
    Oracle.Alike (small.Under handle) small.oracle large.oracle :=
  alike_oracle h.injective (fun ty entry he => oracle_answers (h.entries ty entry he))
    h.declarations hclosed

end Snapshot

/-- Handles are opaque: a snapshot that mentions only types of its table has the same resolution
when its types have other handles in another table. -/
theorem resolution_renumbers {handle : TypeId → TypeId} {small large : Snapshot}
    (hvalid : small.validate = .ok small) (h : Snapshot.Renumbers handle small large)
    (settings : Settings) :
    Resolution.of large.oracle settings = Resolution.of small.oracle settings := by
  have halike := h.alike (Snapshot.closed_of_validate hvalid)
  have hsuffix : settings.tokenSuffix = settings.tokenSuffix ++ "" := String.append_empty.symm
  rw [halike.resolution rfl rfl hsuffix, TokenId.lengthen_empty, Resolution.mapIds_id]

/-- The table of `genericStore` backwards, after a type that nothing mentions. -/
def reversedStore : Snapshot where
  types := { text := "{ unused: true }", arguments := [⟨9⟩], bases := [⟨0⟩] } ::
    (genericStore.types.map (TypeEntry.mapTypes fun ty => ⟨5 - ty.number⟩)).reverse
  declarations := genericStore.declarations.map (Declaration.mapTypes fun ty => ⟨5 - ty.number⟩)

theorem genericStore_renumbers :
    genericStore.Renumbers (fun ty => ⟨5 - ty.number⟩) reversedStore := by
  constructor
  case injective =>
    intro a b _ _ hab
    have hnumber : 5 - a.number = 5 - b.number := congrArg TypeId.number hab
    exact congrArg TypeId.mk (by grind)
  case entries =>
    have hall : ∀ index : Fin 5, reversedStore.entry? ⟨5 - UInt32.ofNat index⟩ =
        (genericStore.entry? ⟨UInt32.ofNat index⟩).map
          (TypeEntry.mapTypes fun ty => ⟨5 - ty.number⟩) := by decide +kernel
    intro ty entry he
    have hlt : ty.index < 5 := (List.getElem?_eq_some_iff.mp he).1
    have hty := hall ⟨ty.index, hlt⟩
    have hnumber : UInt32.ofNat ty.index = ty.number := UInt32.ofNat_toNat
    dsimp only at hty
    rw [hnumber, he] at hty
    exact hty
  case declarations => rfl

theorem resolution_renumbers_reversedStore :
    Resolution.of reversedStore.oracle {} = Resolution.of genericStore.oracle {} ∧
    ∃ plan, resolve reversedStore.oracle {} = .ok plan ∧
      plan.ids = [⟨"StoreToken"⟩, ⟨"ItemToken"⟩, ⟨"ShopToken"⟩, ⟨"CacheToken"⟩, ⟨"openToken"⟩] := by
  have hvalid : genericStore.validate = .ok genericStore := by decide +kernel
  exact ⟨resolution_renumbers hvalid genericStore_renumbers {},
    exists_plan_of_any (by decide +kernel)⟩

end InjectionPlan

import InjectionPlan.Proofs.TypeHandles

/-!
# Types beyond the table

About a handle beyond its table a snapshot answers with nothing. Validation lets no such handle
pass, at whatever place of the snapshot it stands, so a resolution never asks about one: it is the
same whatever is answered there.
-/

namespace InjectionPlan

/-! ## Answers that are the same for other handles -/

theorem Signature.mapTypes_id : Signature.mapTypes id = id := by
  funext signature
  have hparameter : Parameter.mapTypes id = id := rfl
  simp [mapTypes, hparameter]

theorem TypeEntry.mapTypes_id (entry : TypeEntry) : entry.mapTypes id = entry := by
  simp [mapTypes, Signature.mapTypes_id]

theorem Declaration.mapTypes_id : Declaration.mapTypes id = id := by
  funext declaration
  have hparameter : Parameter.mapTypes id = id := rfl
  simp [mapTypes, hparameter]

namespace Snapshot

variable {snapshot : Snapshot} {oracle : Oracle} {ty : TypeId}

/-- The oracle has the declarations of the snapshot and answers as the snapshot does about every
type of its table. About other handles it may answer anything. -/
structure AnsweredBy (snapshot : Snapshot) (oracle : Oracle) : Prop where
  declarations : oracle.declarations = snapshot.oracle.declarations
  symbol : ∀ ty, ty.index < snapshot.types.length → oracle.symbol ty = snapshot.oracle.symbol ty
  text : ∀ ty, ty.index < snapshot.types.length → oracle.text ty = snapshot.oracle.text ty
  arguments : ∀ ty, ty.index < snapshot.types.length →
    oracle.arguments ty = snapshot.oracle.arguments ty
  bases : ∀ ty, ty.index < snapshot.types.length → oracle.bases ty = snapshot.oracle.bases ty
  signatures : ∀ ty, ty.index < snapshot.types.length →
    oracle.signatures ty = snapshot.oracle.signatures ty

theorem AnsweredBy.answers (h : snapshot.AnsweredBy oracle) {entry : TypeEntry}
    (he : snapshot.entry? ty = some entry) : oracle.Answers ty entry := by
  have hlt : ty.index < snapshot.types.length := (List.getElem?_eq_some_iff.mp he).1
  have hentry := oracle_answers he
  exact ⟨(h.symbol ty hlt).trans hentry.symbol, (h.text ty hlt).trans hentry.text,
    (h.arguments ty hlt).trans hentry.arguments, (h.bases ty hlt).trans hentry.bases,
    (h.signatures ty hlt).trans hentry.signatures⟩

theorem AnsweredBy.alike (h : snapshot.AnsweredBy oracle) (hclosed : snapshot.Closed) :
    Oracle.Alike (snapshot.Under id) snapshot.oracle oracle := by
  refine alike_oracle (fun _ _ _ _ hsame => hsame) (fun ty entry he => ?_) ?_ hclosed
  · rw [TypeEntry.mapTypes_id]
    exact h.answers he
  · rw [h.declarations, Declaration.mapTypes_id, List.map_id]
    rfl

/-! ## Places at which types are mentioned -/

/-- The type stands somewhere in the snapshot. -/
inductive Mentions (snapshot : Snapshot) : TypeId → Prop
  | argument {entry : TypeEntry} {ty : TypeId} : entry ∈ snapshot.types → ty ∈ entry.arguments →
      Mentions snapshot ty
  | base {entry : TypeEntry} {ty : TypeId} : entry ∈ snapshot.types → ty ∈ entry.bases →
      Mentions snapshot ty
  | parameter {entry : TypeEntry} {signature : Signature} {parameter : Parameter} :
      entry ∈ snapshot.types → signature ∈ entry.signatures → parameter ∈ signature.parameters →
      Mentions snapshot parameter.type
  | returned {entry : TypeEntry} {signature : Signature} : entry ∈ snapshot.types →
      signature ∈ entry.signatures → Mentions snapshot signature.returns
  | declared {declaration : Declaration} : declaration ∈ snapshot.declarations →
      Mentions snapshot declaration.type
  | aliased {declaration : Declaration} {ty : TypeId} : declaration ∈ snapshot.declarations →
      declaration.aliased = some ty → Mentions snapshot ty
  | constructed {declaration : Declaration} {parameter : Parameter} :
      declaration ∈ snapshot.declarations → parameter ∈ declaration.parameters →
      Mentions snapshot parameter.type

/-- Every type that is mentioned is in the table, and no declaration has a blank name. -/
structure Valid (snapshot : Snapshot) : Prop where
  known : ∀ ty, snapshot.Mentions ty → ty.index < snapshot.types.length
  named : ∀ declaration ∈ snapshot.declarations,
    ∃ c ∈ declaration.name.toList, Text.isBlank c = false

/-- The references of entries and declarations are all there is to mention. -/
theorem mentions_iff : snapshot.Mentions ty ↔
    (∃ entry ∈ snapshot.types, ty ∈ entry.references) ∨
      ∃ declaration ∈ snapshot.declarations, ty ∈ declaration.references := by
  constructor
  · intro h
    cases h with
    | argument he hty => exact Or.inl ⟨_, he, by simp [TypeEntry.references, hty]⟩
    | base he hty => exact Or.inl ⟨_, he, by simp [TypeEntry.references, hty]⟩
    | parameter he hs hp =>
      exact Or.inl ⟨_, he, List.mem_append_right _ (List.mem_flatMap_of_mem hs
        (List.mem_cons_of_mem _ (List.mem_map_of_mem hp)))⟩
    | returned he hs =>
      exact Or.inl ⟨_, he, List.mem_append_right _ (List.mem_flatMap_of_mem hs List.mem_cons_self)⟩
    | declared hd => exact Or.inr ⟨_, hd, List.mem_cons_self⟩
    | aliased hd ha => exact Or.inr ⟨_, hd, by simp [Declaration.references, ha]⟩
    | constructed hd hp =>
      exact Or.inr ⟨_, hd, List.mem_cons_of_mem _
        (List.mem_append_right _ (List.mem_map_of_mem hp))⟩
  · rintro (⟨entry, he, hty⟩ | ⟨declaration, hd, hty⟩)
    · rw [TypeEntry.references, List.mem_append, List.mem_append, List.mem_flatMap] at hty
      rcases hty with (ha | hb) | ⟨signature, hs, hty⟩
      · exact .argument he ha
      · exact .base he hb
      · rw [Signature.references, List.mem_cons, List.mem_map] at hty
        rcases hty with rfl | ⟨parameter, hp, rfl⟩
        · exact .returned he hs
        · exact .parameter he hs hp
    · rw [Declaration.references, List.mem_cons, List.mem_append, Option.mem_toList,
        List.mem_map] at hty
      rcases hty with rfl | ha | ⟨parameter, hp, rfl⟩
      · exact .declared hd
      · exact .aliased hd ha
      · exact .constructed hd hp

theorem closed_iff :
    snapshot.Closed ↔ ∀ ty, snapshot.Mentions ty → ty.index < snapshot.types.length := by
  have hknows : ∀ ty, snapshot.knows ty = true ↔ ty.index < snapshot.types.length :=
    fun ty => decide_eq_true_iff
  simp only [mentions_iff, ← hknows]
  constructor
  · rintro hclosed ty (⟨entry, he, hty⟩ | ⟨declaration, hd, hty⟩)
    · exact hclosed.entries entry he ty hty
    · exact hclosed.declarations declaration hd ty hty
  · intro h
    exact ⟨fun entry he ty hty => h ty (Or.inl ⟨entry, he, hty⟩),
      fun declaration hd ty hty => h ty (Or.inr ⟨declaration, hd, hty⟩)⟩

theorem fault?_eq_none_iff_valid : snapshot.fault? = none ↔ snapshot.Valid := by
  have hnamed : ∀ name : String, Text.isBlankText name = false ↔
      ∃ c ∈ name.toList, Text.isBlank c = false := by
    intro name
    simp [Text.isBlankText]
  rw [fault?_eq_none, closed_iff]
  simp only [hnamed]
  exact ⟨fun h => ⟨h.1, h.2⟩, fun h => ⟨h.known, h.named⟩⟩

end Snapshot

/-- Validation accepts a snapshot exactly when all that it mentions is in its table and all its
declarations are named. After that it does not matter what is answered about types beyond the
table: the resolution reports the same and ends the same. -/
theorem validation_suffices (snapshot : Snapshot) :
    (∀ checked, snapshot.validate = .ok checked ↔ checked = snapshot ∧ snapshot.Valid) ∧
    (snapshot.validate = .ok snapshot → ∀ oracle, snapshot.AnsweredBy oracle →
      ∀ settings, Resolution.of oracle settings = Resolution.of snapshot.oracle settings) := by
  constructor
  · intro checked
    rw [Snapshot.validate_eq_ok_iff, Snapshot.fault?_eq_none_iff_valid]
  · intro hvalid oracle hanswered settings
    have halike := hanswered.alike (Snapshot.closed_of_validate hvalid)
    have hsuffix : settings.tokenSuffix = settings.tokenSuffix ++ "" := String.append_empty.symm
    rw [halike.resolution rfl rfl hsuffix, TokenId.lengthen_empty, Resolution.mapIds_id]

/-- The code base of `genericStore` with an answer about every other handle: it stands for an
interface that extends itself, and is its own generic argument and its own product. -/
def crowdedStore : Oracle where
  declarations := genericStore.declarations
  symbol ty :=
    if ty.index < genericStore.types.length then genericStore.oracle.symbol ty
    else some ⟨"Crowd", .interface, some "crowd.ts"⟩
  text ty :=
    if ty.index < genericStore.types.length then genericStore.oracle.text ty else "Crowd<Crowd>"
  arguments ty :=
    if ty.index < genericStore.types.length then genericStore.oracle.arguments ty else [ty]
  bases ty :=
    if ty.index < genericStore.types.length then genericStore.oracle.bases ty else [ty]
  signatures ty :=
    if ty.index < genericStore.types.length then genericStore.oracle.signatures ty else [⟨[], ty⟩]

theorem genericStore_answeredBy : genericStore.AnsweredBy crowdedStore :=
  ⟨rfl, fun _ hty => if_pos hty, fun _ hty => if_pos hty, fun _ hty => if_pos hty,
    fun _ hty => if_pos hty, fun _ hty => if_pos hty⟩

theorem validation_suffices_crowdedStore :
    genericStore.validate = .ok genericStore ∧ genericStore.Valid ∧
    crowdedStore.bases ⟨5⟩ ≠ genericStore.oracle.bases ⟨5⟩ ∧
    Resolution.of crowdedStore {} = Resolution.of genericStore.oracle {} ∧
    ∃ plan, resolve crowdedStore {} = .ok plan ∧
      plan.ids = [⟨"StoreToken"⟩, ⟨"ItemToken"⟩, ⟨"ShopToken"⟩, ⟨"CacheToken"⟩, ⟨"openToken"⟩] := by
  have hvalid : genericStore.validate = .ok genericStore := by decide +kernel
  obtain ⟨haccepts, hsame⟩ := validation_suffices genericStore
  exact ⟨hvalid, ((haccepts genericStore).mp hvalid).2, by decide,
    hsame hvalid crowdedStore genericStore_answeredBy {}, exists_plan_of_any (by decide +kernel)⟩

end InjectionPlan

import InjectionPlan.Proofs.PassChain

/-!
# Plans refer to planned tokens

A plan names no token that it does not plan, and plans each token once, after every token that its
metadata names. The registry of the last state has all ids by `Context.Linked`, and the order of
emission has all ids of that registry.
-/

namespace InjectionPlan

namespace Plan

/-- The ids of the planned tokens in the order of emission. -/
def ids (plan : Plan) : List TokenId := plan.tokens.map fun planned => planned.token.id

/-- Every id of the plan is that of a planned token, and what a token refers to comes before it. -/
structure Referential (plan : Plan) : Prop where
  distinct : plan.ids.Nodup
  deps : ∀ planned ∈ plan.factories, ∀ id ∈ planned.factory.deps, id ∈ plan.ids
  products : ∀ planned ∈ plan.factories, planned.factory.productToken ∈ plan.ids
  targets : ∀ planned ∈ plan.factories, planned.target ∈ plan.ids
  factoryMetadata : ∀ planned ∈ plan.factories, ∀ id ∈ planned.factory.metadata.references,
    id ∈ plan.ids
  bindings : ∀ module ∈ plan.modules, ∀ binding ∈ module.bindings, binding.token ∈ plan.ids
  imports : ∀ id ∈ plan.imports.keys, id ∈ plan.ids
  implements : ∀ planned ∈ plan.tokens, planned.metadata.implements.Nodup
  generics : ∀ planned ∈ plan.tokens, planned.metadata.generics.Nodup
  earlier : ∀ (position : Nat) (planned : PlannedToken), plan.tokens[position]? = some planned →
    ∀ id ∈ planned.metadata.references, ∃ before < position, plan.ids[before]? = some id

end Plan

namespace Course

variable {oracle : Oracle} {settings : Settings} {plan : Plan}

theorem before_linked (course : Course oracle settings plan) : course.before.Linked :=
  (Resolution.keeps_beforeMetadata course.reaches).1

theorem linked (course : Course oracle settings plan) : course.described.Linked :=
  (Context.collectMetadata_keeps course.before_linked course.describes).1

theorem emitted (course : Course oracle settings plan) :
    (TokenGraph.ofRegistry course.described.registry course.described.metadata).Emitted
      course.order :=
  (TokenGraph.emitted_of_order (Context.closed_ofRegistry _ _) course.orders).1

/-- The tokens of the last registry are put in order, and nothing else. -/
theorem mem_order (course : Course oracle settings plan) {id : TokenId} :
    id ∈ course.order ↔ course.described.registry.knows id = true :=
  ((TokenGraph.emitted_of_order (Context.closed_ofRegistry _ _) course.orders).2 id).trans
    Registry.mem_ids

theorem tokens (course : Course oracle settings plan) : plan.tokens =
    (course.order.filterMap course.described.registry.entry?).map course.described.planned :=
  congrArg Plan.tokens course.plans

theorem ids (course : Course oracle settings plan) : plan.ids = course.order := by
  rw [Plan.ids, course.tokens, List.map_map]
  exact Registry.map_idFor_filterMap_entry? _ fun id hid => course.mem_order.mp hid

theorem mem_ids (course : Course oracle settings plan) {id : TokenId} :
    id ∈ plan.ids ↔ course.described.registry.knows id = true := by
  rw [course.ids, course.mem_order]

/-- A token is planned when it is minted. -/
theorem mem_tokens (course : Course oracle settings plan) {planned : PlannedToken} :
    planned ∈ plan.tokens ↔ ∃ minted ∈ course.described.registry.minted,
      course.described.planned minted = planned := by
  rw [course.tokens, List.mem_map]
  constructor
  · rintro ⟨minted, hmem, he⟩
    obtain ⟨id, -, hentry⟩ := List.mem_filterMap.mp hmem
    exact ⟨minted, (Registry.entry?_eq_some.mp hentry).1, he⟩
  · rintro ⟨minted, hmem, he⟩
    have hid := course.mem_order.mpr (Registry.knows_iff.mpr ⟨minted, hmem, rfl⟩)
    exact ⟨minted, List.mem_filterMap.mpr ⟨_, hid, Registry.entry?_eq_some.mpr ⟨hmem, rfl⟩⟩, he⟩

theorem factories (course : Course oracle settings plan) : plan.factories =
    course.described.factories.map fun resolved => ⟨resolved.factory, resolved.factory.target⟩ := by
  have hplan := congrArg Plan.factories course.plans
  simpa only [Context.plan, List.zipWith_map_right, List.zipWith_self] using hplan

/-- What a module binds is the target of a factory. -/
theorem binding_target (course : Course oracle settings plan) {module : ModulePlan}
    (hm : module ∈ plan.modules) {binding : Binding} (hb : binding ∈ module.bindings) :
    ∃ planned ∈ plan.factories, binding.token = planned.target := by
  rw [course.plans] at hm
  obtain ⟨entry, he, rfl⟩ := List.mem_map.mp hm
  obtain ⟨bound, hbound, htoken⟩ := course.binds entry he binding hb
  rw [course.factories]
  exact ⟨_, List.mem_map_of_mem hbound, htoken⟩

theorem factory_linked (course : Course oracle settings plan) {planned : PlannedFactory}
    (h : planned ∈ plan.factories) :
    planned.factory.Linked course.described.registry ∧
      planned.target = planned.factory.target := by
  rw [course.factories] at h
  obtain ⟨resolved, hr, rfl⟩ := List.mem_map.mp h
  exact ⟨course.linked.factories resolved hr, rfl⟩

theorem target_mem_ids (course : Course oracle settings plan) {planned : PlannedFactory}
    (h : planned ∈ plan.factories) : planned.target ∈ plan.ids := by
  obtain ⟨hlinked, htarget⟩ := course.factory_linked h
  rw [course.mem_ids, htarget]
  exact hlinked.knows_target

/-- The metadata of a planned token fits it. -/
theorem fits (course : Course oracle settings plan) (minted : Minted) :
    (course.described.planned minted).metadata.Fits course.described.registry
      (course.described.registry.idFor minted.name) := by
  change Metadata.Fits _ _ ((course.described.metadata.get?
    (course.described.registry.idFor minted.name)).getD {})
  cases hget : course.described.metadata.get? (course.described.registry.idFor minted.name) with
  | none => exact Metadata.fits_empty _ _
  | some metadata => exact course.linked.metadata _ metadata hget

/-- What a planned token refers to stands in the order before it. -/
theorem earlier (course : Course oracle settings plan) {minted : Minted} {position : Nat}
    (hposition : course.order[position]? = some (course.described.registry.idFor minted.name))
    {id : TokenId} (hid : id ∈ (course.described.planned minted).metadata.references) :
    ∃ before < position, course.order[before]? = some id := by
  obtain ⟨hlt, hnode⟩ := List.getElem?_eq_some_iff.mp hposition
  have hsplit : course.order = course.order.take position ++
      course.described.registry.idFor minted.name :: course.order.drop (position + 1) := by
    rw [← hnode, List.getElem_cons_drop, List.take_append_drop]
  obtain ⟨hknown, hne⟩ := (course.fits minted).known id hid
  have hedge : id ∈ TokenGraph.references course.described.registry course.described.metadata
      (course.described.registry.idFor minted.name) :=
    TokenGraph.mem_references.mpr ⟨hid, hne, hknown⟩
  have hbefore := course.emitted.earlier hsplit id hedge
  obtain ⟨before, hb, he⟩ := List.mem_take_iff_getElem.mp hbefore
  exact ⟨before, by omega, List.getElem?_eq_some_iff.mpr ⟨by omega, he⟩⟩

end Course

/-- Whatever the code base, a plan refers to planned tokens only, and to none before it is put
down. -/
theorem referential_of_resolve {oracle : Oracle} {settings : Settings} {plan : Plan}
    (h : resolve oracle settings = .ok plan) : plan.Referential := by
  obtain ⟨course⟩ := Course.exists_of_resolve h
  constructor
  case distinct => exact course.ids ▸ course.emitted.nodup
  case deps =>
    intro planned hp id hid
    exact course.mem_ids.mpr ((course.factory_linked hp).1.deps id hid)
  case products =>
    intro planned hp
    exact course.mem_ids.mpr (course.factory_linked hp).1.product
  case targets =>
    intro planned hp
    exact course.target_mem_ids hp
  case factoryMetadata =>
    intro planned hp id hid
    exact course.mem_ids.mpr ((course.factory_linked hp).1.metadata.known id hid).1
  case bindings =>
    intro module hm binding hb
    obtain ⟨planned, hp, htoken⟩ := course.binding_target hm hb
    exact htoken ▸ course.target_mem_ids hp
  case imports =>
    intro id hid
    rw [course.plans] at hid
    obtain ⟨entry, he, rfl⟩ := List.mem_map.mp (Table.keys_ofList_subset _ hid)
    obtain ⟨other, hother, hentry⟩ := List.mem_filterMap.mp he
    obtain ⟨file, -, rfl⟩ := Option.map_eq_some_iff.mp hentry
    exact course.ids ▸ hother
  case implements =>
    intro planned hp
    obtain ⟨minted, -, rfl⟩ := course.mem_tokens.mp hp
    exact (course.fits minted).implements
  case generics =>
    intro planned hp
    obtain ⟨minted, -, rfl⟩ := course.mem_tokens.mp hp
    exact (course.fits minted).generics
  case earlier =>
    intro position planned hplanned id hid
    obtain ⟨minted, -, rfl⟩ := course.mem_tokens.mp (List.mem_of_getElem? hplanned)
    have hposition : plan.ids[position]? =
        some (course.described.registry.idFor minted.name) := by
      rw [Plan.ids, List.getElem?_map, hplanned]
      rfl
    rw [course.ids] at hposition ⊢
    exact course.earlier hposition hid

/-- A class that implements a generic service with any number of implementations, and a service
that extends it. -/
def genericStore : Snapshot where
  types := [
    { text := "Item", symbol := some ⟨"Item", .interface, some "item.ts"⟩ },
    { text := "Store<Item>", symbol := some ⟨"Store", .interface, none⟩, arguments := [⟨0⟩] },
    { text := "Cache", symbol := some ⟨"Cache", .classType, none⟩, bases := [⟨1⟩] },
    { text := "Shop", symbol := some ⟨"Shop", .interface, none⟩, bases := [⟨1⟩] },
    { text := "(cache: Cache) => Store<Item>", signatures := [⟨[⟨"cache", ⟨2⟩⟩], ⟨1⟩⟩] }]
  declarations := [
    { name := "Store", kind := .interface, tags := [⟨"service", some "multi"⟩], type := ⟨1⟩ },
    { name := "Shop", kind := .interface, tags := [⟨"service", none⟩], type := ⟨3⟩ },
    { name := "Cache", kind := .classType, tags := [⟨"injectable", none⟩], type := ⟨2⟩ },
    { name := "open", kind := .function, tags := [⟨"injectable", none⟩], type := ⟨4⟩ }]

theorem referential_of_genericStore : ∃ plan, resolve genericStore.oracle {} = .ok plan ∧
    plan.ids = [⟨"StoreToken"⟩, ⟨"ItemToken"⟩, ⟨"ShopToken"⟩, ⟨"CacheToken"⟩, ⟨"openToken"⟩] ∧
    plan.Referential := by
  obtain ⟨plan, hplan, hids⟩ : ∃ plan, resolve genericStore.oracle {} = .ok plan ∧ plan.ids =
      [⟨"StoreToken"⟩, ⟨"ItemToken"⟩, ⟨"ShopToken"⟩, ⟨"CacheToken"⟩, ⟨"openToken"⟩] :=
    exists_plan_of_any (by decide +kernel)
  exact ⟨plan, hplan, hids, referential_of_resolve hplan⟩

end InjectionPlan

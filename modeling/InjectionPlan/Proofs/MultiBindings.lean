import InjectionPlan.Proofs.MultiServices

/-!
# What contributions are bound to

The factory of a contribution is bound to the token of its own name. That token belongs to the
factory alone as long as the name is not that of another contribution, and it is not a shared token
as long as the name is not that of a shared service. Both conditions are necessary: names are
requested without looking at what they were requested for before.
-/

namespace InjectionPlan

namespace Plan

variable {plan : Plan}

/-- No token that admits any number of implementations is bound. -/
def SharedUnbound (plan : Plan) : Prop :=
  ∀ shared ∈ plan.tokens, shared.token.cardinality = .multi →
    (∀ planned ∈ plan.factories, planned.target ≠ shared.token.id) ∧
      ∀ module ∈ plan.modules, ∀ binding ∈ module.bindings, binding.token ≠ shared.token.id

instance : Decidable plan.SharedUnbound :=
  inferInstanceAs (Decidable (∀ shared ∈ plan.tokens, shared.token.cardinality = .multi →
    (∀ planned ∈ plan.factories, planned.target ≠ shared.token.id) ∧
      ∀ module ∈ plan.modules, ∀ binding ∈ module.bindings, binding.token ≠ shared.token.id))

/-- Two factories that share their product are never bound to one token. -/
def ContributionsApart (plan : Plan) : Prop :=
  plan.factories.Pairwise fun a b =>
    a.factory.multi = true → b.factory.multi = true → a.target ≠ b.target

instance : Decidable plan.ContributionsApart :=
  inferInstanceAs (Decidable (plan.factories.Pairwise fun a b =>
    a.factory.multi = true → b.factory.multi = true → a.target ≠ b.target))

/-- The targets of the factories that share their product are different. -/
theorem contributionsApart_iff_nodup : plan.ContributionsApart ↔
    ((plan.factories.filter fun planned => planned.factory.multi).map
      PlannedFactory.target).Nodup := by
  rw [List.nodup_iff_pairwise_ne, List.pairwise_map, List.pairwise_filter]
  rfl

end Plan

/-- The slots of contributions among those of some declarations. -/
theorem Oracle.map_snd_filter_slots {oracle : Oracle} {settings : Settings}
    (declarations : List AnnotatedDeclaration) :
    ((declarations.filterMap (oracle.slot? settings)).filter Prod.fst).map Prod.snd =
      (declarations.filter (oracle.contributes settings.tagNames)).map fun contribution =>
        .derive contribution.declaration.qualifiedName settings.tokenSuffix := by
  induction declarations with
  | nil => rfl
  | cons annotated declarations ih =>
    rw [List.filterMap_cons, List.filter_cons, Oracle.slot?, Oracle.contributes]
    cases oracle.product? annotated with
    | none => simpa using ih
    | some product =>
      by_cases hmulti : oracle.IsMultiService settings.tagNames product
      · simpa [hmulti] using ih
      · simpa [hmulti] using ih

namespace Course

variable {oracle : Oracle} {settings : Settings} {plan : Plan} {name : String}

/-- The slots of the planned factories are those of the declarations. -/
theorem slots (course : Course oracle settings plan) :
    plan.factories.map (fun planned => (planned.factory.multi, planned.target)) =
      (oracle.annotated settings.tagNames).filterMap (oracle.slot? settings) := by
  obtain ⟨count, hturns, -⟩ := Context.collectMetadata_ok course.before_linked course.describes
  rw [← course.before_slots.2, ← Context.slots_turns hturns, course.factories, List.map_map]
  rfl

/-- The tokens of shared services, and no others, admit any number of implementations. -/
theorem isMultiService_of_mem (course : Course oracle settings plan) {shared : PlannedToken}
    (hmem : shared ∈ plan.tokens) (hmulti : shared.token.cardinality = .multi)
    (hid : shared.token.id = .derive name settings.tokenSuffix) :
    oracle.IsMultiService settings.tagNames name := by
  obtain ⟨minted, hminted, rfl⟩ := course.mem_tokens.mp hmem
  rw [← course.idFor] at hid
  have hname : minted.name = name := course.described.registry.idFor_injective hid
  exact (course.tells.multi name).mp ⟨minted, Registry.get?_eq_some.mpr ⟨hminted, hname⟩, hmulti⟩

theorem exists_of_isMultiService (course : Course oracle settings plan)
    (h : oracle.IsMultiService settings.tagNames name) : ∃ shared ∈ plan.tokens,
      shared.token.cardinality = .multi ∧
        shared.token.id = .derive name settings.tokenSuffix := by
  obtain ⟨minted, hget, hmulti⟩ := (course.tells.multi name).mpr h
  obtain ⟨hminted, rfl⟩ := Registry.get?_eq_some.mp hget
  refine ⟨_, course.mem_tokens.mpr ⟨minted, hminted, rfl⟩, hmulti, ?_⟩
  rw [← course.idFor]
  rfl

/-- A factory is bound to the name of a contribution or to a product that is not shared. -/
theorem target_cases (course : Course oracle settings plan) {planned : PlannedFactory}
    (h : planned ∈ plan.factories) :
    (∃ contribution ∈ oracle.contributions settings.tagNames, planned.target =
      .derive contribution.declaration.qualifiedName settings.tokenSuffix) ∨
    ∃ product, ¬ oracle.IsMultiService settings.tagNames product ∧
      planned.target = .derive product settings.tokenSuffix := by
  have hslot := List.mem_map_of_mem
    (f := fun planned : PlannedFactory => (planned.factory.multi, planned.target)) h
  rw [course.slots, List.mem_filterMap] at hslot
  obtain ⟨annotated, hannotated, hslot⟩ := hslot
  obtain ⟨product, hproduct, hslot⟩ := Option.map_eq_some_iff.mp hslot
  split at hslot
  · next hmulti =>
    refine Or.inl ⟨annotated, List.mem_filter.mpr ⟨hannotated, ?_⟩,
      (congrArg Prod.snd hslot).symm⟩
    simpa [Oracle.contributes, hproduct] using hmulti
  · next hsingle =>
    exact Or.inr ⟨product, hsingle, (congrArg Prod.snd hslot).symm⟩

/-- Each contribution has a factory that is bound to its name. -/
theorem exists_of_contribution (course : Course oracle settings plan)
    {contribution : AnnotatedDeclaration}
    (h : contribution ∈ oracle.contributions settings.tagNames) :
    ∃ planned ∈ plan.factories, planned.target =
      .derive contribution.declaration.qualifiedName settings.tokenSuffix := by
  obtain ⟨hannotated, hcontributes⟩ := List.mem_filter.mp h
  have hslot : oracle.slot? settings contribution =
      some (true, .derive contribution.declaration.qualifiedName settings.tokenSuffix) := by
    rw [Oracle.slot?]
    rw [Oracle.contributes] at hcontributes
    cases hproduct : oracle.product? contribution with
    | none => simp [hproduct] at hcontributes
    | some product =>
      rw [hproduct] at hcontributes
      have hmulti : oracle.IsMultiService settings.tagNames product :=
        of_decide_eq_true hcontributes
      rw [Option.map_some, if_pos hmulti]
  have hmem := List.mem_filterMap.mpr ⟨contribution, hannotated, hslot⟩
  rw [← course.slots] at hmem
  obtain ⟨planned, hplanned, he⟩ := List.mem_map.mp hmem
  exact ⟨planned, hplanned, congrArg Prod.snd he⟩

/-- The factories that share their product are those of the contributions, in order. -/
theorem targets_of_multi (course : Course oracle settings plan) :
    (plan.factories.filter fun planned => planned.factory.multi).map PlannedFactory.target =
      (oracle.contributions settings.tagNames).map fun contribution =>
        .derive contribution.declaration.qualifiedName settings.tokenSuffix := by
  have hslots := congrArg (fun slots => (slots.filter Prod.fst).map Prod.snd) course.slots
  simp only [List.filter_map, List.map_map] at hslots
  exact hslots.trans (Oracle.map_snd_filter_slots _)

end Course

/-- No shared token is bound exactly when no contribution has the name of a shared service. -/
theorem sharedUnbound_iff {oracle : Oracle} {settings : Settings} {plan : Plan}
    (h : resolve oracle settings = .ok plan) : plan.SharedUnbound ↔
      ∀ contribution ∈ oracle.contributions settings.tagNames,
        ¬ oracle.IsMultiService settings.tagNames contribution.declaration.qualifiedName := by
  obtain ⟨course⟩ := Course.exists_of_resolve h
  constructor
  · intro hunbound contribution hmem hmulti
    obtain ⟨planned, hplanned, htarget⟩ := course.exists_of_contribution hmem
    obtain ⟨shared, hshared, hcardinality, hid⟩ := course.exists_of_isMultiService hmulti
    exact (hunbound shared hshared hcardinality).1 planned hplanned (htarget.trans hid.symm)
  · intro hnames shared hshared hcardinality
    have htargets : ∀ planned ∈ plan.factories, planned.target ≠ shared.token.id := by
      intro planned hplanned he
      rcases course.target_cases hplanned with ⟨contribution, hmem, htarget⟩ |
        ⟨product, hsingle, htarget⟩
      · exact hnames contribution hmem
          (course.isMultiService_of_mem hshared hcardinality (he.symm.trans htarget))
      · exact hsingle (course.isMultiService_of_mem hshared hcardinality (he.symm.trans htarget))
    refine ⟨htargets, fun module hm binding hb he => ?_⟩
    obtain ⟨planned, hplanned, htoken⟩ := course.binding_target hm hb
    exact htargets planned hplanned (htoken.symm.trans he)

/-- Two ways to make a plugin, with names of their own. -/
def twoPlugins : Snapshot where
  types := [
    { text := "Plugin", symbol := some ⟨"Plugin", .interface, none⟩ },
    { text := "() => Plugin", signatures := [⟨[], ⟨0⟩⟩] }]
  declarations := [
    { name := "Plugin", kind := .interface, tags := [⟨"service", some "multi"⟩], type := ⟨0⟩ },
    { name := "first", kind := .function, tags := [⟨"injectable", none⟩], type := ⟨1⟩ },
    { name := "second", kind := .function, tags := [⟨"injectable", none⟩], type := ⟨1⟩ }]

theorem sharedUnbound_twoPlugins : ∃ plan, resolve twoPlugins.oracle {} = .ok plan ∧
    plan.factories.length = 2 ∧ plan.SharedUnbound := by
  obtain ⟨plan, hplan, hlength⟩ : ∃ plan, resolve twoPlugins.oracle {} = .ok plan ∧
      plan.factories.length = 2 := exists_plan_of_any (by decide +kernel)
  exact ⟨plan, hplan, hlength, (sharedUnbound_iff hplan).mpr (by decide +kernel)⟩

/-- A class that is a service with any number of implementations and its own implementation. -/
def selfPlugin : Snapshot where
  types := [{ text := "Plugin", symbol := some ⟨"Plugin", .classType, none⟩ }]
  declarations := [
    { name := "Plugin", kind := .classType, type := ⟨0⟩
      tags := [⟨"service", some "multi"⟩, ⟨"injectable", none⟩] }]

/-- The class is bound to the shared token, which its name stands for already. -/
theorem not_sharedUnbound_selfPlugin : selfPlugin.validate = .ok selfPlugin ∧
    ∃ plan, resolve selfPlugin.oracle {} = .ok plan ∧ ¬ plan.SharedUnbound := by
  have hfault : selfPlugin.fault? = none := by decide +kernel
  refine ⟨by rw [Snapshot.validate, hfault], ?_⟩
  exact exists_plan_of_any (by decide +kernel)

/-- The factories of contributions have different targets exactly when the contributions have
different names. -/
theorem contributionsApart_iff {oracle : Oracle} {settings : Settings} {plan : Plan}
    (h : resolve oracle settings = .ok plan) : plan.ContributionsApart ↔
      ((oracle.contributions settings.tagNames).map fun contribution =>
        contribution.declaration.qualifiedName).Nodup := by
  obtain ⟨course⟩ := Course.exists_of_resolve h
  rw [Plan.contributionsApart_iff_nodup, course.targets_of_multi]
  simp only [List.nodup_iff_pairwise_ne, List.pairwise_map, ne_eq, ← course.idFor,
    Registry.idFor_inj]

theorem contributionsApart_twoPlugins : ∃ plan, resolve twoPlugins.oracle {} = .ok plan ∧
    (plan.factories.filter fun planned => planned.factory.multi).length = 2 ∧
    plan.ContributionsApart := by
  obtain ⟨plan, hplan, hlength⟩ : ∃ plan, resolve twoPlugins.oracle {} = .ok plan ∧
      (plan.factories.filter fun planned => planned.factory.multi).length = 2 :=
    exists_plan_of_any (by decide +kernel)
  exact ⟨plan, hplan, hlength, (contributionsApart_iff hplan).mpr (by decide +kernel)⟩

/-- A function of a namespace and one with a point in its name, which have one qualified name. -/
def pointedPlugins : Snapshot where
  types := twoPlugins.types
  declarations := [
    { name := "Plugin", kind := .interface, tags := [⟨"service", some "multi"⟩], type := ⟨0⟩ },
    { name := "make.plugin", kind := .function, tags := [⟨"injectable", none⟩], type := ⟨1⟩ },
    { name := "plugin", scope := some "make", kind := .function
      tags := [⟨"injectable", none⟩], type := ⟨1⟩ }]

theorem not_contributionsApart_pointedPlugins : pointedPlugins.validate = .ok pointedPlugins ∧
    ∃ plan, resolve pointedPlugins.oracle {} = .ok plan ∧ ¬ plan.ContributionsApart := by
  have hfault : pointedPlugins.fault? = none := by decide +kernel
  refine ⟨by rw [Snapshot.validate, hfault], ?_⟩
  exact exists_plan_of_any (by decide +kernel)

end InjectionPlan

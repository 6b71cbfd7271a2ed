import InjectionPlan.Proofs.KeyedLists
import InjectionPlan.Proofs.MultiBindings
import InjectionPlan.Proofs.Reports

/-!
# Modules partition the factories

The bindings of a plan are its factories, grouped by module: the modules come in the order in which
factories name them first, and each binds its own factories in their order. What a factory is bound
to follows from the cardinality of its product; that it also looks at the metadata of the factory
never decides, because only a factory that shares its product has any.
-/

namespace InjectionPlan

/-- The binding of a factory. -/
def PlannedFactory.binding (planned : PlannedFactory) : Binding :=
  ⟨planned.target, planned.factory.name⟩

namespace Plan

/-- The factories of a module, in the order of discovery. -/
def factoriesOf (plan : Plan) (module : String) : List PlannedFactory :=
  plan.factories.filter fun planned => planned.factory.module = module

/-- The modules are the groups of the factories, in the order in which they are named first. -/
structure Partitioned (plan : Plan) : Prop where
  distinct : (plan.modules.map ModulePlan.name).Nodup
  ordered : plan.modules.map ModulePlan.name =
    firstOccurrences (plan.factories.map fun planned => planned.factory.module)
  inhabited : ∀ module ∈ plan.modules, module.bindings ≠ []
  bindings : ∀ module ∈ plan.modules,
    module.bindings = (plan.factoriesOf module.name).map PlannedFactory.binding
  complete : (plan.modules.flatMap ModulePlan.bindings).Perm
    (plan.factories.map PlannedFactory.binding)

/-- The cardinality of its product decides what the factory is bound to. -/
structure Settles (plan : Plan) (planned : PlannedFactory) : Prop where
  multi : ∃ token, plan.token? planned.factory.productToken = some token ∧
    (planned.factory.multi = true ↔ token.token.cardinality = .multi)
  target : planned.target =
    if planned.factory.multi then planned.factory.ownToken else planned.factory.productToken
  plain : planned.factory.multi = false → planned.factory.metadata = {}

/-- A planned token is found by its id. -/
theorem token?_eq_some {plan : Plan} (h : plan.ids.Nodup) {token : PlannedToken}
    (hmem : token ∈ plan.tokens) : plan.token? token.token.id = some token := by
  obtain ⟨found, hfound⟩ : ∃ found, plan.token? token.token.id = some found := by
    rw [← Option.isSome_iff_exists, token?, List.find?_isSome]
    exact ⟨token, hmem, by simp⟩
  have hid : found.token.id = token.token.id := by simpa using List.find?_some hfound
  rw [hfound, List.inj_on_of_nodup_map h (List.mem_of_find?_eq_some hfound) hmem hid]

end Plan

/-! ## Binding one factory after the other -/

namespace Context

variable (resolved : List ResolvedFactory) (modules : Table String (List Binding))

/-- A module is added when a factory names it first. -/
theorem keys_foldl_bindIn : (resolved.foldl bindIn modules).keys =
    (resolved.map fun bound => bound.factory.module).foldl appendNew modules.keys := by
  induction resolved generalizing modules with
  | nil => rfl
  | cons bound resolved ih =>
    have hkeys : (bindIn modules bound).keys = appendNew modules.keys bound.factory.module :=
      Table.keys_insert _ _ _
    rw [List.foldl_cons, ih, hkeys, List.map_cons, List.foldl_cons]

/-- A module gains the bindings of its own factories at the end, and of no others. -/
theorem getD_foldl_bindIn (module : String) :
    ((resolved.foldl bindIn modules).get? module).getD [] = (modules.get? module).getD [] ++
      (resolved.filter fun bound => bound.factory.module = module).map fun bound =>
        ⟨bound.factory.target, bound.factory.name⟩ := by
  induction resolved generalizing modules with
  | nil => simp
  | cons bound resolved ih =>
    have hget := modules.get?_insert bound.factory.module module
      (((modules.get? bound.factory.module).getD []) ++
        [⟨bound.factory.target, bound.factory.name⟩])
    rw [List.foldl_cons, ih, bindIn, hget]
    by_cases hmodule : bound.factory.module = module
    · rw [if_pos hmodule.symm, List.filter_cons_of_pos (by simpa using hmodule), hmodule]
      simp
    · have hother : ¬ module = bound.factory.module := fun he => hmodule he.symm
      rw [if_neg hother, List.filter_cons_of_neg (by simpa using hmodule)]

end Context

namespace Resolution

variable {oracle : Oracle} {settings : Settings} {plan : Plan}

/-- The factories of a plan are bound to their targets in an empty table. -/
theorem exists_bound (h : resolve oracle settings = .ok plan) :
    ∃ resolved : List ResolvedFactory,
      plan.factories = resolved.map (fun bound => ⟨bound.factory, bound.factory.target⟩) ∧
      plan.modules = (resolved.foldl Context.bindIn .empty).entries.map
        fun (name, bindings) => ⟨name, bindings⟩ := by
  have houtcome : (Resolution.of oracle settings).outcome = .ok plan := mapError_eq_ok.mp h
  rw [of_eq] at houtcome
  split at houtcome
  · cases houtcome
  · next derived hderived =>
    split at houtcome
    · cases houtcome
    · next made hmade =>
      obtain ⟨last, hlast, rfl⟩ := map_eq_ok.mp houtcome
      obtain ⟨hlinked, hadvances⟩ := keeps_beforeMetadata (reach_made hderived hmade)
      obtain ⟨start, -, hfactories, hmodules, htargets⟩ := Context.conclude_ok hlinked hlast
      rw [hadvances.modules] at hmodules
      rw [hadvances.targets] at htargets
      refine ⟨start.factories, ?_, ?_⟩
      · have htargets : last.targets = start.factories.map fun bound => bound.factory.target :=
          htargets
        simp only [Context.plan, hfactories, htargets, List.zipWith_map_right, List.zipWith_self]
      · rw [Context.plan, hmodules]
        rfl

end Resolution

namespace Plan

variable {oracle : Oracle} {settings : Settings} {plan : Plan}

/-- Each module has the bindings of its factories. -/
theorem partitioned_of_bound {resolved : List ResolvedFactory}
    (hfactories : plan.factories =
      resolved.map fun bound => ⟨bound.factory, bound.factory.target⟩)
    (hmodules : plan.modules = (resolved.foldl Context.bindIn .empty).entries.map
      fun (name, bindings) => ⟨name, bindings⟩) : plan.Partitioned := by
  have hnames : plan.modules.map ModulePlan.name =
      firstOccurrences (plan.factories.map fun planned => planned.factory.module) := by
    rw [hmodules, hfactories, List.map_map, List.map_map]
    exact Context.keys_foldl_bindIn resolved .empty
  have hdistinct : (plan.modules.map ModulePlan.name).Nodup :=
    hnames ▸ nodup_firstOccurrences _
  have hbindings : ∀ module ∈ plan.modules,
      module.bindings = (plan.factoriesOf module.name).map PlannedFactory.binding := by
    intro module hmodule
    rw [hmodules] at hmodule
    obtain ⟨⟨name, bindings⟩, hentry, rfl⟩ := List.mem_map.mp hmodule
    have hfound := Context.getD_foldl_bindIn resolved .empty name
    rw [Table.get?_eq_some_of_mem hentry] at hfound
    rw [factoriesOf, hfactories, List.filter_map, List.map_map]
    exact hfound
  have hnamed : ∀ planned ∈ plan.factories,
      planned.factory.module ∈ plan.modules.map ModulePlan.name := fun planned hplanned =>
    hnames ▸ mem_firstOccurrences.mpr (List.mem_map_of_mem hplanned)
  refine ⟨hdistinct, hnames, fun module hmodule hnil => ?_, hbindings, ?_⟩
  · have hname : module.name ∈ plan.factories.map fun planned => planned.factory.module :=
      mem_firstOccurrences.mp (hnames ▸ List.mem_map_of_mem hmodule)
    obtain ⟨planned, hplanned, hname⟩ := List.mem_map.mp hname
    rw [hbindings module hmodule, List.map_eq_nil_iff, factoriesOf, List.filter_eq_nil_iff] at hnil
    exact hnil planned hplanned (by simpa using hname)
  · have hgroups := (flatMap_filter_perm (fun planned : PlannedFactory => planned.factory.module)
      hdistinct hnamed).map PlannedFactory.binding
    rw [List.map_flatMap, List.flatMap_map] at hgroups
    rwa [List.flatMap_congr hbindings]

end Plan

namespace Course

variable {oracle : Oracle} {settings : Settings} {plan : Plan}

/-- What a planned factory was made as: the token of its product is that of a name, and it shares
the product when that is the name of a shared service. -/
theorem exists_product (course : Course oracle settings plan) {planned : PlannedFactory}
    (h : planned ∈ plan.factories) : ∃ product,
      planned.factory.productToken = .derive product settings.tokenSuffix ∧
      (planned.factory.multi = true ↔ oracle.IsMultiService settings.tagNames product) := by
  have hin : planned.factory.bare ∈ (oracle.factories settings).map ResolvedFactory.factory :=
    course.map_bare ▸ List.mem_map_of_mem h
  obtain ⟨resolved, hresolved, hbare⟩ := List.mem_map.mp hin
  obtain ⟨annotated, -, hmade⟩ := List.mem_filterMap.mp hresolved
  obtain ⟨call, -, hmade⟩ := Option.bind_eq_some_iff.mp hmade
  obtain ⟨product, -, rfl⟩ := Option.map_eq_some_iff.mp hmade
  have htoken : planned.factory.bare.productToken = _ := congrArg Factory.productToken hbare.symm
  have hmulti : planned.factory.bare.multi = _ := congrArg Factory.multi hbare.symm
  refine ⟨product, htoken, ?_⟩
  have hmulti : planned.factory.multi =
      decide (oracle.IsMultiService settings.tagNames product) := hmulti
  rw [hmulti, decide_eq_true_eq]

/-- The token of a product is planned, and admits any number of implementations exactly when the
factory shares it. -/
theorem settles (course : Course oracle settings plan) (hdistinct : plan.ids.Nodup)
    {planned : PlannedFactory} (h : planned ∈ plan.factories) : plan.Settles planned := by
  obtain ⟨hlinked, htarget⟩ := course.factory_linked h
  obtain ⟨product, hproduct, hmulti⟩ := course.exists_product h
  refine ⟨?_, ?_, hlinked.plain⟩
  · obtain ⟨minted, hminted, hid⟩ := Registry.knows_iff.mp hlinked.product
    have hmem := course.mem_tokens.mpr ⟨minted, hminted, rfl⟩
    have htoken : (course.described.planned minted).token.id = planned.factory.productToken := hid
    refine ⟨_, htoken ▸ Plan.token?_eq_some hdistinct hmem, hmulti.trans ⟨fun hservice => ?_, ?_⟩⟩
    · obtain ⟨shared, hshared, hcardinality, hsame⟩ := course.exists_of_isMultiService hservice
      have he := List.inj_on_of_nodup_map hdistinct hshared hmem
        (hsame.trans (hproduct.symm.trans htoken.symm))
      exact he ▸ hcardinality
    · exact fun hcardinality =>
        course.isMultiService_of_mem hmem hcardinality (htoken.trans hproduct)
  · rw [htarget]
    cases hshares : planned.factory.multi with
    | true => exact congrArg Prod.snd (Factory.slot_of_multi hshares)
    | false => exact congrArg Prod.snd (hlinked.slot_of_single hshares)

end Course

/-- In a plan the modules partition the factories, and each factory is bound as the cardinality of
its product asks. -/
theorem partitioned_of_resolve {oracle : Oracle} {settings : Settings} {plan : Plan}
    (h : resolve oracle settings = .ok plan) :
    plan.Partitioned ∧ ∀ planned ∈ plan.factories, plan.Settles planned := by
  obtain ⟨resolved, hfactories, hmodules⟩ := Resolution.exists_bound h
  obtain ⟨course⟩ := Course.exists_of_resolve h
  have hdistinct : plan.ids.Nodup := course.ids ▸ course.emitted.nodup
  exact ⟨Plan.partitioned_of_bound hfactories hmodules, fun planned hplanned =>
    course.settles hdistinct hplanned⟩

/-- Two modules that factories name in turns; one factory is bound to a token of its own. -/
def twoModules : Snapshot where
  types := [
    { text := "Plugin", symbol := some ⟨"Plugin", .interface, none⟩ },
    { text := "() => Plugin", signatures := [⟨[], ⟨0⟩⟩] },
    { text := "Clock", symbol := some ⟨"Clock", .interface, none⟩ },
    { text := "() => Clock", signatures := [⟨[], ⟨2⟩⟩] }]
  declarations := [
    { name := "Plugin", kind := .interface, tags := [⟨"service", some "multi"⟩], type := ⟨0⟩ },
    { name := "tick", kind := .function, tags := [⟨"injectable", none⟩], type := ⟨3⟩ },
    { name := "plug", kind := .function, type := ⟨1⟩
      tags := [⟨"injectable", none⟩, ⟨"module", some "plugins"⟩] },
    { name := "tock", kind := .function, tags := [⟨"injectable", none⟩], type := ⟨3⟩ }]

theorem partitioned_twoModules : ∃ plan, resolve twoModules.oracle {} = .ok plan ∧
    plan.modules =
      [⟨"default", [⟨⟨"ClockToken"⟩, "tick"⟩, ⟨⟨"ClockToken"⟩, "tock"⟩]⟩,
        ⟨"plugins", [⟨⟨"plugToken"⟩, "plug"⟩]⟩] ∧
    plan.Partitioned ∧ ∀ planned ∈ plan.factories, plan.Settles planned := by
  obtain ⟨plan, hplan, hmodules⟩ : ∃ plan, resolve twoModules.oracle {} = .ok plan ∧
      plan.modules =
        [⟨"default", [⟨⟨"ClockToken"⟩, "tick"⟩, ⟨⟨"ClockToken"⟩, "tock"⟩]⟩,
          ⟨"plugins", [⟨⟨"plugToken"⟩, "plug"⟩]⟩] :=
    exists_plan_of_any (by decide +kernel)
  exact ⟨plan, hplan, hmodules, partitioned_of_resolve hplan⟩

end InjectionPlan

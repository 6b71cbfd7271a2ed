import InjectionPlan.Proofs.EmissionOrder
import InjectionPlan.Proofs.FactoryPass
import InjectionPlan.Proofs.MetadataPass
import InjectionPlan.Proofs.TokenPasses

/-!
# The passes one after the other

A resolution that gives a plan went through a state after each pass. The first three passes are
kept together as `Pass.beforeMetadata`, since what they leave is what the order of minting in the
fourth pass depends on.
-/

namespace InjectionPlan

namespace Registry

/-- The tokens of known ids, in the order of the ids. -/
theorem map_idFor_filterMap_entry? (registry : Registry) {order : List TokenId}
    (h : ∀ id ∈ order, registry.knows id = true) :
    (order.filterMap registry.entry?).map (fun minted => registry.idFor minted.name) = order := by
  induction order with
  | nil => rfl
  | cons id order ih =>
    obtain ⟨minted, hm, hid⟩ := knows_iff.mp (h id List.mem_cons_self)
    rw [List.filterMap_cons_some (entry?_eq_some.mpr ⟨hm, hid⟩), List.map_cons, hid,
      ih fun other ho => h other (List.mem_cons_of_mem _ ho)]

end Registry

/-- An edge leads to each other token that the metadata names. -/
theorem TokenGraph.mem_references {registry : Registry} {metadata : Table TokenId Metadata}
    {id other : TokenId} : other ∈ TokenGraph.references registry metadata id ↔
      other ∈ ((metadata.get? id).getD {}).references ∧ other ≠ id ∧ registry.knows other = true := by
  rw [TokenGraph.references, mem_firstOccurrences, List.mem_filter]
  cases metadata.get? id with
  | none => simp [Metadata.references]
  | some found => simp

namespace Context

variable {context next : Context}

/-! ## The last two passes -/

/-- The references of tokens are tokens. -/
theorem closed_ofRegistry (registry : Registry) (metadata : Table TokenId Metadata) :
    (TokenGraph.ofRegistry registry metadata).Closed := by
  intro node _ target ht
  exact Registry.mem_ids.mpr (TokenGraph.mem_references.mp ht).2.2

theorem orderTokens_ok (hrun : context.orderTokens = .ok next) :
    ∃ order, (TokenGraph.ofRegistry context.registry context.metadata).order = .ok order ∧
      next = { context with order } := by
  rw [orderTokens, bind_eq_ok] at hrun
  obtain ⟨order, horder, hrun⟩ := hrun
  cases hrun
  exact ⟨order, horder, rfl⟩

/-- A factory adds a binding to its target and leaves the other bindings alone. -/
theorem binding_bindFactory {resolved : ResolvedFactory} {entry : String × List Binding}
    {binding : Binding} (he : entry ∈ (bindFactory context resolved).modules.entries)
    (hb : binding ∈ entry.2) : (∃ old ∈ context.modules.entries, binding ∈ old.2) ∨
      binding.token = resolved.factory.target := by
  rcases Table.mem_entries_insert he with rfl | hold
  · rcases List.mem_append.mp hb with hb | hb
    · unfold Context.bindings at hb
      cases hget : context.modules.get? resolved.factory.module with
      | none => simp [hget] at hb
      | some bindings =>
        rw [hget] at hb
        exact Or.inl ⟨_, Table.mem_of_get?_eq_some hget, hb⟩
    · rw [List.mem_singleton] at hb
      exact Or.inr (hb ▸ rfl)
  · exact Or.inl ⟨entry, hold, hb⟩

/-- Binding adds a target for each factory, and binds nothing but targets. -/
theorem foldl_bindFactory (resolved : List ResolvedFactory) (context : Context) :
    ∃ modules, resolved.foldl bindFactory context =
        { context with
          modules
          targets := context.targets ++ resolved.map fun resolved => resolved.factory.target } ∧
      ∀ entry ∈ modules.entries, ∀ binding ∈ entry.2,
        (∃ entry ∈ context.modules.entries, binding ∈ entry.2) ∨
          ∃ bound ∈ resolved, binding.token = bound.factory.target := by
  induction resolved generalizing context with
  | nil => exact ⟨context.modules, by simp, fun entry he binding hb => Or.inl ⟨entry, he, hb⟩⟩
  | cons first rest ih =>
    obtain ⟨modules, he, hbindings⟩ := ih (bindFactory context first)
    refine ⟨modules, ?_, fun entry hentry binding hb => ?_⟩
    · rw [List.foldl_cons, he, List.map_cons]
      simp [bindFactory]
    · rcases hbindings entry hentry binding hb with ⟨old, hold, hb⟩ | ⟨bound, hbound, htarget⟩
      · exact (binding_bindFactory hold hb).imp_right fun htarget =>
          ⟨first, List.mem_cons_self, htarget⟩
      · exact Or.inr ⟨bound, List.mem_cons_of_mem _ hbound, htarget⟩

theorem registry_bindFactories (context : Context) :
    context.bindFactories.registry = context.registry := by
  obtain ⟨modules, h, -⟩ := foldl_bindFactory context.factories context
  rw [bindFactories, h]

/-- The modules with one more factory bound. -/
def bindIn (modules : Table String (List Binding)) (resolved : ResolvedFactory) :
    Table String (List Binding) :=
  modules.insert resolved.factory.module (((modules.get? resolved.factory.module).getD []) ++
    [⟨resolved.factory.target, resolved.factory.name⟩])

theorem bindFactories_eq (context : Context) : context.bindFactories = { context with
    modules := context.factories.foldl bindIn context.modules
    targets := context.targets ++ context.factories.map fun resolved => resolved.factory.target } := by
  have hmodules : context.bindFactories.modules = context.factories.foldl bindIn context.modules :=
    (List.foldl_hom Context.modules fun _ _ => rfl).symm
  obtain ⟨modules, hbound, -⟩ := foldl_bindFactory context.factories context
  rw [bindFactories, hbound] at hmodules ⊢
  rw [← hmodules]

/-! ## The whole chain -/

theorem Linked.drained (h : context.Linked) : context.drained.Linked := h.report []

theorem Advances.drained {allowed : Minted → Prop} (h : Advances allowed context next) :
    Advances allowed context next.drained :=
  ⟨h.oracle, h.settings, h.declarations, h.targets, h.modules, h.registry⟩

end Context

namespace Pass

/-- The passes before that of metadata. -/
def beforeMetadata : List Pass := [.registration, .autoDetection, .factories]

end Pass

namespace Resolution

/-- The state after some passes. -/
def reach (passes : List Pass) (context : Context) : Except ResolveError Context :=
  passes.foldlM (fun context pass => do
    let next ← pass.run context
    pure next.drained) context

theorem reach_cons {pass : Pass} {passes : List Pass} {context last : Context} :
    reach (pass :: passes) context = .ok last ↔
      ∃ next, pass.run context = .ok next ∧ reach passes next.drained = .ok last := by
  rw [reach, List.foldlM_cons, bind_eq_ok]
  constructor
  · rintro ⟨mid, hstep, hrest⟩
    rw [bind_eq_ok] at hstep
    obtain ⟨next, hrun, hstep⟩ := hstep
    cases hstep
    exact ⟨next, hrun, hrest⟩
  · rintro ⟨next, hrun, hrest⟩
    exact ⟨next.drained, by rw [hrun]; rfl, hrest⟩

/-- A resolution gives a plan when all its passes succeed. -/
theorem resume_eq_ok {passes : List Pass} {context : Context} {reported : List Diagnostic}
    {plan : Plan} (h : (resume passes context reported).outcome = .ok plan) :
    ∃ last diagnostics, reach passes context = .ok last ∧ plan = last.plan diagnostics := by
  induction passes generalizing context reported with
  | nil =>
    cases h
    exact ⟨context, reported, rfl, rfl⟩
  | cons pass passes ih =>
    rw [resume] at h
    cases hrun : pass.run context with
    | error error =>
      rw [hrun] at h
      cases h
    | ok next =>
      rw [hrun] at h
      obtain ⟨last, diagnostics, hreach, hplan⟩ := ih h
      exact ⟨last, diagnostics, reach_cons.mpr ⟨next, hrun, hreach⟩, hplan⟩

/-- The first two passes succeed when the second one does. -/
theorem reach_derivation {context last : Context}
    (h : reach [.registration, .autoDetection] context = .ok last) : ∃ derived,
      context.registerServices.drained.deriveTokens = .ok derived ∧ last = derived.drained := by
  obtain ⟨registered, hregistered, hrest⟩ := reach_cons.mp h
  obtain ⟨derived, hderived, hend⟩ := reach_cons.mp hrest
  cases hregistered
  cases hend
  exact ⟨derived, hderived, rfl⟩

/-- The pass of factories goes on where the first two passes end. -/
theorem reach_factories {context before : Context}
    (h : reach Pass.beforeMetadata context = .ok before) : ∃ derived made,
      reach [.registration, .autoDetection] context = .ok derived ∧
      derived.resolveFactories = .ok made ∧ before = made.drained := by
  obtain ⟨derived, hderived, hrest⟩ :=
    foldlM_append_eq_ok.mp (show reach ([.registration, .autoDetection] ++ [.factories]) context =
      .ok before from h)
  obtain ⟨made, hmade, hend⟩ := reach_cons.mp hrest
  cases hend
  exact ⟨derived, made, hderived, hmade, rfl⟩

theorem reach_beforeMetadata {context before : Context}
    (h : reach Pass.beforeMetadata context = .ok before) : ∃ derived made,
      context.registerServices.drained.deriveTokens = .ok derived ∧
      derived.drained.resolveFactories = .ok made ∧ before = made.drained := by
  obtain ⟨registered, hregistered, hrest⟩ := reach_cons.mp h
  obtain ⟨derived, hderived, hlast⟩ := reach_cons.mp hrest
  obtain ⟨made, hmade, hend⟩ := reach_cons.mp hlast
  cases hregistered
  cases hend
  exact ⟨derived, made, hderived, hmade, rfl⟩

/-- What the first three passes keep. -/
theorem keeps_beforeMetadata {oracle : Oracle} {settings : Settings} {before : Context}
    (h : reach Pass.beforeMetadata (.start oracle settings) = .ok before) :
    before.Linked ∧ Context.Advances (fun _ => True) (.start oracle settings) before := by
  obtain ⟨derived, made, hderived, hmade, rfl⟩ := reach_beforeMetadata h
  have hstart := Context.Linked.start oracle settings
  obtain ⟨hregistered, hfirst⟩ := Context.registerServices_keeps hstart
  obtain ⟨hderived, hsecond⟩ := Context.deriveTokens_keeps hregistered.drained hderived
  obtain ⟨hmade, hthird⟩ := Context.resolveFactories_keeps hderived.drained hmade
  refine ⟨hmade.drained, .trans (hfirst.drained.weaken fun _ _ => trivial) ?_⟩
  exact (hsecond.drained.trans hthird.drained).weaken fun _ _ => trivial

end Resolution

/-- What can be decided of a plan is decided by running the resolution. -/
theorem exists_plan_of_any {oracle : Oracle} {settings : Settings} {holds : Plan → Prop}
    [DecidablePred holds]
    (h : ((resolve oracle settings).toOption.any fun plan => decide (holds plan)) = true) :
    ∃ plan, resolve oracle settings = .ok plan ∧ holds plan :=
  exists_ok_of_any h

/-- The states through which a resolution comes to its plan. -/
structure Course (oracle : Oracle) (settings : Settings) (plan : Plan) where
  before : Context
  described : Context
  order : List TokenId
  modules : Table String (List Binding)
  diagnostics : List Diagnostic
  reaches : Resolution.reach Pass.beforeMetadata (.start oracle settings) = .ok before
  describes : before.collectMetadata = .ok described
  orders : (TokenGraph.ofRegistry described.registry described.metadata).order = .ok order
  binds : ∀ entry ∈ modules.entries, ∀ binding ∈ entry.2,
    ∃ bound ∈ described.factories, binding.token = bound.factory.target
  plans : plan = Context.plan { described with
    order, modules
    targets := described.factories.map fun resolved => resolved.factory.target } diagnostics

namespace Course

variable {oracle : Oracle} {settings : Settings} {plan : Plan}

theorem exists_of_resolve (h : resolve oracle settings = .ok plan) :
    Nonempty (Course oracle settings plan) := by
  have houtcome : (Resolution.of oracle settings).outcome = .ok plan := by
    unfold resolve at h
    cases hrun : (Resolution.of oracle settings).outcome with
    | error abort =>
      rw [hrun] at h
      cases h
    | ok found =>
      rw [hrun] at h
      cases h
      rfl
  obtain ⟨last, diagnostics, hreach, hplan⟩ := Resolution.resume_eq_ok houtcome
  have hsplit : Resolution.reach (Pass.beforeMetadata ++ [.metadata, .ordering, .planning])
      (.start oracle settings) = .ok last := hreach
  obtain ⟨before, hbefore, hrest⟩ := foldlM_append_eq_ok.mp hsplit
  obtain ⟨described, hdescribed, hrest⟩ := Resolution.reach_cons.mp hrest
  obtain ⟨ordered, hordered, hrest⟩ := Resolution.reach_cons.mp hrest
  obtain ⟨bound, hbound, hrest⟩ := Resolution.reach_cons.mp hrest
  cases hrest
  cases hbound
  obtain ⟨order, horder, rfl⟩ := Context.orderTokens_ok hordered
  obtain ⟨hlinked, hfirst⟩ := Resolution.keeps_beforeMetadata hbefore
  obtain ⟨-, hsecond⟩ := Context.collectMetadata_keeps hlinked hdescribed
  obtain ⟨modules, hbind, hbindings⟩ := Context.foldl_bindFactory described.factories
    { described.drained with order }
  have htargets : described.targets = [] := hsecond.targets.trans hfirst.targets
  have hmodules : described.modules = .empty := hsecond.modules.trans hfirst.modules
  refine ⟨⟨before, described, order, modules, diagnostics, hbefore, hdescribed, horder, ?_, ?_⟩⟩
  · intro entry hentry binding hb
    rcases hbindings entry hentry binding hb with ⟨old, hold, -⟩ | hbound
    · have hempty : old ∈ described.modules.entries := hold
      rw [hmodules] at hempty
      cases hempty
    · exact hbound
  · rw [hplan]
    change Context.plan (described.factories.foldl Context.bindFactory
      { described.drained with order }) diagnostics = _
    rw [hbind]
    simp only [Context.drained, htargets, List.nil_append]
    rfl

end Course

end InjectionPlan

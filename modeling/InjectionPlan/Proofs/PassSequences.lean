import InjectionPlan.Proofs.DerivationOrigins
import InjectionPlan.Proofs.RegistryRequests

/-!
# Passes in any order

A state is reached by passes in any order, repeated or left out, with the diagnostics taken in
between or not. Whatever was done before, a pass that succeeds only adds to what it finds:
`Context.Extends` says for each part of a state how. It rests on what is true of every reached
state, `Context.Sound`: the keys of all tables are tokens, so what is inserted under a new name
cannot replace anything.
-/

namespace InjectionPlan

open Registry (Growth Asked)

namespace Registry

/-- The tokens in the order of their first requests, with their origins. -/
def tokens (registry : Registry) : List (Token × Origin) :=
  registry.minted.map fun minted => (registry.tokenOf minted, minted.origin)

/-- Every file that is recorded is that of a token, and none is without a path. -/
def Filed (registry : Registry) : Prop :=
  ∀ entry ∈ registry.imports.entries, registry.knows entry.1 = true ∧ entry.2 ≠ ""

variable {allowed : Minted → Prop} {files : String → String → Prop} {old new : Registry}

theorem Growth.tokens_prefix (growth : Growth allowed old new) : old.tokens <+: new.tokens := by
  obtain ⟨added, hminted, -⟩ := growth.minted
  have hsame : (fun minted => (new.tokenOf minted, minted.origin)) =
      fun minted => (old.tokenOf minted, minted.origin) := by
    funext minted
    rw [tokenOf, growth.suffix, tokenOf]
  rw [tokens, tokens, hsame, hminted, List.map_append]
  exact List.prefix_append _ _

theorem Filed.request (h : old.Filed) (name : String) (cardinality : Cardinality)
    (origin : Origin) : (old.request name cardinality origin).Filed := by
  have hgrowth : Growth (fun _ => True) old (old.request name cardinality origin) :=
    growth_request old trivial
  intro entry hentry
  rw [imports_request] at hentry
  exact ⟨hgrowth.knows (h entry hentry).1, (h entry hentry).2⟩

/-- A file is recorded for a token only, and only if it has a path. -/
theorem Filed.record (h : old.Filed) (id : TokenId) (file : String) :
    (old.record id file).Filed := by
  have hgrowth := growth_record (fun _ => True) old id file
  intro entry hentry
  have hget := Table.get?_eq_some_of_mem hentry
  rw [get?_imports_record, Option.or_eq_some_iff] at hget
  rcases hget with hold | ⟨-, hnew⟩
  · have hentry := h entry (Table.mem_of_get?_eq_some hold)
    exact ⟨hgrowth.knows hentry.1, hentry.2⟩
  · split at hnew
    · next hrecorded =>
      obtain ⟨hid, hpath, hknown⟩ := hrecorded
      cases hnew
      exact ⟨hgrowth.knows (hid ▸ hknown), hpath⟩
    · cases hnew

theorem Asked.filed (h : Asked allowed files old new) (hold : old.Filed) : new.Filed := by
  induction h with
  | refl => exact hold
  | request _ _ ih => exact ih.request _ _ _
  | record _ _ ih => exact ih.record _ _

end Registry

/-- The factory as it is before it is described, with the type of its product. -/
def ResolvedFactory.bare (resolved : ResolvedFactory) : ResolvedFactory :=
  { resolved with factory := resolved.factory.bare }

/-- The factory stands next to the type that it produces. -/
def ResolvedFactory.Paired (oracle : Oracle) (suffix : String) (resolved : ResolvedFactory) :
    Prop :=
  oracle.named? resolved.productType = some resolved.factory.product ∧
    resolved.factory.productToken = .derive resolved.factory.product suffix

namespace Context

/-- States to which passes lead, in any order, with the diagnostics taken at any time. -/
inductive Reached (oracle : Oracle) (settings : Settings) : Context → Prop
  | start : Reached oracle settings (.start oracle settings)
  | pass {context next : Context} (pass : Pass) : Reached oracle settings context →
      pass.run context = .ok next → Reached oracle settings next
  | drain {context : Context} : Reached oracle settings context →
      Reached oracle settings context.drained

/-- The second state has what the first one has, and more only at the ends. -/
structure Extends (before after : Context) : Prop where
  tokens : before.registry.tokens <+: after.registry.tokens
  imports : before.registry.imports.entries <+: after.registry.imports.entries
  derivations : before.derivations.entries <+: after.derivations.entries
  factories : before.factories.map ResolvedFactory.bare <+:
    after.factories.map ResolvedFactory.bare
  targets : before.targets <+: after.targets
  modules : before.modules.keys <+: after.modules.keys
  bindings : ∀ module, before.bindings module <+: after.bindings module

/-- The ids of a state are the names of its tokens with the suffix, and it keeps no other ids. -/
structure Registered (oracle : Oracle) (settings : Settings) (context : Context) : Prop where
  ids : ∀ entry ∈ context.registry.tokens,
    entry.1.id = .derive entry.1.displayName settings.tokenSuffix
  distinct : (context.registry.tokens.map fun entry => entry.1.id).Nodup
  imports : context.registry.Filed
  derivations : ∀ entry ∈ context.derivations.entries, context.registry.knows entry.1 = true ∧
    ∀ id ∈ entry.2.references, context.registry.knows id = true
  factories : ∀ resolved ∈ context.factories, resolved.Paired oracle settings.tokenSuffix ∧
    context.registry.knows resolved.factory.productToken = true ∧
    (∀ id ∈ resolved.factory.deps, context.registry.knows id = true) ∧
    ∀ id ∈ resolved.factory.metadata.references, context.registry.knows id = true
  metadata : ∀ entry ∈ context.metadata.entries, context.registry.knows entry.1 = true ∧
    ∀ id ∈ entry.2.references, context.registry.knows id = true
  order : ∀ id ∈ context.order, context.registry.knows id = true
  targets : ∀ id ∈ context.targets, context.registry.knows id = true
  bindings : ∀ module, ∀ binding ∈ context.bindings module,
    context.registry.knows binding.token = true

/-- What is true of every reached state. -/
structure Sound (oracle : Oracle) (settings : Settings) (context : Context) : Prop where
  declarations : context.declarations = oracle.annotated settings.tagNames
  suffix : context.registry.suffix = settings.tokenSuffix
  filed : context.registry.Filed
  linked : context.Linked
  derived : context.Derived oracle
  metadata : ∀ id ∈ context.metadata.keys, context.registry.knows id = true
  paired : ∀ resolved ∈ context.factories, resolved.Paired oracle settings.tokenSuffix

variable {oracle : Oracle} {settings : Settings} {context next : Context}
  {allowed : Minted → Prop}

namespace Extends

variable {before mid after : Context}

theorem refl (context : Context) : context.Extends context :=
  ⟨List.prefix_rfl, List.prefix_rfl, List.prefix_rfl, List.prefix_rfl, List.prefix_rfl,
    List.prefix_rfl, fun _ => List.prefix_rfl⟩

theorem trans (first : before.Extends mid) (second : mid.Extends after) :
    before.Extends after :=
  ⟨first.tokens.trans second.tokens, first.imports.trans second.imports,
    first.derivations.trans second.derivations, first.factories.trans second.factories,
    first.targets.trans second.targets, first.modules.trans second.modules,
    fun module => (first.bindings module).trans (second.bindings module)⟩

/-- A pass that binds nothing leaves the derivations and the factories to look at. -/
theorem of_advances (h : Advances allowed before after)
    (hderivations : before.derivations.entries <+: after.derivations.entries)
    (hfactories : before.factories.map ResolvedFactory.bare <+:
      after.factories.map ResolvedFactory.bare) : before.Extends after where
  tokens := h.registry.tokens_prefix
  imports := h.registry.imports
  derivations := hderivations
  factories := hfactories
  targets := h.targets ▸ List.prefix_rfl
  modules := h.modules ▸ List.prefix_rfl
  bindings module := by
    have hsame : after.bindings module = before.bindings module := by
      simp only [Context.bindings, h.modules]
    exact hsame ▸ List.prefix_rfl

end Extends

namespace Sound

theorem start (oracle : Oracle) (settings : Settings) :
    (Context.start oracle settings).Sound oracle settings where
  declarations := rfl
  suffix := rfl
  filed entry h := by cases h
  linked := .start oracle settings
  derived := ⟨rfl, fun entry h => by cases h⟩
  metadata id h := by cases h
  paired resolved h := by cases h

theorem drained (h : context.Sound oracle settings) : context.drained.Sound oracle settings :=
  ⟨h.declarations, h.suffix, h.filed, h.linked.drained, ⟨h.derived.codeBase, h.derived.derivations⟩,
    h.metadata, h.paired⟩

/-- A pass that binds nothing leaves the tables and the factories to look at. -/
theorem advance (h : context.Sound oracle settings) (hlinked : next.Linked)
    (hadvances : Advances allowed context next) {asked : Minted → Prop}
    {files : String → String → Prop} (hasked : Asked asked files context.registry next.registry)
    (hderived : next.Derived oracle)
    (hmetadata : ∀ id ∈ next.metadata.keys, next.registry.knows id = true)
    (hpaired : ∀ resolved ∈ next.factories, resolved.Paired oracle settings.tokenSuffix) :
    next.Sound oracle settings where
  declarations := hadvances.declarations.trans h.declarations
  suffix := hadvances.registry.suffix.trans h.suffix
  filed := hasked.filed h.filed
  linked := hlinked
  derived := hderived
  metadata := hmetadata
  paired := hpaired

/-- Everything that `Registered` asks for is kept in reached states. -/
theorem registered (h : context.Sound oracle settings) : context.Registered oracle settings where
  ids entry hentry := by
    obtain ⟨minted, -, rfl⟩ := List.mem_map.mp hentry
    exact congrArg (TokenId.derive minted.name) h.suffix
  distinct := by
    rw [Registry.tokens, List.map_map]
    exact context.registry.nodup_ids
  imports := h.filed
  derivations := by
    rintro ⟨id, metadata⟩ hentry
    obtain ⟨minted, hminted, -, hid, -⟩ := h.derived.derivations _ hentry
    have hget := Table.get?_eq_some_of_mem hentry
    exact ⟨Registry.knows_iff.mpr ⟨minted, hminted, hid.symm⟩, fun other ho =>
      ((h.linked.derivations id metadata hget).known other ho).1⟩
  factories resolved hresolved := by
    have hlinked := h.linked.factories resolved hresolved
    exact ⟨h.paired resolved hresolved, hlinked.product, hlinked.deps, fun id hid =>
      (hlinked.metadata.known id hid).1⟩
  metadata := by
    rintro ⟨id, metadata⟩ hentry
    have hget := Table.get?_eq_some_of_mem hentry
    exact ⟨h.metadata id (List.mem_map_of_mem hentry), fun other ho =>
      ((h.linked.metadata id metadata hget).known other ho).1⟩
  order := h.linked.order
  targets := h.linked.targets
  bindings module binding hbinding := by
    unfold Context.bindings at hbinding
    cases hget : context.modules.get? module with
    | none => simp [hget] at hbinding
    | some bindings =>
      rw [hget, Option.getD_some] at hbinding
      exact h.linked.bindings _ (Table.mem_of_get?_eq_some hget) binding hbinding

/-! ## Passes -/

theorem registerServices (h : context.Sound oracle settings) :
    context.registerServices.Sound oracle settings ∧
      context.Extends context.registerServices := by
  obtain ⟨hlinked, hadvances⟩ := registerServices_keeps h.linked
  have hasked := asked_registerServices context
  have hderived := h.derived.grow hadvances.registry
  obtain ⟨registry, he⟩ := registerServices_eq context
  rw [he] at hlinked hadvances hasked hderived ⊢
  have hmetadata : ∀ id ∈ context.metadata.keys, registry.knows id = true := fun id hid =>
    hadvances.registry.knows (h.metadata id hid)
  exact ⟨h.advance hlinked hadvances hasked hderived hmetadata h.paired,
    .of_advances hadvances List.prefix_rfl List.prefix_rfl⟩

theorem deriveTokens (h : context.Sound oracle settings) (hrun : context.deriveTokens = .ok next) :
    next.Sound oracle settings ∧ context.Extends next := by
  obtain ⟨hlinked, hadvances⟩ := deriveTokens_keeps h.linked hrun
  have hasked := asked_deriveTokens hrun
  obtain ⟨hderived, hderivations⟩ : next.Derived oracle ∧
      context.derivations.entries <+: next.derivations.entries := by
    refine deriveTokens_induction (fun state => state.Derived oracle ∧
      context.derivations.entries <+: state.derivations.entries) ?_
      ⟨h.derived, List.prefix_rfl⟩ hrun
    intro annotated hmem state last ⟨hstate, hprefix⟩ hstep
    rw [h.declarations] at hmem
    obtain ⟨declaration, hdeclared, rfl⟩ := List.mem_map.mp hmem
    refine ⟨hstate.deriveToken hdeclared hstep, ?_⟩
    -- the declaration had no token, so its derivation has a new key
    rcases deriveToken_gains hstate hdeclared hstep with rfl | ⟨_, _, _, hgains⟩
    · exact hprefix
    · rw [hgains.derivations]
      exact hprefix.trans (List.prefix_append _ _)
  obtain ⟨registry, derivations, rfl⟩ := deriveTokens_eq hrun
  have hmetadata : ∀ id ∈ context.metadata.keys, registry.knows id = true := fun id hid =>
    hadvances.registry.knows (h.metadata id hid)
  exact ⟨h.advance hlinked hadvances hasked hderived hmetadata h.paired,
    .of_advances hadvances hderivations List.prefix_rfl⟩

theorem resolveFactories (h : context.Sound oracle settings)
    (hrun : context.resolveFactories = .ok next) :
    next.Sound oracle settings ∧ context.Extends next := by
  obtain ⟨hlinked, hadvances⟩ := resolveFactories_keeps h.linked hrun
  have hasked := asked_resolveFactories hrun
  obtain ⟨-, -, hfactories, hpaired⟩ : next.oracle = oracle ∧
      next.registry.suffix = settings.tokenSuffix ∧ context.factories <+: next.factories ∧
      ∀ resolved ∈ next.factories, resolved.Paired oracle settings.tokenSuffix := by
    refine foldlM_keeps (fun state : Context => state.oracle = oracle ∧
      state.registry.suffix = settings.tokenSuffix ∧ context.factories <+: state.factories ∧
      ∀ resolved ∈ state.factories, resolved.Paired oracle settings.tokenSuffix) ?_
      ⟨h.derived.codeBase, h.suffix, List.prefix_rfl, h.paired⟩ hrun
    intro annotated _ state last ⟨hsame, hsuffix, hprefix, hpaired⟩ hstep
    rcases asked_resolveFactory hstep with ⟨pending, rfl⟩ |
      ⟨call, registry, pending, factory, -, rfl, -, hnamed, htoken, hneeds⟩
    · exact ⟨hsame, hsuffix, hprefix, hpaired⟩
    · have hsuffix : registry.suffix = settings.tokenSuffix := hneeds.growth.suffix.trans hsuffix
      refine ⟨hsame, hsuffix, hprefix.trans (List.prefix_append _ _), ?_⟩
      intro resolved hresolved
      rcases List.mem_append.mp hresolved with hold | hnew
      · exact hpaired resolved hold
      · rw [List.mem_singleton] at hnew
        subst hnew
        rw [hsame] at hnamed
        rw [Registry.idFor, hsuffix] at htoken
        exact ⟨hnamed, htoken⟩
  obtain ⟨registry, pending, factories, rfl⟩ := resolveFactories_eq hrun
  have hderived := h.derived.grow hadvances.registry
  have hmetadata : ∀ id ∈ context.metadata.keys, registry.knows id = true := fun id hid =>
    hadvances.registry.knows (h.metadata id hid)
  exact ⟨h.advance hlinked hadvances hasked ⟨hderived.codeBase, hderived.derivations⟩ hmetadata
    hpaired, .of_advances hadvances List.prefix_rfl (hfactories.map ResolvedFactory.bare)⟩

end Sound

/-! ### Metadata -/

@[simp]
theorem derivations_describe (context : Context) (id : TokenId) (metadata : Metadata) :
    (context.describe id metadata).derivations = context.derivations := by
  unfold describe
  split
  · rfl
  · rfl

theorem mem_keys_describe {id other : TokenId} {metadata : Metadata}
    (h : other ∈ (context.describe id metadata).metadata.keys) :
    other = id ∨ other ∈ context.metadata.keys := by
  unfold describe at h
  split at h
  · exact Or.inr h
  · have hkeys : other ∈ (context.metadata.insert id metadata).keys := h
    rw [Table.keys_insert] at hkeys
    split at hkeys
    · exact Or.inr hkeys
    · rw [List.mem_append, List.mem_singleton] at hkeys
      exact hkeys.symm

/-- The state has metadata for tokens only, and the derivations of another one. -/
def Keyed (before state : Context) : Prop :=
  state.derivations = before.derivations ∧ ∀ id ∈ state.metadata.keys, state.registry.knows id = true

theorem Keyed.describe {before state : Context} (h : before.Keyed state)
    {registry : Registry} (growth : Growth allowed state.registry registry) {id : TokenId}
    (hid : registry.knows id = true) (metadata : Metadata) :
    before.Keyed ({ state with registry }.describe id metadata) := by
  refine ⟨?_, fun other hother => ?_⟩
  · rw [derivations_describe]
    exact h.1
  · rw [registry_describe]
    rcases mem_keys_describe hother with rfl | hold
    · exact hid
    · exact growth.knows (h.2 other hold)

theorem keyed_turns (h : context.Sound oracle settings) {position : Nat}
    (hrun : context.turns position = .ok next) : context.Keyed next := by
  induction position generalizing next with
  | zero =>
    refine (describeFactories_induction h.linked context.Keyed ?_ ⟨rfl, h.metadata⟩ hrun).2.2
    intro resolved hmem state last hlinked hadvances hstate hstep
    have hgrowth := (asked_describeFactory hstep).growth
    rcases describeFactory_ok hstep with ⟨-, rfl⟩ | ⟨hmulti, walk, -, described, rfl, rfl⟩
    · exact hstate
    · -- a factory that shares its product has a token of its own
      have hown := hadvances.registry.knows ((h.linked.factories resolved hmem).own hmulti)
      dsimp only at hgrowth
      rw [registry_describe] at hgrowth
      exact hstate.describe hgrowth (hgrowth.knows hown) walk.metadata
  | succ position ih =>
    obtain ⟨before, hbefore, hturn⟩ := turns_succ.mp hrun
    rcases hturn with ⟨-, rfl⟩ | ⟨minted, hminted, hstep⟩
    · exact ih hbefore
    · have hgrowth := (asked_describeToken hstep).growth
      rcases describeToken_ok hstep with ⟨-, rfl⟩ | ⟨-, walk, -, rfl⟩
      · exact ih hbefore
      · rw [registry_describe] at hgrowth
        have hknown : before.registry.knows (before.registry.idFor minted.name) = true :=
          Registry.knows_iff.mpr ⟨minted, List.mem_of_getElem? hminted, rfl⟩
        exact (ih hbefore).describe hgrowth (hgrowth.knows hknown) walk.metadata

namespace Sound

theorem collectMetadata (h : context.Sound oracle settings)
    (hrun : context.collectMetadata = .ok next) :
    next.Sound oracle settings ∧ context.Extends next := by
  obtain ⟨hlinked, hadvances⟩ := collectMetadata_keeps h.linked hrun
  have hasked := asked_collectMetadata h.linked hrun
  obtain ⟨count, hturns, -⟩ := collectMetadata_ok h.linked hrun
  obtain ⟨hderivations, hmetadata⟩ := keyed_turns h hturns
  have hbare : next.factories.map ResolvedFactory.bare =
      context.factories.map ResolvedFactory.bare :=
    map_factories_turns ResolvedFactory.bare (fun _ _ _ => rfl) hturns
  have hderived : next.Derived oracle := by
    have hgrown := h.derived.grow hadvances.registry
    refine ⟨hadvances.oracle.trans h.derived.codeBase, ?_⟩
    rw [hderivations]
    exact hgrown.derivations
  have hpaired : ∀ resolved ∈ next.factories, resolved.Paired oracle settings.tokenSuffix := by
    intro resolved hresolved
    have hin : resolved.bare ∈ context.factories.map ResolvedFactory.bare :=
      hbare ▸ List.mem_map_of_mem hresolved
    obtain ⟨old, hold, hsame⟩ := List.mem_map.mp hin
    have hpaired : old.bare.Paired oracle settings.tokenSuffix := h.paired old hold
    rw [hsame] at hpaired
    exact hpaired
  exact ⟨h.advance hlinked hadvances hasked hderived hmetadata hpaired,
    .of_advances hadvances (hderivations ▸ List.prefix_rfl) (hbare ▸ List.prefix_rfl)⟩

/-! ### Order and bindings -/

theorem orderTokens (h : context.Sound oracle settings) (hrun : context.orderTokens = .ok next) :
    next.Sound oracle settings ∧ context.Extends next := by
  obtain ⟨order, horder, rfl⟩ := orderTokens_ok hrun
  have hknown : ∀ id ∈ order, context.registry.knows id = true := fun id hid =>
    Registry.mem_ids.mp
      (((TokenGraph.emitted_of_order (closed_ofRegistry _ _) horder).2 id).mp hid)
  have hlinked : { context with order }.Linked :=
    ⟨h.linked.derivations, h.linked.factories, h.linked.metadata, hknown, h.linked.targets,
      h.linked.bindings⟩
  have hadvances : Advances (fun _ => True) context { context with order } :=
    ⟨rfl, rfl, rfl, rfl, rfl, .refl _ _⟩
  exact ⟨⟨h.declarations, h.suffix, h.filed, hlinked, ⟨h.derived.codeBase, h.derived.derivations⟩,
    h.metadata, h.paired⟩, .of_advances hadvances List.prefix_rfl List.prefix_rfl⟩

theorem bindings_bindFactory (context : Context) (resolved : ResolvedFactory) (module : String) :
    context.bindings module <+: (context.bindFactory resolved).bindings module := by
  have hget := context.modules.get?_insert resolved.factory.module module
    (context.bindings resolved.factory.module ++
      [⟨resolved.factory.target, resolved.factory.name⟩])
  show context.bindings module <+: ((context.modules.insert _ _).get? module).getD []
  rw [hget]
  by_cases hmodule : module = resolved.factory.module
  · rw [if_pos hmodule, hmodule]
    exact List.prefix_append _ _
  · rw [if_neg hmodule]
    exact List.prefix_rfl

theorem bindFactory (h : context.Sound oracle settings) {resolved : ResolvedFactory}
    (hresolved : resolved.factory.Linked context.registry) :
    (context.bindFactory resolved).Sound oracle settings ∧
      context.Extends (context.bindFactory resolved) := by
  have htarget := hresolved.knows_target
  have hlinked : (context.bindFactory resolved).Linked := by
    refine ⟨h.linked.derivations, h.linked.factories, h.linked.metadata, h.linked.order, ?_, ?_⟩
    · intro id hid
      rcases List.mem_append.mp hid with hold | hnew
      · exact h.linked.targets id hold
      · rw [List.mem_singleton] at hnew
        exact hnew ▸ htarget
    · intro entry hentry binding hbinding
      rcases binding_bindFactory hentry hbinding with ⟨old, hold, hbinding⟩ | hnew
      · exact h.linked.bindings old hold binding hbinding
      · rw [hnew]
        exact htarget
  have hkeys : context.modules.keys <+: (context.bindFactory resolved).modules.keys := by
    show _ <+: (context.modules.insert _ _).keys
    rw [Table.keys_insert]
    split
    · exact List.prefix_rfl
    · exact List.prefix_append _ _
  exact ⟨⟨h.declarations, h.suffix, h.filed, hlinked, ⟨h.derived.codeBase, h.derived.derivations⟩,
    h.metadata, h.paired⟩,
    ⟨List.prefix_rfl, List.prefix_rfl, List.prefix_rfl, List.prefix_rfl, List.prefix_append _ _,
      hkeys, bindings_bindFactory context resolved⟩⟩

theorem bindFactories (h : context.Sound oracle settings) :
    context.bindFactories.Sound oracle settings ∧ context.Extends context.bindFactories := by
  suffices context.bindFactories.registry = context.registry ∧
      context.bindFactories.Sound oracle settings ∧ context.Extends context.bindFactories from this.2
  refine List.foldlRecOn (motive := fun state : Context => state.registry = context.registry ∧
    state.Sound oracle settings ∧ context.Extends state) _ _ ⟨rfl, h, .refl context⟩ ?_
  intro state ⟨hregistry, hsound, hextends⟩ resolved hresolved
  have hlinked : resolved.factory.Linked state.registry :=
    hregistry ▸ h.linked.factories resolved hresolved
  obtain ⟨hnext, hstep⟩ := hsound.bindFactory hlinked
  exact ⟨hregistry, hnext, hextends.trans hstep⟩

theorem run (h : context.Sound oracle settings) {pass : Pass} (hrun : pass.run context = .ok next) :
    next.Sound oracle settings ∧ context.Extends next := by
  cases pass with
  | registration =>
    cases hrun
    exact h.registerServices
  | autoDetection => exact h.deriveTokens hrun
  | factories => exact h.resolveFactories hrun
  | metadata => exact h.collectMetadata hrun
  | ordering => exact h.orderTokens hrun
  | planning =>
    cases hrun
    exact h.bindFactories

end Sound

theorem Reached.sound (h : Reached oracle settings context) : context.Sound oracle settings := by
  induction h with
  | start => exact .start oracle settings
  | pass pass _ hrun ih => exact (ih.run hrun).1
  | drain _ ih => exact ih.drained

end Context

/-- The states of a resolution are reached. -/
theorem Resolution.reached_of_reach {oracle : Oracle} {settings : Settings} {passes : List Pass}
    {context last : Context} (h : Context.Reached oracle settings context)
    (hreach : Resolution.reach passes context = .ok last) :
    Context.Reached oracle settings last := by
  induction passes generalizing context with
  | nil =>
    cases hreach
    exact h
  | cons pass passes ih =>
    obtain ⟨next, hrun, hrest⟩ := reach_cons.mp hreach
    exact ih (h.pass pass hrun).drain hrest

/-- Passes only add, in whatever order they run: a pass that succeeds from a reached state extends
it, and before and after all ids are the names of tokens with the suffix. -/
theorem extends_of_reached {oracle : Oracle} {settings : Settings} {context : Context}
    (h : Context.Reached oracle settings context) :
    context.Registered oracle settings ∧ ∀ (pass : Pass) (next : Context),
      pass.run context = .ok next → context.Extends next ∧ next.Registered oracle settings := by
  have hsound := h.sound
  refine ⟨hsound.registered, fun pass next hrun => ?_⟩
  obtain ⟨hnext, hextends⟩ := hsound.run hrun
  exact ⟨hextends, hnext.registered⟩

/-- Factories are made once more after they were described; the new ones come without metadata. -/
theorem extends_of_reached_genericStore : ∃ context next,
    Context.Reached genericStore.oracle {} context ∧
    Pass.factories.run context = .ok next ∧
    next.factories.map (fun resolved => (resolved.factory.name, resolved.factory.metadata.isEmpty)) =
      [("Cache", true), ("open", false), ("Cache", true), ("open", true)] ∧
    context.Extends next ∧ next.Registered genericStore.oracle {} := by
  obtain ⟨next, hrun, hnames⟩ : ∃ next, (Resolution.reach
      [.registration, .factories, .metadata, .planning] (.start genericStore.oracle {}) >>=
        Pass.factories.run) = .ok next ∧ next.factories.map
      (fun resolved => (resolved.factory.name, resolved.factory.metadata.isEmpty)) =
        [("Cache", true), ("open", false), ("Cache", true), ("open", true)] :=
    exists_ok_of_any (by decide +kernel)
  obtain ⟨context, hcontext, hnext⟩ := bind_eq_ok.mp hrun
  have hreached := Resolution.reached_of_reach .start hcontext
  obtain ⟨hextends, hregistered⟩ := (extends_of_reached hreached).2 .factories next hnext
  exact ⟨context, next, hreached, hnext, hnames, hextends, hregistered⟩

end InjectionPlan

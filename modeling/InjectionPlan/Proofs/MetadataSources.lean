import InjectionPlan.Proofs.DerivationOrigins
import InjectionPlan.Proofs.FactoryScan

/-!
# Where metadata comes from

The metadata of a token is put together from what the token inherits from, from the type that its
name declares, and from what factories of its name contribute. Nothing else is ever named there:
each step of the pass of metadata keeps that everything described so far is drawn from such
sources.
-/

namespace InjectionPlan

open Registry (Growth)

/-- A type that the token of a name may refer to: one that the declared type of the name extends,
one that a declaration of the name may inherit from, or one that the product of a factory of the
name extends. -/
inductive Oracle.Source (oracle : Oracle) (settings : Settings) (name : String)
    (origin : Origin) : TypeId → Prop where
  | declared {subject ty : TypeId} : oracle.declaredType? name = some subject →
      oracle.Extends subject ty → Source oracle settings name origin ty
  | inherited {declaration : Declaration} {ty : TypeId} : origin = .autoDetected →
      declaration ∈ oracle.declarations → declaration.exported = true →
      declaration.kind.isTypeLike = true → declaration.qualifiedName = name →
      ty ∈ oracle.candidates declaration → Source oracle settings name origin ty
  | contributed {resolved : ResolvedFactory} {ty : TypeId} :
      resolved ∈ oracle.factories settings → resolved.factory.multi = true →
      resolved.factory.ownToken = .derive name settings.tokenSuffix →
      oracle.Extends resolved.productType ty → Source oracle settings name origin ty

/-- What is implemented are tokens of sources, and the generics are tokens of what is nested in
sources that are implemented. -/
structure Metadata.DrawnFrom (metadata : Metadata) (oracle : Oracle) (suffix : String)
    (source : TypeId → Prop) : Prop where
  implements : ∀ id ∈ metadata.implements, ∃ ty name, source ty ∧
    oracle.named? ty = some name ∧ id = .derive name suffix
  generics : ∀ id ∈ metadata.generics, ∃ ty name, source ty ∧ oracle.named? ty = some name ∧
    .derive name suffix ∈ metadata.implements ∧ ∃ argument nested, oracle.Nests ty argument ∧
      oracle.named? argument = some nested ∧ id = .derive nested suffix

/-- The metadata of every planned token is drawn from the sources of the token. -/
def Plan.MetadataSound (plan : Plan) (oracle : Oracle) (settings : Settings) : Prop :=
  ∀ planned ∈ plan.tokens, planned.metadata.DrawnFrom oracle settings.tokenSuffix
    (oracle.Source settings planned.token.displayName planned.origin)

theorem Metadata.drawnFrom_empty (oracle : Oracle) (suffix : String) (source : TypeId → Prop) :
    ({} : Metadata).DrawnFrom oracle suffix source :=
  ⟨by simp, by simp⟩

/-- A walk over sources finds what is drawn from them. -/
theorem Walk.drawnFrom_foldlM_arrive {oracle : Oracle} {subject : Subject} {types : List TypeId}
    {walk last : Walk} {suffix : String} {source : TypeId → Prop}
    (hs : Settled oracle subject walk) (hsuffix : walk.registry.suffix = suffix)
    (hstart : walk.metadata.DrawnFrom oracle suffix source) (hsource : ∀ ty ∈ types, source ty)
    (hrun : types.foldlM (arrive oracle subject) walk = .ok last) :
    last.metadata.DrawnFrom oracle suffix source := by
  subst hsuffix
  have hmet : ∀ ty name, Meets oracle subject types walk ty name →
      source ty ∧ oracle.named? ty = some name := by
    rintro ty name ⟨before, after, mid, rfl, -, hnotices⟩
    exact ⟨hsource ty (by simp), hnotices.1⟩
  constructor
  · intro id hid
    rcases (mem_implements_iff hs hrun).mp hid with hin | ⟨ty, name, hmeets, rfl⟩
    · exact hstart.implements id hin
    · exact ⟨ty, name, (hmet ty name hmeets).1, (hmet ty name hmeets).2, rfl⟩
  · intro id hid
    rcases (mem_generics_iff hs hrun).mp hid with hin |
      ⟨ty, name, hmeets, -, argument, nested, hnests, hnested, rfl⟩
    · obtain ⟨ty, name, hty, hname, himplements, hrest⟩ := hstart.generics id hin
      exact ⟨ty, name, hty, hname, (mem_implements_iff hs hrun).mpr (Or.inl himplements), hrest⟩
    · refine ⟨ty, name, (hmet ty name hmeets).1, (hmet ty name hmeets).2, ?_, argument, nested,
        hnests, hnested, rfl⟩
      exact (mem_implements_iff hs hrun).mpr (Or.inr ⟨ty, name, hmeets, rfl⟩)

namespace Context

variable {context next state : Context} {oracle : Oracle} {settings : Settings} {minted : Minted}
  {resolved : ResolvedFactory}

/-- The state has described tokens by their sources, and knows what tokens inherit from. -/
structure Describes (context : Context) (oracle : Oracle) (settings : Settings) : Prop where
  derived : context.Derived oracle
  suffix : context.registry.suffix = settings.tokenSuffix
  metadata : ∀ id metadata, context.metadata.get? id = some metadata →
    ∃ minted ∈ context.registry.minted, context.registry.idFor minted.name = id ∧
      metadata.DrawnFrom oracle settings.tokenSuffix
        (oracle.Source settings minted.name minted.origin)

namespace Describes

theorem grow (h : context.Describes oracle settings) {allowed : Minted → Prop}
    {registry : Registry} (growth : Growth allowed context.registry registry) :
    { context with registry }.Describes oracle settings := by
  refine ⟨h.derived.grow growth, growth.suffix.trans h.suffix, fun id metadata hget => ?_⟩
  obtain ⟨minted, hminted, hid, hdrawn⟩ := h.metadata id metadata hget
  exact ⟨minted, growth.mem hminted, (growth.idFor _).trans hid, hdrawn⟩

theorem describe (h : context.Describes oracle settings) {metadata : Metadata}
    (hminted : minted ∈ context.registry.minted)
    (hdrawn : metadata.DrawnFrom oracle settings.tokenSuffix
      (oracle.Source settings minted.name minted.origin)) :
    (context.describe (context.registry.idFor minted.name) metadata).Describes oracle
      settings := by
  unfold Context.describe
  split
  · exact h
  · refine ⟨⟨h.derived.codeBase, h.derived.derivations⟩, h.suffix, fun id found hget => ?_⟩
    rw [Table.get?_insert] at hget
    split at hget
    · next he =>
      cases hget
      exact ⟨minted, hminted, he.symm, hdrawn⟩
    · exact h.metadata id found hget

/-- What a token inherits from is one of its sources. -/
theorem drawnFrom_tokenWalk (h : context.Describes oracle settings)
    (hminted : minted ∈ context.registry.minted) :
    (context.tokenWalk minted.name).metadata.DrawnFrom oracle settings.tokenSuffix
      (oracle.Source settings minted.name minted.origin) := by
  unfold tokenWalk
  cases hget : context.derivations.get? (context.registry.idFor minted.name) with
  | none => exact Metadata.drawnFrom_empty _ _ _
  | some metadata =>
    obtain ⟨other, hother, horigin, hid, declaration, candidate, base, hinherits⟩ :=
      h.derived.derivations _ (Table.mem_of_get?_eq_some hget)
    obtain rfl := Registry.eq_of_name hminted hother (Registry.idFor_inj.mp hid)
    have hsource : oracle.Source settings minted.name minted.origin candidate :=
      .inherited horigin hinherits.declared hinherits.exported hinherits.kind hinherits.qualified
        hinherits.offered
    have hid : ∀ name, context.registry.idFor name = .derive name settings.tokenSuffix :=
      fun name => h.suffix ▸ rfl
    constructor
    · intro id hmem
      rw [Option.getD_some, Walk.metadata, hinherits.implements, List.mem_singleton] at hmem
      exact ⟨candidate, base, hsource, hinherits.named, hmem.trans (hid base)⟩
    · intro id hmem
      obtain ⟨-, argument, nested, hnests, hnested, rfl⟩ := (hinherits.generics id).mp hmem
      refine ⟨candidate, base, hsource, hinherits.named, ?_, argument, nested, hnests, hnested,
        hid nested⟩
      rw [Option.getD_some, Walk.metadata, hinherits.implements, List.mem_singleton, hid]

/-- A turn describes its token by its sources. -/
theorem describeToken (h : context.Describes oracle settings)
    (hminted : minted ∈ context.registry.minted) (hrun : context.describeToken minted = .ok next) :
    next.Describes oracle settings := by
  rcases describeToken_ok hrun with ⟨-, rfl⟩ | ⟨-, walk, hwalk, rfl⟩
  · exact h
  · rw [h.derived.codeBase] at hwalk
    have hsettled : Walk.Settled oracle (context.subjectOf minted.name)
        (context.tokenWalk minted.name) := Walk.settled_start rfl
    have hgrowth := growth_arrive_all hsettled hwalk
    have hdrawn := Walk.drawnFrom_foldlM_arrive hsettled h.suffix (h.drawnFrom_tokenWalk hminted)
      (fun ty hty => ?_) hwalk
    · have hnext := (h.grow hgrowth).describe (hgrowth.mem hminted) hdrawn
      rwa [hgrowth.idFor] at hnext
    · unfold Oracle.lineageOf at hty
      split at hty
      · next subject hsubject => exact .declared hsubject (Oracle.mem_lineage.mp hty)
      · cases hty

/-- A factory that shares its product describes the token of its name. -/
theorem describeFactory (h : context.Describes oracle settings)
    (hresolved : resolved ∈ oracle.factories settings)
    (hknown : resolved.factory.multi = true →
      context.registry.knows resolved.factory.ownToken = true)
    (hrun : context.describeFactory resolved = .ok next) : next.Describes oracle settings := by
  rcases describeFactory_ok hrun with ⟨-, rfl⟩ | ⟨hmulti, walk, hwalk, described, rfl, rfl⟩
  · exact ⟨⟨h.derived.codeBase, h.derived.derivations⟩, h.suffix, h.metadata⟩
  · rw [h.derived.codeBase] at hwalk
    have hsettled : Walk.Settled oracle ⟨resolved.factory.ownToken, resolved.factory.name⟩
        { registry := context.registry } := Walk.settled_start rfl
    have hgrowth := growth_arrive_all hsettled hwalk
    obtain ⟨minted, hminted, hid⟩ := Registry.knows_iff.mp (hknown hmulti)
    have hown : resolved.factory.ownToken = .derive minted.name settings.tokenSuffix := by
      rw [← hid, ← h.suffix]
      rfl
    have hsource : ∀ ty ∈ oracle.lineage resolved.productType,
        oracle.Source settings minted.name minted.origin ty := fun ty hty =>
      .contributed hresolved hmulti hown (Oracle.mem_lineage.mp hty)
    have hdrawn := Walk.drawnFrom_foldlM_arrive hsettled h.suffix
      (Metadata.drawnFrom_empty _ _ _) hsource hwalk
    have hnext := (h.grow hgrowth).describe (hgrowth.mem hminted) hdrawn
    rw [hgrowth.idFor, hid] at hnext
    exact ⟨⟨hnext.derived.codeBase, hnext.derived.derivations⟩, hnext.suffix, hnext.metadata⟩

theorem describeFactories (h : context.Describes oracle settings) (hlinked : context.Linked)
    (hfactories : context.factories = oracle.factories settings)
    (hrun : context.describeFactories = .ok next) : next.Describes oracle settings := by
  refine (describeFactories_induction hlinked (fun state => state.Describes oracle settings) ?_
    ⟨⟨h.derived.codeBase, h.derived.derivations⟩, h.suffix, h.metadata⟩ hrun).2.2
  intro resolved hmem state last _ hadvances hstate hstep
  have hfactory := (hlinked.factories resolved hmem).grow hadvances.registry
  exact hstate.describeFactory (hfactories ▸ hmem) hfactory.own hstep

/-- Whatever turn it is, all that is described is drawn from sources. -/
theorem turns (h : context.Describes oracle settings) (hlinked : context.Linked)
    (hfactories : context.factories = oracle.factories settings) {position : Nat}
    (hrun : context.turns position = .ok state) : state.Describes oracle settings := by
  induction position generalizing state with
  | zero => exact h.describeFactories hlinked hfactories hrun
  | succ position ih =>
    obtain ⟨before, hbefore, ⟨-, rfl⟩ | ⟨minted, hminted, hstep⟩⟩ := turns_succ.mp hrun
    · exact ih hbefore
    · exact (ih hbefore).describeToken (List.mem_of_getElem? hminted) hstep

end Describes

/-- Before the pass of metadata nothing is described. -/
theorem describes_beforeMetadata {before : Context}
    (h : Resolution.reach Pass.beforeMetadata (.start oracle settings) = .ok before) :
    before.Describes oracle settings := by
  obtain ⟨derived, made, hderived, hmade, rfl⟩ := Resolution.reach_factories h
  obtain ⟨hscans, -, -⟩ := scans_of_reach hderived
  obtain ⟨-, hadvances⟩ := resolveFactories_keeps hscans.linked hmade
  have hempty : derived.metadata = .empty := by
    obtain ⟨last, hlast, rfl⟩ := Resolution.reach_derivation hderived
    obtain ⟨registry, derivations, rfl⟩ := deriveTokens_eq hlast
    obtain ⟨registry, hstart⟩ := registerServices_eq (Context.start oracle settings)
    rw [hstart]
    rfl
  obtain ⟨registry, pending, factories, rfl⟩ := resolveFactories_eq hmade
  have hgrown := (derived_of_reach hderived).1.grow hadvances.registry
  refine ⟨⟨hgrown.codeBase, hgrown.derivations⟩,
    hadvances.registry.suffix.trans hscans.tells.suffix, fun id metadata hget => ?_⟩
  have hget : derived.metadata.get? id = some metadata := hget
  rw [hempty] at hget
  cases hget

end Context

/-- A plan names a token in the metadata of another only for a source of that one, and the
factories of the plan are those of the code base, metadata aside. -/
theorem metadataSound_of_resolve {oracle : Oracle} {settings : Settings} {plan : Plan}
    (h : resolve oracle settings = .ok plan) : plan.MetadataSound oracle settings ∧
      plan.factories.map (fun planned => planned.factory.bare) =
        (oracle.factories settings).map ResolvedFactory.factory := by
  obtain ⟨course⟩ := Course.exists_of_resolve h
  have hdescribes := Context.describes_beforeMetadata course.reaches
  obtain ⟨-, hfactories⟩ := Context.scans_beforeMetadata course.reaches
  obtain ⟨count, hturns, -⟩ := Context.collectMetadata_ok course.before_linked course.describes
  have hdescribed := hdescribes.turns course.before_linked hfactories hturns
  refine ⟨fun planned hplanned => ?_, course.map_bare⟩
  obtain ⟨minted, hminted, rfl⟩ := course.mem_tokens.mp hplanned
  have hmetadata : (course.described.planned minted).metadata =
      (course.described.metadata.get? (course.described.registry.idFor minted.name)).getD {} :=
    rfl
  rw [hmetadata]
  cases hget : course.described.metadata.get?
      (course.described.registry.idFor minted.name) with
  | none => exact Metadata.drawnFrom_empty _ _ _
  | some metadata =>
    obtain ⟨other, hother, hid, hdrawn⟩ := hdescribed.metadata _ metadata hget
    obtain rfl := Registry.eq_of_name hother hminted (Registry.idFor_inj.mp hid)
    exact hdrawn

theorem metadataSound_genericStore : ∃ plan, resolve genericStore.oracle {} = .ok plan ∧
    (∃ planned ∈ plan.tokens, planned.token.id = ⟨"openToken"⟩ ∧
      planned.metadata = ⟨[⟨"StoreToken"⟩], [⟨"ItemToken"⟩]⟩) ∧
    plan.MetadataSound genericStore.oracle {} := by
  obtain ⟨plan, hplan, hopen⟩ : ∃ plan, resolve genericStore.oracle {} = .ok plan ∧
      ∃ planned ∈ plan.tokens, planned.token.id = ⟨"openToken"⟩ ∧
        planned.metadata = ⟨[⟨"StoreToken"⟩], [⟨"ItemToken"⟩]⟩ :=
    exists_plan_of_any (by decide +kernel)
  exact ⟨plan, hplan, hopen, (metadataSound_of_resolve hplan).1⟩

end InjectionPlan

import InjectionPlan.Proofs.KeyedLists
import InjectionPlan.Proofs.MetadataSources
import InjectionPlan.Proofs.MetadataTurns

/-!
# The metadata of a contribution and of its token

A factory that shares its product has metadata, and the token of its name gets the same metadata
when the factories are described. If that token was not minted for a factory, it has a turn too, and
what is found on that turn replaces what the factory gave it.
-/

namespace InjectionPlan

/-- The factory shares a product of another name, and no other factory has its name. -/
structure Plan.SoleContribution (plan : Plan) (planned : PlannedFactory) : Prop where
  mem : planned ∈ plan.factories
  multi : planned.factory.multi = true
  apart : planned.factory.ownToken ≠ planned.factory.productToken
  sole : (plan.factories.countP fun other => other.factory.name = planned.factory.name) = 1

/-- The own token of the factory is planned with the metadata of the factory and refers to the
product. -/
def Plan.Agrees (plan : Plan) (planned : PlannedFactory) : Prop :=
  ∃ token ∈ plan.tokens, token.token.id = planned.factory.ownToken ∧
    token.metadata = planned.factory.metadata ∧
    planned.factory.productToken ∈ token.metadata.implements

/-- Every contribution that is told from others by its name agrees with its token. -/
def Plan.MetadataAgrees (plan : Plan) : Prop :=
  ∀ planned, plan.SoleContribution planned → plan.Agrees planned

/-- The token of the name was not minted for a factory, and on its turn it is given metadata. -/
def Redescribes (oracle : Oracle) (settings : Settings) (name : String)
    (metadata : Metadata) : Prop :=
  ∃ state minted walk, ComesTo oracle settings name state ∧ minted ∈ state.registry.minted ∧
    minted.name = name ∧ minted.origin ≠ .factory ∧
    (oracle.lineageOf name).foldlM (Walk.arrive oracle (state.subjectOf name))
      (state.tokenWalk name) = .ok walk ∧
    walk.metadata = metadata ∧ metadata.isEmpty = false

theorem Redescribes.unique {oracle : Oracle} {settings : Settings} {name : String}
    {first second : Metadata} (h : Redescribes oracle settings name first)
    (h' : Redescribes oracle settings name second) : first = second := by
  obtain ⟨state, -, walk, hcomes, -, -, -, hwalk, rfl, -⟩ := h
  obtain ⟨other, -, walk', hcomes', -, -, -, hwalk', rfl, -⟩ := h'
  cases hcomes.unique hcomes'
  cases hwalk.symm.trans hwalk'
  rfl

namespace Context

variable {context next last : Context} {oracle : Oracle} {settings : Settings}
  {resolved described : ResolvedFactory}

/-- A described factory that shares a product of another name refers to that product, and its token
has its metadata unless another factory has its name. -/
structure Records (context : Context) (oracle : Oracle) (settings : Settings) : Prop where
  codeBase : context.oracle = oracle
  suffix : context.registry.suffix = settings.tokenSuffix
  own : ∀ resolved ∈ context.factories,
    resolved.factory.ownToken = .derive resolved.factory.name settings.tokenSuffix
  product : ∀ resolved ∈ context.factories, resolved.factory.multi = true →
    resolved.factory.ownToken ≠ resolved.factory.productToken →
    resolved.factory.productToken ∈ resolved.factory.metadata.implements
  recorded : ∀ resolved ∈ context.factories, resolved.factory.multi = true →
    resolved.factory.ownToken ≠ resolved.factory.productToken →
    (context.factories.countP fun other => other.factory.name = resolved.factory.name) = 1 →
    context.metadata.get? resolved.factory.ownToken = some resolved.factory.metadata

/-- A factory is put behind the others, and only the metadata of its own token changes. -/
structure Adds (context next : Context) (described : ResolvedFactory) : Prop where
  codeBase : next.oracle = context.oracle
  suffix : next.registry.suffix = context.registry.suffix
  factories : next.factories = context.factories ++ [described]
  kept : ∀ id, id ≠ described.factory.ownToken →
    next.metadata.get? id = context.metadata.get? id
  product : described.factory.multi = true →
    described.factory.ownToken ≠ described.factory.productToken →
    described.factory.productToken ∈ described.factory.metadata.implements ∧
      next.metadata.get? described.factory.ownToken = some described.factory.metadata

theorem Records.add (h : context.Records oracle settings) (adds : Adds context next described)
    (hown : described.factory.ownToken = .derive described.factory.name settings.tokenSuffix) :
    next.Records oracle settings := by
  refine ⟨adds.codeBase.trans h.codeBase, adds.suffix.trans h.suffix, ?_, ?_, ?_⟩
  · intro resolved hresolved
    rw [adds.factories, List.mem_append, List.mem_singleton] at hresolved
    rcases hresolved with hold | rfl
    · exact h.own resolved hold
    · exact hown
  · intro resolved hresolved hmulti hapart
    rw [adds.factories, List.mem_append, List.mem_singleton] at hresolved
    rcases hresolved with hold | rfl
    · exact h.product resolved hold hmulti hapart
    · exact (adds.product hmulti hapart).1
  · intro resolved hresolved hmulti hapart hsole
    rw [adds.factories] at hsole
    rw [adds.factories, List.mem_append, List.mem_singleton] at hresolved
    rcases hresolved with hold | rfl
    · obtain ⟨hcount, hname⟩ := countP_eq_one_of_append hold (by simp) hsole
      have hne : resolved.factory.ownToken ≠ described.factory.ownToken := by
        rw [h.own resolved hold, hown, ← h.suffix]
        intro he
        exact of_decide_eq_false hname (context.registry.idFor_injective he).symm
      rw [adds.kept _ hne]
      exact h.recorded resolved hold hmulti hapart hcount
    · exact (adds.product hmulti hapart).2

/-- The walk from its product on comes to the product, so a factory refers to it. -/
theorem adds_describeFactory (h : context.oracle = oracle)
    (hsuffix : context.registry.suffix = settings.tokenSuffix)
    (hmade : oracle.Made settings resolved)
    (hknown : context.registry.knows resolved.factory.productToken = true)
    (hrun : context.describeFactory resolved = .ok next) : ∃ described,
      Adds context next described ∧ described.factory.name = resolved.factory.name ∧
        described.factory.ownToken = resolved.factory.ownToken := by
  rcases describeFactory_ok hrun with ⟨hsingle, rfl⟩ | ⟨hmulti, walk, hwalk, last, rfl, rfl⟩
  · refine ⟨resolved, ⟨rfl, rfl, rfl, fun _ _ => rfl, fun hmulti => ?_⟩, rfl, rfl⟩
    cases hsingle.symm.trans hmulti
  · rw [h] at hwalk
    have hsettled : Walk.Settled oracle ⟨resolved.factory.ownToken, resolved.factory.name⟩
        { registry := context.registry } := Walk.settled_start rfl
    have hdescribed := @describe_advances (fun _ => True) { context with registry := walk.registry }
    refine ⟨{ resolved with factory := { resolved.factory with metadata := walk.metadata } },
      ⟨?_, ?_, ?_, fun id hid => ?_, fun _ hapart => ?_⟩, rfl, rfl⟩
    · exact (hdescribed _ _).oracle
    · exact (hdescribed _ _).registry.suffix.trans (growth_arrive_all hsettled hwalk).suffix
    · simp
    · exact get?_describe_of_ne hid
    · obtain ⟨product, hnamed, hproduct⟩ := hmade.named
      have hid : resolved.factory.productToken = context.registry.idFor product := by
        rw [hproduct, ← hsuffix]
        rfl
      rw [hid, Registry.knows_idFor] at hknown
      have hmeets := Walk.meets_of_contains hsettled hwalk (Oracle.mem_lineage.mpr .refl) hnamed
        hknown (hid ▸ hapart.symm)
      have himplements : resolved.factory.productToken ∈ walk.implements :=
        (Walk.mem_implements_iff hsettled hwalk).mpr
          (Or.inr ⟨resolved.productType, product, hmeets, hid⟩)
      exact ⟨himplements, get?_describe_of_not_isEmpty (Metadata.isEmpty_eq_false himplements)⟩

theorem records_describeFactories (h : context.Scans oracle settings)
    (hfactories : context.factories = oracle.factories settings)
    (hrun : context.describeFactories = .ok next) : next.Records oracle settings := by
  refine (describeFactories_induction h.linked (fun state => state.Records oracle settings) ?_
    ⟨h.tells.codeBase, h.tells.suffix, by simp, by simp, by simp⟩ hrun).2.2
  intro resolved hmem state last _ hadvances hstate hstep
  have hmade := Oracle.made_of_mem_factories (hfactories ▸ hmem)
  have hknown := hadvances.registry.knows (h.linked.factories resolved hmem).product
  obtain ⟨described, hadds, hname, hown⟩ :=
    adds_describeFactory hstate.codeBase hstate.suffix hmade hknown hstep
  exact hstate.add hadds (by rw [hown, hname, hmade.own])

end Context

/-- Nothing is found on the turn of a name that declares no type. -/
theorem not_redescribes_of_undeclared {oracle : Oracle} {settings : Settings} {name : String}
    {metadata : Metadata} (h : oracle.declaredType? name = none) :
    ¬ Redescribes oracle settings name metadata := by
  rintro ⟨state, minted, walk, ⟨before, position, turned, hbefore, hstate, -, -⟩, -, -, -, hwalk,
    rfl, hfound⟩
  have hlinked := (Resolution.keeps_beforeMetadata hbefore).1
  obtain ⟨-, hfactories⟩ := Context.scans_beforeMetadata hbefore
  have hderived :=
    ((Context.describes_beforeMetadata hbefore).turns hlinked hfactories hstate).derived
  have hnone : state.derivations.get? (state.registry.idFor name) = none := by
    cases hget : state.derivations.get? (state.registry.idFor name) with
    | none => rfl
    | some inherited =>
      obtain ⟨minted, -, -, hid, declaration, candidate, base, hinherits⟩ :=
        hderived.derivations _ (Table.mem_of_get?_eq_some hget)
      obtain rfl : name = minted.name := Registry.idFor_inj.mp hid
      have hfind := List.find?_eq_none.mp (Option.map_eq_none_iff.mp h) declaration
        hinherits.declared
      simp [DeclarationKind.declaresType_of_isTypeLike hinherits.kind, hinherits.qualified] at hfind
  rw [Oracle.lineageOf, h] at hwalk
  cases hwalk
  simp [Context.tokenWalk, hnone, Walk.metadata, Metadata.isEmpty] at hfound

namespace Course

variable {oracle : Oracle} {settings : Settings} {plan : Plan} {planned : PlannedFactory}
  {start : Context} {minted : Minted}

/-- The turn on which a name is described is the turn of its token. -/
theorem Turn.of_redescribes {course : Course oracle settings plan} {state next : Context}
    {metadata : Metadata} (turn : course.Turn minted state next)
    (h : Redescribes oracle settings minted.name metadata) :
    minted.origin ≠ .factory ∧ ∃ walk,
      (oracle.lineageOf minted.name).foldlM (Walk.arrive oracle (state.subjectOf minted.name))
        (state.tokenWalk minted.name) = .ok walk ∧
      walk.metadata = metadata ∧ metadata.isEmpty = false := by
  obtain ⟨other, same, walk, hother, hmem, hname, horigin, hfound⟩ := h
  cases turn.comes.unique hother
  cases Registry.eq_of_name hmem turn.mem hname
  exact ⟨horigin, walk, hfound⟩

/-- A token has what is found on its turn, or keeps what the factories gave it. -/
theorem redescribes_or_kept (course : Course oracle settings plan)
    (hstart : course.before.turns 0 = .ok start)
    (hminted : minted ∈ course.described.registry.minted) :
    Redescribes oracle settings minted.name (course.described.planned minted).metadata ∨
    ((∀ metadata, ¬ Redescribes oracle settings minted.name metadata) ∧
      (course.described.planned minted).metadata =
        (start.metadata.get? (course.described.registry.idFor minted.name)).getD {}) := by
  obtain ⟨state, next, turn⟩ := course.exists_turn hminted
  have hid : course.described.registry.idFor minted.name = state.registry.idFor minted.name := by
    rw [course.idFor, Registry.idFor, turn.suffix]
  rw [turn.planned, hid, ← turn.untouched start hstart]
  rcases Context.describeToken_ok turn.run with ⟨hfactory, rfl⟩ | ⟨horigin, walk, hwalk, rfl⟩
  · exact Or.inr ⟨fun metadata h => (turn.of_redescribes h).1 hfactory, rfl⟩
  · rw [turn.codeBase] at hwalk
    cases hempty : walk.metadata.isEmpty with
    | true =>
      refine Or.inr ⟨fun metadata h => ?_, by rw [Context.get?_describe_of_isEmpty hempty]⟩
      obtain ⟨-, found, hfound, rfl, hsome⟩ := turn.of_redescribes h
      cases hwalk.symm.trans hfound
      cases hempty.symm.trans hsome
    | false =>
      rw [Context.get?_describe_of_not_isEmpty hempty, Option.getD_some]
      exact Or.inl ⟨state, minted, walk, turn.comes, turn.mem, rfl, horigin, hwalk, rfl, hempty⟩

/-- What the factories gave the token of a contribution. -/
theorem recorded (course : Course oracle settings plan) (h : plan.SoleContribution planned)
    (hstart : course.before.turns 0 = .ok start) :
    planned.factory.productToken ∈ planned.factory.metadata.implements ∧
      start.metadata.get? planned.factory.ownToken = some planned.factory.metadata ∧
      ∃ minted ∈ course.described.registry.minted, minted.name = planned.factory.name ∧
        course.described.registry.idFor minted.name = planned.factory.ownToken := by
  obtain ⟨hscans, hfactories⟩ := Context.scans_beforeMetadata course.reaches
  obtain ⟨count, hcount, -⟩ := Context.collectMetadata_ok course.before_linked course.describes
  have hrecords := Context.records_describeFactories hscans hfactories hstart
  have hknown := (course.factory_linked h.mem).1.own h.multi
  obtain ⟨hmem, hmulti, hapart, hsole⟩ := h
  rw [course.factories, Context.factories_turns hstart hcount] at hmem hsole
  obtain ⟨resolved, hresolved, rfl⟩ := List.mem_map.mp hmem
  rw [List.countP_map] at hsole
  refine ⟨hrecords.product resolved hresolved hmulti hapart,
    hrecords.recorded resolved hresolved hmulti hapart hsole, ?_⟩
  obtain ⟨minted, hminted, hid⟩ := Registry.knows_iff.mp hknown
  refine ⟨minted, hminted, ?_, hid⟩
  rw [hrecords.own resolved hresolved, ← course.idFor] at hid
  exact Registry.idFor_inj.mp hid

/-- A contribution agrees with its token when the turn of the token finds the same or nothing. -/
theorem agrees_iff (course : Course oracle settings plan) (h : plan.SoleContribution planned) :
    plan.Agrees planned ↔ ∀ metadata,
      Redescribes oracle settings planned.factory.name metadata →
        metadata = planned.factory.metadata := by
  obtain ⟨count, hcount, -⟩ := Context.collectMetadata_ok course.before_linked course.describes
  obtain ⟨start, hstart⟩ := Context.exists_start hcount
  obtain ⟨hproduct, hrecorded, minted, hminted, hname, hid⟩ := course.recorded h hstart
  have hcases := course.redescribes_or_kept hstart hminted
  rw [hid, hrecorded, hname, Option.getD_some] at hcases
  constructor
  · rintro ⟨token, htoken, htokenId, hmetadata, -⟩ metadata hredescribes
    obtain ⟨other, hother, rfl⟩ := course.mem_tokens.mp htoken
    have hsame : other = minted := by
      refine Registry.eq_of_name hother hminted ?_
      exact Registry.idFor_inj.mp (htokenId.trans hid.symm)
    subst hsame
    rcases hcases with hfound | ⟨hnone, -⟩
    · exact (hredescribes.unique hfound).trans hmetadata
    · exact absurd hredescribes (hnone metadata)
  · intro hall
    have hmetadata : (course.described.planned minted).metadata = planned.factory.metadata := by
      rcases hcases with hfound | ⟨-, hkept⟩
      · exact hall _ hfound
      · exact hkept
    exact ⟨_, course.mem_tokens.mpr ⟨minted, hminted, rfl⟩, hid, hmetadata, hmetadata ▸ hproduct⟩

/-- A name without a type of its own and a token that was minted for a factory have no such
turn. -/
theorem not_redescribes (course : Course oracle settings plan) (h : plan.SoleContribution planned)
    (hplain : oracle.declaredType? planned.factory.name = none ∨ ∃ token ∈ plan.tokens,
      token.token.id = planned.factory.ownToken ∧ token.origin = .factory) (metadata : Metadata) :
    ¬ Redescribes oracle settings planned.factory.name metadata := by
  rcases hplain with hundeclared | ⟨token, htoken, htokenId, horigin⟩
  · exact not_redescribes_of_undeclared hundeclared
  · intro hredescribes
    obtain ⟨count, hcount, -⟩ := Context.collectMetadata_ok course.before_linked course.describes
    obtain ⟨start, hstart⟩ := Context.exists_start hcount
    obtain ⟨-, -, minted, hminted, hname, hid⟩ := course.recorded h hstart
    obtain ⟨other, hother, rfl⟩ := course.mem_tokens.mp htoken
    obtain ⟨state, next, turn⟩ := course.exists_turn hother
    have hsame : other.name = minted.name := Registry.idFor_inj.mp (htokenId.trans hid.symm)
    rw [← hname, ← hsame] at hredescribes
    exact (turn.of_redescribes hredescribes).1 horigin

end Course

/-- Contributions agree with their tokens exactly when no turn finds anything else. There is none
when the name of the factory declares no type, or its token was minted for a factory. -/
theorem metadataAgrees_iff {oracle : Oracle} {settings : Settings} {plan : Plan}
    (h : resolve oracle settings = .ok plan) :
    (plan.MetadataAgrees ↔ ∀ planned metadata, plan.SoleContribution planned →
      Redescribes oracle settings planned.factory.name metadata →
        metadata = planned.factory.metadata) ∧
    ∀ planned, plan.SoleContribution planned →
      (oracle.declaredType? planned.factory.name = none ∨ ∃ token ∈ plan.tokens,
        token.token.id = planned.factory.ownToken ∧ token.origin = .factory) →
      plan.Agrees planned := by
  obtain ⟨course⟩ := Course.exists_of_resolve h
  refine ⟨⟨fun hagrees planned metadata hsole => ?_, fun hall planned hsole => ?_⟩,
    fun planned hsole hplain => ?_⟩
  · exact (course.agrees_iff hsole).mp (hagrees planned hsole) metadata
  · exact (course.agrees_iff hsole).mpr fun metadata => hall planned metadata hsole
  · refine (course.agrees_iff hsole).mpr fun metadata hredescribes => ?_
    exact absurd hredescribes (course.not_redescribes hsole hplain metadata)

theorem metadataAgrees_genericStore : ∃ plan, resolve genericStore.oracle {} = .ok plan ∧
    (∃ planned, plan.SoleContribution planned ∧ planned.factory.name = "open") ∧
    plan.MetadataAgrees := by
  obtain ⟨plan, hplan, ⟨planned, hmem, hname, hmulti, hapart, hsole⟩, hundeclared⟩ :
      ∃ plan, resolve genericStore.oracle {} = .ok plan ∧
        (∃ planned ∈ plan.factories, planned.factory.name = "open" ∧
          planned.factory.multi = true ∧
          planned.factory.ownToken ≠ planned.factory.productToken ∧
          (plan.factories.countP fun other => other.factory.name = planned.factory.name) = 1) ∧
        ∀ planned ∈ plan.factories, planned.factory.multi = true →
          genericStore.oracle.declaredType? planned.factory.name = none :=
    exists_plan_of_any (by decide +kernel)
  refine ⟨plan, hplan, ⟨planned, ⟨hmem, hmulti, hapart, hsole⟩, hname⟩, fun other hother => ?_⟩
  exact (metadataAgrees_iff hplan).2 other hother
    (Or.inl (hundeclared other hother.mem hother.multi))

/-- A variable that makes plugins and an interface of the same name, which is a service itself. -/
def mergedPlugin : Snapshot where
  types := [
    { text := "Plugin", symbol := some ⟨"Plugin", .interface, none⟩ },
    { text := "Base", symbol := some ⟨"Base", .interface, none⟩ },
    { text := "impl", symbol := some ⟨"impl", .interface, none⟩, bases := [⟨1⟩] },
    { text := "() => Plugin", signatures := [⟨[], ⟨0⟩⟩] }]
  declarations := [
    { name := "Plugin", kind := .interface, tags := [⟨"service", some "multi"⟩], type := ⟨0⟩ },
    { name := "Base", kind := .interface, tags := [⟨"service", none⟩], type := ⟨1⟩ },
    { name := "impl", kind := .interface, tags := [⟨"service", none⟩], type := ⟨2⟩ },
    { name := "impl", kind := .variable, tags := [⟨"injectable", none⟩], type := ⟨3⟩ }]

/-- The walk of the interface replaces what the variable gave the token of the name. -/
theorem not_metadataAgrees_mergedPlugin : mergedPlugin.validate = .ok mergedPlugin ∧
    ∃ plan, resolve mergedPlugin.oracle {} = .ok plan ∧ ¬ plan.MetadataAgrees := by
  have hfault : mergedPlugin.fault? = none := by decide +kernel
  refine ⟨by rw [Snapshot.validate, hfault], ?_⟩
  obtain ⟨plan, hplan, planned, hmem, hmulti, hapart, hsole, hmissing⟩ :
      ∃ plan, resolve mergedPlugin.oracle {} = .ok plan ∧
        ∃ planned ∈ plan.factories, planned.factory.multi = true ∧
          planned.factory.ownToken ≠ planned.factory.productToken ∧
          (plan.factories.countP fun other => other.factory.name = planned.factory.name) = 1 ∧
          ∀ token ∈ plan.tokens, token.token.id = planned.factory.ownToken →
            planned.factory.productToken ∉ token.metadata.implements :=
    exists_plan_of_any (by decide +kernel)
  refine ⟨plan, hplan, fun hall => ?_⟩
  obtain ⟨token, htoken, hid, -, hproduct⟩ := hall planned ⟨hmem, hmulti, hapart, hsole⟩
  exact hmissing token htoken hid hproduct

end InjectionPlan

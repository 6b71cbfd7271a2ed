import InjectionPlan.Proofs.MultiServices

/-!
# Where the tokens of the first two passes come from

After the pass of derivation every token is that of a service, or is inherited from a candidate of
its declaration, or stands for a generic argument of such a candidate. What is inherited is kept
as a derivation, and the token that it is inherited from was minted before. The passes that follow
leave the derivations alone.
-/

namespace InjectionPlan

open Registry (Growth)

namespace Registry

variable {registry old new : Registry} {earlier later : String}

/-- The first name was minted before the second one. -/
def Precedes (registry : Registry) (earlier later : String) : Prop :=
  ∃ (i j : Nat) (a b : Minted), i < j ∧ registry.minted[i]? = some a ∧
    registry.minted[j]? = some b ∧ a.name = earlier ∧ b.name = later

theorem Growth.precedes {allowed : Minted → Prop} (growth : Growth allowed old new)
    (h : old.Precedes earlier later) : new.Precedes earlier later := by
  obtain ⟨i, j, a, b, hlt, ha, hb, hnames⟩ := h
  exact ⟨i, j, a, b, hlt, growth.getElem? ha, growth.getElem? hb, hnames⟩

/-- A new name comes after every old one. -/
theorem Growth.precedes_new {allowed : Minted → Prop} (growth : Growth allowed old new)
    (hearlier : old.contains earlier = true) (hfresh : old.contains later = false)
    (hlater : new.contains later = true) : new.Precedes earlier later := by
  obtain ⟨a, ha, rfl⟩ := List.mem_map.mp (contains_iff.mp hearlier)
  obtain ⟨b, hb, rfl⟩ := List.mem_map.mp (contains_iff.mp hlater)
  obtain ⟨i, hi⟩ := List.getElem?_of_mem ha
  obtain ⟨j, hj⟩ := List.getElem?_of_mem hb
  refine ⟨i, j, a, b, ?_, growth.getElem? hi, hj, rfl, rfl⟩
  have hlt : i < old.minted.length := (List.getElem?_eq_some_iff.mp hi).1
  by_contra hnot
  -- a position that early is taken by an old name
  have hold : j < old.minted.length := by omega
  have hsame := growth.getElem? (List.getElem?_eq_getElem hold)
  rw [hj, Option.some.injEq] at hsame
  have hin := contains_iff.mpr (List.mem_map_of_mem (List.getElem_mem hold))
  rw [← hsame, hfresh] at hin
  cases hin

/-- What holds of a name when it holds of all names before it holds of all names. -/
theorem precedes_induction (holds : String → Prop)
    (step : ∀ name, registry.contains name = true →
      (∀ earlier, registry.Precedes earlier name → holds earlier) → holds name)
    {name : String} (h : registry.contains name = true) : holds name := by
  suffices ∀ (bound position : Nat) (minted : Minted), position < bound →
      registry.minted[position]? = some minted → holds minted.name by
    obtain ⟨minted, hm, rfl⟩ := List.mem_map.mp (contains_iff.mp h)
    obtain ⟨position, hposition⟩ := List.getElem?_of_mem hm
    exact this (position + 1) position minted (Nat.lt_succ_self _) hposition
  intro bound
  induction bound with
  | zero => omega
  | succ bound ih =>
    intro position minted hlt hposition
    refine step minted.name (contains_iff.mpr
      (List.mem_map_of_mem (List.mem_of_getElem? hposition))) ?_
    rintro earlier ⟨i, j, a, b, hij, ha, hb, rfl, hname⟩
    have hj := position_eq hb hposition hname
    exact ih i a (by omega) ha

end Registry

/-- The metadata says what a name inherits its token from: one of the candidates of an exported
declaration of the name, which had a token before, and what is nested in that candidate. -/
structure Inherits (oracle : Oracle) (registry : Registry) (name : String) (metadata : Metadata)
    (declaration : Declaration) (candidate : TypeId) (base : String) : Prop where
  declared : declaration ∈ oracle.declarations
  exported : declaration.exported = true
  kind : declaration.kind.isTypeLike = true
  qualified : declaration.qualifiedName = name
  offered : candidate ∈ oracle.candidates declaration
  named : oracle.named? candidate = some base
  earlier : registry.Precedes base name
  implements : metadata.implements = [registry.idFor base]
  generics : ∀ id, id ∈ metadata.generics ↔
    Walk.NestedToken oracle ⟨registry.idFor name, name⟩ registry candidate id

theorem Inherits.grow {allowed : Minted → Prop} {old new : Registry} {oracle : Oracle}
    {name base : String} {metadata : Metadata} {declaration : Declaration} {candidate : TypeId}
    (h : Inherits oracle old name metadata declaration candidate base)
    (growth : Growth allowed old new) :
    Inherits oracle new name metadata declaration candidate base := by
  refine ⟨h.declared, h.exported, h.kind, h.qualified, h.offered, h.named,
    growth.precedes h.earlier, by rw [h.implements, growth.idFor], fun id => ?_⟩
  rw [h.generics id, Walk.nestedToken_iff_of_growth growth, growth.idFor]

namespace Context

variable {context next : Context} {oracle : Oracle} {settings : Settings}
  {annotated : AnnotatedDeclaration}

/-- The derivations of a state say what its inherited tokens are inherited from. -/
structure Derived (context : Context) (oracle : Oracle) : Prop where
  codeBase : context.oracle = oracle
  derivations : ∀ entry ∈ context.derivations.entries, ∃ minted ∈ context.registry.minted,
    minted.origin = .autoDetected ∧ entry.1 = context.registry.idFor minted.name ∧
      ∃ declaration candidate base,
        Inherits oracle context.registry minted.name entry.2 declaration candidate base

theorem Derived.grow {allowed : Minted → Prop} (h : context.Derived oracle) {registry : Registry}
    (growth : Growth allowed context.registry registry) :
    { context with registry }.Derived oracle := by
  refine ⟨h.codeBase, fun entry hentry => ?_⟩
  obtain ⟨minted, hminted, horigin, hid, declaration, candidate, base, hinherits⟩ :=
    h.derivations entry hentry
  exact ⟨minted, growth.mem hminted, horigin, hid.trans (growth.idFor _).symm, declaration,
    candidate, base, hinherits.grow growth⟩

/-- A token is that of a service, or a derivation tells what it is inherited from or which base it
is an argument of. -/
def Stems (context : Context) (oracle : Oracle) (settings : Settings) (minted : Minted) : Prop :=
  match minted.origin with
  | .annotated => (oracle.service? settings.tagNames minted.name).isSome = true
  | .autoDetected => ∃ entry ∈ context.derivations.entries,
      entry.1 = context.registry.idFor minted.name
  | .implicit => ∃ entry ∈ context.derivations.entries, ∃ parent,
      entry.1 = context.registry.idFor parent ∧ context.registry.Precedes parent minted.name ∧
        context.registry.idFor minted.name ∈ entry.2.generics
  | .factory => False

/-- A name that has a derivation has a token. -/
theorem Derived.not_contains (h : context.Derived oracle) {name : String}
    (hname : context.registry.contains name = false) :
    context.derivations.contains (context.registry.idFor name) = false := by
  cases hc : context.derivations.contains (context.registry.idFor name) with
  | false => rfl
  | true =>
    obtain ⟨entry, hentry, hkey⟩ := List.mem_map.mp (Table.contains_iff.mp hc)
    obtain ⟨minted, hm, -, hid, -⟩ := h.derivations entry hentry
    rw [hkey, Registry.idFor_inj] at hid
    have hin := Registry.contains_iff.mpr (List.mem_map_of_mem hm)
    cases (hid ▸ hin).symm.trans hname

/-- Between two states a declaration got the token that it inherits, and the names nested in what
it inherits from got theirs. -/
structure Gains (oracle : Oracle) (context next : Context) (declaration : Declaration)
    (metadata : Metadata) (candidate : TypeId) (base : String) : Prop where
  state : next = { context with registry := next.registry, derivations := next.derivations }
  fresh : context.registry.contains declaration.qualifiedName = false
  derivations : next.derivations.entries = context.derivations.entries ++
    [(next.registry.idFor declaration.qualifiedName, metadata)]
  inherits : Inherits oracle next.registry declaration.qualifiedName metadata declaration candidate
    base
  growth : Growth (fun _ => True) context.registry next.registry
  own : ⟨declaration.qualifiedName, .single, .autoDetected⟩ ∈ next.registry.minted
  minted : ∀ minted ∈ next.registry.minted, minted ∈ context.registry.minted ∨
    minted = ⟨declaration.qualifiedName, .single, .autoDetected⟩ ∨
    minted.origin = .implicit ∧ next.registry.idFor minted.name ∈ metadata.generics ∧
      next.registry.Precedes declaration.qualifiedName minted.name

/-- A walk over the arguments of a type lists what is nested there. -/
theorem mem_generics_arguments {registry : Registry} {name : String} {ty : TypeId} {walk : Walk}
    (hrun : Walk.arguments oracle ⟨registry.idFor name, name⟩ registry ty = .ok walk)
    {id : TokenId} : id ∈ walk.generics ↔
      Walk.NestedToken oracle ⟨walk.registry.idFor name, name⟩ walk.registry ty id := by
  have hexpands := arguments_ok hrun
  have hgrowth := hexpands.progress.registry
  rw [hexpands.mem_generics_iff (Walk.settled_start rfl), hgrowth.idFor,
    Walk.nestedToken_iff_of_growth hgrowth]
  simp

/-- What such a walk mints is listed and comes after the name that it is walked for. -/
theorem minted_arguments {registry : Registry} {name : String} {ty : TypeId} {walk : Walk}
    (hrun : Walk.arguments oracle ⟨registry.idFor name, name⟩ registry ty = .ok walk)
    (hname : registry.contains name = true) {minted : Minted}
    (hminted : minted ∈ walk.registry.minted) : minted ∈ registry.minted ∨
      minted.origin = .implicit ∧ walk.registry.idFor minted.name ∈ walk.generics ∧
        walk.registry.Precedes name minted.name := by
  have hgrowth := (arguments_ok hrun).progress.registry
  cases hold : registry.contains minted.name with
  | true =>
    obtain ⟨old, hmem, hsame⟩ := List.mem_map.mp (Registry.contains_iff.mp hold)
    exact Or.inl (Registry.eq_of_name (hgrowth.mem hmem) hminted hsame ▸ hmem)
  | false =>
    have hnew := Registry.contains_iff.mpr (List.mem_map_of_mem hminted)
    have hprecedes := hgrowth.precedes_new hname hold hnew
    refine (hgrowth.mem_or_allowed hminted).imp_right fun hallowed => ?_
    obtain ⟨-, himplicit, argument, hnests, hargument⟩ := hallowed
    refine ⟨himplicit, (mem_generics_arguments hrun).mpr ⟨?_, argument, _, hnests, hargument, rfl⟩,
      hprecedes⟩
    rw [ne_eq, Registry.idFor_inj]
    rintro hself
    cases (hself ▸ hname).symm.trans hold

/-- A declaration that is given a token inherits from its base. -/
theorem deriveToken_gains (h : context.Derived oracle)
    (hmem : annotated.declaration ∈ oracle.declarations)
    (hrun : context.deriveToken annotated = .ok next) : next = context ∨
      ∃ metadata candidate base,
        Gains oracle context next annotated.declaration metadata candidate base := by
  rcases deriveToken_ok hrun with ⟨rfl, -⟩ | ⟨candidate, base, walk, hawaits, hbase, hwalk, rfl⟩
  · exact Or.inl rfl
  refine Or.inr ⟨⟨[context.registry.idFor base], walk.generics⟩, candidate, base, ?_⟩
  obtain ⟨hoffered, hnamed, hcontains⟩ := base?_eq_some hbase
  rw [h.codeBase] at hoffered hnamed hwalk
  obtain ⟨hexported, hkind, hfresh⟩ : annotated.declaration.exported = true ∧
      annotated.declaration.kind.isTypeLike = true ∧
        context.registry.contains annotated.declaration.qualifiedName = false := by
    simpa [awaitsToken, and_assoc] using hawaits
  -- the registry with the new token, from which the walk sets out
  obtain ⟨mid, hmid⟩ : ∃ mid, (context.registry.request annotated.declaration.qualifiedName .single
      .autoDetected).record (context.registry.idFor annotated.declaration.qualifiedName)
        annotated.declaration.file = mid := ⟨_, rfl⟩
  have hfirst : Growth
      (fun minted => minted = ⟨annotated.declaration.qualifiedName, .single, .autoDetected⟩)
      context.registry mid := hmid ▸ Registry.growth_mint _ _ _ rfl
  have hown : ⟨annotated.declaration.qualifiedName, .single, .autoDetected⟩ ∈ mid.minted := by
    rw [← hmid, Registry.minted_record,
      Registry.minted_request_of_not_contains _ _ hfresh]
    exact List.mem_append_right _ (List.mem_singleton_self _)
  have hnamedown : mid.contains annotated.declaration.qualifiedName = true :=
    Registry.contains_iff.mpr (List.mem_map_of_mem hown)
  rw [hmid, ← hfirst.idFor] at hwalk
  have hsecond := (arguments_ok hwalk).progress.registry
  have hid : ∀ name, walk.registry.idFor name = context.registry.idFor name := fun name =>
    (hsecond.idFor name).trans (hfirst.idFor name)
  refine ⟨rfl, hfresh, ?_, ⟨hmem, hexported, hkind, rfl, hoffered, hnamed,
      hsecond.precedes (hfirst.precedes_new hcontains hfresh hnamedown), by rw [hid],
      fun id => mem_generics_arguments hwalk⟩,
    (hfirst.weaken fun _ _ => trivial).trans (hsecond.weaken fun _ _ => trivial),
    hsecond.mem hown, fun minted hminted => ?_⟩
  · rw [hid]
    exact Table.entries_insert_of_not_contains _ (h.not_contains hfresh)
  · rcases minted_arguments hwalk hnamedown hminted with hold | hnew
    · exact (hfirst.mem_or_allowed hold).imp_right Or.inl
    · exact Or.inr (Or.inr hnew)

theorem Derived.deriveToken (h : context.Derived oracle)
    (hmem : annotated.declaration ∈ oracle.declarations)
    (hrun : context.deriveToken annotated = .ok next) : next.Derived oracle := by
  rcases deriveToken_gains h hmem hrun with rfl | ⟨metadata, candidate, base, gains⟩
  · exact h
  rw [gains.state]
  refine ⟨h.codeBase, fun entry hentry => ?_⟩
  rw [gains.derivations] at hentry
  rcases List.mem_append.mp hentry with hold | hnew
  · exact (h.grow gains.growth).derivations entry hold
  · rw [List.mem_singleton] at hnew
    subst hnew
    exact ⟨_, gains.own, rfl, rfl, _, _, _, gains.inherits⟩

/-- Every token stems from somewhere. -/
def Rooted (context : Context) (oracle : Oracle) (settings : Settings) : Prop :=
  ∀ minted ∈ context.registry.minted, context.Stems oracle settings minted

theorem Rooted.deriveToken (h : context.Rooted oracle settings) (hderived : context.Derived oracle)
    (hmem : annotated.declaration ∈ oracle.declarations)
    (hrun : context.deriveToken annotated = .ok next) :
    next.Rooted oracle settings := by
  rcases deriveToken_gains hderived hmem hrun with rfl | ⟨metadata, candidate, base, gains⟩
  · exact h
  have hsub : context.derivations.entries ⊆ next.derivations.entries := by
    rw [gains.derivations]
    exact List.subset_append_left _ _
  have hnew : (next.registry.idFor annotated.declaration.qualifiedName, metadata) ∈
      next.derivations.entries := by
    rw [gains.derivations]
    exact List.mem_append_right _ (List.mem_singleton_self _)
  intro minted hminted
  rcases gains.minted minted hminted with hold | rfl | ⟨himplicit, hgeneric, hprecedes⟩
  · have hstems := h minted hold
    unfold Stems at hstems ⊢
    rw [gains.growth.idFor]
    split at hstems
    · exact hstems
    · exact hstems.imp fun entry he => ⟨hsub he.1, he.2⟩
    · obtain ⟨entry, hentry, parent, hid, hprecedes, hgeneric⟩ := hstems
      exact ⟨entry, hsub hentry, parent, hid.trans (gains.growth.idFor _).symm,
        gains.growth.precedes hprecedes, hgeneric⟩
    · exact hstems
  · exact ⟨_, hnew, rfl⟩
  · unfold Stems
    rw [himplicit]
    exact ⟨_, hnew, _, rfl, hprecedes, hgeneric⟩

/-- The first pass mints services and derives nothing. -/
theorem derived_registerServices (oracle : Oracle) (settings : Settings) :
    (Context.start oracle settings).registerServices.Derived oracle ∧
      (Context.start oracle settings).registerServices.Rooted oracle settings := by
  obtain ⟨registry, he⟩ := registerServices_eq (Context.start oracle settings)
  refine ⟨?_, fun minted hminted => ?_⟩
  · rw [he]
    exact ⟨rfl, fun entry hentry => by cases hentry⟩
  · have hget := Registry.get?_eq_some.mpr ⟨hminted, rfl⟩
    rw [get?_registerServices] at hget
    obtain ⟨cardinality, hservice, hminted⟩ := Option.map_eq_some_iff.mp hget
    unfold Stems
    rw [← hminted]
    simp [hservice]

/-- After the first two passes every token stems from somewhere. -/
theorem derived_of_reach (h : Resolution.reach [.registration, .autoDetection]
      (.start oracle settings) = .ok context) :
    context.Derived oracle ∧ context.Rooted oracle settings := by
  obtain ⟨last, hrun, rfl⟩ := Resolution.reach_derivation h
  obtain ⟨hderived, hrooted⟩ := derived_registerServices oracle settings
  have hstart : (Context.start oracle settings).registerServices.drained.Derived oracle ∧
      (Context.start oracle settings).registerServices.drained.Rooted oracle settings :=
    ⟨⟨hderived.codeBase, hderived.derivations⟩, hrooted⟩
  obtain ⟨hlast, hroots⟩ : last.Derived oracle ∧ last.Rooted oracle settings := by
    refine deriveTokens_induction (fun state => state.Derived oracle ∧
      state.Rooted oracle settings) ?_ hstart hrun
    intro annotated hmem state last ⟨hderived, hrooted⟩ hstep
    have hdeclared : annotated.declaration ∈ oracle.declarations := by
      have hstart : annotated ∈ (Context.start oracle settings).registerServices.declarations :=
        hmem
      rw [declarations_registerServices] at hstart
      obtain ⟨declaration, hdeclaration, rfl⟩ := List.mem_map.mp hstart
      exact hdeclaration
    exact ⟨hderived.deriveToken hdeclared hstep, hrooted.deriveToken hderived hdeclared hstep⟩
  exact ⟨⟨hlast.codeBase, hlast.derivations⟩, hroots⟩

end Context

end InjectionPlan

import InjectionPlan.Proofs.DerivationRounds
import InjectionPlan.Proofs.MetadataCompleteness
import InjectionPlan.Proofs.PassSequences
import InjectionPlan.Proofs.TokenOrigins

/-!
# Inheritance of tokens

The pass of derivation leaves nothing to inherit: what still has no token aliases and extends only
types without a token. In a plan each inherited token implements first the token that it is
inherited from. That one was minted before it, so following first implemented tokens comes to an
end, and as only tokens of the first two passes are inherited from, the end is a service or a type
that is needed.
-/

namespace InjectionPlan

open Registry (Growth)

/-- A type from which a declaration may inherit a token: the target of an alias, and what an
interface that is no alias extends. -/
inductive Oracle.Candidate (oracle : Oracle) (declaration : Declaration) : TypeId → Prop
  | target {ty : TypeId} : declaration.aliased = some ty → Candidate oracle declaration ty
  | base {ty : TypeId} : declaration.aliased = none → declaration.kind = .interface →
      ty ∈ oracle.bases declaration.type → Candidate oracle declaration ty

theorem Oracle.mem_candidates {oracle : Oracle} {declaration : Declaration} {ty : TypeId} :
    ty ∈ oracle.candidates declaration ↔ oracle.Candidate declaration ty := by
  unfold candidates
  constructor
  · intro hty
    split at hty
    · next target haliased =>
      rw [List.mem_singleton] at hty
      exact .target (hty ▸ haliased)
    · next haliased =>
      split at hty
      · next hkind => exact .base haliased hkind hty
      · cases hty
  · rintro (haliased | ⟨haliased, hkind, hty⟩)
    · rw [haliased]
      exact List.mem_singleton_self ty
    · rw [haliased]
      exact if_pos hkind ▸ hty

/-! ## Nothing is left to inherit -/

/-- Whatever passes ran before, the pass of derivation gives a token to every exported interface and
alias with a candidate that has one. Running it once more changes nothing. -/
theorem deriveTokens_saturates {oracle : Oracle} {settings : Settings} {context last : Context}
    (h : Context.Reached oracle settings context) (hrun : context.deriveTokens = .ok last) :
    (∀ declaration ∈ oracle.declarations, declaration.exported = true →
      declaration.kind = .interface ∨ declaration.kind = .typeAlias →
      last.registry.contains declaration.qualifiedName = false →
      ∀ candidate name, oracle.Candidate declaration candidate →
        oracle.named? candidate = some name → last.registry.contains name = false) ∧
    last.deriveTokens = .ok last := by
  have hrests : last.AtRest := Context.atRest_deriveTokens h.sound.linked hrun
  have hsound : last.Sound oracle settings := (h.sound.deriveTokens hrun).1
  refine ⟨?_, hrests.deriveTokens_eq⟩
  intro declaration hdeclared hexported hkind hnone candidate name hcandidate hname
  have hmem : ⟨declaration, .ofTags settings.tagNames declaration.tags⟩ ∈ last.declarations :=
    hsound.declarations ▸ List.mem_map_of_mem hdeclared
  have htypeLike : declaration.kind.isTypeLike = true := by
    rcases hkind with hkind | hkind
    · rw [hkind]
      rfl
    · rw [hkind]
      rfl
  rw [← hsound.derived.codeBase, ← Oracle.mem_candidates] at hcandidate
  rw [← hsound.derived.codeBase] at hname
  cases hcontains : last.registry.contains name with
  | false => rfl
  | true =>
    have hown := (hrests _ hmem).contains hexported htypeLike hcandidate hname hcontains
    cases hnone.symm.trans hown

/-- A service with a chain of interfaces and an alias that are declared before it, a factory that
shares the name of one of them, and two interfaces that extend each other. -/
def diaries : Snapshot where
  types := [
    { text := "Document", symbol := some ⟨"Document", .interface, none⟩ },
    { text := "Journal", symbol := some ⟨"Journal", .interface, none⟩, bases := [⟨0⟩] },
    { text := "Diary", symbol := some ⟨"Diary", .interface, none⟩, bases := [⟨1⟩] },
    { text := "() => Document", signatures := [⟨[], ⟨0⟩⟩] },
    { text := "Egg", symbol := some ⟨"Egg", .interface, none⟩, bases := [⟨5⟩] },
    { text := "Hen", symbol := some ⟨"Hen", .interface, none⟩, bases := [⟨4⟩] }]
  declarations := [
    { name := "Notes", kind := .typeAlias, type := ⟨2⟩, aliased := some ⟨2⟩ },
    { name := "Diary", kind := .interface, type := ⟨2⟩ },
    { name := "Journal", kind := .interface, type := ⟨1⟩ },
    { name := "Document", kind := .interface, tags := [⟨"service", some "multi"⟩], type := ⟨0⟩ },
    { name := "Diary", kind := .function, tags := [⟨"injectable", none⟩], type := ⟨3⟩ },
    { name := "Egg", kind := .interface, type := ⟨4⟩ },
    { name := "Hen", kind := .interface, type := ⟨5⟩ }]

/-- The pass of derivation comes after that of metadata, and `Egg` and `Hen` stay without tokens. -/
theorem deriveTokens_saturates_diaries : ∃ context last,
    Context.Reached diaries.oracle {} context ∧ context.deriveTokens = .ok last ∧
    last.registry.ids =
      [⟨"DocumentToken"⟩, ⟨"JournalToken"⟩, ⟨"DiaryToken"⟩, ⟨"NotesToken"⟩] ∧
    last.registry.contains "Hen" = false ∧ last.deriveTokens = .ok last := by
  obtain ⟨last, hrun, hids, hegg⟩ : ∃ last, (Resolution.reach [.factories, .registration, .metadata]
      (.start diaries.oracle {}) >>= Context.deriveTokens) = .ok last ∧
      last.registry.ids =
        [⟨"DocumentToken"⟩, ⟨"JournalToken"⟩, ⟨"DiaryToken"⟩, ⟨"NotesToken"⟩] ∧
      last.registry.contains "Egg" = false :=
    exists_ok_of_any (by decide +kernel)
  obtain ⟨context, hcontext, hlast⟩ := bind_eq_ok.mp hrun
  have hreached := Resolution.reached_of_reach .start hcontext
  obtain ⟨hnone, hagain⟩ := deriveTokens_saturates hreached hlast
  let egg : Declaration := { name := "Egg", kind := .interface, type := ⟨4⟩ }
  have hdeclared : egg ∈ diaries.oracle.declarations := by decide +kernel
  have hcandidate : diaries.oracle.Candidate egg ⟨5⟩ := .base rfl rfl (by decide)
  have hhen : last.registry.contains "Hen" = false :=
    hnone egg hdeclared rfl (Or.inl rfl) hegg ⟨5⟩ "Hen" hcandidate (by decide +kernel)
  exact ⟨context, last, hreached, hlast, hids, hhen, hagain⟩

/-! ## What a token is inherited from -/

namespace Plan

/-- The token is inherited from the other one, as a candidate of an exported declaration of its name
stands for the other one's type. The other one is what the token implements first, and it is emitted
and was registered before the token. -/
structure InheritsFrom (plan : Plan) (oracle : Oracle) (registry : Registry)
    (token base : PlannedToken) : Prop where
  implements : token.metadata.implements.head? = some base.token.id
  declared : ∃ declaration ∈ oracle.declarations, declaration.exported = true ∧
    declaration.qualifiedName = token.token.displayName ∧ ∃ candidate,
      oracle.Candidate declaration candidate ∧
        oracle.named? candidate = some base.token.displayName
  emitted : ∃ i j : Nat, i < j ∧ plan.tokens[i]? = some base ∧ plan.tokens[j]? = some token
  registered : registry.Precedes base.token.displayName token.token.displayName

/-- Inherited tokens, each of which implements the next one first, lead from the token to one that
is a service or stands for a type that is needed. -/
inductive Founded (plan : Plan) : PlannedToken → Prop
  | root {token : PlannedToken} : token ∈ plan.tokens →
      token.origin = .annotated ∨ token.origin = .implicit → Founded plan token
  | step {token base : PlannedToken} : token ∈ plan.tokens → token.origin = .autoDetected →
      base ∈ plan.tokens → token.metadata.implements.head? = some base.token.id →
      Founded plan base → Founded plan token

theorem Referential.eq_of_id {plan : Plan} (h : plan.Referential) {a b : PlannedToken}
    (ha : a ∈ plan.tokens) (hb : b ∈ plan.tokens) (hid : a.token.id = b.token.id) : a = b :=
  List.inj_on_of_nodup_map h.distinct ha hb hid

/-- What a token refers to is emitted before it. -/
theorem Referential.emitted {plan : Plan} (h : plan.Referential) {token base : PlannedToken}
    (htoken : token ∈ plan.tokens) (hbase : base ∈ plan.tokens)
    (hid : base.token.id ∈ token.metadata.references) :
    ∃ i j : Nat, i < j ∧ plan.tokens[i]? = some base ∧ plan.tokens[j]? = some token := by
  obtain ⟨j, hj⟩ := List.getElem?_of_mem htoken
  obtain ⟨i, hlt, hi⟩ := h.earlier j token hj _ hid
  rw [ids, List.getElem?_map, Option.map_eq_some_iff] at hi
  obtain ⟨found, hfound, hsame⟩ := hi
  have he : found = base := h.eq_of_id (List.mem_of_getElem? hfound) hbase hsame
  exact ⟨i, j, hlt, he ▸ hfound, hj⟩

end Plan

namespace Course

variable {oracle : Oracle} {settings : Settings} {plan : Plan} {derived : Context}

/-- What the passes up to that of derivation left, and what of it is still there when the pass of
metadata begins and when it is over. -/
structure Begins (course : Course oracle settings plan) (derived : Context) : Prop where
  inherited : derived.Derived oracle
  rooted : derived.Rooted oracle settings
  suffix : derived.registry.suffix = settings.tokenSuffix
  derivations : course.before.derivations = derived.derivations
  growth : Growth Minted.IsNeeded derived.registry course.described.registry

theorem exists_begins (course : Course oracle settings plan) :
    ∃ derived, course.Begins derived := by
  obtain ⟨derived, made, hreach, hmade, hbefore⟩ := Resolution.reach_factories course.reaches
  obtain ⟨hderived, hrooted⟩ := Context.derived_of_reach hreach
  have hsuffix := (Resolution.reached_of_reach .start hreach).sound.suffix
  refine ⟨derived, hderived, hrooted, hsuffix, ?_, ?_⟩
  · obtain ⟨registry, pending, factories, rfl⟩ := Context.resolveFactories_eq hmade
    rw [hbefore]
    rfl
  · have hneeded : Growth Minted.IsNeeded derived.registry course.before.registry := by
      have hgrowth := (Context.asked_resolveFactories hmade).growth
      rw [hbefore]
      exact hgrowth
    have hasked := Context.asked_collectMetadata course.before_linked course.describes
    exact hneeded.trans (hasked.growth.weaken fun minted hminted => Or.inl hminted.2.1)

/-- What a token is derived from comes first in its metadata. -/
theorem head?_implements (course : Course oracle settings plan) (begins : course.Begins derived)
    {minted : Minted} (hminted : minted ∈ course.described.registry.minted)
    (horigin : minted.origin ≠ .factory) {metadata : Metadata} {base : TokenId}
    (hentry : (derived.registry.idFor minted.name, metadata) ∈ derived.derivations.entries)
    (himplements : metadata.implements = [base]) :
    (course.described.planned minted).metadata.implements.head? = some base := by
  obtain ⟨state, walk, turned⟩ :=
    course.exists_turned (course.mem_tokens.mpr ⟨minted, hminted, rfl⟩) horigin
  obtain ⟨before, position, other, hbefore, hstate, -, -⟩ := turned.comes
  cases course.reaches.symm.trans hbefore
  have hsound := (Resolution.reached_of_reach .start course.reaches).sound
  have hderivations : state.derivations = derived.derivations :=
    (Context.keyed_turns hsound hstate).1.trans begins.derivations
  have hid : state.registry.idFor minted.name = derived.registry.idFor minted.name := by
    rw [Registry.idFor, turned.suffix, Registry.idFor, begins.suffix]
  have hstart : (state.tokenWalk minted.name).implements = [base] := by
    rw [Context.tokenWalk, hderivations, hid, Table.get?_eq_some_of_mem hentry]
    exact himplements
  obtain ⟨added, hadded⟩ : (state.tokenWalk minted.name).implements <+: walk.implements :=
    Walk.prefix_implements_foldlM_arrive (Walk.settled_start rfl) turned.run
  have hfound : walk.metadata.implements = base :: added := by
    rw [Walk.metadata, ← hadded, hstart]
    rfl
  have hnonempty : walk.metadata.isEmpty = false :=
    Metadata.isEmpty_eq_false (hfound ▸ List.mem_cons_self)
  rw [turned.found hnonempty, hfound]
  rfl

/-- An inherited token has what it is inherited from among the tokens of the first two passes. -/
theorem exists_base (course : Course oracle settings plan) (begins : course.Begins derived)
    {minted : Minted} (hminted : minted ∈ derived.registry.minted)
    (horigin : minted.origin = .autoDetected) :
    ∃ base ∈ derived.registry.minted, derived.registry.Precedes base.name minted.name ∧
      (course.described.planned minted).metadata.implements.head? =
        some (course.described.planned base).token.id ∧
      ∃ declaration ∈ oracle.declarations, declaration.exported = true ∧
        declaration.qualifiedName = minted.name ∧ ∃ candidate,
          oracle.Candidate declaration candidate ∧ oracle.named? candidate = some base.name := by
  have hstems := begins.rooted minted hminted
  unfold Context.Stems at hstems
  rw [horigin] at hstems
  obtain ⟨⟨id, metadata⟩, hentry, rfl⟩ := hstems
  obtain ⟨other, -, -, hid, declaration, candidate, base, hinherits⟩ :=
    begins.inherited.derivations _ hentry
  have hname : minted.name = other.name := Registry.idFor_inj.mp hid
  rw [← hname] at hinherits
  obtain ⟨i, -, found, -, -, hfound, -, rfl, -⟩ := hinherits.earlier
  have hhead := course.head?_implements begins (begins.growth.mem hminted)
    (by rw [horigin]; decide) hentry hinherits.implements
  refine ⟨found, List.mem_of_getElem? hfound, hinherits.earlier, ?_, declaration,
    hinherits.declared, hinherits.exported, hinherits.qualified, candidate,
    Oracle.mem_candidates.mp hinherits.offered, hinherits.named⟩
  rw [hhead, ← begins.growth.idFor]
  rfl

/-- The tokens of the first two passes lead to services and to types that are needed. The induction
is on the order in which they were minted. -/
theorem founded (course : Course oracle settings plan) (begins : course.Begins derived)
    {minted : Minted} (hminted : minted ∈ derived.registry.minted) :
    plan.Founded (course.described.planned minted) := by
  have hplanned : ∀ minted ∈ derived.registry.minted,
      course.described.planned minted ∈ plan.tokens := fun minted hm =>
    course.mem_tokens.mpr ⟨minted, begins.growth.mem hm, rfl⟩
  have hcontains := Registry.contains_iff.mpr (List.mem_map_of_mem hminted)
  refine Registry.precedes_induction (fun name => ∀ minted ∈ derived.registry.minted,
    minted.name = name → plan.Founded (course.described.planned minted)) ?_ hcontains minted
      hminted rfl
  rintro name - ih minted hminted rfl
  cases horigin : minted.origin with
  | annotated => exact .root (hplanned minted hminted) (Or.inl horigin)
  | implicit => exact .root (hplanned minted hminted) (Or.inr horigin)
  | autoDetected =>
    obtain ⟨base, hbase, hprecedes, hhead, -⟩ := course.exists_base begins hminted horigin
    exact .step (hplanned minted hminted) horigin (hplanned base hbase) hhead
      (ih base.name hprecedes base hbase rfl)
  | factory =>
    have hstems := begins.rooted minted hminted
    unfold Context.Stems at hstems
    rw [horigin] at hstems
    exact hstems.elim

/-- All passes together lead to a state with the registry that the plan is made from. -/
theorem exists_last (course : Course oracle settings plan) :
    ∃ last, Resolution.reach Pass.all (.start oracle settings) = .ok last ∧
      last.registry = course.described.registry := by
  have hordered : Context.orderTokens course.described.drained =
      .ok { course.described.drained with order := course.order } := by
    have horders : (TokenGraph.ofRegistry course.described.drained.registry
        course.described.drained.metadata).order = .ok course.order := course.orders
    rw [Context.orderTokens, horders]
    rfl
  have hrest : Resolution.reach [.metadata, .ordering, .planning] course.before =
      .ok { course.described.drained with order := course.order }.drained.bindFactories.drained :=
    Resolution.reach_cons.mpr ⟨_, course.describes,
      Resolution.reach_cons.mpr ⟨_, hordered, Resolution.reach_cons.mpr ⟨_, rfl, rfl⟩⟩⟩
  exact ⟨_, foldlM_append_eq_ok.mpr ⟨course.before, course.reaches, hrest⟩,
    Context.registry_bindFactories _⟩

end Course

/-- Whatever the code base, the inherited tokens of a plan are single, each is inherited from a
token that came before it, and in the end from a service or from a type that is needed. -/
theorem inherited_founded {oracle : Oracle} {settings : Settings} {plan : Plan}
    (h : resolve oracle settings = .ok plan) :
    ∃ last, Resolution.reach Pass.all (.start oracle settings) = .ok last ∧
      ∀ token ∈ plan.tokens, token.origin = .autoDetected →
        token.token.cardinality = .single ∧ plan.Founded token ∧
          ∃ base ∈ plan.tokens, plan.InheritsFrom oracle last.registry token base := by
  have hreferential := referential_of_resolve h
  obtain ⟨course⟩ := Course.exists_of_resolve h
  obtain ⟨derived, begins⟩ := course.exists_begins
  obtain ⟨last, hlast, hregistry⟩ := course.exists_last
  refine ⟨last, hlast, ?_⟩
  intro token htoken horigin
  obtain ⟨minted, hminted, rfl⟩ := course.mem_tokens.mp htoken
  have horigin : minted.origin = .autoDetected := horigin
  have hsingle : minted.cardinality = .single := by
    cases course.explained minted hminted with
    | inherited _ _ _ => rfl
    | _ => cases horigin
  have hearly : minted ∈ derived.registry.minted := by
    rcases begins.growth.mem_or_allowed hminted with hold | hneeded | hown
    · exact hold
    · cases horigin.symm.trans hneeded
    · cases horigin.symm.trans hown
  obtain ⟨base, hbase, hprecedes, hhead, hdeclared⟩ := course.exists_base begins hearly horigin
  have hplanned : course.described.planned base ∈ plan.tokens :=
    course.mem_tokens.mpr ⟨base, begins.growth.mem hbase, rfl⟩
  have hreference : (course.described.planned base).token.id ∈
      (course.described.planned minted).metadata.references :=
    List.mem_append_left _ (List.mem_of_head? hhead)
  refine ⟨hsingle, course.founded begins hearly, _, hplanned, hhead, hdeclared,
    hreferential.emitted htoken hplanned hreference, ?_⟩
  rw [hregistry]
  exact begins.growth.precedes hprecedes

/-- The token of `Diary` was inherited before the factory of that name was found. -/
theorem inherited_founded_diaries : ∃ plan last, resolve diaries.oracle {} = .ok plan ∧
    Resolution.reach Pass.all (.start diaries.oracle {}) = .ok last ∧
    plan.tokens.map (fun token => (token.token.displayName, token.origin)) =
      [("Document", .annotated), ("Journal", .autoDetected), ("Diary", .autoDetected),
        ("Notes", .autoDetected)] ∧
    plan.factories.map (fun planned => planned.target) = [⟨"DiaryToken"⟩] ∧
    ∀ token ∈ plan.tokens, token.origin = .autoDetected → plan.Founded token ∧
      ∃ base ∈ plan.tokens, plan.InheritsFrom diaries.oracle last.registry token base := by
  obtain ⟨plan, hplan, htokens, htargets⟩ : ∃ plan, resolve diaries.oracle {} = .ok plan ∧
      plan.tokens.map (fun token => (token.token.displayName, token.origin)) =
        [("Document", .annotated), ("Journal", .autoDetected), ("Diary", .autoDetected),
          ("Notes", .autoDetected)] ∧
      plan.factories.map (fun planned => planned.target) = [⟨"DiaryToken"⟩] :=
    exists_plan_of_any (by decide +kernel)
  obtain ⟨last, hlast, hall⟩ := inherited_founded hplan
  exact ⟨plan, last, hplan, hlast, htokens, htargets,
    fun token htoken horigin => (hall token htoken horigin).2⟩

end InjectionPlan

import InjectionPlan.Proofs.MetadataTurns

/-!
# When metadata is complete

The metadata of a token should name the token of every type that its declared type extends, and
the tokens of everything nested in such a type. A token is named when it is minted before the walk
comes to its type; what is minted later in the pass of metadata is lost. So completeness is said of
the moments of the pass, and the last section has a code base whose plan is not complete.
-/

namespace InjectionPlan

variable {oracle : Oracle} {settings : Settings} {plan : Plan} {planned : PlannedToken}
  {base : TypeId} {name : String}

/-- The type of a planned token extends a type that has a planned token of another name. -/
structure Plan.Extends (plan : Plan) (oracle : Oracle) (planned : PlannedToken) (base : TypeId)
    (name : String) : Prop where
  token : planned ∈ plan.tokens
  origin : planned.origin ≠ .factory
  subject : ∃ subject, oracle.declaredType? planned.token.displayName = some subject ∧
    oracle.Extends subject base
  named : oracle.named? base = some name
  known : ∃ other ∈ plan.tokens, other.token.displayName = name
  distinct : name ≠ planned.token.displayName

/-- The metadata names the token of a type and the tokens of everything nested in the type. -/
structure PlannedToken.Names (planned : PlannedToken) (oracle : Oracle) (settings : Settings)
    (base : TypeId) (name : String) : Prop where
  implements : .derive name settings.tokenSuffix ∈ planned.metadata.implements
  generics : ∀ argument nested, oracle.Nests base argument →
    oracle.named? argument = some nested → nested ≠ planned.token.displayName →
    .derive nested settings.tokenSuffix ∈ planned.metadata.generics

/-- The metadata of every token names all that it should. -/
def Plan.MetadataComplete (plan : Plan) (oracle : Oracle) (settings : Settings) : Prop :=
  ∀ planned base name, plan.Extends oracle planned base name →
    planned.Names oracle settings base name

/-- The walk of a name comes to a type when the name of the type has a token. -/
def Context.Meets (state : Context) (oracle : Oracle) (subject : String) (ty : TypeId)
    (name : String) : Prop :=
  Walk.Meets oracle (state.subjectOf subject) (oracle.lineageOf subject)
    (state.tokenWalk subject) ty name

/-- On the turn of a name its walk meets a type of another name, and everything nested in `base`
is nested in a type that it meets, or known from what the name is derived from. -/
def MetInTime (oracle : Oracle) (settings : Settings) (subject : String) (base : TypeId)
    (name : String) : Prop :=
  ∃ state, ComesTo oracle settings subject state ∧ (∃ ty, state.Meets oracle subject ty name) ∧
    ∀ argument nested, oracle.Nests base argument → oracle.named? argument = some nested →
      nested ≠ subject →
      .derive nested settings.tokenSuffix ∈ (state.tokenWalk subject).generics ∨
        ∃ ty met inner, state.Meets oracle subject ty met ∧ oracle.Nests ty inner ∧
          oracle.named? inner = some nested

/-- What the turn of a planned token was, and what the token has from it. -/
structure Turned (oracle : Oracle) (settings : Settings) (planned : PlannedToken)
    (state : Context) (walk : Walk) : Prop where
  comes : ComesTo oracle settings planned.token.displayName state
  linked : state.Linked
  suffix : state.registry.suffix = settings.tokenSuffix
  run : (oracle.lineageOf planned.token.displayName).foldlM
    (Walk.arrive oracle (state.subjectOf planned.token.displayName))
    (state.tokenWalk planned.token.displayName) = .ok walk
  found : walk.metadata.isEmpty = false → planned.metadata = walk.metadata
  nothing : walk.metadata.isEmpty = true → ∀ id ∈ planned.metadata.references,
    state.registry.knows id = true

theorem Course.exists_turned (course : Course oracle settings plan) (hmem : planned ∈ plan.tokens)
    (horigin : planned.origin ≠ .factory) :
    ∃ state walk, Turned oracle settings planned state walk := by
  obtain ⟨minted, hminted, rfl⟩ := course.mem_tokens.mp hmem
  obtain ⟨state, next, turn⟩ := course.exists_turn hminted
  rcases Context.describeToken_ok turn.run with ⟨hfactory, -⟩ | ⟨-, walk, hwalk, rfl⟩
  · exact absurd hfactory horigin
  · rw [turn.codeBase] at hwalk
    refine ⟨state, walk, turn.comes, turn.linked, turn.suffix, hwalk, fun hfound => ?_,
      fun hnothing id hid => ?_⟩
    · rw [turn.planned, Context.get?_describe_of_not_isEmpty hfound, Option.getD_some]
    · -- what a factory of the same name left there
      rw [turn.planned, Context.get?_describe_of_isEmpty hnothing] at hid
      cases hget : state.metadata.get? (state.registry.idFor minted.name) with
      | none => simp [hget, Metadata.references] at hid
      | some metadata =>
        simp only [hget, Option.getD_some] at hid
        exact ((turn.linked.metadata _ metadata hget).known id hid).1

namespace Turned

variable {state : Context} {walk : Walk}

theorem derive_eq (turned : Turned oracle settings planned state walk) (name : String) :
    .derive name settings.tokenSuffix = state.registry.idFor name := by
  rw [← turned.suffix]
  rfl

/-- A type that the subject extends is met if its name has a token on the turn of the subject. -/
theorem meets_of_knows (turned : Turned oracle settings planned state walk)
    (h : plan.Extends oracle planned base name)
    (hknown : state.registry.knows (state.registry.idFor name) = true) :
    state.Meets oracle planned.token.displayName base name := by
  obtain ⟨subject, hsubject, hextends⟩ := h.subject
  rw [Registry.knows_idFor] at hknown
  refine Walk.meets_of_contains (Walk.settled_start rfl) turned.run
    ((Oracle.mem_lineageOf hsubject).mpr hextends) h.named hknown ?_
  exact fun he => h.distinct (Registry.idFor_inj.mp he)

theorem mem_implements (turned : Turned oracle settings planned state walk) {id : TokenId} :
    id ∈ walk.implements ↔
      id ∈ (state.tokenWalk planned.token.displayName).implements ∨ ∃ ty met,
        state.Meets oracle planned.token.displayName ty met ∧ id = state.registry.idFor met :=
  Walk.mem_implements_iff (Walk.settled_start rfl) turned.run

/-- A walk that meets a type gives the token its metadata. -/
theorem metadata_eq (turned : Turned oracle settings planned state walk) {ty : TypeId}
    (h : state.Meets oracle planned.token.displayName ty name) :
    planned.metadata = walk.metadata := by
  have hmem := turned.mem_implements.mpr (Or.inr ⟨ty, name, h, rfl⟩)
  exact turned.found (Metadata.isEmpty_eq_false hmem)

theorem mem_generics (turned : Turned oracle settings planned state walk) {nested : String}
    (hne : nested ≠ planned.token.displayName) :
    .derive nested settings.tokenSuffix ∈ walk.generics ↔
      .derive nested settings.tokenSuffix ∈
          (state.tokenWalk planned.token.displayName).generics ∨ ∃ ty met inner,
        state.Meets oracle planned.token.displayName ty met ∧ oracle.Nests ty inner ∧
          oracle.named? inner = some nested := by
  rw [Walk.mem_generics_iff (Walk.settled_start rfl) turned.run, turned.derive_eq]
  refine or_congr_right ⟨?_, ?_⟩
  · rintro ⟨ty, met, hmeets, -, inner, other, hnests, hinner, hid⟩
    have hname : nested = other := state.registry.idFor_injective hid
    exact ⟨ty, met, inner, hmeets, hnests, hname ▸ hinner⟩
  · rintro ⟨ty, met, inner, hmeets, hnests, hinner⟩
    refine ⟨ty, met, hmeets, fun he => hne ?_, inner, nested, hnests, hinner, rfl⟩
    exact state.registry.idFor_injective he

/-- A token names a type that its type extends when that is met on its turn. -/
theorem names_iff (turned : Turned oracle settings planned state walk)
    (h : plan.Extends oracle planned base name) : planned.Names oracle settings base name ↔
      MetInTime oracle settings planned.token.displayName base name := by
  constructor
  · intro names
    have himplements := names.implements
    rw [turned.derive_eq] at himplements
    have hmet : ∃ ty, state.Meets oracle planned.token.displayName ty name := by
      cases hempty : walk.metadata.isEmpty with
      | true =>
        have hknown := turned.nothing hempty _ (List.mem_append_left _ himplements)
        exact ⟨base, turned.meets_of_knows h hknown⟩
      | false =>
        rw [turned.found hempty] at himplements
        rcases turned.mem_implements.mp himplements with hderived | ⟨ty, met, hmeets, hid⟩
        · have hfits := Context.fits_tokenWalk turned.linked planned.token.displayName
          have hknown := (hfits.known _ (List.mem_append_left _ hderived)).1
          exact ⟨base, turned.meets_of_knows h hknown⟩
        · exact ⟨ty, Registry.idFor_inj.mp hid ▸ hmeets⟩
    refine ⟨state, turned.comes, hmet, fun argument nested hnests hnested hne => ?_⟩
    obtain ⟨ty, hmeets⟩ := hmet
    have hgeneric := names.generics argument nested hnests hnested hne
    rw [turned.metadata_eq hmeets] at hgeneric
    exact (turned.mem_generics hne).mp hgeneric
  · rintro ⟨other, hcomes, ⟨ty, hmeets⟩, hgenerics⟩
    cases hcomes.unique turned.comes
    have hmetadata := turned.metadata_eq hmeets
    refine ⟨?_, fun argument nested hnests hnested hne => ?_⟩
    · rw [hmetadata, turned.derive_eq]
      exact turned.mem_implements.mpr (Or.inr ⟨ty, name, hmeets, rfl⟩)
    · rw [hmetadata]
      exact (turned.mem_generics hne).mpr (hgenerics argument nested hnests hnested hne)

end Turned

/-- The name has a token before the pass of metadata. -/
def mintedBefore (oracle : Oracle) (settings : Settings) (name : String) : Bool :=
  (Resolution.reach Pass.beforeMetadata (.start oracle settings)).toOption.any
    fun before => before.registry.contains name

/-- Types whose names had a token before the pass are always met in time. -/
theorem metInTime_of_mintedBefore (h : resolve oracle settings = .ok plan)
    (hextends : plan.Extends oracle planned base name)
    (hminted : mintedBefore oracle settings name = true) :
    MetInTime oracle settings planned.token.displayName base name := by
  obtain ⟨course⟩ := Course.exists_of_resolve h
  obtain ⟨state, walk, turned⟩ := course.exists_turned hextends.token hextends.origin
  obtain ⟨before, position, minted, hbefore, hstate, -, -⟩ := turned.comes
  rw [mintedBefore, hbefore] at hminted
  have hlinked := (Resolution.keeps_beforeMetadata hbefore).1
  have hgrowth := (Context.turns_keeps hlinked hstate).2.registry
  have hknown : state.registry.knows (state.registry.idFor name) = true := by
    rw [Registry.knows_idFor]
    exact hgrowth.contains hminted
  have hmeets := turned.meets_of_knows hextends hknown
  refine ⟨state, turned.comes, ⟨base, hmeets⟩, fun argument nested hnests hnested _ => ?_⟩
  exact Or.inr ⟨base, name, argument, hmeets, hnests, hnested⟩

/-- Metadata is complete exactly when every type that it should name is met in time. -/
theorem metadataComplete_iff (h : resolve oracle settings = .ok plan) :
    plan.MetadataComplete oracle settings ↔ ∀ planned base name,
      plan.Extends oracle planned base name →
        MetInTime oracle settings planned.token.displayName base name := by
  obtain ⟨course⟩ := Course.exists_of_resolve h
  refine forall_congr' fun planned => forall_congr' fun base => forall_congr' fun name =>
    forall_congr' fun hextends => ?_
  obtain ⟨state, walk, turned⟩ := course.exists_turned hextends.token hextends.origin
  exact turned.names_iff hextends

theorem metadataComplete_genericStore : ∃ plan, resolve genericStore.oracle {} = .ok plan ∧
    plan.tokens.length = 5 ∧ plan.MetadataComplete genericStore.oracle {} := by
  obtain ⟨plan, hplan, hlength, hminted⟩ : ∃ plan, resolve genericStore.oracle {} = .ok plan ∧
      plan.tokens.length = 5 ∧ ∀ planned ∈ plan.tokens,
        ∀ base ∈ genericStore.oracle.lineageOf planned.token.displayName,
          (genericStore.oracle.named? base).all (mintedBefore genericStore.oracle {}) = true :=
    exists_plan_of_any (by decide +kernel)
  refine ⟨plan, hplan, hlength, (metadataComplete_iff hplan).mpr fun planned base name h => ?_⟩
  obtain ⟨subject, hsubject, hextends⟩ := h.subject
  have hall := hminted planned h.token base ((Oracle.mem_lineageOf hsubject).mpr hextends)
  rw [h.named] at hall
  exact metInTime_of_mintedBefore hplan h hall

/-- A service extends a type that gets its token later, as a generic argument of a service
declared after it. -/
def lateBase : Snapshot where
  types := [
    { text := "A", symbol := some ⟨"A", .interface, none⟩, bases := [⟨1⟩] },
    { text := "B", symbol := some ⟨"B", .interface, none⟩ },
    { text := "X", symbol := some ⟨"X", .interface, none⟩ },
    { text := "X<B>", symbol := some ⟨"X", .interface, none⟩, arguments := [⟨1⟩] },
    { text := "C", symbol := some ⟨"C", .interface, none⟩, bases := [⟨3⟩] }]
  declarations := [
    { name := "A", kind := .interface, tags := [⟨"service", none⟩], type := ⟨0⟩ },
    { name := "X", kind := .interface, tags := [⟨"service", none⟩], type := ⟨2⟩ },
    { name := "C", kind := .interface, tags := [⟨"service", none⟩], type := ⟨4⟩ }]

/-- The walk of `A` comes to `B` before the walk of `C` mints its token. -/
theorem not_metadataComplete_lateBase : lateBase.validate = .ok lateBase ∧
    ∃ plan, resolve lateBase.oracle {} = .ok plan ∧
      ¬ plan.MetadataComplete lateBase.oracle {} := by
  have hfault : lateBase.fault? = none := by decide +kernel
  refine ⟨by rw [Snapshot.validate, hfault], ?_⟩
  obtain ⟨plan, hplan, ⟨planned, htoken, hname, horigin, hnone⟩, hknown⟩ :
      ∃ plan, resolve lateBase.oracle {} = .ok plan ∧
        (∃ planned ∈ plan.tokens, planned.token.displayName = "A" ∧
          planned.origin ≠ .factory ∧ planned.metadata.implements = []) ∧
        ∃ other ∈ plan.tokens, other.token.displayName = "B" :=
    exists_plan_of_any (by decide +kernel)
  refine ⟨plan, hplan, fun hcomplete => ?_⟩
  have hsubject : lateBase.oracle.declaredType? "A" = some ⟨0⟩ := by decide +kernel
  have hbase : (⟨1⟩ : TypeId) ∈ lateBase.oracle.bases ⟨0⟩ := by decide +kernel
  have hnamed : lateBase.oracle.named? ⟨1⟩ = some "B" := by decide +kernel
  have hextends : plan.Extends lateBase.oracle planned ⟨1⟩ "B" := by
    refine ⟨htoken, horigin, ⟨⟨0⟩, hname ▸ hsubject, .single hbase⟩, hnamed, hknown, ?_⟩
    rw [hname]
    decide
  have himplements := (hcomplete planned ⟨1⟩ "B" hextends).implements
  rw [hnone] at himplements
  cases himplements

end InjectionPlan

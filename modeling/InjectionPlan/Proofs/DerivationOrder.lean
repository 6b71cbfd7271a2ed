import InjectionPlan.Proofs.DerivationOrigins
import InjectionPlan.Proofs.DerivationRounds

/-!
# Derivation and the order of declarations

The first two passes may mint different tokens when the declarations come in another order: a
declaration inherits from the first candidate that has a token when its turn comes, and brings
along what is nested in that one only. This is all that can differ. The tokens are the same exactly
when what the derivations of one order bring along has tokens in the other order.
-/

namespace InjectionPlan

namespace Context

variable {context : Context} {oracle : Oracle} {settings : Settings} {name : String}

/-- What the first two passes leave. -/
structure Inherited (context : Context) (oracle : Oracle) (settings : Settings) : Prop where
  linked : context.Linked
  suffix : context.registry.suffix = settings.tokenSuffix
  declarations : context.declarations = oracle.annotated settings.tagNames
  derived : context.Derived oracle
  rooted : context.Rooted oracle settings
  rest : context.AtRest
  services : ∀ name cardinality, oracle.service? settings.tagNames name = some cardinality →
    ⟨name, cardinality, .annotated⟩ ∈ context.registry.minted

theorem inherited_of_reach (h : Resolution.reach [.registration, .autoDetection]
      (.start oracle settings) = .ok context) : context.Inherited oracle settings := by
  obtain ⟨hderived, hrooted⟩ := derived_of_reach h
  obtain ⟨last, hrun, rfl⟩ := Resolution.reach_derivation h
  obtain ⟨hlinked, hfirst⟩ := registerServices_keeps (Linked.start oracle settings)
  obtain ⟨hlast, hsecond⟩ := deriveTokens_keeps hlinked.drained hrun
  have hrest : last.AtRest := atRest_deriveTokens hlinked.drained hrun
  refine ⟨hlast.drained, hsecond.registry.suffix.trans hfirst.registry.suffix,
    hsecond.declarations.trans (declarations_registerServices _), hderived, hrooted, hrest.drained,
    fun name cardinality hservice => ?_⟩
  have hget := get?_registerServices oracle settings name
  rw [hservice] at hget
  exact hsecond.registry.mem (Registry.get?_eq_some.mp hget).1

namespace Inherited

theorem idFor (h : context.Inherited oracle settings) (name : String) :
    context.registry.idFor name = .derive name settings.tokenSuffix := by
  rw [← h.suffix]
  rfl

/-- The token of a service is that of the service and nothing else. -/
theorem origin_of_service (h : context.Inherited oracle settings) {minted : Minted}
    (hminted : minted ∈ context.registry.minted)
    (hservice : (oracle.service? settings.tagNames minted.name).isSome = true) :
    minted.origin = .annotated := by
  obtain ⟨cardinality, hservice⟩ := Option.isSome_iff_exists.mp hservice
  have hsame := Registry.eq_of_name hminted (h.services _ _ hservice) rfl
  rw [hsame]

theorem contains_of_service (h : context.Inherited oracle settings)
    (hservice : (oracle.service? settings.tagNames name).isSome = true) :
    context.registry.contains name = true := by
  obtain ⟨cardinality, hservice⟩ := Option.isSome_iff_exists.mp hservice
  exact Registry.contains_iff.mpr (List.mem_map_of_mem (h.services _ _ hservice))

/-- A declaration has a token if a type has one that it may inherit from. -/
theorem contains_of_candidate (h : context.Inherited oracle settings) {declaration : Declaration}
    {candidate : TypeId} {base : String} (hdeclared : declaration ∈ oracle.declarations)
    (hexported : declaration.exported = true) (hkind : declaration.kind.isTypeLike = true)
    (hcandidate : candidate ∈ oracle.candidates declaration)
    (hnamed : oracle.named? candidate = some base)
    (hbase : context.registry.contains base = true) :
    context.registry.contains declaration.qualifiedName = true := by
  have hmem : ⟨declaration, .ofTags settings.tagNames declaration.tags⟩ ∈ context.declarations := by
    rw [h.declarations]
    exact List.mem_map_of_mem (f := fun declaration =>
      (⟨declaration, .ofTags settings.tagNames declaration.tags⟩ : AnnotatedDeclaration)) hdeclared
  have hrests := h.rest _ hmem
  rw [← h.derived.codeBase] at hcandidate hnamed
  exact hrests.contains hexported hkind hcandidate hnamed hbase

end Inherited

end Context

namespace Oracle

variable {oracle : Oracle} {declarations : List Declaration} {names : TagNames} {name : String}

/-- The code base with its declarations in another order. -/
def reordered (oracle : Oracle) (declarations : List Declaration) : Oracle :=
  { oracle with declarations }

theorem declarations_reordered (oracle : Oracle) (declarations : List Declaration) :
    (oracle.reordered declarations).declarations = declarations := rfl

theorem named?_reordered (oracle : Oracle) (declarations : List Declaration) (ty : TypeId) :
    (oracle.reordered declarations).named? ty = oracle.named? ty := by
  have htext : (oracle.reordered declarations).text = oracle.text := rfl
  have hsymbol : (oracle.reordered declarations).symbol = oracle.symbol := rfl
  rw [named?, named?, classify, classify, htext, hsymbol]

theorem candidates_reordered (oracle : Oracle) (declarations : List Declaration)
    (declaration : Declaration) :
    (oracle.reordered declarations).candidates declaration = oracle.candidates declaration := by
  simp only [candidates, reordered]

/-- The services are the same in every order. -/
theorem service?_reordered_eq_none (hperm : declarations.Perm oracle.declarations) :
    (oracle.reordered declarations).service? names name = none ↔
      oracle.service? names name = none := by
  rw [← Option.not_isSome_iff_eq_none, ← Option.not_isSome_iff_eq_none, service?_isSome,
    service?_isSome]
  simp only [declarations_reordered, hperm.mem_iff]

/-- A type with a name is nested in the type. -/
def NestsName (oracle : Oracle) (ty : TypeId) (name : String) : Prop :=
  ∃ argument, oracle.Nests ty argument ∧ oracle.named? argument = some name

theorem nestsName_reordered {ty : TypeId} :
    (oracle.reordered declarations).NestsName ty name ↔ oracle.NestsName ty name := by
  simp only [NestsName, named?_reordered]
  rfl

/-- The name is not that of a service, and a declaration of it may inherit from the candidate. -/
def Offers (oracle : Oracle) (names : TagNames) (name : String) (candidate : TypeId) : Prop :=
  oracle.service? names name = none ∧ (oracle.named? candidate).isSome = true ∧
    ∃ declaration ∈ oracle.declarations, declaration.exported = true ∧
      declaration.kind.isTypeLike = true ∧ declaration.qualifiedName = name ∧
      candidate ∈ oracle.candidates declaration

theorem offers_reordered {candidate : TypeId} (hperm : declarations.Perm oracle.declarations) :
    (oracle.reordered declarations).Offers names name candidate ↔
      oracle.Offers names name candidate := by
  simp only [Offers, service?_reordered_eq_none hperm, named?_reordered, candidates_reordered,
    declarations_reordered, hperm.mem_iff]

/-- It does not matter which candidate a name inherits from, and what a candidate brings along
inherits from nothing itself. -/
structure Unrivalled (oracle : Oracle) (names : TagNames) : Prop where
  uniform : ∀ name first second nested, oracle.Offers names name first →
    oracle.Offers names name second → oracle.NestsName first nested →
    oracle.NestsName second nested
  apart : ∀ name candidate nested other, oracle.Offers names name candidate →
    oracle.NestsName candidate nested → nested ≠ name → ¬ oracle.Offers names nested other

theorem Unrivalled.reorder (h : oracle.Unrivalled names)
    (hperm : declarations.Perm oracle.declarations) :
    (oracle.reordered declarations).Unrivalled names := by
  constructor
  · simp only [offers_reordered hperm, nestsName_reordered]
    exact h.uniform
  · simp only [offers_reordered hperm, nestsName_reordered]
    exact h.apart

end Oracle

namespace Context

variable {context first second : Context} {oracle : Oracle} {settings : Settings}
  {declarations : List Declaration} {name : String}

/-- What the derivations of a state bring along: the generic arguments of the bases. -/
def derivedArguments (context : Context) : List TokenId :=
  context.derivations.entries.flatMap fun entry => entry.2.generics

/-- The derivation of a name brings another name along, as a generic argument of the base. -/
def Brings (context : Context) (parent nested : String) : Prop :=
  ∃ metadata, (context.registry.idFor parent, metadata) ∈ context.derivations.entries ∧
    context.registry.idFor nested ∈ metadata.generics

theorem mem_derivedArguments {id : TokenId} : id ∈ context.derivedArguments ↔
    ∃ entry ∈ context.derivations.entries, id ∈ entry.2.generics :=
  List.mem_flatMap

namespace Inherited

/-- What is brought along has a token. -/
theorem knows_of_generic (h : context.Inherited oracle settings) {key id : TokenId}
    {metadata : Metadata} (hentry : (key, metadata) ∈ context.derivations.entries)
    (hid : id ∈ metadata.generics) : context.registry.knows id = true := by
  have hget := Table.get?_eq_some_of_mem hentry
  exact ((h.linked.derivations key metadata hget).known id (List.mem_append_right _ hid)).1

/-- A name with an inherited token is no service and inherits from one of its candidates. -/
theorem offers (h : context.Inherited oracle settings) {metadata : Metadata}
    (hentry : (context.registry.idFor name, metadata) ∈ context.derivations.entries) :
    ∃ candidate, oracle.Offers settings.tagNames name candidate ∧ ∀ nested,
      context.registry.idFor nested ∈ metadata.generics ↔
        nested ≠ name ∧ oracle.NestsName candidate nested := by
  obtain ⟨minted, hminted, horigin, hid, declaration, candidate, base, hinherits⟩ :=
    h.derived.derivations _ hentry
  obtain rfl : name = minted.name := Registry.idFor_inj.mp hid
  refine ⟨candidate, ⟨?_, by simp [hinherits.named], declaration, hinherits.declared,
    hinherits.exported, hinherits.kind, hinherits.qualified, hinherits.offered⟩, fun nested => ?_⟩
  · rw [← Option.not_isSome_iff_eq_none]
    intro hservice
    cases (h.origin_of_service hminted hservice).symm.trans horigin
  · rw [hinherits.generics]
    constructor
    · rintro ⟨hne, argument, other, hnests, hnamed, hid⟩
      exact ⟨fun he => hne (he ▸ rfl), argument, hnests, Registry.idFor_inj.mp hid ▸ hnamed⟩
    · rintro ⟨hne, argument, hnests, hnamed⟩
      exact ⟨fun he => hne (Registry.idFor_inj.mp he), argument, nested, hnests, hnamed, rfl⟩

/-- A token that no service has was inherited or brought along. -/
theorem derived_or_brought (h : context.Inherited oracle settings)
    (hcontains : context.registry.contains name = true)
    (hservice : oracle.service? settings.tagNames name = none) :
    (∃ metadata, (context.registry.idFor name, metadata) ∈ context.derivations.entries) ∨
      ∃ parent, context.registry.Precedes parent name ∧ context.Brings parent name := by
  obtain ⟨minted, hminted, rfl⟩ := List.mem_map.mp (Registry.contains_iff.mp hcontains)
  have hstems := h.rooted minted hminted
  unfold Stems at hstems
  split at hstems
  · simp [hservice] at hstems
  · obtain ⟨⟨id, metadata⟩, hentry, hid⟩ := hstems
    exact Or.inl ⟨metadata, hid ▸ hentry⟩
  · obtain ⟨⟨id, metadata⟩, hentry, parent, hid, hprecedes, hgeneric⟩ := hstems
    exact Or.inr ⟨parent, hprecedes, metadata, hid ▸ hentry, hgeneric⟩
  · exact hstems.elim

/-- A name with a token in one order has one in the other, if what is brought along has. -/
theorem contains_of_brings (hfirst : first.Inherited oracle settings)
    (hsecond : second.Inherited (oracle.reordered declarations) settings)
    (hperm : declarations.Perm oracle.declarations)
    (hbrings : ∀ parent nested, first.Brings parent nested →
      second.registry.contains parent = true → second.registry.contains nested = true)
    (hcontains : first.registry.contains name = true) :
    second.registry.contains name = true := by
  refine Registry.precedes_induction (fun name => second.registry.contains name = true)
    (fun name hname ih => ?_) hcontains
  cases hservice : oracle.service? settings.tagNames name with
  | some cardinality =>
    refine hsecond.contains_of_service (Option.isSome_iff_ne_none.mpr fun hnone => ?_)
    cases hservice.symm.trans ((Oracle.service?_reordered_eq_none hperm).mp hnone)
  | none =>
    rcases hfirst.derived_or_brought hname hservice with ⟨metadata, hentry⟩ |
      ⟨parent, hprecedes, hparent⟩
    · obtain ⟨minted, -, -, hid, declaration, candidate, base, hinherits⟩ :=
        hfirst.derived.derivations _ hentry
      obtain rfl : name = minted.name := Registry.idFor_inj.mp hid
      have hbase := ih base hinherits.earlier
      have hoffered := hinherits.offered
      have hnamed := hinherits.named
      rw [← Oracle.candidates_reordered] at hoffered
      rw [← Oracle.named?_reordered] at hnamed
      exact hinherits.qualified ▸ hsecond.contains_of_candidate
        (hperm.mem_iff.mpr hinherits.declared) hinherits.exported hinherits.kind hoffered hnamed
          hbase
    · exact hbrings parent name hparent (ih parent hprecedes)

/-- Where no base has a rival, a derivation brings along what it brings along in another order. -/
theorem contains_of_unrivalled (hfirst : first.Inherited oracle settings)
    (hsecond : second.Inherited (oracle.reordered declarations) settings)
    (hperm : declarations.Perm oracle.declarations)
    (hunrivalled : oracle.Unrivalled settings.tagNames) {parent nested : String}
    (hbrings : first.Brings parent nested) (hparent : second.registry.contains parent = true) :
    second.registry.contains nested = true := by
  obtain ⟨metadata, hentry, hgeneric⟩ := hbrings
  obtain ⟨candidate, hoffers, hmem⟩ := hfirst.offers hentry
  obtain ⟨hne, hnests⟩ := (hmem nested).mp hgeneric
  have hunserved := (Oracle.service?_reordered_eq_none hperm).mpr hoffers.1
  rcases hsecond.derived_or_brought hparent hunserved with ⟨other, hother⟩ |
    ⟨grandparent, -, other, hother, hgeneric'⟩
  · obtain ⟨rival, hrival, hmem'⟩ := hsecond.offers hother
    have hsame := hunrivalled.uniform parent candidate rival nested hoffers
      ((Oracle.offers_reordered hperm).mp hrival) hnests
    have hgeneric' := (hmem' nested).mpr ⟨hne, Oracle.nestsName_reordered.mpr hsame⟩
    have hknown := hsecond.knows_of_generic hother hgeneric'
    rwa [Registry.knows_idFor] at hknown
  · -- the parent would have its token from a base of another name
    obtain ⟨rival, hrival, hmem'⟩ := hsecond.offers hother
    obtain ⟨hne', hnests'⟩ := (hmem' parent).mp hgeneric'
    exact absurd hoffers (hunrivalled.apart grandparent rival parent candidate
      ((Oracle.offers_reordered hperm).mp hrival) (Oracle.nestsName_reordered.mp hnests') hne')

/-- What has a token in one order has one in the other when what is brought along does. -/
theorem ids_subset (hfirst : first.Inherited oracle settings)
    (hsecond : second.Inherited (oracle.reordered declarations) settings)
    (hperm : declarations.Perm oracle.declarations)
    (hbrings : ∀ parent nested, first.Brings parent nested →
      second.registry.contains parent = true → second.registry.contains nested = true) :
    first.registry.ids ⊆ second.registry.ids := by
  intro id hid
  obtain ⟨minted, hminted, rfl⟩ := List.mem_map.mp hid
  have hcontains := hfirst.contains_of_brings hsecond hperm hbrings
    (Registry.contains_iff.mpr (List.mem_map_of_mem hminted))
  rwa [hfirst.idFor, ← hsecond.idFor, Registry.mem_ids, Registry.knows_idFor]

theorem derivedArguments_subset (h : context.Inherited oracle settings) :
    context.derivedArguments ⊆ context.registry.ids := by
  intro id hid
  obtain ⟨entry, hentry, hgeneric⟩ := mem_derivedArguments.mp hid
  exact Registry.mem_ids.mpr (h.knows_of_generic hentry hgeneric)

theorem ids_subset_iff (hfirst : first.Inherited oracle settings)
    (hsecond : second.Inherited (oracle.reordered declarations) settings)
    (hperm : declarations.Perm oracle.declarations) :
    first.registry.ids ⊆ second.registry.ids ↔
      first.derivedArguments ⊆ second.registry.ids := by
  refine ⟨fun h => List.Subset.trans hfirst.derivedArguments_subset h, fun h =>
    hfirst.ids_subset hsecond hperm ?_⟩
  rintro parent nested ⟨metadata, hentry, hgeneric⟩ -
  have hin := h (mem_derivedArguments.mpr ⟨_, hentry, hgeneric⟩)
  rwa [hfirst.idFor, ← hsecond.idFor, Registry.mem_ids, Registry.knows_idFor] at hin

end Inherited

/-- The two states have the same tokens. -/
def SameTokens (first second : Context) : Prop :=
  ∀ id, id ∈ first.registry.ids ↔ id ∈ second.registry.ids

theorem sameTokens_iff_subset : first.SameTokens second ↔
    first.registry.ids ⊆ second.registry.ids ∧ second.registry.ids ⊆ first.registry.ids :=
  ⟨fun h => ⟨fun _ => (h _).mp, fun _ => (h _).mpr⟩, fun h _ => ⟨(h.1 ·), (h.2 ·)⟩⟩

end Context

/-- Two orders of the declarations give the same tokens exactly when what the derivations bring
along in one order has a token in the other; where no base has a rival they do. -/
theorem sameTokens_iff {oracle : Oracle} {settings : Settings} {declarations : List Declaration}
    {first second : Context} (hperm : declarations.Perm oracle.declarations)
    (hfirst : Resolution.reach [.registration, .autoDetection] (.start oracle settings) =
      .ok first)
    (hsecond : Resolution.reach [.registration, .autoDetection]
      (.start (oracle.reordered declarations) settings) = .ok second) :
    (first.SameTokens second ↔ first.derivedArguments ⊆ second.registry.ids ∧
      second.derivedArguments ⊆ first.registry.ids) ∧
    (oracle.Unrivalled settings.tagNames → first.SameTokens second) := by
  have hone : first.Inherited ((oracle.reordered declarations).reordered oracle.declarations)
    settings := Context.inherited_of_reach hfirst
  have htwo := Context.inherited_of_reach hsecond
  refine ⟨?_, fun hunrivalled => Context.sameTokens_iff_subset.mpr ⟨?_, ?_⟩⟩
  · rw [Context.sameTokens_iff_subset,
      (Context.inherited_of_reach hfirst).ids_subset_iff htwo hperm,
      htwo.ids_subset_iff hone hperm.symm]
  · exact (Context.inherited_of_reach hfirst).ids_subset htwo hperm fun _ _ =>
      (Context.inherited_of_reach hfirst).contains_of_unrivalled htwo hperm hunrivalled
  · exact htwo.ids_subset hone hperm.symm fun _ _ =>
      htwo.contains_of_unrivalled hone hperm.symm (hunrivalled.reorder hperm)

/-- A service of a generic type, an interface that extends it, and one that extends that. -/
def journal : Snapshot where
  types := [
    { text := "Entry", symbol := some ⟨"Entry", .interface, none⟩ },
    { text := "Log<Entry>", symbol := some ⟨"Log", .interface, none⟩, arguments := [⟨0⟩] },
    { text := "Journal", symbol := some ⟨"Journal", .interface, none⟩, bases := [⟨1⟩] },
    { text := "Diary", symbol := some ⟨"Diary", .interface, none⟩, bases := [⟨2⟩] }]
  declarations := [
    { name := "Diary", kind := .interface, type := ⟨3⟩ },
    { name := "Journal", kind := .interface, type := ⟨2⟩ },
    { name := "Log", kind := .interface, tags := [⟨"service", none⟩], type := ⟨1⟩ }]

theorem sameTokens_journal : ∃ first second,
    Resolution.reach [.registration, .autoDetection] (.start journal.oracle {}) = .ok first ∧
    Resolution.reach [.registration, .autoDetection]
      (.start (journal.oracle.reordered journal.declarations.reverse) {}) =
        .ok second ∧
    first.registry.ids = [⟨"LogToken"⟩, ⟨"JournalToken"⟩, ⟨"EntryToken"⟩, ⟨"DiaryToken"⟩] ∧
    first.SameTokens second := by
  obtain ⟨first, hfirst, hids, harguments⟩ : ∃ first, Resolution.reach
      [.registration, .autoDetection] (.start journal.oracle {}) = .ok first ∧
      first.registry.ids =
        [⟨"LogToken"⟩, ⟨"JournalToken"⟩, ⟨"EntryToken"⟩, ⟨"DiaryToken"⟩] ∧
      first.derivedArguments = [⟨"EntryToken"⟩] :=
    exists_ok_of_any (by decide +kernel)
  obtain ⟨second, hsecond, hids', harguments'⟩ : ∃ second, Resolution.reach
      [.registration, .autoDetection]
      (.start (journal.oracle.reordered journal.declarations.reverse) {}) =
        .ok second ∧
      second.registry.ids =
        [⟨"LogToken"⟩, ⟨"JournalToken"⟩, ⟨"EntryToken"⟩, ⟨"DiaryToken"⟩] ∧
      second.derivedArguments = [⟨"EntryToken"⟩] :=
    exists_ok_of_any (by decide +kernel)
  refine ⟨first, second, hfirst, hsecond, hids,
    (sameTokens_iff (List.reverse_perm _) hfirst hsecond).1.mpr ?_⟩
  rw [hids, harguments, hids', harguments']
  exact ⟨by decide, by decide⟩

/-- An interface with two generic bases, one of which is a service and the other of which inherits
its token. -/
def rivalBases : Snapshot where
  types := [
    { text := "S", symbol := some ⟨"S", .interface, none⟩ },
    { text := "B1", symbol := some ⟨"B1", .interface, none⟩, bases := [⟨0⟩] },
    { text := "X", symbol := some ⟨"X", .interface, none⟩ },
    { text := "B1<X>", symbol := some ⟨"B1", .interface, none⟩, arguments := [⟨2⟩] },
    { text := "Y", symbol := some ⟨"Y", .interface, none⟩ },
    { text := "B2<Y>", symbol := some ⟨"B2", .interface, none⟩, arguments := [⟨4⟩] },
    { text := "D", symbol := some ⟨"D", .interface, none⟩, bases := [⟨3⟩, ⟨5⟩] }]
  declarations := [
    { name := "S", kind := .interface, tags := [⟨"service", none⟩], type := ⟨0⟩ },
    { name := "B2", kind := .interface, tags := [⟨"service", none⟩], type := ⟨5⟩ },
    { name := "B1", kind := .interface, type := ⟨1⟩ },
    { name := "D", kind := .interface, type := ⟨6⟩ }]

/-- When `D` comes first, `B1` has no token yet, so `D` inherits from `B2` and brings along `Y`
instead of `X`. -/
theorem not_sameTokens_rivalBases : rivalBases.validate = .ok rivalBases ∧
    (rivalBases.declarations.map Declaration.qualifiedName).Nodup ∧ ∃ first second,
      Resolution.reach [.registration, .autoDetection] (.start rivalBases.oracle {}) =
        .ok first ∧
      Resolution.reach [.registration, .autoDetection] (.start
        (rivalBases.oracle.reordered rivalBases.declarations.reverse) {}) =
          .ok second ∧
      ¬ first.SameTokens second := by
  have hfault : rivalBases.fault? = none := by decide +kernel
  refine ⟨by rw [Snapshot.validate, hfault], by decide +kernel, ?_⟩
  obtain ⟨first, hfirst, hwith⟩ : ∃ first, Resolution.reach [.registration, .autoDetection]
      (.start rivalBases.oracle {}) = .ok first ∧ ⟨"XToken"⟩ ∈ first.registry.ids :=
    exists_ok_of_any (by decide +kernel)
  obtain ⟨second, hsecond, hwithout⟩ : ∃ second,
      Resolution.reach [.registration, .autoDetection] (.start
        (rivalBases.oracle.reordered rivalBases.declarations.reverse) {}) =
          .ok second ∧ ⟨"XToken"⟩ ∉ second.registry.ids :=
    exists_ok_of_any (by decide +kernel)
  exact ⟨first, second, hfirst, hsecond, fun hsame => hwithout ((hsame _).mp hwith)⟩

end InjectionPlan

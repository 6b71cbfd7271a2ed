import InjectionPlan.Proofs.KeyedLists
import InjectionPlan.Proofs.PassSequences
import InjectionPlan.Proofs.TokenOrigins

/-!
# Files that tokens are imported from

A file is recorded for a name by every pass that meets the name, and the first one that has a path
stays. So the first pass settles the file of a service, unless no declaration of the service has a
path. All passes together ask the registry for files that declare the name in one way or another,
and a plan keeps what is recorded in the order in which it emits the tokens.
-/

namespace InjectionPlan

open Registry (Growth Asked)

/-! ## Records -/

namespace Registry

variable {allowed : Minted → Prop} {files : String → String → Prop} {old new : Registry}

/-- Every file that is recorded is one that may be recorded for the name of its token. -/
def Holds (registry : Registry) (files : String → String → Prop) : Prop :=
  ∀ entry ∈ registry.imports.entries, ∃ name, entry.1 = registry.idFor name ∧ files name entry.2

theorem Holds.record (h : old.Holds files) {name file : String} (hfile : files name file) :
    (old.record (old.idFor name) file).Holds files := by
  intro entry hentry
  have hget := Table.get?_eq_some_iff.mpr hentry
  rw [get?_imports_record, Option.or_eq_some_iff] at hget
  have hgrowth := growth_record (fun _ => True) old (old.idFor name) file
  rcases hget with hold | ⟨-, hnew⟩
  · obtain ⟨other, hid, hother⟩ := h entry (Table.mem_of_get?_eq_some hold)
    exact ⟨other, hid.trans (hgrowth.idFor other).symm, hother⟩
  · split at hnew
    · next hrecorded =>
      cases hnew
      exact ⟨name, hrecorded.1.symm.trans (hgrowth.idFor name).symm, hfile⟩
    · cases hnew

theorem Asked.holds (h : Asked allowed files old new) (hold : old.Holds files) :
    new.Holds files := by
  induction h with
  | refl => exact hold
  | @request new name cardinality origin _ _ ih =>
    intro entry hentry
    rw [imports_request] at hentry
    obtain ⟨other, hid, hfile⟩ := ih entry hentry
    exact ⟨other, hid.trans (idFor_request new name other cardinality origin).symm, hfile⟩
  | record _ hfile ih => exact ih.record hfile

end Registry

/-! ## Services -/

/-- The declaration gives the service of the name a file to import it from. -/
def Declaration.placesService (names : TagNames) (name : String) (declaration : Declaration) :
    Bool :=
  declaration.isService names && declaration.qualifiedName = name && declaration.file ≠ ""

namespace Context

variable {context next : Context} {oracle : Oracle} {settings : Settings}

/-- A declaration that gives its service a file is recorded, if no declaration before it is. -/
theorem get?_imports_registerService (context : Context) (names : TagNames)
    (declaration : Declaration) (name : String) :
    (context.registerService ⟨declaration, .ofTags names declaration.tags⟩).registry.imports.get?
        (context.registry.idFor name) =
      (context.registry.imports.get? (context.registry.idFor name)).or
        (if declaration.placesService names name = true then some declaration.file else none) := by
  have hservice := declaration.isSome_service? names
  unfold AnnotatedDeclaration.service? at hservice
  unfold registerService Declaration.placesService
  cases htag : (Annotations.ofTags names declaration.tags).service with
  | none =>
    rw [htag, ite_self] at hservice
    simp [← hservice]
  | some cardinality =>
    rw [htag] at hservice
    by_cases hdeclares : (declaration.exported && declaration.kind.declaresType) = true
    · rw [if_pos hdeclares] at hservice
      have hknown : (context.registry.request declaration.qualifiedName cardinality
          .annotated).contains declaration.qualifiedName = true :=
        Registry.contains_request.mpr (Or.inr rfl)
      rw [← Registry.knows_idFor] at hknown
      simp only [hdeclares, if_true, ← hservice, Option.isSome_some, Bool.true_and]
      rw [Registry.get?_imports_record, Registry.imports_request, hknown, Registry.idFor_request]
      simp
    · rw [if_neg hdeclares] at hservice
      simp [hdeclares, ← hservice]

theorem get?_imports_foldl_registerService (names : TagNames) (declarations : List Declaration)
    (context : Context) (name : String) :
    ((declarations.map fun declaration => ⟨declaration, .ofTags names declaration.tags⟩).foldl
        registerService context).registry.imports.get? (context.registry.idFor name) =
      (context.registry.imports.get? (context.registry.idFor name)).or
        ((declarations.find? (Declaration.placesService names name)).map Declaration.file) := by
  induction declarations generalizing context with
  | nil => simp
  | cons declaration declarations ih =>
    rw [List.map_cons, List.foldl_cons]
    have hgrowth := (asked_registerService context
      ⟨declaration, .ofTags names declaration.tags⟩).growth
    rw [← hgrowth.idFor name, ih, hgrowth.idFor name, get?_imports_registerService,
      Option.or_assoc, List.find?_cons]
    cases declaration.placesService names name with
    | true => simp
    | false => simp

/-- After the first pass a service has the first file that its declarations give it. -/
theorem get?_imports_registerServices (oracle : Oracle) (settings : Settings) (name : String) :
    (Context.start oracle settings).registerServices.registry.imports.get?
        (.derive name settings.tokenSuffix) =
      (oracle.declarations.find? (Declaration.placesService settings.tagNames name)).map
        Declaration.file :=
  get?_imports_foldl_registerService settings.tagNames oracle.declarations _ name

/-- Passes leave the declarations and the types as they are, and so the files of names. -/
theorem Advances.locates {allowed : Minted → Prop} (h : Advances allowed context next) :
    next.Locates = context.Locates := by
  unfold Context.Locates
  rw [h.oracle, h.declarations]

end Context

/-! ## Whole runs -/

/-- The file is that of an exported declaration of the name, or that of a type of the name. -/
def Oracle.Places (oracle : Oracle) (name file : String) : Prop :=
  (∃ declaration ∈ oracle.declarations, declaration.exported = true ∧
    declaration.qualifiedName = name ∧ declaration.file = file) ∨
  ∃ ty symbol, oracle.named? ty = some name ∧ oracle.symbol ty = some symbol ∧
    symbol.file = some file

theorem Context.places_of_locates {oracle : Oracle} {settings : Settings} {name file : String}
    (h : (Context.start oracle settings).Locates name file) : oracle.Places name file := by
  rcases h with ⟨annotated, hannotated, hdeclares⟩ | ⟨ty, hname, hfile⟩
  · obtain ⟨declaration, hdeclared, rfl⟩ := List.mem_map.mp hannotated
    exact Or.inl ⟨declaration, hdeclared, hdeclares⟩
  · obtain ⟨symbol, hsymbol, hfile⟩ := Option.bind_eq_some_iff.mp hfile
    exact Or.inr ⟨ty, symbol, hname, hsymbol, hfile⟩

namespace Course

variable {oracle : Oracle} {settings : Settings} {plan : Plan}

/-- What a resolution asks of the registry after the first pass. -/
theorem asked_registered (course : Course oracle settings plan) :
    Asked (fun _ => True) (Context.start oracle settings).Locates
      (Context.start oracle settings).registerServices.registry course.described.registry := by
  obtain ⟨derived, made, hderived, hmade, hbefore⟩ :=
    Resolution.reach_beforeMetadata course.reaches
  obtain ⟨hlinked, hfirst⟩ := Context.registerServices_keeps (Context.Linked.start oracle settings)
  obtain ⟨hlinked, hsecond⟩ := Context.deriveTokens_keeps hlinked.drained hderived
  have hadvances := Resolution.keeps_beforeMetadata course.reaches
  have hderives := Context.asked_deriveTokens hderived
  have hmakes := (Context.asked_resolveFactories hmade).weaken (fun _ _ => trivial) fun _ _ => id
  have hdescribes := Context.asked_collectMetadata course.before_linked course.describes
  rw [hfirst.drained.locates] at hderives
  rw [hsecond.drained.locates, hfirst.drained.locates] at hmakes
  rw [hadvances.2.oracle] at hdescribes
  have hlast : Asked (fun _ => True) (Context.start oracle settings).Locates course.before.registry
      course.described.registry := hdescribes.weaken (fun _ _ => trivial) fun _ _ => Or.inr
  rw [hbefore] at hlast
  exact ((hderives.weaken (fun _ _ => trivial) fun _ _ => id).trans hmakes).trans hlast

/-- What a resolution asks of the registry. -/
theorem asked (course : Course oracle settings plan) :
    Asked (fun _ => True) (Context.start oracle settings).Locates
      (Registry.new settings.tokenSuffix) course.described.registry :=
  ((Context.asked_registerServices (Context.start oracle settings)).weaken (fun _ _ => trivial)
    fun _ _ => id).trans course.asked_registered

theorem filed (course : Course oracle settings plan) : course.described.registry.Filed :=
  course.asked.filed fun _ hentry => by cases hentry

theorem holds (course : Course oracle settings plan) :
    course.described.registry.Holds oracle.Places :=
  (course.asked.weaken (fun _ => id) fun _ _ => Context.places_of_locates).holds
    fun _ hentry => by cases hentry

/-- The imports of a plan are the recorded files in the order of emission. -/
theorem imports_entries (course : Course oracle settings plan) :
    plan.imports.entries = course.order.filterMap fun id =>
      (course.described.registry.imports.get? id).map fun file => (id, file) := by
  have hplan := congrArg Plan.imports course.plans
  rw [hplan]
  apply Table.entries_ofList
  rw [map_fst_filterMap]
  exact course.emitted.nodup.filter _

theorem imports_keys (course : Course oracle settings plan) :
    plan.imports.keys.Sublist plan.ids := by
  rw [Table.keys, course.imports_entries, map_fst_filterMap, course.ids]
  exact List.filter_sublist

/-- Every recorded file is planned, since it is recorded for a token. -/
theorem get?_imports (course : Course oracle settings plan) (id : TokenId) :
    plan.imports.get? id = course.described.registry.imports.get? id := by
  apply Option.ext
  intro file
  rw [Table.get?_eq_some_iff, course.imports_entries, List.mem_filterMap]
  constructor
  · intro ⟨other, _, hfile⟩
    obtain ⟨found, hfound, he⟩ := Option.map_eq_some_iff.mp hfile
    cases he
    exact hfound
  · intro hget
    have hknown := (course.filed _ (Table.mem_of_get?_eq_some hget)).1
    exact ⟨id, course.mem_order.mpr hknown, by rw [hget]; rfl⟩

/-- The file of a service stays the one that its declarations give it. -/
theorem get?_imports_of_service (course : Course oracle settings plan) {name : String}
    {first : Declaration}
    (h : oracle.declarations.find? (Declaration.placesService settings.tagNames name) =
      some first) :
    plan.imports.get? (course.described.registry.idFor name) = some first.file := by
  have hgrowth := course.asked.growth
  have hid : course.described.registry.idFor name = .derive name settings.tokenSuffix :=
    hgrowth.idFor name
  have hregistered := Context.get?_imports_registerServices oracle settings name
  rw [h, Option.map_some] at hregistered
  rw [course.get?_imports, hid]
  exact Table.get?_of_prefix course.asked_registered.growth.imports hregistered

end Course

/-! ## Plans -/

/-- Tokens are imported in the order of emission, each from a file that declares its name. A service
is imported from the first file that a declaration of the service gives it. -/
structure Plan.Imported (plan : Plan) (oracle : Oracle) (names : TagNames) : Prop where
  keys : plan.imports.keys.Sublist plan.ids
  paths : ∀ entry ∈ plan.imports.entries, entry.2 ≠ ""
  services : ∀ planned ∈ plan.tokens, planned.origin = .annotated → ∀ first,
    oracle.declarations.find? (Declaration.placesService names planned.token.displayName) =
      some first → plan.imports.get? planned.token.id = some first.file
  places : ∀ planned ∈ plan.tokens, ∀ file, plan.imports.get? planned.token.id = some file →
    oracle.Places planned.token.displayName file

/-- Whatever files the passes meet, a plan imports services from where they are declared, and every
token from a file of its name. -/
theorem imported_of_resolve {oracle : Oracle} {settings : Settings} {plan : Plan}
    (h : resolve oracle settings = .ok plan) : plan.Imported oracle settings.tagNames := by
  obtain ⟨course⟩ := Course.exists_of_resolve h
  constructor
  case keys => exact course.imports_keys
  case paths =>
    intro entry hentry
    have hget := Table.get?_eq_some_iff.mpr hentry
    rw [course.get?_imports] at hget
    exact (course.filed _ (Table.mem_of_get?_eq_some hget)).2
  case services =>
    intro planned hp _ first hfirst
    obtain ⟨minted, -, rfl⟩ := course.mem_tokens.mp hp
    exact course.get?_imports_of_service hfirst
  case places =>
    intro planned hp file hget
    obtain ⟨minted, -, rfl⟩ := course.mem_tokens.mp hp
    rw [course.get?_imports] at hget
    obtain ⟨name, hid, hplaces⟩ := course.holds _ (Table.mem_of_get?_eq_some hget)
    have hname : minted.name = name := course.described.registry.idFor_injective hid
    have hdisplay : (course.described.planned minted).token.displayName = minted.name := rfl
    rw [hdisplay, hname]
    exact hplaces

/-- A service that is declared three times, first without a path, and its type, with a file of its
own. What makes it needs an item and a cache whose file has no path. -/
def filedStore : Snapshot where
  types := [
    { text := "Store", symbol := some ⟨"Store", .interface, some "vendor.ts"⟩ },
    { text := "Item", symbol := some ⟨"Item", .interface, some "item.ts"⟩ },
    { text := "Cache", symbol := some ⟨"Cache", .classType, some ""⟩ },
    { text := "(cache: Cache, item: Item) => Store",
      signatures := [⟨[⟨"cache", ⟨2⟩⟩, ⟨"item", ⟨1⟩⟩], ⟨0⟩⟩] }]
  declarations := [
    { name := "Store", kind := .interface, tags := [⟨"service", none⟩], type := ⟨0⟩ },
    { name := "open", kind := .function, file := "open.ts", tags := [⟨"injectable", none⟩],
      type := ⟨3⟩ },
    { name := "Store", kind := .interface, file := "store.ts", tags := [⟨"service", none⟩],
      type := ⟨0⟩ },
    { name := "Store", kind := .interface, file := "legacy.ts", tags := [⟨"service", none⟩],
      type := ⟨0⟩ }]

/-- The store is imported from its first file that has a path, although the file of its type comes
from an earlier declaration, and the cache is imported from nowhere. -/
theorem imported_filedStore : ∃ plan, resolve filedStore.oracle {} = .ok plan ∧
    plan.ids = [⟨"StoreToken"⟩, ⟨"CacheToken"⟩, ⟨"ItemToken"⟩] ∧
    plan.imports.entries = [(⟨"StoreToken"⟩, "store.ts"), (⟨"ItemToken"⟩, "item.ts")] ∧
    plan.Imported filedStore.oracle {} := by
  obtain ⟨plan, hplan, hids, himports⟩ : ∃ plan, resolve filedStore.oracle {} = .ok plan ∧
      plan.ids = [⟨"StoreToken"⟩, ⟨"CacheToken"⟩, ⟨"ItemToken"⟩] ∧
      plan.imports.entries = [(⟨"StoreToken"⟩, "store.ts"), (⟨"ItemToken"⟩, "item.ts")] :=
    exists_plan_of_any (by decide +kernel)
  exact ⟨plan, hplan, hids, himports, imported_of_resolve hplan⟩

end InjectionPlan

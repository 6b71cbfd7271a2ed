import InjectionPlan.Proofs.MetadataPass
import InjectionPlan.Proofs.TokenPasses
import InjectionPlan.Proofs.WalkRuns

/-!
# The tokens of generic arguments

The walk over the generic arguments of a type fails exactly when a type without a key is nested in
them, and blames that type and the declaration that it walks for. Otherwise it lists the token of
every name that is nested there, the subject left out, and mints exactly those names that had no
token. Arguments may be shared and may form circles; types that carry no token are gone into like
others.
-/

namespace InjectionPlan

namespace Oracle

variable {oracle : Oracle} {declaration : String} {ty : TypeId} {error : ResolveError}

theorem requireKey_eq_error : oracle.requireKey declaration ty = .error error ↔
    oracle.classify ty = none ∧ error = .structuralType declaration (oracle.text ty) := by
  unfold requireKey
  split
  · next key hkey => simp [hkey]
  · next hnone => simp [hnone, eq_comm]

/-- What holds of all arguments of some types that have their arguments among them holds of all that
is nested in them. -/
theorem forall_nests (types : List TypeId) {holds : TypeId → Prop} (hty : ty ∈ types)
    (hclosed : ∀ ty ∈ types, ∀ argument ∈ oracle.arguments ty, argument ∈ types ∧ holds argument)
    {argument : TypeId} (hnests : oracle.Nests ty argument) : holds argument := by
  suffices argument ∈ types ∧ holds argument from this.2
  induction hnests with
  | single hargument => exact hclosed ty hty _ hargument
  | tail _ hargument ih => exact hclosed _ ih.1 _ hargument

end Oracle

namespace Walk

variable {oracle : Oracle} {subject : Subject} {walk : Walk} {ty argument : TypeId}
  {error : ResolveError}

/-- The argument has no key, which is told of it and of the declaration. -/
def Refuses (oracle : Oracle) (subject : Subject) (argument : TypeId) (error : ResolveError) :
    Prop :=
  oracle.classify argument = none ∧
    error = .structuralType subject.declaration (oracle.text argument)

theorem refuses_of_meet (hrun : walk.meet oracle subject argument = .error error) :
    Refuses oracle subject argument error := by
  unfold meet at hrun
  cases hkey : oracle.requireKey subject.declaration argument with
  | error other =>
    rw [hkey] at hrun
    cases hrun
    exact Oracle.requireKey_eq_error.mp hkey
  | ok key =>
    rw [hkey] at hrun
    cases key with
    | primitive => cases hrun
    | typeParameter => cases hrun
    | named name => cases hrun

/-- Going into the arguments of a type fails only for a type that is nested in it. -/
theorem refuses_of_expand {depth : Nat}
    (hrun : expand oracle subject depth walk ty = .error error) :
    ∃ argument, oracle.Nests ty argument ∧ Refuses oracle subject argument error := by
  induction depth generalizing walk ty with
  | zero => cases hrun
  | succ depth ih =>
    rw [expand_succ] at hrun
    obtain ⟨argument, hargument, mid, hstep⟩ := foldlM_eq_error hrun
    cases hmeet : mid.meet oracle subject argument with
    | error other =>
      rw [goInto_refused hmeet] at hstep
      cases hstep
      exact ⟨argument, .single hargument, refuses_of_meet hmeet⟩
    | ok met =>
      by_cases hin : argument ∈ met.expanded
      · rw [goInto_known hmeet hin] at hstep
        cases hstep
      · rw [goInto, hmeet] at hstep
        have hexpand : expand oracle subject depth
            { met with expanded := argument :: met.expanded } argument = .error error := by
          simpa [bind, Except.bind, hin] using hstep
        obtain ⟨nested, hnests, hrefuses⟩ := ih hexpand
        exact ⟨nested, .head hargument hnests, hrefuses⟩

/-- What the walk over the arguments of a type leaves: the tokens of the names nested in the type,
each once and the subject left out, and a registry in which all these names have tokens. That
begins with the tokens there were and mints nothing but such names. -/
structure Collected (oracle : Oracle) (subject : Subject) (registry : Registry) (ty : TypeId)
    (walk : Walk) : Prop where
  once : walk.generics.Nodup
  listed : ∀ id, id ∈ walk.generics ↔ id ≠ subject.id ∧ ∃ argument name,
    oracle.Nests ty argument ∧ oracle.named? argument = some name ∧ id = registry.idFor name
  registered : ∀ argument name, oracle.Nests ty argument → oracle.named? argument = some name →
    walk.registry.contains name = true
  kept : registry.minted <+: walk.registry.minted
  minted : ∀ minted ∈ walk.registry.minted.drop registry.size, minted.cardinality = .single ∧
    minted.origin = .implicit ∧ ∃ argument, oracle.Nests ty argument ∧
      oracle.named? argument = some minted.name

theorem Collected.of_arguments {registry : Registry}
    (hrun : Walk.arguments oracle subject registry ty = .ok walk) :
    Collected oracle subject registry ty walk := by
  have hexpands := Context.arguments_ok hrun
  have hstart : Settled oracle subject { registry } := settled_start rfl
  obtain ⟨added, hminted, hadded⟩ := hexpands.progress.registry.minted
  constructor
  case once => exact hexpands.progress.nodup List.nodup_nil
  case listed =>
    intro id
    rw [hexpands.mem_generics_iff hstart]
    simp [NestedToken]
  case registered =>
    intro argument name hnests hname
    obtain ⟨key, hkey, hnoted⟩ := hexpands.noted_of_nests hstart hnests
    have hnamed : key = .named name :=
      Option.some.inj (hkey.symm.trans (Oracle.named?_eq_some.mp hname))
    exact (hnoted name hnamed).1
  case kept => exact hminted ▸ List.prefix_append _ _
  case minted =>
    intro minted hnew
    rw [hminted, Registry.size, List.drop_left] at hnew
    exact hadded minted hnew

/-- Nothing without a key is nested in a type of which the arguments were collected. -/
theorem classify_of_arguments {registry : Registry}
    (hrun : Walk.arguments oracle subject registry ty = .ok walk)
    (hnests : oracle.Nests ty argument) : (oracle.classify argument).isSome = true := by
  obtain ⟨key, hkey, -⟩ := (Context.arguments_ok hrun).noted_of_nests (settled_start rfl) hnests
  rw [hkey]
  rfl

end Walk

/-- The walk over generic arguments is exact on every graph of types. It fails, with an error that
names the declaration, exactly when a type without a key is nested in the type; otherwise it has
collected all that is nested there. -/
theorem arguments_exact (oracle : Oracle) (subject : Subject) (registry : Registry) (ty : TypeId) :
    ((∃ text, Walk.arguments oracle subject registry ty =
        .error (.structuralType subject.declaration text)) ↔
      ∃ argument, oracle.Nests ty argument ∧ oracle.classify argument = none) ∧
    (∀ error, Walk.arguments oracle subject registry ty = .error error →
      ∃ argument, oracle.Nests ty argument ∧ Walk.Refuses oracle subject argument error) ∧
    ((∀ argument, oracle.Nests ty argument → (oracle.classify argument).isSome = true) →
      ∃ walk, Walk.arguments oracle subject registry ty = .ok walk ∧
        Walk.Collected oracle subject registry ty walk) := by
  have hrefuses : ∀ error, Walk.arguments oracle subject registry ty = .error error →
      ∃ argument, oracle.Nests ty argument ∧ Walk.Refuses oracle subject argument error :=
    fun error hrun => Walk.refuses_of_expand hrun
  refine ⟨⟨?_, ?_⟩, hrefuses, ?_⟩
  · intro ⟨text, hrun⟩
    obtain ⟨argument, hnests, hnone, -⟩ := hrefuses _ hrun
    exact ⟨argument, hnests, hnone⟩
  · intro ⟨argument, hnests, hnone⟩
    cases hrun : Walk.arguments oracle subject registry ty with
    | ok walk =>
      have hsome := Walk.classify_of_arguments hrun hnests
      rw [hnone] at hsome
      cases hsome
    | error error =>
      obtain ⟨other, -, -, rfl⟩ := hrefuses error hrun
      exact ⟨oracle.text other, rfl⟩
  · intro hkeys
    cases hrun : Walk.arguments oracle subject registry ty with
    | ok walk => exact ⟨walk, rfl, .of_arguments hrun⟩
    | error error =>
      obtain ⟨argument, hnests, hnone, -⟩ := hrefuses error hrun
      have hsome := hkeys argument hnests
      rw [hnone] at hsome
      cases hsome

/-- Pages of items and of a primitive type that has a key as its own argument; items have pages as
arguments again. -/
def pagedItems : Snapshot where
  types := [
    { text := "Page<Item, string>", symbol := some ⟨"Page", .interface, none⟩,
      arguments := [⟨1⟩, ⟨2⟩] },
    { text := "Item<Page>", symbol := some ⟨"Item", .interface, none⟩, arguments := [⟨0⟩] },
    { text := "string", arguments := [⟨3⟩] },
    { text := "Key", symbol := some ⟨"Key", .interface, none⟩ }]

/-- From `Page` on, the walk lists the item and, behind the primitive type, the key, which had a
token; the page itself gets a token that is not listed. -/
theorem arguments_exact_pagedItems :
    let subject : Subject := ⟨⟨"PageToken"⟩, "Page"⟩
    let registry := (Registry.new "Token").request "Key" .multi .annotated
    (∀ argument, pagedItems.oracle.Nests ⟨0⟩ argument →
      (pagedItems.oracle.classify argument).isSome = true) ∧
    ∃ walk, Walk.arguments pagedItems.oracle subject registry ⟨0⟩ = .ok walk ∧
      walk.generics = [⟨"ItemToken"⟩, ⟨"KeyToken"⟩] ∧
      walk.registry.minted = [⟨"Key", .multi, .annotated⟩, ⟨"Item", .single, .implicit⟩,
        ⟨"Page", .single, .implicit⟩] ∧
      Walk.Collected pagedItems.oracle subject registry ⟨0⟩ walk := by
  intro subject registry
  have hkeys : ∀ argument, pagedItems.oracle.Nests ⟨0⟩ argument →
      (pagedItems.oracle.classify argument).isSome = true := by
    intro argument hnests
    apply Oracle.forall_nests [⟨0⟩, ⟨1⟩, ⟨2⟩, ⟨3⟩] ?_ ?_ hnests
    · decide
    · decide +kernel
  refine ⟨hkeys, ?_⟩
  obtain ⟨walk, hrun, hcollected⟩ := (arguments_exact pagedItems.oracle subject registry ⟨0⟩).2.2 hkeys
  obtain ⟨found, hfound, hgenerics, hminted⟩ : ∃ walk,
      Walk.arguments pagedItems.oracle subject registry ⟨0⟩ = .ok walk ∧
      walk.generics = [⟨"ItemToken"⟩, ⟨"KeyToken"⟩] ∧
      walk.registry.minted = [⟨"Key", .multi, .annotated⟩, ⟨"Item", .single, .implicit⟩,
        ⟨"Page", .single, .implicit⟩] := exists_ok_of_any (by decide +kernel)
  cases hrun.symm.trans hfound
  exact ⟨walk, hrun, hgenerics, hminted, hcollected⟩

end InjectionPlan

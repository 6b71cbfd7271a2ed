import InjectionPlan.Resolution.Pass

/-!
# Other ids for the same tokens

`mapIds` puts other ids in the place of the ids of a value and leaves everything else as it is. Of
special use is a longer suffix: no two ids become one by it, so a table keyed by ids stays the same
table under the longer ids.
-/

namespace InjectionPlan

/-! ## Values under other ids -/

section Values

variable (rename : TokenId → TokenId)

def Metadata.mapIds (metadata : Metadata) : Metadata :=
  ⟨metadata.implements.map rename, metadata.generics.map rename⟩

def Factory.mapIds (factory : Factory) : Factory :=
  { factory with
    deps := factory.deps.map rename
    productToken := rename factory.productToken
    ownToken := rename factory.ownToken
    metadata := factory.metadata.mapIds rename }

def Token.mapIds (token : Token) : Token := { token with id := rename token.id }

def PlannedToken.mapIds (planned : PlannedToken) : PlannedToken :=
  { planned with
    token := planned.token.mapIds rename
    metadata := planned.metadata.mapIds rename }

def PlannedFactory.mapIds (planned : PlannedFactory) : PlannedFactory :=
  ⟨planned.factory.mapIds rename, rename planned.target⟩

def Binding.mapIds (binding : Binding) : Binding := { binding with token := rename binding.token }

def ModulePlan.mapIds (module : ModulePlan) : ModulePlan :=
  { module with bindings := module.bindings.map (Binding.mapIds rename) }

/-- The plan with other ids for its tokens. -/
def Plan.mapIds (plan : Plan) : Plan where
  tokens := plan.tokens.map (PlannedToken.mapIds rename)
  factories := plan.factories.map (PlannedFactory.mapIds rename)
  modules := plan.modules.map (ModulePlan.mapIds rename)
  imports := .ofList (plan.imports.entries.map fun entry => (rename entry.1, entry.2))
  diagnostics := plan.diagnostics

/-- Only a circle names tokens. -/
def ResolveError.mapIds : ResolveError → ResolveError
  | .structuralType declaration typeText => .structuralType declaration typeText
  | .cycle chain => .cycle (chain.map rename)

def Abort.mapIds (abort : Abort) : Abort := { abort with error := abort.error.mapIds rename }

/-- The resolution with other ids for the tokens of its plan, or of the circle that ends it. -/
def Resolution.mapIds (resolution : Resolution) : Resolution where
  reported := resolution.reported
  outcome := match resolution.outcome with
    | .ok plan => .ok (plan.mapIds rename)
    | .error abort => .error (abort.mapIds rename)

end Values

/-! ## Tables under other keys -/

namespace Table

variable {κ κ' ν ν' : Type}

/-- The second table has the entries of the first one in their order, under other keys and with
other values. -/
def Images (key : κ → κ') (value : ν → ν') (t : Table κ ν) (t' : Table κ' ν') : Prop :=
  t'.entries = t.entries.map fun entry => (key entry.1, value entry.2)

theorem images_empty (key : κ → κ') (value : ν → ν') : Images key value .empty .empty := rfl

variable [DecidableEq κ] [DecidableEq κ'] {key : κ → κ'} {value : ν → ν'} {t : Table κ ν}
  {t' : Table κ' ν'}

namespace Images

theorem get? (h : Images key value t t') (hkey : Function.Injective key) (other : κ) :
    t'.get? (key other) = (t.get? other).map value := by
  unfold Table.get?
  rw [h, List.find?_map]
  have hsame : ((fun entry : κ' × ν' => decide (entry.1 = key other)) ∘
      fun entry : κ × ν => (key entry.1, value entry.2)) = fun entry => decide (entry.1 = other) := by
    funext entry
    simp [hkey.eq_iff]
  rw [hsame, Option.map_map, Option.map_map]
  rfl

theorem contains (h : Images key value t t') (hkey : Function.Injective key) (other : κ) :
    t'.contains (key other) = t.contains other := by
  rw [← get?_isSome, ← get?_isSome, h.get? hkey, Option.isSome_map]

theorem insert (h : Images key value t t') (hkey : Function.Injective key) (other : κ)
    (new : ν) : Images key value (t.insert other new) (t'.insert (key other) (value new)) := by
  have hcontains := h.contains hkey other
  unfold Table.insert Images
  by_cases hin : t.contains other = true
  · rw [dif_pos hin, dif_pos (hcontains.trans hin)]
    simp only [replaced]
    rw [h, List.map_map, List.map_map]
    apply List.map_congr_left
    intro entry _
    by_cases he : entry.1 = other
    · simp [he]
    · simp [he, hkey.eq_iff]
  · rw [dif_neg hin, dif_neg (by rw [hcontains]; exact hin), List.map_append]
    exact congrArg (· ++ [(key other, value new)]) h

theorem insertNew (h : Images key value t t') (hkey : Function.Injective key) (other : κ)
    (new : ν) : Images key value (t.insertNew other new) (t'.insertNew (key other) (value new)) := by
  have hcontains := h.contains hkey other
  unfold Table.insertNew Images
  by_cases hin : t.contains other = true
  · rw [dif_pos hin, dif_pos (hcontains.trans hin)]
    exact h
  · rw [dif_neg hin, dif_neg (by rw [hcontains]; exact hin), List.map_append]
    exact congrArg (· ++ [(key other, value new)]) h

end Images

theorem images_ofList (hkey : Function.Injective key) (value : ν → ν') (entries : List (κ × ν)) :
    Images key value (ofList entries)
      (ofList (entries.map fun entry => (key entry.1, value entry.2))) := by
  suffices ∀ (t : Table κ ν) (t' : Table κ' ν'), Images key value t t' →
      Images key value (entries.foldl (fun t entry => t.insert entry.1 entry.2) t)
        ((entries.map fun entry => (key entry.1, value entry.2)).foldl
          (fun t entry => t.insert entry.1 entry.2) t') from
    this .empty .empty (images_empty key value)
  induction entries with
  | nil => exact fun _ _ h => h
  | cons entry entries ih => exact fun t t' h => ih _ _ (h.insert hkey entry.1 entry.2)

end Table

/-! ## Renaming twice -/

theorem Metadata.mapIds_id (metadata : Metadata) : metadata.mapIds id = metadata := by
  simp [mapIds]

theorem Factory.mapIds_id (factory : Factory) : factory.mapIds id = factory := by
  simp [mapIds, Metadata.mapIds_id]

theorem Plan.mapIds_id (plan : Plan) : plan.mapIds id = plan := by
  have htokens : PlannedToken.mapIds id = id :=
    funext fun planned => by simp [PlannedToken.mapIds, Token.mapIds, Metadata.mapIds_id]
  have hfactories : PlannedFactory.mapIds id = id :=
    funext fun planned => by simp [PlannedFactory.mapIds, Factory.mapIds_id]
  have hbindings : Binding.mapIds id = id := rfl
  have hmodules : ModulePlan.mapIds id = id :=
    funext fun module => by simp [ModulePlan.mapIds, hbindings]
  simp [mapIds, htokens, hfactories, hmodules, Table.ofList_entries]

theorem Resolution.mapIds_id (resolution : Resolution) : resolution.mapIds id = resolution := by
  obtain ⟨reported, outcome⟩ := resolution
  cases outcome with
  | ok plan => exact congrArg (fun plan => Resolution.mk reported (.ok plan)) plan.mapIds_id
  | error abort =>
    obtain ⟨pass, error⟩ := abort
    cases error with
    | structuralType declaration text => rfl
    | cycle chain => simp [mapIds, Abort.mapIds, ResolveError.mapIds]

section Twice

variable (second first : TokenId → TokenId)

theorem Metadata.mapIds_mapIds (metadata : Metadata) :
    (metadata.mapIds first).mapIds second = metadata.mapIds (second ∘ first) := by
  simp [mapIds]

theorem Factory.mapIds_mapIds (factory : Factory) :
    (factory.mapIds first).mapIds second = factory.mapIds (second ∘ first) := by
  simp [mapIds, Metadata.mapIds_mapIds]

variable {first}

/-- An injective renaming and another one after it are one renaming. -/
theorem Plan.mapIds_mapIds (hfirst : Function.Injective first) (plan : Plan) :
    (plan.mapIds first).mapIds second = plan.mapIds (second ∘ first) := by
  have htokens : PlannedToken.mapIds second ∘ PlannedToken.mapIds first =
      PlannedToken.mapIds (second ∘ first) := funext fun planned => by
    simp [PlannedToken.mapIds, Token.mapIds, Metadata.mapIds_mapIds]
  have hfactories : PlannedFactory.mapIds second ∘ PlannedFactory.mapIds first =
      PlannedFactory.mapIds (second ∘ first) := funext fun planned => by
    simp [PlannedFactory.mapIds, Factory.mapIds_mapIds]
  have hbindings : Binding.mapIds second ∘ Binding.mapIds first =
      Binding.mapIds (second ∘ first) := rfl
  have hmodules : ModulePlan.mapIds second ∘ ModulePlan.mapIds first =
      ModulePlan.mapIds (second ∘ first) := funext fun module => by
    simp [ModulePlan.mapIds, hbindings]
  -- No two keys become one, so the table keeps all of its entries in between.
  have hentries : (Table.ofList (plan.imports.entries.map fun entry =>
      (first entry.1, entry.2))).entries =
        plan.imports.entries.map fun entry => (first entry.1, entry.2) := by
    have himages := Table.images_ofList hfirst id plan.imports.entries
    rwa [Table.ofList_entries] at himages
  unfold mapIds
  rw [hentries, List.map_map, htokens, List.map_map, hfactories, List.map_map, hmodules,
    List.map_map]
  rfl

theorem Resolution.mapIds_mapIds (hfirst : Function.Injective first) (resolution : Resolution) :
    (resolution.mapIds first).mapIds second = resolution.mapIds (second ∘ first) := by
  obtain ⟨reported, outcome⟩ := resolution
  cases outcome with
  | ok plan =>
    exact congrArg (fun plan => Resolution.mk reported (.ok plan))
      (plan.mapIds_mapIds second hfirst)
  | error abort =>
    obtain ⟨pass, error⟩ := abort
    cases error with
    | structuralType declaration text => rfl
    | cycle chain => simp [mapIds, Abort.mapIds, ResolveError.mapIds]

end Twice

/-! ## Longer ids -/

/-- The id with a longer suffix. -/
def TokenId.lengthen (more : String) (id : TokenId) : TokenId := ⟨id.text ++ more⟩

theorem TokenId.lengthen_injective (more : String) : Function.Injective (lengthen more) := by
  intro a b h
  cases a; cases b
  have htext : _ ++ more = _ ++ more := congrArg TokenId.text h
  exact congrArg TokenId.mk ((String.append_left_inj more).mp htext)

theorem TokenId.lengthen_derive (more name suffix : String) :
    (derive name suffix).lengthen more = derive name (suffix ++ more) :=
  congrArg TokenId.mk String.append_assoc

theorem TokenId.lengthen_empty : lengthen "" = id := by
  funext id
  exact congrArg TokenId.mk String.append_empty

/-- The second registry has minted the same names and has longer ids for them. -/
structure Registry.Lengthened (more : String) (registry longer : Registry) : Prop where
  suffix : longer.suffix = registry.suffix ++ more
  minted : longer.minted = registry.minted
  imports : registry.imports.Images (TokenId.lengthen more) id longer.imports

namespace Registry.Lengthened

variable {more : String} {registry longer : Registry}

theorem idFor (h : Lengthened more registry longer) (name : String) :
    longer.idFor name = (registry.idFor name).lengthen more := by
  rw [Registry.idFor, h.suffix, Registry.idFor, TokenId.lengthen_derive]

theorem size (h : Lengthened more registry longer) : longer.size = registry.size := by
  rw [Registry.size, h.minted, Registry.size]

theorem ids (h : Lengthened more registry longer) :
    longer.ids = registry.ids.map (TokenId.lengthen more) := by
  rw [Registry.ids, h.minted, Registry.ids, List.map_map]
  exact List.map_congr_left fun minted _ => h.idFor minted.name

theorem idFor_eq_iff (h : Lengthened more registry longer) (name : String) (id : TokenId) :
    longer.idFor name = id.lengthen more ↔ registry.idFor name = id := by
  rw [h.idFor, (TokenId.lengthen_injective more).eq_iff]

theorem knows (h : Lengthened more registry longer) (id : TokenId) :
    longer.knows (id.lengthen more) = registry.knows id := by
  simp only [Registry.knows, h.minted, h.idFor_eq_iff]

theorem entry? (h : Lengthened more registry longer) (id : TokenId) :
    longer.entry? (id.lengthen more) = registry.entry? id := by
  simp only [Registry.entry?, h.minted, h.idFor_eq_iff]

theorem contains (h : Lengthened more registry longer) (name : String) :
    longer.contains name = registry.contains name := by
  rw [Registry.contains, h.idFor, h.knows, Registry.contains]

theorem get? (h : Lengthened more registry longer) (name : String) :
    longer.get? name = registry.get? name := by
  rw [Registry.get?, h.idFor, h.entry?, Registry.get?]

theorem request (h : Lengthened more registry longer) (name : String) (cardinality : Cardinality)
    (origin : Origin) : Lengthened more (registry.request name cardinality origin)
      (longer.request name cardinality origin) := by
  cases hc : registry.contains name with
  | true =>
    rw [request_of_contains cardinality origin hc,
      request_of_contains cardinality origin ((h.contains name).trans hc)]
    exact h
  | false =>
    have hc' := (h.contains name).trans hc
    refine ⟨?_, ?_, ?_⟩
    · rw [suffix_request, suffix_request, h.suffix]
    · rw [minted_request_of_not_contains cardinality origin hc,
        minted_request_of_not_contains cardinality origin hc', h.minted]
    · rw [imports_request, imports_request]
      exact h.imports

theorem record (h : Lengthened more registry longer) (id : TokenId) (file : String) :
    Lengthened more (registry.record id file) (longer.record (id.lengthen more) file) := by
  unfold Registry.record
  rw [h.knows]
  split
  · exact h
  · exact ⟨h.suffix, h.minted,
      h.imports.insertNew (TokenId.lengthen_injective more) id file⟩

theorem record? (h : Lengthened more registry longer) (id : TokenId) (file : Option String) :
    Lengthened more (registry.record? id file) (longer.record? (id.lengthen more) file) := by
  cases file with
  | none => exact h
  | some file => exact h.record id file

end Registry.Lengthened

end InjectionPlan

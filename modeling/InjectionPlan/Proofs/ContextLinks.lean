import InjectionPlan.Proofs.WalkFindings
import InjectionPlan.Resolution.Pass

/-!
# The ids of a state are tokens

Every id that a state of resolution keeps is the id of a token: in factories, in metadata, among
targets and bindings and in the order of emission. Each pass keeps that, from any state on and not
only in the order of a resolution, and each pass leaves the code base and the old tokens alone.
-/

namespace InjectionPlan

open Registry (Growth)

/-- The ids of a factory are tokens, and only a factory that shares its product has metadata. -/
structure Factory.Linked (registry : Registry) (factory : Factory) : Prop where
  deps : ∀ id ∈ factory.deps, registry.knows id = true
  product : registry.knows factory.productToken = true
  own : factory.multi = true → registry.knows factory.ownToken = true
  plain : factory.multi = false → factory.metadata = {}
  metadata : factory.metadata.Fits registry factory.ownToken

theorem Factory.Linked.grow {allowed : Minted → Prop} {old new : Registry} {factory : Factory}
    (h : factory.Linked old) (growth : Growth allowed old new) : factory.Linked new :=
  ⟨fun id hid => growth.knows (h.deps id hid), growth.knows h.product,
    fun hm => growth.knows (h.own hm), h.plain, h.metadata.grow growth⟩

/-- The target of a factory is one of its tokens. -/
theorem Factory.Linked.knows_target {registry : Registry} {factory : Factory}
    (h : factory.Linked registry) : registry.knows factory.target = true := by
  unfold Factory.target
  cases hm : factory.multi with
  | true => simpa using h.own hm
  | false =>
    have hempty : factory.metadata.isEmpty = true := by rw [h.plain hm]; rfl
    simpa [hempty] using h.product

namespace Context

/-- Between two states nothing was bound, the code base stayed the same, and only allowed tokens
were minted. -/
structure Advances (allowed : Minted → Prop) (before after : Context) : Prop where
  oracle : after.oracle = before.oracle
  settings : after.settings = before.settings
  declarations : after.declarations = before.declarations
  targets : after.targets = before.targets
  modules : after.modules = before.modules
  registry : Growth allowed before.registry after.registry

namespace Advances

variable {allowed wider : Minted → Prop} {before mid after : Context}

theorem refl (allowed : Minted → Prop) (context : Context) : Advances allowed context context :=
  ⟨rfl, rfl, rfl, rfl, rfl, .refl _ _⟩

theorem trans (first : Advances allowed before mid) (second : Advances allowed mid after) :
    Advances allowed before after :=
  ⟨second.oracle.trans first.oracle, second.settings.trans first.settings,
    second.declarations.trans first.declarations, second.targets.trans first.targets,
    second.modules.trans first.modules, first.registry.trans second.registry⟩

theorem weaken (h : Advances allowed before after)
    (hw : ∀ minted, allowed minted → wider minted) : Advances wider before after :=
  ⟨h.oracle, h.settings, h.declarations, h.targets, h.modules, h.registry.weaken hw⟩

end Advances

/-- Every id that a state keeps is the id of a token. -/
structure Linked (context : Context) : Prop where
  derivations : ∀ id metadata, context.derivations.get? id = some metadata →
    metadata.Fits context.registry id
  factories : ∀ resolved ∈ context.factories, resolved.factory.Linked context.registry
  metadata : ∀ id metadata, context.metadata.get? id = some metadata →
    metadata.Fits context.registry id
  order : ∀ id ∈ context.order, context.registry.knows id = true
  targets : ∀ id ∈ context.targets, context.registry.knows id = true
  bindings : ∀ entry ∈ context.modules.entries, ∀ binding ∈ entry.2,
    context.registry.knows binding.token = true

namespace Linked

variable {allowed : Minted → Prop} {context : Context}

theorem start (oracle : Oracle) (settings : Settings) : (Context.start oracle settings).Linked where
  derivations id metadata h := by cases h
  factories resolved h := by cases h
  metadata id metadata h := by cases h
  order id h := by cases h
  targets id h := by cases h
  bindings entry h := by cases h

/-- A registry that grew still has all ids. -/
theorem grow (h : context.Linked) {registry : Registry}
    (growth : Growth allowed context.registry registry) : { context with registry }.Linked where
  derivations id metadata hd := (h.derivations id metadata hd).grow growth
  factories resolved hr := (h.factories resolved hr).grow growth
  metadata id metadata hm := (h.metadata id metadata hm).grow growth
  order id hid := growth.knows (h.order id hid)
  targets id hid := growth.knows (h.targets id hid)
  bindings entry he binding hb := growth.knows (h.bindings entry he binding hb)

theorem report (h : context.Linked) (pending : List Diagnostic) :
    { context with pending }.Linked :=
  ⟨h.derivations, h.factories, h.metadata, h.order, h.targets, h.bindings⟩

theorem addFactory (h : context.Linked) {resolved : ResolvedFactory}
    (hr : resolved.factory.Linked context.registry) :
    { context with factories := context.factories ++ [resolved] }.Linked := by
  refine ⟨h.derivations, fun other ho => ?_, h.metadata, h.order, h.targets, h.bindings⟩
  rcases List.mem_append.mp ho with ho | ho
  · exact h.factories other ho
  · rw [List.mem_singleton] at ho
    exact ho ▸ hr

theorem describe (h : context.Linked) {id : TokenId} {metadata : Metadata}
    (hm : metadata.Fits context.registry id) : (context.describe id metadata).Linked := by
  unfold Context.describe
  split
  · exact h
  · refine ⟨h.derivations, h.factories, fun other found hfound => ?_, h.order, h.targets,
      h.bindings⟩
    rw [Table.get?_insert] at hfound
    split at hfound
    · next he =>
      cases hfound
      exact he ▸ hm
    · exact h.metadata other found hfound

end Linked

end Context

end InjectionPlan

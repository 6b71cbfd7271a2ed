import InjectionPlan.Annotations

/-!
# What each tag contributes

The annotations of a declaration are folded together from its tags. What a tag means for a field is
said here for the tag alone; of the meanings that the tags have for a field the first one counts, so
the annotations can be read off the list of tags.
-/

namespace InjectionPlan

namespace TagNames

/-- What a tag is read as. A tag that is named like a lifecycle is a lifecycle tag, and a module tag
has to name its module. -/
def kind? (names : TagNames) (tag : Tag) : Option AnnotationKind :=
  if tag.bareName = names.service then some .service
  else if tag.bareName = names.injectable then some .injectable
  else if tag.bareName = names.lifecycle ∨ (Lifecycle.ofText? tag.bareName).isSome then
    some .lifecycle
  else if tag.bareName = names.module ∧ tag.payload?.isSome then some .module
  else none

theorem kind?_eq_service {names : TagNames} {tag : Tag} :
    names.kind? tag = some .service ↔ tag.bareName = names.service := by
  unfold kind?
  by_cases hservice : tag.bareName = names.service
  · simp [hservice]
  · rw [if_neg hservice]
    refine ⟨fun hkind => ?_, fun hname => absurd hname hservice⟩
    -- no other tag is read as one of a service
    repeat' split at hkind
    all_goals cases hkind

def entry? (names : TagNames) (tag : Tag) : Option AnnotationEntry :=
  (names.kind? tag).map fun kind => ⟨kind, tag.payload?⟩

/-- The cardinality of the service that a tag marks. -/
def cardinality? (names : TagNames) (tag : Tag) : Option Cardinality :=
  if names.kind? tag = some .service then some (Annotations.cardinality names tag.payload?)
  else none

def module? (names : TagNames) (tag : Tag) : Option String :=
  if names.kind? tag = some .module then tag.payload? else none

/-- The lifecycle that a tag names: in its text if it is one for factories or for lifecycles, else
with its own name. -/
def lifecycle? (names : TagNames) (tag : Tag) : Option Lifecycle :=
  if tag.bareName = names.service then none
  else if tag.bareName = names.injectable ∨ tag.bareName = names.lifecycle then
    tag.payload?.bind Lifecycle.ofText?
  else Lifecycle.ofText? tag.bareName

/-- The tag is there to name a lifecycle, but its text is missing, blank or no lifecycle. -/
def Misnames (names : TagNames) (tag : Tag) : Prop :=
  tag.bareName = names.lifecycle ∧ tag.bareName ≠ names.service ∧
    tag.bareName ≠ names.injectable ∧ tag.payload?.bind Lifecycle.ofText? = none

instance (names : TagNames) (tag : Tag) : Decidable (names.Misnames tag) :=
  inferInstanceAs (Decidable (_ ∧ _ ∧ _ ∧ _))

/-- The text that stands where a lifecycle should be named. -/
def misnomer? (names : TagNames) (tag : Tag) : Option String :=
  if names.Misnames tag then some (tag.payload?.getD "") else none

end TagNames

namespace Annotations

/-- One more tag adds its meaning to each field that is not set. -/
theorem absorb_eq (names : TagNames) (known : Annotations) (tag : Tag) :
    absorb names known tag = {
      entries := known.entries ++ (names.entry? tag).toList
      service := known.service.or (names.cardinality? tag)
      injectable := known.injectable || decide (names.kind? tag = some .injectable)
      lifecycle := known.lifecycle.or (names.lifecycle? tag)
      invalidLifecycle := known.invalidLifecycle.or (names.misnomer? tag)
      module := known.module.or (names.module? tag) } := by
  unfold absorb TagNames.entry? TagNames.cardinality? TagNames.lifecycle? TagNames.misnomer?
    TagNames.Misnames TagNames.module? TagNames.kind?
  dsimp only
  by_cases hservice : tag.bareName = names.service
  · simp [hservice]
  by_cases hinjectable : tag.bareName = names.injectable
  · simp [hservice, ← hinjectable]
  by_cases hlifecycle : tag.bareName = names.lifecycle
  · rcases Option.eq_none_or_eq_some (tag.payload?.bind Lifecycle.ofText?) with hnamed |
      ⟨lifecycle, hnamed⟩
    · simp [hservice, hinjectable, ← hlifecycle, hnamed]
    · simp [hservice, hinjectable, ← hlifecycle, hnamed]
  rcases Option.eq_none_or_eq_some (Lifecycle.ofText? tag.bareName) with hnamed |
    ⟨lifecycle, hnamed⟩
  · by_cases hmodule : tag.bareName = names.module
    · rcases Option.eq_none_or_eq_some tag.payload? with hpayload | ⟨module, hpayload⟩
      · simp [hservice, hinjectable, hlifecycle, hnamed, ← hmodule, hpayload]
      · simp [hservice, hinjectable, hlifecycle, hnamed, ← hmodule, hpayload]
    · simp [hservice, hinjectable, hlifecycle, hnamed, hmodule]
  · simp [hservice, hinjectable, hlifecycle, hnamed]

theorem foldl_absorb (names : TagNames) (known : Annotations) (tags : List Tag) :
    tags.foldl (absorb names) known = {
      entries := known.entries ++ tags.filterMap names.entry?
      service := known.service.or (tags.findSome? names.cardinality?)
      injectable := known.injectable || tags.any fun tag => names.kind? tag = some .injectable
      lifecycle := known.lifecycle.or (tags.findSome? names.lifecycle?)
      invalidLifecycle := known.invalidLifecycle.or (tags.findSome? names.misnomer?)
      module := known.module.or (tags.findSome? names.module?) } := by
  induction tags generalizing known with
  | nil => simp
  | cons tag tags ih =>
    have first : ∀ {γ : Type} (meaning : Tag → Option γ), (tag :: tags).findSome? meaning =
        (meaning tag).or (tags.findSome? meaning) := by
      intro γ meaning
      rw [List.findSome?_cons]
      cases meaning tag <;> rfl
    have entries : (tag :: tags).filterMap names.entry? =
        (names.entry? tag).toList ++ tags.filterMap names.entry? := by
      cases hentry : names.entry? tag <;> simp [hentry]
    rw [List.foldl_cons, ih, absorb_eq, List.any_cons]
    simp only [first, entries, Option.or_assoc, List.append_assoc, Bool.or_assoc]

/-- The annotations of a declaration, field by field. -/
theorem ofTags_eq (names : TagNames) (tags : List Tag) : ofTags names tags = {
    entries := tags.filterMap names.entry?
    service := tags.findSome? names.cardinality?
    injectable := tags.any fun tag => names.kind? tag = some .injectable
    lifecycle := tags.findSome? names.lifecycle?
    invalidLifecycle := tags.findSome? names.misnomer?
    module := tags.findSome? names.module? } := by
  rw [ofTags, foldl_absorb]
  simp

theorem lifecycle_ofTags_eq_none {names : TagNames} {tags : List Tag} :
    (ofTags names tags).lifecycle = none ↔ ∀ tag ∈ tags, names.lifecycle? tag = none := by
  rw [ofTags_eq, List.findSome?_eq_none_iff]

theorem invalidLifecycle_ofTags_isSome {names : TagNames} {tags : List Tag} :
    (ofTags names tags).invalidLifecycle.isSome = true ↔ ∃ tag ∈ tags, names.Misnames tag := by
  simp [ofTags_eq, List.findSome?_isSome_iff, TagNames.misnomer?]

end Annotations

end InjectionPlan

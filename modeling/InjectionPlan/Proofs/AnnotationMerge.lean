import InjectionPlan.Proofs.TagMeanings

/-!
# Annotations of lists of tags

A list of tags may be cut anywhere: what its two parts mean together is what they mean apart, and
where both set a field the first part counts. So a tag that means nothing can stand anywhere, and
what the first tags of a list set is there in the end, whatever tags follow.
-/

namespace InjectionPlan

namespace Annotations

/-- Two annotations together. The entries follow each other, and a field that both set is taken from
the first. -/
def merge (first second : Annotations) : Annotations where
  entries := first.entries ++ second.entries
  service := first.service.or second.service
  injectable := first.injectable || second.injectable
  lifecycle := first.lifecycle.or second.lifecycle
  invalidLifecycle := first.invalidLifecycle.or second.invalidLifecycle
  module := first.module.or second.module

/-- Whatever is set stays as it is, and new entries come last. -/
structure Keeps (known later : Annotations) : Prop where
  entries : known.entries <+: later.entries
  service : ∀ cardinality, known.service = some cardinality → later.service = some cardinality
  injectable : known.injectable = true → later.injectable = true
  lifecycle : ∀ lifecycle, known.lifecycle = some lifecycle → later.lifecycle = some lifecycle
  invalidLifecycle : ∀ text, known.invalidLifecycle = some text →
    later.invalidLifecycle = some text
  module : ∀ module, known.module = some module → later.module = some module

variable (names : TagNames)

theorem empty_merge (annotations : Annotations) : merge {} annotations = annotations := by
  simp [merge]

theorem keeps_merge (first second : Annotations) : first.Keeps (first.merge second) := by
  constructor
  case entries => exact List.prefix_append _ _
  case injectable =>
    intro hset
    rw [merge, hset, Bool.true_or]
  all_goals
    intro value hset
    rw [merge, hset, Option.some_or]

/-- Tags are absorbed by annotations as the annotations of the tags are. -/
theorem foldl_absorb_eq_merge (known : Annotations) (tags : List Tag) :
    tags.foldl (absorb names) known = known.merge (ofTags names tags) := by
  rw [foldl_absorb, ofTags_eq]
  rfl

theorem ofTags_append (first second : List Tag) :
    ofTags names (first ++ second) = (ofTags names first).merge (ofTags names second) := by
  rw [ofTags, List.foldl_append, foldl_absorb_eq_merge]
  rfl

end Annotations

namespace TagNames

variable {names : TagNames} {tag : Tag}

/-- The tag has no name that is looked for, or it is there for a module and does not name one. -/
def Ignores (names : TagNames) (tag : Tag) : Prop :=
  tag.bareName ≠ names.service ∧ tag.bareName ≠ names.injectable ∧
    tag.bareName ≠ names.lifecycle ∧ Lifecycle.ofText? tag.bareName = none ∧
      (tag.bareName = names.module → tag.payload? = none)

theorem kind?_eq_none : names.kind? tag = none ↔ names.Ignores tag := by
  unfold kind? Ignores
  by_cases hservice : tag.bareName = names.service
  · simp [hservice]
  by_cases hinjectable : tag.bareName = names.injectable
  · simp [hservice, ← hinjectable]
  by_cases hlifecycle : tag.bareName = names.lifecycle
  · simp [hservice, hinjectable, ← hlifecycle]
  cases hnamed : Lifecycle.ofText? tag.bareName with
  | some lifecycle => simp [hservice, hinjectable, hlifecycle]
  | none => simp [hservice, hinjectable, hlifecycle]

/-- A tag alone leaves the annotations empty exactly when it means nothing. -/
theorem ofTags_singleton_eq_empty :
    Annotations.ofTags names [tag] = {} ↔ names.Ignores tag := by
  rw [← kind?_eq_none]
  constructor
  · intro hempty
    have hentries := congrArg Annotations.entries hempty
    rw [Annotations.ofTags_eq] at hentries
    cases hkind : names.kind? tag with
    | none => rfl
    | some kind => simp [hkind, entry?] at hentries
  · intro hkind
    obtain ⟨hservice, hinjectable, hlifecycle, hnamed, -⟩ := kind?_eq_none.mp hkind
    simp [Annotations.ofTags_eq, entry?, cardinality?, lifecycle?, misnomer?, Misnames, module?,
      hkind, hservice, hinjectable, hlifecycle, hnamed]

end TagNames

namespace Annotations

/-- Reading tags is a homomorphism from lists of tags to annotations with the first field set
counting. The tags that may be put in anywhere are those that have no name that is looked for and
the module tags that name no module, and no tag overrides what tags before it set. -/
theorem ofTags_merges (names : TagNames) : ofTags names [] = {} ∧
    (∀ first second,
      ofTags names (first ++ second) = (ofTags names first).merge (ofTags names second)) ∧
    (∀ tag, (∀ before after,
      ofTags names (before ++ tag :: after) = ofTags names (before ++ after)) ↔
        names.Ignores tag) ∧
    ∀ earlier later, (ofTags names earlier).Keeps (ofTags names (earlier ++ later)) := by
  refine ⟨rfl, ofTags_append names, fun tag => ⟨fun hidle => ?_, fun hignored => ?_⟩, ?_⟩
  · exact TagNames.ofTags_singleton_eq_empty.mp (hidle [] [])
  · intro before after
    have hempty := TagNames.ofTags_singleton_eq_empty.mpr hignored
    calc ofTags names (before ++ tag :: after)
        = (ofTags names before).merge ((ofTags names [tag]).merge (ofTags names after)) := by
          rw [← ofTags_append, ← ofTags_append, List.singleton_append]
      _ = (ofTags names before).merge (ofTags names after) := by rw [hempty, empty_merge]
      _ = ofTags names (before ++ after) := (ofTags_append names before after).symm
  · intro earlier later
    rw [ofTags_append]
    exact keeps_merge _ _

/-- A lifecycle that no tag names well is still set by a later one, and the module tag without a
module does not matter. -/
example : ofTags {} [⟨"lifecycle", some "eternal"⟩, ⟨"module", some " "⟩, ⟨"@scoped", none⟩,
    ⟨"injectable", some "singleton"⟩] =
      { entries := [⟨.lifecycle, some "eternal"⟩, ⟨.lifecycle, none⟩,
          ⟨.injectable, some "singleton"⟩]
        injectable := true
        lifecycle := some .scoped
        invalidLifecycle := some "eternal" } := by decide

end Annotations

end InjectionPlan

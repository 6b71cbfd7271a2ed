import InjectionPlan.Config.Basic
import InjectionPlan.Proofs.TagMeanings
import Mathlib.Data.List.DropRight
import Mathlib.Data.List.Nodup

/-!
# Configured tags that are read

The names of tags can be configured, and a configuration is accepted when they are words that
differ. That is not enough for a tag to be read: the markers before its name are taken off before
the name is compared, and a name of a lifecycle is compared before that of a module. A kind whose
tags are read is live; here is which kinds of an accepted configuration are.
-/

namespace InjectionPlan

namespace TagNames

/-- The name that tags of the kind are configured to have. -/
def nameOf (names : TagNames) : AnnotationKind → String
  | .service => names.service
  | .injectable => names.injectable
  | .lifecycle => names.lifecycle
  | .module => names.module

/-- A tag of the kind with a text sets what it is there for, unless an earlier tag did. -/
def TakesUp (names : TagNames) (payload : String) (known next : Annotations) :
    AnnotationKind → Prop
  | .service => next.service = known.service.or (some
      (if (Text.firstWord? payload).any (Text.sameButCase · names.multiKeyword) then .multi
      else .single))
  | .injectable => next.injectable = true
  | .lifecycle =>
    match Lifecycle.ofText? payload with
    | some lifecycle => next.lifecycle = known.lifecycle.or (some lifecycle)
    | none => next.invalidLifecycle = known.invalidLifecycle.or (some payload)
  | .module => next.module = known.module.or (some payload)

/-- A tag that has the configured name and a text gives one entry of the kind, and is taken up. -/
def Live (names : TagNames) (kind : AnnotationKind) : Prop :=
  ∀ (known : Annotations) (tag : Tag) (payload : String),
    tag.name = names.nameOf kind → tag.payload? = some payload →
      (Annotations.absorb names known tag).entries = known.entries ++ [⟨kind, some payload⟩] ∧
        names.TakesUp payload known (Annotations.absorb names known tag) kind

/-- The names are words, and tags of different kinds have different names. -/
structure WellNamed (names : TagNames) : Prop where
  words : ∀ kind, isOneWord (names.nameOf kind) = true
  apart : Function.Injective names.nameOf

end TagNames

/-! ## Accepted configurations -/

namespace TagNames

variable {names : TagNames}

theorem firstRepeated?_eq_none {before tags : List String} :
    firstRepeated? before tags = none ↔ tags.Nodup ∧ ∀ tag ∈ tags, tag ∉ before := by
  induction tags generalizing before with
  | nil => simp [firstRepeated?]
  | cons tag tags ih =>
    rw [firstRepeated?]
    by_cases hin : tag ∈ before
    · simp [hin]
    · rw [if_neg hin, ih]
      simp only [List.mem_cons, List.nodup_cons, not_or, forall_eq_or_imp]
      constructor
      · intro ⟨hnodup, hapart⟩
        exact ⟨⟨fun htag => (hapart tag htag).1 rfl, hnodup⟩, hin, fun other ho =>
          (hapart other ho).2⟩
      · intro ⟨⟨hnew, hnodup⟩, _, hapart⟩
        exact ⟨hnodup, fun other ho => ⟨fun he => hnew (he ▸ ho), hapart other ho⟩⟩

theorem wellNamed_of_fault? (h : names.fault? = none) : names.WellNamed := by
  unfold fault? at h
  rw [Option.orElse_eq_orElse, Option.orElse_eq_or, Option.or_eq_none_iff,
    Option.map_eq_none_iff, Option.map_eq_none_iff, List.find?_eq_none,
    firstRepeated?_eq_none] at h
  obtain ⟨hwords, hnodup, -⟩ := h
  have hkinds : ∀ kind : AnnotationKind,
      kind ∈ (Text.Vocabulary.values : List AnnotationKind) := by
    intro kind
    cases kind <;> decide
  constructor
  · intro kind
    have hrole : (Text.word kind, names.nameOf kind) ∈ names.roles := by
      cases kind <;> simp [roles, nameOf, Text.word]
    simpa using hwords _ hrole
  · intro first second hsame
    have hmap : ((Text.Vocabulary.values : List AnnotationKind).map names.nameOf).Nodup := hnodup
    exact List.inj_on_of_nodup_map hmap (hkinds first) (hkinds second) hsame

end TagNames

theorem Config.wellNamed_of_validate {config : Config} (h : config.validate = .ok config) :
    config.settings.tagNames.WellNamed := by
  apply TagNames.wellNamed_of_fault?
  unfold validate fault? Settings.fault? at h
  cases hlevel : LogLevel.parse config.logging.level with
  | error error =>
    rw [hlevel] at h
    cases h
  | ok level =>
    rw [hlevel] at h
    dsimp only at h
    cases hfault : config.settings.tagNames.fault? with
    | none => rfl
    | some error =>
      rw [hfault] at h
      split_ifs at h

/-! ## Names of tags -/

/-- No blanks are taken off a word. -/
theorem Text.trimChars_of_isOneWord {text : String} (h : TagNames.isOneWord text = true) :
    trimChars text.toList = text.toList := by
  have hblank : ∀ c ∈ text.toList, isBlank c = false := by
    unfold TagNames.isOneWord hasBlank at h
    simpa using (Bool.and_eq_true_iff.mp h).2
  have hopen : text.toList.dropWhile isBlank = text.toList := by
    rw [List.dropWhile_eq_self_iff]
    intro hpos
    rw [hblank _ (List.getElem_mem hpos)]
    exact Bool.false_ne_true
  have hclose : text.toList.rdropWhile isBlank = text.toList := by
    rw [List.rdropWhile_eq_self_iff]
    intro hne
    rw [hblank _ (List.getLast_mem hne)]
    exact Bool.false_ne_true
  rw [trimChars, hopen]
  exact hclose

/-- A word without a marker before it is compared as it is, and no other word is. -/
theorem Tag.bareName_eq_name_iff {tag : Tag} (h : TagNames.isOneWord tag.name = true) :
    tag.bareName = tag.name ↔ tag.name.toList.head? ≠ some '@' := by
  have hchars : tag.bareName = tag.name ↔
      tag.name.toList.dropWhile (· == '@') = tag.name.toList := by
    unfold bareName
    rw [Text.trimChars_of_isOneWord h, ← String.toList_inj, String.toList_ofList]
  rw [hchars, List.dropWhile_eq_self_iff]
  cases tag.name.toList with
  | nil => simp
  | cons c rest => simp

/-! ## Kinds of tags -/

namespace TagNames

variable {names : TagNames} {tag : Tag} {kind : AnnotationKind}

/-- The name of a module tag is not taken for that of a lifecycle. -/
def Free (names : TagNames) (kind : AnnotationKind) : Prop :=
  kind = .module → Lifecycle.ofText? names.module = none

/-- A name that is that of one kind is that of no other. -/
theorem WellNamed.name_eq_iff (h : names.WellNamed) (hname : tag.bareName = names.nameOf kind)
    (other : AnnotationKind) : tag.bareName = names.nameOf other ↔ kind = other := by
  rw [hname]
  exact h.apart.eq_iff

/-- A tag with the name and a text is read as one of the kind. -/
theorem kind?_eq_some_of_name (h : names.WellNamed) (hname : tag.bareName = names.nameOf kind)
    (hpayload : tag.payload?.isSome = true) (hfree : names.Free kind) :
    names.kind? tag = some kind := by
  have hservice : tag.bareName = names.service ↔ kind = .service := h.name_eq_iff hname .service
  have hinjectable : tag.bareName = names.injectable ↔ kind = .injectable :=
    h.name_eq_iff hname .injectable
  have hlifecycle : tag.bareName = names.lifecycle ↔ kind = .lifecycle :=
    h.name_eq_iff hname .lifecycle
  unfold kind?
  simp only [hservice, hinjectable, hlifecycle]
  cases kind with
  | service => rfl
  | injectable => rfl
  | lifecycle => simp
  | module =>
    have hmodule : tag.bareName = names.module := hname
    simp [hmodule, hfree rfl, hpayload]

theorem cardinality?_of_kind? (h : names.kind? tag = some .service) {payload : String}
    (hpayload : tag.payload? = some payload) : names.cardinality? tag = some
      (if (Text.firstWord? payload).any (Text.sameButCase · names.multiKeyword) then .multi
      else .single) := by
  unfold cardinality? Annotations.cardinality
  rw [if_pos h, hpayload, Option.bind_some]
  cases Text.firstWord? payload with
  | none => rfl
  | some first => rfl

/-- A tag that is named for lifecycles names one with its text, or misnames it. -/
theorem WellNamed.lifecycle_or_misnomer (h : names.WellNamed)
    (hname : tag.bareName = names.nameOf .lifecycle) {payload : String}
    (hpayload : tag.payload? = some payload) :
    names.lifecycle? tag = Lifecycle.ofText? payload ∧
      (Lifecycle.ofText? payload = none → names.misnomer? tag = some payload) := by
  have hservice : tag.bareName ≠ names.service := by
    intro hsame
    cases (h.name_eq_iff hname .service).mp hsame
  have hinjectable : tag.bareName ≠ names.injectable := by
    intro hsame
    cases (h.name_eq_iff hname .injectable).mp hsame
  have hlifecycle : tag.bareName = names.lifecycle := hname
  have htext : tag.payload?.bind Lifecycle.ofText? = Lifecycle.ofText? payload := by
    rw [hpayload, Option.bind_some]
  constructor
  · rw [lifecycle?, if_neg hservice, if_pos (Or.inr hlifecycle), htext]
  · intro hnone
    have hmisnames : names.Misnames tag :=
      ⟨hlifecycle, hservice, hinjectable, htext.trans hnone⟩
    rw [misnomer?, if_pos hmisnames, hpayload, Option.getD_some]

/-- A kind is live when its tags keep their name and no other reading comes before. -/
theorem live_of_name (h : names.WellNamed) (hfree : names.Free kind)
    (hname : ∀ tag : Tag, tag.name = names.nameOf kind → tag.bareName = names.nameOf kind) :
    names.Live kind := by
  intro known tag payload htag hpayload
  have hbare := hname tag htag
  have hkind := kind?_eq_some_of_name h hbare (by rw [hpayload]; rfl) hfree
  have hentry : names.entry? tag = some ⟨kind, some payload⟩ := by
    unfold entry?
    rw [hkind, hpayload]
    rfl
  rw [Annotations.absorb_eq, hentry]
  refine ⟨rfl, ?_⟩
  cases kind with
  | service =>
    unfold TakesUp
    rw [cardinality?_of_kind? hkind hpayload]
  | injectable =>
    unfold TakesUp
    rw [hkind, decide_eq_true rfl, Bool.or_true]
  | lifecycle =>
    have hread := h.lifecycle_or_misnomer hbare hpayload
    unfold TakesUp
    cases hnamed : Lifecycle.ofText? payload with
    | some lifecycle => rw [hread.1, hnamed]
    | none => rw [hread.2 hnamed]
  | module =>
    unfold TakesUp module?
    rw [if_pos hkind, hpayload]

/-- What is read as a tag of a kind has the name of the kind, or names a lifecycle itself. -/
theorem name_of_kind? (h : names.kind? tag = some kind)
    (hlifecycle : kind = .lifecycle → tag.bareName = names.lifecycle) :
    tag.bareName = names.nameOf kind ∧
      (kind = .module → Lifecycle.ofText? tag.bareName = none) := by
  unfold kind? at h
  split at h
  · next hname =>
    cases h
    exact ⟨hname, nofun⟩
  split at h
  · next hname =>
    cases h
    exact ⟨hname, nofun⟩
  split at h
  · cases h
    exact ⟨hlifecycle rfl, nofun⟩
  split at h
  · next hread hname =>
    cases h
    exact ⟨hname.1, fun _ => by simpa using (not_or.mp hread).2⟩
  · cases h

/-- Tags of a live kind keep their name, and no other reading comes before. A text that is no
lifecycle shows it for lifecycles too. -/
theorem Live.name (h : names.Live kind) (tag : Tag) (hname : tag.name = names.nameOf kind)
    (htext : tag.text = some "x") : tag.bareName = names.nameOf kind ∧ names.Free kind := by
  have htrimmed : Text.nonBlank? "x" = some "x" := by decide
  have hpayload : tag.payload? = some "x" := by
    rw [Tag.payload?, htext, Option.bind_some, htrimmed]
  obtain ⟨hentries, htaken⟩ := h {} tag "x" hname hpayload
  rw [Annotations.absorb_eq] at hentries htaken
  have hkind : names.kind? tag = some kind := by
    unfold entry? at hentries
    cases hread : names.kind? tag with
    | none =>
      rw [hread] at hentries
      cases hentries
    | some other =>
      rw [hread, hpayload] at hentries
      cases hentries
      rfl
  have hlifecycle : kind = .lifecycle → tag.bareName = names.lifecycle := by
    intro he
    subst he
    have hnone : Lifecycle.ofText? "x" = none := by decide
    have hmisnomer : names.misnomer? tag = some "x" := by
      simpa only [TakesUp, hnone, Option.none_or] using htaken
    unfold misnomer? at hmisnomer
    split at hmisnomer
    · next hmisnames => exact hmisnames.1
    · cases hmisnomer
  obtain ⟨hbare, hfree⟩ := name_of_kind? hkind hlifecycle
  refine ⟨hbare, ?_⟩
  intro he
  have hmodule := hfree he
  rw [hbare, he] at hmodule
  exact hmodule

end TagNames

/-! ## Live kinds -/

/-- In an accepted configuration the tags of a kind are read exactly when their name has no marker
before it and, if it is the name of modules, is no name of a lifecycle. -/
theorem live_iff {config : Config} (h : config.validate = .ok config) (kind : AnnotationKind) :
    config.settings.tagNames.Live kind ↔
      (config.settings.tagNames.nameOf kind).toList.head? ≠ some '@' ∧
        (kind = .module → Lifecycle.ofText? config.settings.tagNames.module = none) := by
  have hnames := config.wellNamed_of_validate h
  have hbare : ∀ tag : Tag, tag.name = config.settings.tagNames.nameOf kind →
      (tag.bareName = config.settings.tagNames.nameOf kind ↔
        (config.settings.tagNames.nameOf kind).toList.head? ≠ some '@') := by
    intro tag htag
    have hword := hnames.words kind
    rw [← htag] at hword ⊢
    exact Tag.bareName_eq_name_iff hword
  constructor
  · intro hlive
    obtain ⟨hname, hfree⟩ := hlive.name ⟨config.settings.tagNames.nameOf kind, some "x"⟩ rfl rfl
    exact ⟨(hbare _ rfl).mp hname, hfree⟩
  · intro ⟨hunmarked, hfree⟩
    apply TagNames.live_of_name hnames hfree
    intro tag htag
    exact (hbare tag htag).mpr hunmarked

/-- A configuration with other names for services and for what asks for any number of them. -/
def tokenConfig : Config where
  settings := { tagNames := { service := "token", multiKeyword := "many" } }

theorem live_tokenConfig : tokenConfig.validate = .ok tokenConfig ∧
    tokenConfig.settings.tagNames.Live .service ∧ tokenConfig.settings.tagNames.Live .injectable ∧
      tokenConfig.settings.tagNames.Live .lifecycle ∧
        tokenConfig.settings.tagNames.Live .module := by
  have hvalid : tokenConfig.validate = .ok tokenConfig := by decide
  exact ⟨hvalid, (live_iff hvalid .service).mpr (by decide),
    (live_iff hvalid .injectable).mpr (by decide), (live_iff hvalid .lifecycle).mpr (by decide),
    (live_iff hvalid .module).mpr (by decide)⟩

/-- A configuration in which modules are named by tags with the name of a lifecycle. -/
def scopedConfig : Config where
  settings := { tagNames := { module := "scoped" } }

/-- An accepted configuration need not have all its tags read: what names a module is taken for a
lifecycle, and the module is lost. -/
theorem not_live_scopedConfig : scopedConfig.validate = .ok scopedConfig ∧
    Annotations.ofTags scopedConfig.settings.tagNames [⟨"scoped", some "web"⟩] =
      { entries := [⟨.lifecycle, some "web"⟩], lifecycle := some .scoped } ∧
    ¬ ∀ kind, scopedConfig.settings.tagNames.Live kind := by
  have hread : Annotations.ofTags scopedConfig.settings.tagNames [⟨"scoped", some "web"⟩] =
      { entries := [⟨.lifecycle, some "web"⟩], lifecycle := some .scoped } := by decide
  refine ⟨by decide, hread, ?_⟩
  intro hlive
  have hpayload : Tag.payload? ⟨"scoped", some "web"⟩ = some "web" := by decide
  have hentries := (hlive .module {} ⟨"scoped", some "web"⟩ "web" rfl hpayload).1
  have hone : Annotations.absorb scopedConfig.settings.tagNames {} ⟨"scoped", some "web"⟩ =
      { entries := [⟨.lifecycle, some "web"⟩], lifecycle := some .scoped } := hread
  rw [hone] at hentries
  cases hentries

/-- Nor is a tag read that is configured with its marker. -/
example : (Annotations.ofTags { service := "@service" } [⟨"@service", some "multi"⟩]).entries = [] :=
  by decide

end InjectionPlan

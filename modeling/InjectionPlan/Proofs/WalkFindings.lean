import InjectionPlan.Proofs.BaseWalk

/-!
# What a walk finds

Whatever the types look like, the lists of a walk have no id twice, name only tokens, and never
name the subject. Which ids they hold is settled by the types that are met in time: an id is
implemented if it is the token of a type that had one when the walk came to it, and it is a generic
if it is the token of a type nested in such a type.
-/

namespace InjectionPlan

open Registry (Growth)

/-- Metadata that a token of a registry may have: no id twice, only tokens, and not itself. -/
structure Metadata.Fits (registry : Registry) (id : TokenId) (metadata : Metadata) : Prop where
  implements : metadata.implements.Nodup
  generics : metadata.generics.Nodup
  known : ∀ other ∈ metadata.references, registry.knows other = true ∧ other ≠ id

theorem Metadata.Fits.grow {allowed : Minted → Prop} {old new : Registry} {id : TokenId}
    {metadata : Metadata} (h : metadata.Fits old id) (growth : Growth allowed old new) :
    metadata.Fits new id :=
  ⟨h.implements, h.generics, fun other ho =>
    ⟨growth.knows (h.known other ho).1, (h.known other ho).2⟩⟩

theorem Metadata.fits_empty (registry : Registry) (id : TokenId) :
    ({} : Metadata).Fits registry id :=
  ⟨List.nodup_nil, List.nodup_nil, by simp [Metadata.references]⟩

theorem Metadata.isEmpty_eq_false {metadata : Metadata} {id : TokenId}
    (h : id ∈ metadata.implements) : metadata.isEmpty = false := by
  rw [isEmpty, List.isEmpty_eq_false_iff.mpr (List.ne_nil_of_mem h), Bool.false_and]

namespace Walk

variable {oracle : Oracle} {subject : Subject} {among : TypeId → Prop} {walk mid last : Walk}
  {types : List TypeId} {ty : TypeId} {name : String} {id : TokenId}

/-- The lists of a walk are fit for the subject. -/
abbrev Sound (subject : Subject) (walk : Walk) : Prop :=
  walk.metadata.Fits walk.registry subject.id

theorem mem_references : id ∈ walk.metadata.references ↔
    id ∈ walk.implements ∨ id ∈ walk.generics := by
  simp [metadata, Metadata.references]

theorem Progress.keeps_sound (progress : Progress oracle subject among walk last)
    (h : Sound subject walk) : Sound subject last := by
  have himplements : last.implements.Nodup := by
    rw [progress.implements]
    exact h.implements
  refine ⟨himplements, progress.nodup h.generics, fun id hid => ?_⟩
  have old : id ∈ walk.metadata.references → last.registry.knows id = true ∧ id ≠ subject.id :=
    fun hid => ⟨progress.registry.knows (h.known id hid).1, (h.known id hid).2⟩
  rcases mem_references.mp hid with himp | hgen
  · exact old (mem_references.mpr (Or.inl (progress.implements ▸ himp)))
  · rcases progress.sound id hgen with hin | ⟨hne, argument, name, -, -, hc, rfl⟩
    · exact old (mem_references.mpr (Or.inr hin))
    · exact ⟨by rw [Registry.knows_idFor]; exact hc, hne⟩

theorem sound_arrive (hs : Settled oracle subject walk) (h : Sound subject walk)
    (hrun : arrive oracle subject walk ty = .ok last) : Sound subject last := by
  rcases arrive_ok hs hrun with ⟨name, ⟨-, hc, hne⟩, hexpands⟩ | ⟨-, rfl⟩
  · refine hexpands.progress.keeps_sound ⟨nodup_appendNew h.implements _, h.generics, ?_⟩
    intro id hid
    rcases mem_references.mp hid with himp | hgen
    · rcases mem_appendNew.mp himp with hin | rfl
      · exact h.known id (mem_references.mpr (Or.inl hin))
      · exact ⟨by rw [Registry.knows_idFor]; exact hc, hne⟩
    · exact h.known id (mem_references.mpr (Or.inr hgen))
  · exact ⟨h.implements, h.generics, h.known⟩

theorem growth_arrive (hs : Settled oracle subject walk)
    (hrun : arrive oracle subject walk ty = .ok last) :
    Growth (oracle.Implied (oracle.Nests ty)) walk.registry last.registry := by
  rcases arrive_ok hs hrun with ⟨name, -, hexpands⟩ | ⟨-, rfl⟩
  · exact hexpands.progress.registry
  · exact .refl _ _

/-- A run over some types mints only what is nested in them. -/
theorem growth_foldlM_arrive (hs : Settled oracle subject walk)
    (hrun : types.foldlM (arrive oracle subject) walk = .ok last) :
    Growth (oracle.Implied fun argument => ∃ ty ∈ types, oracle.Nests ty argument)
      walk.registry last.registry := by
  have keeps : ∀ ty ∈ types, ∀ state next : Walk, (Settled oracle subject state ∧
      Growth (oracle.Implied fun argument => ∃ ty ∈ types, oracle.Nests ty argument)
        walk.registry state.registry) → arrive oracle subject state ty = .ok next →
      Settled oracle subject next ∧
        Growth (oracle.Implied fun argument => ∃ ty ∈ types, oracle.Nests ty argument)
          walk.registry next.registry := by
    intro ty hty state next ⟨hs, hgrowth⟩ hstep
    refine ⟨settled_arrive hs hstep, hgrowth.trans ((growth_arrive hs hstep).weaken ?_)⟩
    rintro minted ⟨hsingle, himplicit, argument, hnests, hname⟩
    exact ⟨hsingle, himplicit, argument, ⟨ty, hty, hnests⟩, hname⟩
  exact (foldlM_keeps _ keeps ⟨hs, .refl _ _⟩ hrun).2

theorem sound_foldlM_arrive (hs : Settled oracle subject walk) (h : Sound subject walk)
    (hrun : types.foldlM (arrive oracle subject) walk = .ok last) : Sound subject last := by
  have keeps : ∀ ty ∈ types, ∀ state next : Walk,
      (Settled oracle subject state ∧ Sound subject state) →
      arrive oracle subject state ty = .ok next →
      Settled oracle subject next ∧ Sound subject next :=
    fun ty _ state next ⟨hs, h⟩ hstep => ⟨settled_arrive hs hstep, sound_arrive hs h hstep⟩
  exact (foldlM_keeps _ keeps ⟨hs, h⟩ hrun).2

/-! ## The ids that are found -/

/-- In a run over some types, `ty` is met when its name has a token. -/
def Meets (oracle : Oracle) (subject : Subject) (types : List TypeId) (walk : Walk) (ty : TypeId)
    (name : String) : Prop :=
  ∃ before after mid, types = before ++ ty :: after ∧
    before.foldlM (arrive oracle subject) walk = .ok mid ∧ Notices oracle subject mid ty name

theorem not_meets_nil : ¬ Meets oracle subject [] walk ty name := by
  rintro ⟨before, after, mid, h, -⟩
  simp at h

/-- A type is met first, or after the first one. -/
theorem meets_cons {first : TypeId} {next : Walk}
    (hstep : arrive oracle subject walk first = .ok next) :
    Meets oracle subject (first :: types) walk ty name ↔
      (ty = first ∧ Notices oracle subject walk ty name) ∨
        Meets oracle subject types next ty name := by
  constructor
  · rintro ⟨before, after, mid, htypes, hrun, hnotices⟩
    cases before with
    | nil =>
      cases hrun
      simp only [List.nil_append, List.cons.injEq] at htypes
      exact Or.inl ⟨htypes.1.symm, hnotices⟩
    | cons head before =>
      simp only [List.cons_append, List.cons.injEq] at htypes
      obtain ⟨rfl, htypes⟩ := htypes
      rw [List.foldlM_cons, hstep] at hrun
      exact Or.inr ⟨before, after, mid, htypes, hrun, hnotices⟩
  · rintro (⟨rfl, hnotices⟩ | ⟨before, after, mid, htypes, hrun, hnotices⟩)
    · exact ⟨[], types, walk, rfl, rfl, hnotices⟩
    · refine ⟨first :: before, after, mid, by rw [htypes]; rfl, ?_, hnotices⟩
      rw [List.foldlM_cons, hstep]
      exact hrun

/-- An id is implemented when it was before, or a type of its name is met. -/
theorem mem_implements_iff (hs : Settled oracle subject walk)
    (hrun : types.foldlM (arrive oracle subject) walk = .ok last) :
    id ∈ last.implements ↔ id ∈ walk.implements ∨
      ∃ ty name, Meets oracle subject types walk ty name ∧ id = walk.registry.idFor name := by
  induction types generalizing walk with
  | nil =>
    cases hrun
    simp [not_meets_nil]
  | cons first types ih =>
    rw [List.foldlM_cons, bind_eq_ok] at hrun
    obtain ⟨next, hstep, hrest⟩ := hrun
    rw [ih (settled_arrive hs hstep) hrest]
    simp only [meets_cons hstep, (growth_arrive hs hstep).idFor]
    rcases arrive_ok hs hstep with ⟨noticed, hnoticed, hexpands⟩ | ⟨hunnoticed, rfl⟩
    · rw [hexpands.progress.implements, mem_appendNew]
      constructor
      · rintro ((hin | rfl) | ⟨ty, name, hmeets, hid⟩)
        · exact Or.inl hin
        · exact Or.inr ⟨first, noticed, Or.inl ⟨rfl, hnoticed⟩, rfl⟩
        · exact Or.inr ⟨ty, name, Or.inr hmeets, hid⟩
      · rintro (hin | ⟨ty, name, ⟨rfl, hnotices⟩ | hmeets, rfl⟩)
        · exact Or.inl (Or.inl hin)
        · cases hnotices.1.symm.trans hnoticed.1
          exact Or.inl (Or.inr rfl)
        · exact Or.inr ⟨ty, name, hmeets, rfl⟩
    · constructor
      · rintro (hin | ⟨ty, name, hmeets, hid⟩)
        · exact Or.inl hin
        · exact Or.inr ⟨ty, name, Or.inr hmeets, hid⟩
      · rintro (hin | ⟨ty, name, ⟨rfl, hnotices⟩ | hmeets, hid⟩)
        · exact Or.inl hin
        · exact absurd hnotices (hunnoticed name)
        · exact Or.inr ⟨ty, name, hmeets, hid⟩

/-- A walk over types that includes one of which the name has a token meets that type. -/
theorem meets_of_contains (hs : Settled oracle subject walk)
    (hrun : types.foldlM (arrive oracle subject) walk = .ok last) (hmem : ty ∈ types)
    (hname : oracle.named? ty = some name)
    (hcontains : walk.registry.contains name = true)
    (hne : walk.registry.idFor name ≠ subject.id) :
    Meets oracle subject types walk ty name := by
  obtain ⟨before, after, htypes⟩ := List.append_of_mem hmem
  rw [htypes] at hrun
  obtain ⟨mid, hbefore, -⟩ := foldlM_append_eq_ok.mp hrun
  have hgrowth := growth_foldlM_arrive hs hbefore
  refine ⟨before, after, mid, htypes, hbefore, hname, hgrowth.contains hcontains, ?_⟩
  rwa [hgrowth.idFor]

/-- The tokens of what is nested in a type, the subject left out. -/
def NestedToken (oracle : Oracle) (subject : Subject) (registry : Registry) (ty : TypeId)
    (id : TokenId) : Prop :=
  id ≠ subject.id ∧ ∃ argument name, oracle.Nests ty argument ∧
    oracle.named? argument = some name ∧ id = registry.idFor name

theorem nestedToken_iff_of_growth {allowed : Minted → Prop} {old new : Registry}
    (growth : Growth allowed old new) :
    NestedToken oracle subject new ty id ↔ NestedToken oracle subject old ty id := by
  simp only [NestedToken, growth.idFor]

/-- Going into the arguments of a type adds the tokens nested in it and no others. -/
theorem Expands.mem_generics_iff
    (h : Expands oracle subject (oracle.Nests ty) (oracle.arguments ty) walk last)
    (hs : Settled oracle subject walk) : id ∈ last.generics ↔
      id ∈ walk.generics ∨ NestedToken oracle subject walk.registry ty id := by
  constructor
  · intro hid
    rcases h.progress.sound id hid with hin | ⟨hne, argument, name, hnests, hname, -, rfl⟩
    · exact Or.inl hin
    · exact Or.inr ⟨hne, argument, name, hnests, hname, h.progress.registry.idFor name⟩
  · rintro (hin | ⟨hne, argument, name, hnests, hname, rfl⟩)
    · exact h.progress.generics hin
    · obtain ⟨key, hkey, hlisted⟩ := h.noted_of_nests hs hnests
      have hnamed : key = .named name :=
        Option.some.inj (hkey.symm.trans (Oracle.named?_eq_some.mp hname))
      rw [← h.progress.registry.idFor] at hne ⊢
      exact (hlisted name hnamed).2 hne

/-- An id is a generic when it was before, or is nested in a type that is met. -/
theorem mem_generics_iff (hs : Settled oracle subject walk)
    (hrun : types.foldlM (arrive oracle subject) walk = .ok last) :
    id ∈ last.generics ↔ id ∈ walk.generics ∨ ∃ ty name,
      Meets oracle subject types walk ty name ∧
        NestedToken oracle subject walk.registry ty id := by
  induction types generalizing walk with
  | nil =>
    cases hrun
    simp [not_meets_nil]
  | cons first types ih =>
    rw [List.foldlM_cons, bind_eq_ok] at hrun
    obtain ⟨next, hstep, hrest⟩ := hrun
    rw [ih (settled_arrive hs hstep) hrest]
    simp only [meets_cons hstep, nestedToken_iff_of_growth (growth_arrive hs hstep)]
    rcases arrive_ok hs hstep with ⟨noticed, hnoticed, hexpands⟩ | ⟨hunnoticed, rfl⟩
    · rw [hexpands.mem_generics_iff ⟨hs.nodup, hs.noted⟩]
      constructor
      · rintro ((hin | hnested) | ⟨ty, name, hmeets, hnested⟩)
        · exact Or.inl hin
        · exact Or.inr ⟨first, noticed, Or.inl ⟨rfl, hnoticed⟩, hnested⟩
        · exact Or.inr ⟨ty, name, Or.inr hmeets, hnested⟩
      · rintro (hin | ⟨ty, name, ⟨rfl, -⟩ | hmeets, hnested⟩)
        · exact Or.inl (Or.inl hin)
        · exact Or.inl (Or.inr hnested)
        · exact Or.inr ⟨ty, name, hmeets, hnested⟩
    · constructor
      · rintro (hin | ⟨ty, name, hmeets, hnested⟩)
        · exact Or.inl hin
        · exact Or.inr ⟨ty, name, Or.inr hmeets, hnested⟩
      · rintro (hin | ⟨ty, name, ⟨rfl, hnotices⟩ | hmeets, hnested⟩)
        · exact Or.inl hin
        · exact absurd hnotices (hunnoticed name)
        · exact Or.inr ⟨ty, name, hmeets, hnested⟩

end Walk

end InjectionPlan

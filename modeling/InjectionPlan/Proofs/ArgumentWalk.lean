import InjectionPlan.Proofs.RegistryGrowth
import InjectionPlan.Proofs.Runs
import InjectionPlan.Proofs.TypeGraph
import InjectionPlan.Resolution.Walk

/-!
# Generic arguments are collected in full

A walk over the generic arguments of a type that succeeds has noted every type that is nested in
them: each has a key, and each name has a token, which is listed unless it is the subject. It has
noted nothing else. The walk skips arguments that it went into before, so its invariant `Settled`
says that those and their own arguments are noted already.
-/

namespace InjectionPlan

namespace Oracle

variable {oracle : Oracle}

theorem named?_eq_some {ty : TypeId} {name : String} :
    oracle.named? ty = some name ↔ oracle.classify ty = some (.named name) := by
  unfold named?
  split
  · next h => simp [h]
  · next h => exact ⟨fun hn => by simp at hn, fun hc => absurd hc (h name)⟩

theorem requireKey_eq_ok {declaration : String} {ty : TypeId} {key : TypeKey} :
    oracle.requireKey declaration ty = .ok key ↔ oracle.classify ty = some key := by
  unfold requireKey
  split
  · next h => simp [h]
  · next h => simp [h]

/-- The token of a generic argument that was not minted for anything else. -/
def Implied (oracle : Oracle) (among : TypeId → Prop) (minted : Minted) : Prop :=
  minted.cardinality = .single ∧ minted.origin = .implicit ∧
    ∃ argument, among argument ∧ oracle.named? argument = some minted.name

end Oracle

namespace Walk

open Registry (Growth)

variable {oracle : Oracle} {subject : Subject} {among : TypeId → Prop}

/-- The argument has a key; if that is a name, it has a token, which is listed unless it is the
subject itself. -/
def Noted (oracle : Oracle) (subject : Subject) (walk : Walk) (argument : TypeId) : Prop :=
  ∃ key, oracle.classify argument = some key ∧ ∀ name, key = .named name →
    walk.registry.contains name = true ∧
      (walk.registry.idFor name ≠ subject.id → walk.registry.idFor name ∈ walk.generics)

/-- Between `walk` and `last` only arguments were looked at, all of them among those given. -/
structure Progress (oracle : Oracle) (subject : Subject) (among : TypeId → Prop)
    (walk last : Walk) : Prop where
  visited : last.visited = walk.visited
  implements : last.implements = walk.implements
  registry : Growth (oracle.Implied among) walk.registry last.registry
  generics : walk.generics ⊆ last.generics
  expanded : walk.expanded ⊆ last.expanded
  nodup : walk.generics.Nodup → last.generics.Nodup
  sound : ∀ id ∈ last.generics, id ∈ walk.generics ∨ (id ≠ subject.id ∧
    ∃ argument name, among argument ∧ oracle.named? argument = some name ∧
      last.registry.contains name = true ∧ id = last.registry.idFor name)

namespace Progress

variable {walk mid last : Walk}

theorem refl (walk : Walk) : Progress oracle subject among walk walk :=
  ⟨rfl, rfl, .refl _ _, List.Subset.refl _, List.Subset.refl _, id, fun _ h => Or.inl h⟩

theorem trans (first : Progress oracle subject among walk mid)
    (second : Progress oracle subject among mid last) :
    Progress oracle subject among walk last := by
  refine ⟨second.visited.trans first.visited, second.implements.trans first.implements,
    first.registry.trans second.registry, List.Subset.trans first.generics second.generics,
    List.Subset.trans first.expanded second.expanded, second.nodup ∘ first.nodup, ?_⟩
  intro id hid
  rcases second.sound id hid with h | h
  · rcases first.sound id h with h | ⟨hne, argument, name, ha, hn, hc, he⟩
    · exact Or.inl h
    · exact Or.inr ⟨hne, argument, name, ha, hn, second.registry.contains hc,
        he.trans (second.registry.idFor name).symm⟩
  · exact Or.inr h

theorem noted (progress : Progress oracle subject among walk last) {argument : TypeId}
    (h : Noted oracle subject walk argument) : Noted oracle subject last argument := by
  obtain ⟨key, hkey, hname⟩ := h
  refine ⟨key, hkey, fun name hn => ?_⟩
  obtain ⟨hc, hlisted⟩ := hname name hn
  refine ⟨progress.registry.contains hc, fun hne => ?_⟩
  rw [progress.registry.idFor] at hne ⊢
  exact progress.generics (hlisted hne)

end Progress

/-- Meeting an argument mints and lists its name, if it has one. -/
theorem meet_cases {walk next : Walk} {argument : TypeId}
    (hrun : walk.meet oracle subject argument = .ok next) :
    (∃ key, oracle.classify argument = some key ∧ (∀ name, key ≠ .named name) ∧ next = walk) ∨
    ∃ name, oracle.named? argument = some name ∧
      next = { walk with
        registry := (walk.registry.request name .single .implicit).record?
          (walk.registry.idFor name) (oracle.declaringFile? argument)
        generics := if walk.registry.idFor name = subject.id then walk.generics
          else appendNew walk.generics (walk.registry.idFor name) } := by
  rw [meet, bind_eq_ok] at hrun
  obtain ⟨key, hkey, hrun⟩ := hrun
  rw [Oracle.requireKey_eq_ok] at hkey
  split at hrun
  · next name =>
    refine Or.inr ⟨name, Oracle.named?_eq_some.mpr hkey, ?_⟩
    simp only [Registry.idFor_request, pure, Except.pure, Except.ok.injEq] at hrun
    rw [← hrun]
    split
    · rfl
    · rfl
  · next hnot =>
    cases hrun
    exact Or.inl ⟨key, hkey, hnot, rfl⟩

/-- Meeting an argument notes it. -/
theorem progress_meet {walk next : Walk} {argument : TypeId} (hamong : among argument)
    (hrun : walk.meet oracle subject argument = .ok next) :
    Progress oracle subject among walk next ∧ next.expanded = walk.expanded ∧
      Noted oracle subject next argument := by
  rcases meet_cases hrun with ⟨key, hkey, hnot, rfl⟩ | ⟨name, hnamed, rfl⟩
  · exact ⟨.refl _, rfl, key, hkey, fun name hn => absurd hn (hnot name)⟩
  · have hkey := Oracle.named?_eq_some.mp hnamed
    have hgrowth : Growth (oracle.Implied among) walk.registry
        ((walk.registry.request name .single .implicit).record? (walk.registry.idFor name)
          (oracle.declaringFile? argument)) :=
      Registry.growth_mint? walk.registry _ _ ⟨rfl, rfl, argument, hamong, hnamed⟩
    have hcontains : ((walk.registry.request name .single .implicit).record?
        (walk.registry.idFor name) (oracle.declaringFile? argument)).contains name = true :=
      (Registry.growth_record? (fun _ => True) _ _ _).contains (by simp)
    have hid := hgrowth.idFor name
    by_cases hself : walk.registry.idFor name = subject.id
    · rw [if_pos hself]
      refine ⟨⟨rfl, rfl, hgrowth, List.Subset.refl _, List.Subset.refl _, id,
        fun _ h => Or.inl h⟩, rfl, .named name, hkey, ?_⟩
      rintro other ⟨⟩
      exact ⟨hcontains, fun hne => absurd (hid.trans hself) hne⟩
    · rw [if_neg hself]
      refine ⟨⟨rfl, rfl, hgrowth, ?_, List.Subset.refl _, ?_, ?_⟩, rfl, .named name, hkey, ?_⟩
      · intro id h
        exact mem_appendNew.mpr (Or.inl h)
      · intro h
        exact nodup_appendNew h _
      · intro id h
        rcases mem_appendNew.mp h with h | rfl
        · exact Or.inl h
        · exact Or.inr ⟨hself, argument, name, hamong, hnamed, hcontains, hid.symm⟩
      · rintro other ⟨⟩
        exact ⟨hcontains, fun _ => mem_appendNew.mpr (Or.inr hid)⟩

/-- Between `walk` and `last` some arguments were gone into: they are noted and kept as expanded,
and so are the arguments of every type that was expanded on the way. -/
structure Expands (oracle : Oracle) (subject : Subject) (among : TypeId → Prop)
    (arguments : List TypeId) (walk last : Walk) : Prop where
  progress : Progress oracle subject among walk last
  nodup : last.expanded.Nodup
  noted : ∀ argument ∈ arguments,
    Noted oracle subject last argument ∧ argument ∈ last.expanded
  closed : ∀ ty ∈ last.expanded, ty ∈ walk.expanded ∨ ∀ argument ∈ oracle.arguments ty,
    Noted oracle subject last argument ∧ argument ∈ last.expanded

namespace Expands

variable {arguments others : List TypeId} {walk mid last : Walk}

theorem refl (h : walk.expanded.Nodup) : Expands oracle subject among [] walk walk :=
  ⟨.refl _, h, by simp, fun _ hty => Or.inl hty⟩

theorem length_le (h : Expands oracle subject among arguments walk last)
    (hnodup : walk.expanded.Nodup) : walk.expanded.length ≤ last.expanded.length :=
  List.Nodup.length_le_of_subset hnodup h.progress.expanded

theorem append (first : Expands oracle subject among arguments walk mid)
    (second : Expands oracle subject among others mid last) :
    Expands oracle subject among (arguments ++ others) walk last := by
  have keep : ∀ argument, Noted oracle subject mid argument ∧ argument ∈ mid.expanded →
      Noted oracle subject last argument ∧ argument ∈ last.expanded := fun argument h =>
    ⟨second.progress.noted h.1, second.progress.expanded h.2⟩
  refine ⟨first.progress.trans second.progress, second.nodup, ?_, ?_⟩
  · intro argument h
    rcases List.mem_append.mp h with h | h
    · exact keep argument (first.noted argument h)
    · exact second.noted argument h
  · intro ty hty
    rcases second.closed ty hty with h | h
    · exact (first.closed ty h).imp_right fun h argument ha => keep argument (h argument ha)
    · exact Or.inr h

end Expands

/-- Arguments one after the other. -/
theorem expands_foldlM {step : Walk → TypeId → Except ResolveError Walk} {depth : Nat}
    {arguments : List TypeId}
    (expands : ∀ argument ∈ arguments, ∀ walk last, walk.expanded.Nodup →
      TypeId.count < depth + walk.expanded.length → step walk argument = .ok last →
      Expands oracle subject among [argument] walk last)
    {walk last : Walk} (h : walk.expanded.Nodup)
    (hlen : TypeId.count < depth + walk.expanded.length)
    (hrun : arguments.foldlM step walk = .ok last) :
    Expands oracle subject among arguments walk last := by
  induction arguments generalizing walk with
  | nil =>
    cases hrun
    exact .refl h
  | cons argument arguments ih =>
    rw [List.foldlM_cons, bind_eq_ok] at hrun
    obtain ⟨mid, hstep, hrest⟩ := hrun
    have first := expands argument List.mem_cons_self walk mid h hlen hstep
    have hle := first.length_le h
    exact first.append (ih (fun a ha => expands a (List.mem_cons_of_mem _ ha)) first.nodup
      (by omega) hrest)

/-- Going into the arguments of a type. The depth that is left and the expanded types are together
more than there are handles, so the depth does not run out. -/
theorem expands_expand (hclosed : ∀ ty argument, among ty → argument ∈ oracle.arguments ty →
      among argument) :
    ∀ {depth : Nat} {walk last : Walk} {ty : TypeId},
      (∀ argument ∈ oracle.arguments ty, among argument) → walk.expanded.Nodup →
      TypeId.count < depth + walk.expanded.length →
      expand oracle subject depth walk ty = .ok last →
      Expands oracle subject among (oracle.arguments ty) walk last := by
  intro depth
  induction depth with
  | zero =>
    intro walk last ty _ h hlen _
    have hle := TypeId.length_le_count h
    omega
  | succ depth ih =>
    intro walk last ty hamong h hlen hrun
    rw [expand] at hrun
    refine expands_foldlM ?_ h hlen hrun
    intro argument ha walk last h hlen hstep
    rw [bind_eq_ok] at hstep
    obtain ⟨mid, hmeet, hstep⟩ := hstep
    obtain ⟨hprogress, hexpanded, hnoted⟩ := progress_meet (hamong argument ha) hmeet
    split at hstep
    · next hin =>
      cases hstep
      refine ⟨hprogress, hexpanded ▸ h, ?_, fun ty hty => Or.inl (hexpanded ▸ hty)⟩
      intro other hother
      rw [List.mem_singleton] at hother
      exact hother ▸ ⟨hnoted, hin⟩
    · next hout =>
      have hmark : Progress oracle subject among mid
          { mid with expanded := argument :: mid.expanded } :=
        ⟨rfl, rfl, .refl _ _, List.Subset.refl _, List.subset_cons_self _ _, id,
          fun _ h => Or.inl h⟩
      have inner := @ih { mid with expanded := argument :: mid.expanded } last argument
        (fun nested hn => hclosed argument nested (hamong argument ha) hn)
        (List.nodup_cons.mpr ⟨hout, hexpanded ▸ h⟩)
        (by simp only [List.length_cons, hexpanded]; omega) hstep
      refine ⟨(hprogress.trans hmark).trans inner.progress, inner.nodup, ?_, ?_⟩
      · intro other hother
        rw [List.mem_singleton] at hother
        exact hother ▸ ⟨(hmark.trans inner.progress).noted hnoted,
          inner.progress.expanded List.mem_cons_self⟩
      · intro ty hty
        rcases inner.closed ty hty with hin | hclosed
        · rcases List.mem_cons.mp hin with rfl | hin
          · exact Or.inr inner.noted
          · exact Or.inl (hexpanded ▸ hin)
        · exact Or.inr hclosed

/-- Everything expanded has its arguments noted and expanded. -/
structure Settled (oracle : Oracle) (subject : Subject) (walk : Walk) : Prop where
  nodup : walk.expanded.Nodup
  noted : ∀ ty ∈ walk.expanded, ∀ argument ∈ oracle.arguments ty,
    Noted oracle subject walk argument ∧ argument ∈ walk.expanded

theorem Expands.settled {arguments : List TypeId} {walk last : Walk}
    (h : Expands oracle subject among arguments walk last) (hs : Settled oracle subject walk) :
    Settled oracle subject last := by
  refine ⟨h.nodup, fun ty hty argument ha => ?_⟩
  rcases h.closed ty hty with hin | hclosed
  · obtain ⟨hnoted, hexpanded⟩ := hs.noted ty hin argument ha
    exact ⟨h.progress.noted hnoted, h.progress.expanded hexpanded⟩
  · exact hclosed argument ha

/-- Once the arguments of a type are gone into, everything nested in it is noted. -/
theorem Expands.noted_of_nests {ty : TypeId} {walk last : Walk}
    (h : Expands oracle subject among (oracle.arguments ty) walk last)
    (hs : Settled oracle subject walk) {argument : TypeId} (hnests : oracle.Nests ty argument) :
    Noted oracle subject last argument := by
  have hlast := h.settled hs
  suffices Noted oracle subject last argument ∧ argument ∈ last.expanded from this.1
  induction hnests with
  | single ha => exact h.noted _ ha
  | tail _ ha ih => exact hlast.noted _ ih.2 _ ha

end Walk

end InjectionPlan

import InjectionPlan.Registry

/-!
# Registries only grow

A registry that went through any number of requests and records has its old tokens in their old
places, and behind them new ones. `Growth` also says which names the new tokens may have; a pass
states there what it mints. Nothing is said about the order of the new tokens.
-/

namespace InjectionPlan

/-- The token admits one implementation. -/
def Minted.IsSingle (minted : Minted) : Prop := minted.cardinality = .single

namespace Registry

/-- The name has a token that admits any number of implementations. -/
def IsMulti (registry : Registry) (name : String) : Prop :=
  ∃ minted, registry.get? name = some minted ∧ minted.cardinality = .multi

/-- Between `old` and `new` only tokens that are allowed were minted, and nothing was lost. -/
structure Growth (allowed : Minted → Prop) (old new : Registry) : Prop where
  suffix : new.suffix = old.suffix
  minted : ∃ added, new.minted = old.minted ++ added ∧ ∀ minted ∈ added, allowed minted
  imports : old.imports.entries <+: new.imports.entries

namespace Growth

variable {allowed wider : Minted → Prop} {old mid new : Registry}

theorem refl (allowed : Minted → Prop) (registry : Registry) :
    Growth allowed registry registry :=
  ⟨rfl, ⟨[], by simp, by simp⟩, List.prefix_rfl⟩

theorem trans (first : Growth allowed old mid) (second : Growth allowed mid new) :
    Growth allowed old new := by
  obtain ⟨added, hm, ha⟩ := first.minted
  obtain ⟨added', hm', ha'⟩ := second.minted
  refine ⟨second.suffix.trans first.suffix, ⟨added ++ added', ?_, ?_⟩,
    first.imports.trans second.imports⟩
  · rw [hm', hm, List.append_assoc]
  · intro minted h
    exact (List.mem_append.mp h).elim (ha minted) (ha' minted)

theorem weaken (growth : Growth allowed old new) (h : ∀ minted, allowed minted → wider minted) :
    Growth wider old new := by
  obtain ⟨added, hm, ha⟩ := growth.minted
  exact ⟨growth.suffix, ⟨added, hm, fun minted hmem => h minted (ha minted hmem)⟩,
    growth.imports⟩

theorem mem (growth : Growth allowed old new) {minted : Minted} (h : minted ∈ old.minted) :
    minted ∈ new.minted := by
  obtain ⟨added, hm, -⟩ := growth.minted
  rw [hm]
  exact List.mem_append_left added h

/-- A token of the new registry is an old one or an allowed one. -/
theorem mem_or_allowed (growth : Growth allowed old new) {minted : Minted}
    (h : minted ∈ new.minted) : minted ∈ old.minted ∨ allowed minted := by
  obtain ⟨added, hm, ha⟩ := growth.minted
  rw [hm] at h
  exact (List.mem_append.mp h).imp_right (ha minted)

theorem idFor (growth : Growth allowed old new) (name : String) :
    new.idFor name = old.idFor name := by
  simp only [Registry.idFor, growth.suffix]

theorem contains (growth : Growth allowed old new) {name : String}
    (h : old.contains name = true) : new.contains name = true := by
  rw [contains_iff] at h ⊢
  obtain ⟨minted, hm, rfl⟩ := List.mem_map.mp h
  exact List.mem_map_of_mem (growth.mem hm)

theorem knows (growth : Growth allowed old new) {id : TokenId} (h : old.knows id = true) :
    new.knows id = true := by
  rw [knows_iff] at h ⊢
  obtain ⟨minted, hm, rfl⟩ := h
  exact ⟨minted, growth.mem hm, growth.idFor minted.name⟩

theorem get? (growth : Growth allowed old new) {name : String} {minted : Minted}
    (h : old.get? name = some minted) : new.get? name = some minted := by
  rw [get?_eq_some] at h ⊢
  exact ⟨growth.mem h.1, h.2⟩

/-- A position that is taken keeps its token. -/
theorem getElem? (growth : Growth allowed old new) {position : Nat} {minted : Minted}
    (h : old.minted[position]? = some minted) : new.minted[position]? = some minted := by
  obtain ⟨added, hm, -⟩ := growth.minted
  rw [hm, List.getElem?_append_left (List.getElem?_eq_some_iff.mp h).1, h]

theorem size_le (growth : Growth allowed old new) : old.size ≤ new.size := by
  obtain ⟨added, hm, -⟩ := growth.minted
  simp [Registry.size, hm]

/-- A name that has a token only in the new registry makes that larger. -/
theorem size_lt (growth : Growth allowed old new) {name : String}
    (hold : old.contains name = false) (hnew : new.contains name = true) :
    old.size < new.size := by
  obtain ⟨added, hm, -⟩ := growth.minted
  cases added with
  | nil =>
    rw [List.append_nil] at hm
    rw [contains_iff, hm, ← contains_iff] at hnew
    cases hold.symm.trans hnew
  | cons first rest => simp [Registry.size, hm]

/-- Tokens that admit one implementation do not make another name a shared one. -/
theorem isMulti_iff (growth : Growth Minted.IsSingle old new) {name : String} :
    new.IsMulti name ↔ old.IsMulti name := by
  constructor
  · rintro ⟨minted, hget, hmulti⟩
    rw [Registry.get?_eq_some] at hget
    rcases growth.mem_or_allowed hget.1 with hold | hsingle
    · exact ⟨minted, Registry.get?_eq_some.mpr ⟨hold, hget.2⟩, hmulti⟩
    · cases hmulti.symm.trans hsingle
  · rintro ⟨minted, hget, hmulti⟩
    exact ⟨minted, growth.get? hget, hmulti⟩

end Growth

theorem growth_request {allowed : Minted → Prop} (registry : Registry) {name : String}
    {cardinality : Cardinality} {origin : Origin} (h : allowed ⟨name, cardinality, origin⟩) :
    Growth allowed registry (registry.request name cardinality origin) := by
  cases hc : registry.contains name with
  | true =>
    rw [request_of_contains cardinality origin hc]
    exact .refl allowed registry
  | false =>
    refine ⟨suffix_request registry name cardinality origin,
      ⟨[⟨name, cardinality, origin⟩], ?_, ?_⟩, ?_⟩
    · exact minted_request_of_not_contains cardinality origin hc
    · intro minted hm
      rw [List.mem_singleton] at hm
      exact hm ▸ h
    · simp

theorem growth_record (allowed : Minted → Prop) (registry : Registry) (id : TokenId)
    (file : String) : Growth allowed registry (registry.record id file) := by
  refine ⟨suffix_record registry id file, ⟨[], by simp, by simp⟩, ?_⟩
  unfold record
  split
  · exact List.prefix_rfl
  · change _ <+: (registry.imports.insertNew id file).entries
    cases hc : registry.imports.contains id with
    | true =>
      simp [Table.insertNew_of_contains file hc]
    | false =>
      rw [Table.entries_insertNew_of_not_contains file hc]
      exact List.prefix_append _ _

theorem growth_record? (allowed : Minted → Prop) (registry : Registry) (id : TokenId)
    (file : Option String) : Growth allowed registry (registry.record? id file) := by
  cases file with
  | none => exact .refl allowed registry
  | some file => exact growth_record allowed registry id file

/-- A name is requested, and its file is recorded. -/
theorem growth_mint {allowed : Minted → Prop} (registry : Registry) {name : String}
    {cardinality : Cardinality} {origin : Origin} (id : TokenId) (file : String)
    (h : allowed ⟨name, cardinality, origin⟩) :
    Growth allowed registry ((registry.request name cardinality origin).record id file) :=
  (growth_request registry h).trans (growth_record allowed _ id file)

theorem growth_mint? {allowed : Minted → Prop} (registry : Registry) {name : String}
    {cardinality : Cardinality} {origin : Origin} (id : TokenId) (file : Option String)
    (h : allowed ⟨name, cardinality, origin⟩) :
    Growth allowed registry ((registry.request name cardinality origin).record? id file) :=
  (growth_request registry h).trans (growth_record? allowed _ id file)

end Registry

end InjectionPlan

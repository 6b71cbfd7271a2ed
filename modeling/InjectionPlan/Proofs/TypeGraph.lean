import InjectionPlan.Source.Snapshot
import Mathlib.Logic.Relation

/-!
# The graphs of types

Types extend types and have types as generic arguments; both relations may have circles. `lineage`
lists the types that a type extends in the order of a depth-first search. The depth of the search
is bounded by the number of handles, which is enough because no handle is met twice.
-/

namespace InjectionPlan

namespace TypeId

/-- Only so many handles are different. -/
theorem length_le_count {types : List TypeId} (h : types.Nodup) : types.length ≤ count := by
  have hd : (types.map index).Nodup := by
    rw [List.nodup_iff_pairwise_ne, List.pairwise_map]
    rw [List.nodup_iff_pairwise_ne] at h
    exact h.imp fun hne he => hne (index_injective he)
  have hsub : types.map index ⊆ List.range count := by
    intro position hp
    obtain ⟨ty, -, rfl⟩ := List.mem_map.mp hp
    exact List.mem_range.mpr ty.index_lt_count
  have hle := List.Nodup.length_le_of_subset hd hsub
  rwa [List.length_map, List.length_range] at hle

end TypeId

namespace Oracle

variable {oracle : Oracle}

/-- The second type is the first one, or is extended by it through any number of types. -/
def Extends (oracle : Oracle) : TypeId → TypeId → Prop :=
  Relation.ReflTransGen fun ty base => base ∈ oracle.bases ty

/-- The second type is a generic argument of the first one, or of such an argument. -/
def Nests (oracle : Oracle) : TypeId → TypeId → Prop :=
  Relation.TransGen fun ty argument => argument ∈ oracle.arguments ty

/-- The types met so far and those that a search from a type adds, the latest first. -/
def trail (oracle : Oracle) : Nat → List TypeId → TypeId → List TypeId
  | 0, seen, _ => seen
  | depth + 1, seen, ty =>
    if ty ∈ seen then seen else (oracle.bases ty).foldl (trail oracle depth) (ty :: seen)

/-- The types that a type extends in the order of the search, itself first. -/
def lineage (oracle : Oracle) (ty : TypeId) : List TypeId :=
  (oracle.trail (TypeId.count + 1) [] ty).reverse

theorem foldl_trail_suffix_of {depth : Nat}
    (suffix : ∀ seen ty, seen <:+ oracle.trail depth seen ty) (types seen : List TypeId) :
    seen <:+ types.foldl (oracle.trail depth) seen := by
  refine List.foldlRecOn (motive := fun last => seen <:+ last) _ _ List.suffix_rfl ?_
  intro last h ty _
  exact h.trans (suffix last ty)

/-- A search puts the types it meets in front of those met before. -/
theorem trail_suffix (oracle : Oracle) : ∀ (depth : Nat) (seen : List TypeId) (ty : TypeId),
    seen <:+ oracle.trail depth seen ty := by
  intro depth
  induction depth with
  | zero => intro seen ty; exact List.suffix_rfl
  | succ depth ih =>
    intro seen ty
    rw [trail]
    split
    · exact List.suffix_rfl
    · exact (List.suffix_cons ty seen).trans (foldl_trail_suffix_of ih _ _)

theorem foldl_trail_suffix (oracle : Oracle) (depth : Nat) (types seen : List TypeId) :
    seen <:+ types.foldl (oracle.trail depth) seen :=
  foldl_trail_suffix_of (oracle.trail_suffix depth) types seen

/-- What a search adds to the types met before: each new type is met once, is extended by a type
that the search started from, and has all its bases met. -/
structure Searched (oracle : Oracle) (starts seen last : List TypeId) : Prop where
  grows : ∃ added, last = added ++ seen
  nodup : last.Nodup
  met : starts ⊆ last
  closed : ∀ ty ∈ last, ty ∈ seen ∨ oracle.bases ty ⊆ last
  reached : ∀ ty ∈ last, ty ∈ seen ∨ ∃ start ∈ starts, oracle.Extends start ty

namespace Searched

variable {starts others seen mid last : List TypeId}

theorem refl (h : seen.Nodup) : Searched oracle [] seen seen :=
  ⟨⟨[], rfl⟩, h, List.nil_subset seen, fun _ hty => Or.inl hty, fun _ hty => Or.inl hty⟩

theorem subset (h : Searched oracle starts seen last) : seen ⊆ last := by
  obtain ⟨added, rfl⟩ := h.grows
  exact List.subset_append_right added seen

theorem length_le (h : Searched oracle starts seen last) : seen.length ≤ last.length := by
  obtain ⟨added, rfl⟩ := h.grows
  simp

theorem append (first : Searched oracle starts seen mid)
    (second : Searched oracle others mid last) :
    Searched oracle (starts ++ others) seen last := by
  obtain ⟨added, hmid⟩ := first.grows
  obtain ⟨added', hlast⟩ := second.grows
  refine ⟨⟨added' ++ added, ?_⟩, second.nodup, ?_, ?_, ?_⟩
  · rw [hlast, hmid, List.append_assoc]
  · intro ty hty
    exact (List.mem_append.mp hty).elim (fun h => second.subset (first.met h)) (second.met ·)
  · intro ty hty
    rcases second.closed ty hty with h | h
    · exact (first.closed ty h).imp_right fun h => List.Subset.trans h second.subset
    · exact Or.inr h
  · intro ty hty
    rcases second.reached ty hty with h | ⟨start, hs, h⟩
    · exact (first.reached ty h).imp_right fun ⟨start, hs, h⟩ =>
        ⟨start, List.mem_append_left others hs, h⟩
    · exact Or.inr ⟨start, List.mem_append_right starts hs, h⟩

end Searched

/-- One search after the other, each of which has enough depth. -/
theorem searched_foldl {depth : Nat}
    (searched : ∀ {seen : List TypeId} (ty : TypeId), seen.Nodup →
      TypeId.count < depth + seen.length → Searched oracle [ty] seen (oracle.trail depth seen ty))
    (types : List TypeId) {seen : List TypeId} (h : seen.Nodup)
    (hlen : TypeId.count < depth + seen.length) :
    Searched oracle types seen (types.foldl (oracle.trail depth) seen) := by
  induction types generalizing seen with
  | nil => exact .refl h
  | cons ty types ih =>
    have first := searched ty h hlen
    have hle := first.length_le
    exact first.append (ih first.nodup (by omega))

/-- A search with enough depth is complete. -/
theorem searched_trail :
    ∀ {depth : Nat} {seen : List TypeId} (ty : TypeId), seen.Nodup →
      TypeId.count < depth + seen.length →
      Searched oracle [ty] seen (oracle.trail depth seen ty) := by
  intro depth
  induction depth with
  | zero =>
    intro seen ty h hlen
    have hle := TypeId.length_le_count h
    omega
  | succ depth ih =>
    intro seen ty h hlen
    rw [trail]
    split
    · next hin =>
      exact ⟨⟨[], rfl⟩, h, by simpa using hin, fun _ hty => Or.inl hty, fun _ hty => Or.inl hty⟩
    · next hout =>
      have hnodup : (ty :: seen).Nodup := List.nodup_cons.mpr ⟨hout, h⟩
      have inner := searched_foldl (fun ty h hlen => ih ty h hlen) (oracle.bases ty) hnodup
        (by simp only [List.length_cons]; omega)
      obtain ⟨added, hadded⟩ := inner.grows
      refine ⟨⟨added ++ [ty], ?_⟩, inner.nodup, ?_, ?_, ?_⟩
      · rw [hadded]; simp
      · exact List.cons_subset.mpr ⟨inner.subset List.mem_cons_self, List.nil_subset _⟩
      · intro other hother
        rcases inner.closed other hother with hin | hbases
        · rcases List.mem_cons.mp hin with rfl | hseen
          · exact Or.inr inner.met
          · exact Or.inl hseen
        · exact Or.inr hbases
      · intro other hother
        rcases inner.reached other hother with hin | ⟨base, hbase, hreach⟩
        · rcases List.mem_cons.mp hin with rfl | hseen
          · exact Or.inr ⟨other, by simp, .refl⟩
          · exact Or.inl hseen
        · exact Or.inr ⟨ty, by simp, .head hbase hreach⟩

theorem searched_lineage (oracle : Oracle) (ty : TypeId) :
    Searched oracle [ty] [] (oracle.trail (TypeId.count + 1) [] ty) :=
  searched_trail ty List.nodup_nil (by simp)

/-- The lineage of a type is what it extends. -/
theorem mem_lineage {start ty : TypeId} : ty ∈ oracle.lineage start ↔ oracle.Extends start ty := by
  have searched := oracle.searched_lineage start
  rw [lineage, List.mem_reverse]
  constructor
  · intro h
    rcases searched.reached ty h with hnil | ⟨first, hfirst, hreach⟩
    · simp at hnil
    · rw [List.mem_singleton] at hfirst
      exact hfirst ▸ hreach
  · intro h
    induction h with
    | refl => exact searched.met (by simp)
    | tail _ hbase ih =>
      rcases searched.closed _ ih with hnil | hbases
      · simp at hnil
      · exact hbases hbase

end Oracle

end InjectionPlan

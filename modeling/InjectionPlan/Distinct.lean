/-!
# Lists without repetition

A list to which only new elements are added keeps the order of their first occurrence.
-/

namespace InjectionPlan

variable {α κ : Type}

/-- An element with a new key goes behind a list without repeated keys. -/
theorem nodup_map_concat {key : α → κ} {xs : List α} {x : α} (h : (xs.map key).Nodup)
    (hx : key x ∉ xs.map key) : ((xs ++ [x]).map key).Nodup := by
  rw [List.map_append, List.map_singleton, List.nodup_append]
  refine ⟨h, List.pairwise_singleton _ _, ?_⟩
  intro a ha b hb hab
  rw [List.mem_singleton] at hb
  exact hx (hb ▸ hab ▸ ha)

variable [DecidableEq α]

/-- Puts an element at the end, unless it is there already. -/
def appendNew (xs : List α) (x : α) : List α := if x ∈ xs then xs else xs ++ [x]

def firstOccurrences (xs : List α) : List α := xs.foldl appendNew []

@[simp]
theorem mem_appendNew {xs : List α} {x y : α} : y ∈ appendNew xs x ↔ y ∈ xs ∨ y = x := by
  unfold appendNew
  split
  · next h => exact ⟨Or.inl, fun hy => hy.elim id fun e => e ▸ h⟩
  · simp

theorem nodup_appendNew {xs : List α} (h : xs.Nodup) (x : α) : (appendNew xs x).Nodup := by
  unfold appendNew
  split
  · exact h
  · next hx =>
    rw [← List.map_id (xs ++ [x])]
    rw [← List.map_id xs] at h hx
    exact nodup_map_concat h hx

theorem prefix_appendNew (xs : List α) (x : α) : xs <+: appendNew xs x := by
  unfold appendNew
  split
  · exact List.prefix_rfl
  · exact List.prefix_append _ _

theorem firstOccurrences_concat (xs : List α) (x : α) :
    firstOccurrences (xs ++ [x]) = appendNew (firstOccurrences xs) x :=
  List.foldl_append

theorem mem_foldl_appendNew {xs ys : List α} {y : α} :
    y ∈ xs.foldl appendNew ys ↔ y ∈ ys ∨ y ∈ xs := by
  induction xs generalizing ys with
  | nil => simp
  | cons x xs ih => rw [List.foldl_cons, ih, mem_appendNew, List.mem_cons, or_assoc]

@[simp]
theorem mem_firstOccurrences {xs : List α} {y : α} : y ∈ firstOccurrences xs ↔ y ∈ xs := by
  simp [firstOccurrences, mem_foldl_appendNew]

theorem nodup_firstOccurrences (xs : List α) : (firstOccurrences xs).Nodup :=
  List.foldlRecOn (motive := List.Nodup) xs appendNew List.nodup_nil
    fun _ hnodup x _ => nodup_appendNew hnodup x

section Injective

variable [DecidableEq κ] {f : α → κ}

theorem appendNew_map (hf : Function.Injective f) (xs : List α) (x : α) :
    appendNew (xs.map f) (f x) = (appendNew xs x).map f := by
  have hmem : f x ∈ xs.map f ↔ x ∈ xs := by simp [hf.eq_iff]
  unfold appendNew
  by_cases hx : x ∈ xs
  · rw [if_pos hx, if_pos (hmem.mpr hx)]
  · rw [if_neg hx, if_neg (fun h => hx (hmem.mp h)), List.map_append]
    rfl

theorem firstOccurrences_map (hf : Function.Injective f) (xs : List α) :
    firstOccurrences (xs.map f) = (firstOccurrences xs).map f := by
  have hfold : xs.foldl (fun ys x => appendNew ys (f x)) (([] : List α).map f) =
      (xs.foldl appendNew []).map f := List.foldl_hom (List.map f) fun ys x => appendNew_map hf ys x
  rw [firstOccurrences, List.foldl_map]
  exact hfold

end Injective

end InjectionPlan

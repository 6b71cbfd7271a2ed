import InjectionPlan.Distinct
import Mathlib.Data.List.Basic
import Mathlib.Data.List.Induction

/-!
# Lists of items with keys

Items of a list may share a key. They can be grouped by it, and of each group the first item can be
kept; what is said here of groups and first items does not depend on what the items are.
-/

namespace InjectionPlan

variable {α κ ν : Type}

/-! ## Groups -/

/-- Groups by keys that are different and cover all items have every item once. -/
theorem flatMap_filter_perm [DecidableEq κ] (key : α → κ) {keys : List κ} (hnodup : keys.Nodup)
    {items : List α} (hcovered : ∀ item ∈ items, key item ∈ keys) :
    (keys.flatMap fun k => items.filter fun item => key item = k).Perm items := by
  induction keys generalizing items with
  | nil =>
    have hnil : items = [] :=
      List.eq_nil_iff_forall_not_mem.mpr fun item hitem => List.not_mem_nil (hcovered item hitem)
    rw [hnil]
    exact .refl []
  | cons k keys ih =>
    obtain ⟨hfresh, hnodup⟩ := List.nodup_cons.mp hnodup
    -- the items of the other keys are among those that the first key leaves
    have hrest : (keys.flatMap fun other => items.filter fun item => key item = other) =
        keys.flatMap fun other => (items.filter fun item => !decide (key item = k)).filter
          fun item => key item = other := by
      refine List.flatMap_congr fun other hother => ?_
      rw [List.filter_filter]
      refine List.filter_congr fun item _ => ?_
      by_cases hitem : key item = other
      · have hne : ¬ other = k := fun he => hfresh (he ▸ hother)
        simp [hitem, hne]
      · simp [hitem]
    rw [List.flatMap_cons, hrest]
    refine .trans (.append_left _ (ih hnodup fun item hitem => ?_))
      (List.filter_append_perm (fun item => decide (key item = k)) items)
    obtain ⟨hitem, hne⟩ := List.mem_filter.mp hitem
    have hcases := List.mem_cons.mp (hcovered item hitem)
    exact hcases.resolve_left fun he => by simp [he] at hne

/-- Behind a list with the only such element none can be put. -/
theorem countP_eq_one_of_append {holds : α → Bool} {items : List α} {item new : α}
    (hitem : item ∈ items) (hholds : holds item = true)
    (h : (items ++ [new]).countP holds = 1) :
    items.countP holds = 1 ∧ holds new = false := by
  have hpos : 0 < items.countP holds := List.countP_pos_iff.mpr ⟨item, hitem, hholds⟩
  rw [List.countP_append, List.countP_singleton] at h
  split at h
  · omega
  · next hnew => exact ⟨by omega, by simpa using hnew⟩

/-- Keys with the values that they have are some of the keys in their order. -/
theorem map_fst_filterMap (value? : κ → Option ν) (keys : List κ) :
    (keys.filterMap fun key => (value? key).map fun value => (key, value)).map Prod.fst =
      keys.filter fun key => (value? key).isSome := by
  induction keys with
  | nil => rfl
  | cons key keys ih =>
    cases hvalue : value? key with
    | none => simp [hvalue, ih]
    | some value => simp [hvalue, ih]

/-! ## First items -/

variable [DecidableEq κ] {key : α → κ}

/-- The items in their order, without those of which the key stood before. -/
def firsts (key : α → κ) : List α → List α
  | [] => []
  | x :: rest => x :: (firsts key rest).filter fun y => key y ≠ key x

/-- By its key an item is found in either list, and it is the same one. -/
theorem find?_firsts (test : κ → Bool) (xs : List α) :
    (firsts key xs).find? (fun x => test (key x)) = xs.find? fun x => test (key x) := by
  induction xs with
  | nil => rfl
  | cons x rest ih =>
    rw [firsts, List.find?_cons, List.find?_cons]
    cases hx : test (key x) with
    | true => rfl
    | false =>
      have hkept : ∀ y, (decide (key y ≠ key x) && test (key y)) = test (key y) := by
        intro y
        by_cases hy : key y = key x
        · rw [hy, hx, Bool.and_false]
        · rw [decide_eq_true hy, Bool.true_and]
      simp only [List.find?_filter, Bool.decide_and, Bool.decide_eq_true, hkept, ih]

theorem firsts_concat (xs : List α) (last : α) : firsts key (xs ++ [last]) =
    if key last ∈ xs.map key then firsts key xs else firsts key xs ++ [last] := by
  induction xs with
  | nil => rfl
  | cons x rest ih =>
    rw [List.cons_append, firsts, ih, firsts, List.map_cons]
    by_cases hin : key last ∈ rest.map key
    · rw [if_pos hin, if_pos (List.mem_cons_of_mem _ hin)]
    · rw [if_neg hin, List.filter_append]
      by_cases hsame : key last = key x <;> simp [hsame, hin]

/-- The keys of the first items are the keys as they occur first. -/
theorem map_firsts (key : α → κ) (xs : List α) :
    (firsts key xs).map key = firstOccurrences (xs.map key) := by
  induction xs using List.reverseRecOn with
  | nil => rfl
  | append_singleton xs last ih =>
    rw [firsts_concat, List.map_append, List.map_singleton, firstOccurrences_concat]
    simp only [appendNew, mem_firstOccurrences]
    split
    · exact ih
    · rw [List.map_append, ih, List.map_singleton]

theorem mem_map_firsts {k : κ} {xs : List α} :
    k ∈ (firsts key xs).map key ↔ k ∈ xs.map key := by
  rw [map_firsts, mem_firstOccurrences]

end InjectionPlan

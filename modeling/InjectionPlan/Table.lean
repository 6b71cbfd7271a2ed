import InjectionPlan.Distinct

/-!
# Tables in order of insertion

A table gives each key at most one value and keeps the order in which the keys came first.
-/

namespace InjectionPlan

/-- Keys with values, in the order in which the keys were first put in. -/
structure Table (κ ν : Type) where
  entries : List (κ × ν)
  distinct : (entries.map Prod.fst).Nodup

namespace Table

variable {κ ν : Type}

theorem ext_entries {a b : Table κ ν} (h : a.entries = b.entries) : a = b := by
  cases a; cases b; simp_all

instance [DecidableEq κ] [DecidableEq ν] : DecidableEq (Table κ ν) := fun a b =>
  if h : a.entries = b.entries then isTrue (ext_entries h)
  else isFalse fun hab => h (hab ▸ rfl)

def empty : Table κ ν := ⟨[], List.nodup_nil⟩

instance : Inhabited (Table κ ν) := ⟨empty⟩

def keys (t : Table κ ν) : List κ := t.entries.map Prod.fst

variable [DecidableEq κ]

def get? (t : Table κ ν) (key : κ) : Option ν :=
  (t.entries.find? fun entry => entry.1 = key).map Prod.snd

def contains (t : Table κ ν) (key : κ) : Bool := t.entries.any fun entry => entry.1 = key

theorem contains_iff {t : Table κ ν} {key : κ} : t.contains key = true ↔ key ∈ t.keys := by
  simp [contains, keys]

theorem get?_isSome {t : Table κ ν} {key : κ} : (t.get? key).isSome = t.contains key := by
  rw [Bool.eq_iff_iff]
  simp [get?, contains, List.find?_isSome]

/-- The entries with another value for a key that they have. -/
def replaced (key : κ) (value : ν) (entries : List (κ × ν)) : List (κ × ν) :=
  entries.map fun entry => if entry.1 = key then (key, value) else entry

theorem map_fst_replaced (key : κ) (value : ν) (entries : List (κ × ν)) :
    (replaced key value entries).map Prod.fst = entries.map Prod.fst := by
  simp only [replaced, List.map_map]
  apply List.map_congr_left
  intro entry _
  by_cases h : entry.1 = key <;> simp [h]

/-- Gives a key its value. A key that has one already keeps its place. -/
def insert (t : Table κ ν) (key : κ) (value : ν) : Table κ ν :=
  if h : t.contains key = true then
    ⟨replaced key value t.entries, by rw [map_fst_replaced]; exact t.distinct⟩
  else ⟨t.entries ++ [(key, value)], nodup_map_concat t.distinct (mt contains_iff.mpr h)⟩

/-- Gives a key its value, unless it has one already. -/
def insertNew (t : Table κ ν) (key : κ) (value : ν) : Table κ ν :=
  if h : t.contains key = true then t
  else ⟨t.entries ++ [(key, value)], nodup_map_concat t.distinct (mt contains_iff.mpr h)⟩

/-- Puts in the entries one after the other; the last value of a key counts. -/
def ofList (entries : List (κ × ν)) : Table κ ν :=
  entries.foldl (fun t entry => t.insert entry.1 entry.2) empty

/-- The keys after an insertion: a new key comes last. -/
theorem keys_insert (t : Table κ ν) (key : κ) (value : ν) :
    (t.insert key value).keys = if key ∈ t.keys then t.keys else t.keys ++ [key] := by
  unfold insert
  by_cases h : t.contains key = true
  · rw [dif_pos h, if_pos (contains_iff.mp h)]
    exact map_fst_replaced key value t.entries
  · rw [dif_neg h, if_neg (mt contains_iff.mpr h)]
    simp [keys]

theorem find?_replaced (key other : κ) (value : ν) (entries : List (κ × ν)) :
    ((replaced key value entries).find? fun entry => entry.1 = other).map Prod.snd =
      if other = key ∧ key ∈ entries.map Prod.fst then some value
      else (entries.find? fun entry => entry.1 = other).map Prod.snd := by
  induction entries with
  | nil => simp [replaced]
  | cons entry entries ih =>
    simp only [replaced, List.map_cons, List.find?_cons] at ih ⊢
    by_cases he : entry.1 = key
    · by_cases ho : other = key
      · subst ho; simp [he]
      · have hk : ¬ key = other := fun h => ho h.symm
        simpa [he, ho, hk] using ih
    · by_cases ho : entry.1 = other
      · have hk : ¬ other = key := fun h => he (ho.trans h)
        simp [ho, hk]
      · have hm : key ∈ entry.1 :: entries.map Prod.fst ↔ key ∈ entries.map Prod.fst := by
          rw [List.mem_cons]
          exact ⟨fun h => h.elim (fun e => absurd e.symm he) id, Or.inr⟩
        simpa only [he, ho, hm, decide_false, if_false] using ih

theorem get?_insert (t : Table κ ν) (key other : κ) (value : ν) :
    (t.insert key value).get? other = if other = key then some value else t.get? other := by
  unfold insert
  by_cases h : t.contains key = true
  · rw [dif_pos h]
    have hk : key ∈ t.entries.map Prod.fst := contains_iff.mp h
    simp only [get?, find?_replaced, hk, and_true]
  · rw [dif_neg h]
    by_cases ho : other = key
    · subst ho
      have hn : t.get? other = none := by
        rw [← Option.not_isSome_iff_eq_none, get?_isSome]
        exact h
      have hf : (t.entries.find? fun entry => entry.1 = other) = none := by
        simpa [get?] using hn
      simp [get?, hf]
    · have hk : ¬ key = other := fun e => ho e.symm
      simp [get?, List.find?_append, ho, hk]

theorem mem_of_get?_eq_some {t : Table κ ν} {key : κ} {value : ν}
    (h : t.get? key = some value) : (key, value) ∈ t.entries := by
  obtain ⟨entry, hfound, rfl⟩ := Option.map_eq_some_iff.mp h
  have hkey : entry.1 = key := by simpa using List.find?_some hfound
  exact hkey ▸ List.mem_of_find?_eq_some hfound

/-- A key that stands among the entries has the value that stands there. -/
theorem get?_eq_some_of_mem {t : Table κ ν} {key : κ} {value : ν} (h : (key, value) ∈ t.entries) :
    t.get? key = some value := by
  obtain ⟨before, after, hsplit⟩ := List.append_of_mem h
  have hd := t.distinct
  rw [hsplit, List.map_append, List.map_cons, List.nodup_append] at hd
  have hfound : (t.entries.find? fun entry => entry.1 = key) = some (key, value) := by
    refine List.find?_eq_some_iff_append.mpr ⟨by simp, before, after, hsplit, fun entry he => ?_⟩
    have hne := hd.2.2 entry.1 (List.mem_map_of_mem he) key List.mem_cons_self
    simpa using hne
  rw [get?, hfound, Option.map_some]

theorem get?_eq_some_iff {t : Table κ ν} {key : κ} {value : ν} :
    t.get? key = some value ↔ (key, value) ∈ t.entries :=
  ⟨mem_of_get?_eq_some, get?_eq_some_of_mem⟩

theorem get?_of_prefix {first last : Table κ ν} (h : first.entries <+: last.entries) {key : κ}
    {value : ν} (hget : first.get? key = some value) : last.get? key = some value := by
  rw [get?_eq_some_iff] at hget ⊢
  exact h.subset hget

theorem mem_entries_insert {t : Table κ ν} {key : κ} {value : ν} {entry : κ × ν}
    (h : entry ∈ (t.insert key value).entries) : entry = (key, value) ∨ entry ∈ t.entries := by
  unfold insert at h
  split at h
  · obtain ⟨old, hold, rfl⟩ := List.mem_map.mp h
    by_cases hkey : old.1 = key
    · exact Or.inl (if_pos hkey)
    · exact Or.inr (by rwa [if_neg hkey])
  · exact (List.mem_append.mp h).elim Or.inr fun hnew => Or.inl (List.mem_singleton.mp hnew)

theorem entries_insert_of_not_contains {t : Table κ ν} {key : κ} (value : ν)
    (h : t.contains key = false) : (t.insert key value).entries = t.entries ++ [(key, value)] := by
  unfold insert
  rw [dif_neg (Bool.eq_false_iff.mp h)]

theorem keys_foldl_insert {entries : List (κ × ν)} {t : Table κ ν} {key : κ}
    (h : key ∈ (entries.foldl (fun t entry => t.insert entry.1 entry.2) t).keys) :
    key ∈ t.keys ∨ key ∈ entries.map Prod.fst := by
  induction entries generalizing t with
  | nil => exact Or.inl h
  | cons entry entries ih =>
    rw [List.map_cons, List.mem_cons]
    rcases ih h with hin | hin
    · rw [keys_insert] at hin
      split at hin
      · exact Or.inl hin
      · rcases List.mem_append.mp hin with hin | hin
        · exact Or.inl hin
        · exact Or.inr (Or.inl (List.mem_singleton.mp hin))
    · exact Or.inr (Or.inr hin)

theorem keys_ofList_subset (entries : List (κ × ν)) :
    (ofList entries).keys ⊆ entries.map Prod.fst := by
  intro key h
  rcases keys_foldl_insert h with hin | hin
  · cases hin
  · exact hin

theorem insertNew_of_contains {t : Table κ ν} {key : κ} (value : ν) (h : t.contains key = true) :
    t.insertNew key value = t := by
  unfold insertNew
  exact dif_pos h

theorem entries_insertNew_of_not_contains {t : Table κ ν} {key : κ} (value : ν)
    (h : t.contains key = false) :
    (t.insertNew key value).entries = t.entries ++ [(key, value)] := by
  unfold insertNew
  rw [dif_neg (Bool.eq_false_iff.mp h)]

/-- A new key is given a value only if it has none. -/
theorem get?_insertNew (t : Table κ ν) (key other : κ) (value : ν) :
    (t.insertNew key value).get? other =
      (t.get? other).or (if key = other then some value else none) := by
  cases hcontains : t.contains key with
  | true =>
    rw [insertNew_of_contains value hcontains]
    by_cases hkey : key = other
    · subst hkey
      rw [← get?_isSome] at hcontains
      obtain ⟨old, hold⟩ := Option.isSome_iff_exists.mp hcontains
      rw [hold, Option.some_or]
    · rw [if_neg hkey, Option.or_none]
  | false =>
    rw [get?, entries_insertNew_of_not_contains value hcontains, List.find?_append]
    by_cases hkey : key = other
    · subst hkey
      have hnone : t.entries.find? (fun entry => entry.1 = key) = none :=
        List.find?_eq_none.mpr (List.any_eq_false.mp hcontains)
      simp [get?, hnone]
    · simp [get?, hkey]

/-- A table is what its entries make. -/
theorem ofList_entries (t : Table κ ν) : ofList t.entries = t := by
  suffices ∀ (before after : List (κ × ν)) (start : Table κ ν), start.entries = before →
      ((before ++ after).map Prod.fst).Nodup →
      (after.foldl (fun t entry => t.insert entry.1 entry.2) start).entries = before ++ after from
    ext_entries (this [] t.entries .empty rfl t.distinct)
  intro before after
  induction after generalizing before with
  | nil =>
    intro start hstart _
    rw [List.append_nil]
    exact hstart
  | cons entry after ih =>
    intro start hstart hnodup
    have hnew : start.contains entry.1 = false := by
      rw [← Bool.not_eq_true, contains_iff, keys, hstart]
      rw [List.map_append, List.map_cons, List.nodup_append] at hnodup
      intro hin
      exact hnodup.2.2 _ hin _ List.mem_cons_self rfl
    have hinsert : (start.insert entry.1 entry.2).entries = before ++ [entry] := by
      rw [entries_insert_of_not_contains entry.2 hnew, hstart]
    rw [List.foldl_cons, List.append_cons]
    exact ih (before ++ [entry]) _ hinsert (by rwa [← List.append_cons])

theorem entries_ofList {entries : List (κ × ν)} (h : (entries.map Prod.fst).Nodup) :
    (ofList entries).entries = entries :=
  congrArg Table.entries (ofList_entries ⟨entries, h⟩)

end Table

end InjectionPlan

import Mathlib.Data.List.Forall2

/-!
# Runs side by side

Two runs over corresponding lists stay in step when each pair of steps does: they fail together, or
they end in states that correspond. What counts as corresponding is a relation of the two states,
and another one of the two errors.
-/

namespace InjectionPlan

section Lists

variable {α β γ : Type} {same : α → β → Prop} {items : List α} {items' : List β}

theorem forall₂_map {f : α → β} (h : ∀ item ∈ items, same item (f item)) :
    List.Forall₂ same items (items.map f) := by
  rw [List.forall₂_map_right_iff, List.forall₂_same]
  exact h

/-- A search that does not tell two lists apart finds elements that correspond. -/
theorem rel_find? {holds : α → Bool} {holds' : β → Bool} (h : List.Forall₂ same items items')
    (hholds : ∀ item item', same item item' → holds' item' = holds item) :
    Option.Rel same (items.find? holds) (items'.find? holds') := by
  induction h with
  | nil => exact .none
  | cons hitem _ ih =>
    rw [List.find?_cons, List.find?_cons, hholds _ _ hitem]
    split
    · exact .some hitem
    · exact ih

theorem rel_findSome? {δ : Type} {related : γ → δ → Prop} {found : α → Option γ}
    {found' : β → Option δ} (h : List.Forall₂ same items items')
    (hfound : ∀ item item', same item item' → Option.Rel related (found item) (found' item')) :
    Option.Rel related (items.findSome? found) (items'.findSome? found') := by
  induction h with
  | nil => exact .none
  | @cons item item' _ _ hitem _ ih =>
    have hrelated := hfound item item' hitem
    rw [List.findSome?_cons, List.findSome?_cons]
    generalize found item = first, found' item' = second at hrelated
    cases hrelated with
    | some hrelated => exact .some hrelated
    | none => exact ih

theorem rel_option_map {δ : Type} {related : γ → δ → Prop} {f : α → γ} {f' : β → δ}
    {item : Option α} {item' : Option β} (h : Option.Rel same item item')
    (hf : ∀ item item', same item item' → related (f item) (f' item')) :
    Option.Rel related (item.map f) (item'.map f') := by
  cases h with
  | some hitem => exact .some (hf _ _ hitem)
  | none => exact .none

theorem rel_zip {δ : Type} {related : γ → δ → Prop} {others : List γ} {others' : List δ}
    (h : List.Forall₂ same items items') (hothers : List.Forall₂ related others others') :
    List.Forall₂ (fun pair pair' => same pair.1 pair'.1 ∧ related pair.2 pair'.2)
      (items.zip others) (items'.zip others') := by
  induction h generalizing others others' with
  | nil => exact .nil
  | cons hitem _ ih =>
    cases hothers with
    | nil => exact .nil
    | cons hother hrest => exact .cons ⟨hitem, hother⟩ (ih hrest)

end Lists

variable {ε ε' σ σ' τ τ' α β : Type}

/-- Both runs fail with errors that correspond, or both succeed with results that correspond. -/
inductive InStep (errors : ε → ε' → Prop) (results : σ → σ' → Prop) :
    Except ε σ → Except ε' σ' → Prop
  | error {error : ε} {error' : ε'} : errors error error' →
      InStep errors results (.error error) (.error error')
  | ok {result : σ} {result' : σ'} : results result result' →
      InStep errors results (.ok result) (.ok result')

namespace InStep

variable {errors : ε → ε' → Prop} {results : σ → σ' → Prop} {states : τ → τ' → Prop}

theorem bind {run : Except ε σ} {run' : Except ε' σ'} {next : σ → Except ε τ}
    {next' : σ' → Except ε' τ'} (h : InStep errors results run run')
    (hnext : ∀ result result', results result result' →
      InStep errors states (next result) (next' result')) :
    InStep errors states (run >>= next) (run' >>= next') := by
  cases h with
  | error herror => exact .error herror
  | ok hresult => exact hnext _ _ hresult

/-- Steps that keep two states corresponding keep two runs in step. -/
theorem foldlM {items : List α} {items' : List β} {same : α → β → Prop}
    {step : σ → α → Except ε σ} {step' : σ' → β → Except ε' σ'}
    (hitems : List.Forall₂ same items items')
    (hstep : ∀ item item' state state', same item item' → results state state' →
      InStep errors results (step state item) (step' state' item'))
    {state : σ} {state' : σ'} (h : results state state') :
    InStep errors results (items.foldlM step state) (items'.foldlM step' state') := by
  induction hitems generalizing state state' with
  | nil => exact .ok h
  | cons hitem _ ih =>
    rw [List.foldlM_cons, List.foldlM_cons]
    exact (hstep _ _ state state' hitem h).bind fun _ _ hnext => ih hnext

theorem mapM {items : List α} {items' : List β} {same : α → β → Prop} {f : α → Except ε σ}
    {f' : β → Except ε' σ'} (hitems : List.Forall₂ same items items')
    (hf : ∀ item item', same item item' → InStep errors results (f item) (f' item')) :
    InStep errors (List.Forall₂ results) (items.mapM f) (items'.mapM f') := by
  induction hitems with
  | nil => exact .ok .nil
  | cons hitem _ ih =>
    rw [List.mapM_cons, List.mapM_cons]
    exact (hf _ _ hitem).bind fun _ _ hresult => ih.bind fun _ _ hrest => .ok (.cons hresult hrest)

end InStep

end InjectionPlan

/-!
# Runs of steps that may fail

A pass goes through a list and does one step for each element; the first step that fails ends it.
What each step keeps is kept by a run that succeeds.
-/

namespace InjectionPlan

variable {ε α β σ τ : Type}

/-- A sequence succeeds when its first part does and its second part does on the result. -/
theorem bind_eq_ok {first : Except ε α} {next : α → Except ε β} {result : β} :
    (first >>= next) = .ok result ↔ ∃ mid, first = .ok mid ∧ next mid = .ok result := by
  cases first with
  | error error => simp [bind, Except.bind]
  | ok mid => simp [bind, Except.bind]

theorem map_eq_ok {run : Except ε α} {view : α → β} {result : β} :
    run.map view = .ok result ↔ ∃ last, run = .ok last ∧ view last = result := by
  cases run with
  | error error => simp [Except.map]
  | ok last => simp [Except.map]

theorem map_eq_error {run : Except ε α} {view : α → β} {error : ε} :
    run.map view = .error error ↔ run = .error error := by
  cases run with
  | error other => simp [Except.map]
  | ok last => simp [Except.map]

theorem mapError_eq_ok {run : Except ε α} {view : ε → τ} {result : α} :
    run.mapError view = .ok result ↔ run = .ok result := by
  cases run with
  | error error =>
    constructor
    · intro h
      cases h
    · intro h
      cases h
  | ok last =>
    constructor
    · intro h
      cases h
      rfl
    · intro h
      cases h
      rfl

/-- What every step keeps, a run keeps. -/
theorem foldlM_keeps (holds : σ → Prop) {step : σ → α → Except ε σ} {items : List α}
    (keeps : ∀ item ∈ items, ∀ state next, holds state → step state item = .ok next → holds next)
    {state last : σ} (h : holds state) (hrun : items.foldlM step state = .ok last) :
    holds last := by
  induction items generalizing state with
  | nil =>
    cases hrun
    exact h
  | cons item items ih =>
    rw [List.foldlM_cons, bind_eq_ok] at hrun
    obtain ⟨next, hstep, hrest⟩ := hrun
    have hnext : holds next := keeps item List.mem_cons_self state next h hstep
    exact ih (fun item hi => keeps item (List.mem_cons_of_mem _ hi)) hnext hrest

/-- A run fails as one of its steps does. -/
theorem foldlM_eq_error {step : σ → α → Except ε σ} {items : List α} {state : σ} {error : ε}
    (hrun : items.foldlM step state = .error error) :
    ∃ item ∈ items, ∃ mid, step mid item = .error error := by
  induction items generalizing state with
  | nil => cases hrun
  | cons item items ih =>
    rw [List.foldlM_cons] at hrun
    cases hstep : step state item with
    | error other =>
      rw [hstep] at hrun
      cases hrun
      exact ⟨item, List.mem_cons_self, state, hstep⟩
    | ok next =>
      rw [hstep] at hrun
      have hrest : items.foldlM step next = .error error := hrun
      obtain ⟨found, hfound, mid, hfails⟩ := ih hrest
      exact ⟨found, List.mem_cons_of_mem _ hfound, mid, hfails⟩

/-- What every step puts at the end of a list, a run puts there in order. -/
theorem foldlM_collects {γ : Type} (holds : σ → Prop) (collected : σ → List γ) (adds : α → List γ)
    {step : σ → α → Except ε σ} {items : List α}
    (collects : ∀ item state next, holds state → step state item = .ok next →
      holds next ∧ collected next = collected state ++ adds item)
    {state last : σ} (h : holds state) (hrun : items.foldlM step state = .ok last) :
    collected last = collected state ++ items.flatMap adds := by
  induction items generalizing state with
  | nil =>
    cases hrun
    simp
  | cons item items ih =>
    rw [List.foldlM_cons, bind_eq_ok] at hrun
    obtain ⟨next, hstep, hrest⟩ := hrun
    obtain ⟨hnext, hcollected⟩ := collects item state next h hstep
    rw [ih hnext hrest, hcollected, List.flatMap_cons, List.append_assoc]

/-- A run ends at the first item that is refused, and else collects what each item adds. -/
theorem foldlM_eq_findSome? {γ : Type} {step : σ → α → Except ε σ} (refusal? : α → Option ε)
    (holds : σ → Prop) (collected : σ → List γ) (adds : α → List γ)
    (refuses : ∀ item state error, holds state → refusal? item = some error →
      step state item = .error error)
    (accepts : ∀ item state, holds state → refusal? item = none → ∃ next,
      step state item = .ok next ∧ holds next ∧ collected next = collected state ++ adds item)
    (items : List α) {state : σ} (h : holds state) :
    (items.foldlM step state).map collected = match items.findSome? refusal? with
      | some error => .error error
      | none => .ok (collected state ++ items.flatMap adds) := by
  induction items generalizing state with
  | nil => simp [pure, Except.pure, Except.map]
  | cons item items ih =>
    rw [List.foldlM_cons, List.findSome?_cons]
    cases hrefusal : refusal? item with
    | some error => rw [refuses item state error h hrefusal]; rfl
    | none =>
      obtain ⟨next, hstep, hnext, hcollected⟩ := accepts item state h hrefusal
      rw [hstep]
      change (items.foldlM step next).map collected = _
      rw [ih hnext, hcollected, List.flatMap_cons, List.append_assoc]

/-- A view of the states that every step goes along with is one that a run goes along with. -/
theorem foldlM_map (view : σ → τ) {step : σ → α → Except ε σ} {viewed : τ → α → Except ε τ}
    (items : List α)
    (follows : ∀ item ∈ items, ∀ state, viewed (view state) item = (step state item).map view)
    (state : σ) : items.foldlM viewed (view state) = (items.foldlM step state).map view := by
  induction items generalizing state with
  | nil => rfl
  | cons item items ih =>
    rw [List.foldlM_cons, List.foldlM_cons, follows item List.mem_cons_self]
    cases step state item with
    | error error => rfl
    | ok next => exact ih (fun item hi => follows item (List.mem_cons_of_mem _ hi)) next

/-- Steps that do the same at every item do the same in a run. -/
theorem foldlM_congr {first second : σ → α → Except ε σ} {items : List α}
    (h : ∀ item ∈ items, ∀ state, first state item = second state item) (state : σ) :
    items.foldlM first state = items.foldlM second state := by
  induction items generalizing state with
  | nil => rfl
  | cons item rest ih =>
    rw [List.foldlM_cons, List.foldlM_cons, h item List.mem_cons_self]
    exact congrArg _ (funext (ih fun other hother => h other (List.mem_cons_of_mem _ hother)))

theorem foldlM_singleton (step : σ → α → Except ε σ) (state : σ) (item : α) :
    [item].foldlM step state = step state item := by
  rw [List.foldlM_cons]
  exact bind_pure _

/-- Steps of which none changes the state make a run that does not change it. -/
theorem foldlM_of_idle {step : σ → α → Except ε σ} {items : List α} {state : σ}
    (idle : ∀ item ∈ items, step state item = .ok state) :
    items.foldlM step state = .ok state := by
  induction items with
  | nil => rfl
  | cons item items ih =>
    rw [List.foldlM_cons, idle item List.mem_cons_self]
    exact ih fun other hother => idle other (List.mem_cons_of_mem _ hother)

/-- Items at which a step does nothing can be left out. -/
theorem foldlM_filter {step : σ → α → Except ε σ} {keep : α → Bool} (items : List α)
    (idle : ∀ item ∈ items, keep item = false → ∀ state, step state item = .ok state) (state : σ) :
    (items.filter keep).foldlM step state = items.foldlM step state := by
  induction items generalizing state with
  | nil => rfl
  | cons item items ih =>
    have hrest := ih fun item hi => idle item (List.mem_cons_of_mem _ hi)
    rw [List.foldlM_cons]
    cases hkeep : keep item with
    | true =>
      rw [List.filter_cons_of_pos hkeep, List.foldlM_cons]
      exact congrArg (step state item >>= ·) (funext hrest)
    | false =>
      rw [List.filter_cons_of_neg (by simp [hkeep]), idle item List.mem_cons_self hkeep, hrest]
      rfl

/-- A run over two lists is a run over the first and then one over the second. -/
theorem foldlM_append_eq_ok {step : σ → α → Except ε σ} {first second : List α}
    {state last : σ} : (first ++ second).foldlM step state = .ok last ↔
      ∃ mid, first.foldlM step state = .ok mid ∧ second.foldlM step mid = .ok last := by
  rw [List.foldlM_append, bind_eq_ok]

/-- A property that a run can be tested for holds of its result. -/
theorem exists_ok_of_any {run : Except ε α} {holds : α → Prop} [DecidablePred holds]
    (h : (run.toOption.any fun result => decide (holds result)) = true) :
    ∃ result, run = .ok result ∧ holds result := by
  cases run with
  | error error => cases h
  | ok result => exact ⟨result, rfl, of_decide_eq_true h⟩

end InjectionPlan

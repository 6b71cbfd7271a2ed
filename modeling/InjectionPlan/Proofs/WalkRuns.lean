import InjectionPlan.Proofs.BaseWalk
import Mathlib.Data.List.Nodup

/-!
# Walks without a depth

The walks are given by rules that know of no depth: a type that the walk has not met is gone into,
and a type that it has met is passed by. A run of the rules also says what it did, one event after
the other, and a run that is stopped still says which registry it leaves.

Every walk has such a run, since each type that is gone into leaves fewer types to go into, and the
run ends as the walk with a depth does. No event of a run comes twice.
-/

namespace InjectionPlan

open Registry (Growth)

/-- How a run ends: in a state, or stopped by an error with the registry as it was then. -/
inductive Ending (σ : Type) where
  | reached (state : σ)
  | stopped (error : ResolveError) (registry : Registry)

namespace Ending

variable {σ τ : Type}

def result : Ending σ → Except ResolveError σ
  | reached state => .ok state
  | stopped error _ => .error error

def registry (view : σ → Registry) : Ending σ → Registry
  | reached state => view state
  | stopped _ registry => registry

def map (change : σ → τ) : Ending σ → Ending τ
  | reached state => .reached (change state)
  | stopped error registry => .stopped error registry

/-- The ending of a step that fails before it changes the registry, or not at all. -/
def ofResult (registry : Registry) : Except ResolveError σ → Ending σ
  | .ok state => .reached state
  | .error error => .stopped error registry

theorem result_eq_ok {ending : Ending σ} {state : σ} :
    ending.result = .ok state ↔ ending = .reached state := by
  cases ending with
  | reached other => simp [result]
  | stopped error registry => simp [result]

@[simp]
theorem result_ofResult (registry : Registry) (result : Except ResolveError σ) :
    (ofResult registry result).result = result := by
  cases result with
  | ok state => rfl
  | error error => rfl

theorem result_map (change : σ → τ) (ending : Ending σ) :
    (ending.map change).result = ending.result >>= fun state => pure (change state) := by
  cases ending with
  | reached state => rfl
  | stopped error registry => rfl

theorem result_reached_bind (state : σ) (next : σ → Except ResolveError τ) :
    (reached state).result >>= next = next state := rfl

theorem registry_map {change : σ → τ} {view : τ → Registry} {seen : σ → Registry}
    (h : ∀ state, view (change state) = seen state) (ending : Ending σ) :
    (ending.map change).registry view = ending.registry seen := by
  cases ending with
  | reached state => exact h state
  | stopped error registry => rfl

end Ending

namespace Walk

variable {oracle : Oracle} {subject : Subject} {walk mid last : Walk} {ty : TypeId}
  {arguments types trace : List TypeId} {ending : Ending Walk}

/-! ## Generic arguments -/

/-- The walk over some arguments, with those that it goes into in order. -/
inductive Gathers (oracle : Oracle) (subject : Subject) :
    Walk → List TypeId → List TypeId → Ending Walk → Prop
  | done {walk : Walk} : Gathers oracle subject walk [] [] (.reached walk)
  | refused {walk : Walk} {argument : TypeId} {rest : List TypeId} {error : ResolveError} :
      walk.meet oracle subject argument = .error error →
      Gathers oracle subject walk (argument :: rest) [] (.stopped error walk.registry)
  | known {walk met : Walk} {argument : TypeId} {rest trace : List TypeId} {ending : Ending Walk} :
      walk.meet oracle subject argument = .ok met → argument ∈ met.expanded →
      Gathers oracle subject met rest trace ending →
      Gathers oracle subject walk (argument :: rest) trace ending
  | stopped {walk met : Walk} {argument : TypeId} {rest inner : List TypeId}
      {error : ResolveError} {registry : Registry} :
      walk.meet oracle subject argument = .ok met → argument ∉ met.expanded →
      Gathers oracle subject { met with expanded := argument :: met.expanded }
        (oracle.arguments argument) inner (.stopped error registry) →
      Gathers oracle subject walk (argument :: rest) (argument :: inner) (.stopped error registry)
  | expanded {walk met mid : Walk} {argument : TypeId} {rest inner outer : List TypeId}
      {ending : Ending Walk} :
      walk.meet oracle subject argument = .ok met → argument ∉ met.expanded →
      Gathers oracle subject { met with expanded := argument :: met.expanded }
        (oracle.arguments argument) inner (.reached mid) →
      Gathers oracle subject mid rest outer ending →
      Gathers oracle subject walk (argument :: rest) (argument :: (inner ++ outer)) ending

/-- One argument of `expand`. -/
def goInto (oracle : Oracle) (subject : Subject) (depth : Nat) (walk : Walk) (argument : TypeId) :
    Except ResolveError Walk := do
  let walk ← walk.meet oracle subject argument
  if argument ∈ walk.expanded then pure walk
  else expand oracle subject depth { walk with expanded := argument :: walk.expanded } argument

theorem expand_succ (oracle : Oracle) (subject : Subject) (depth : Nat) (walk : Walk)
    (ty : TypeId) : expand oracle subject (depth + 1) walk ty =
      (oracle.arguments ty).foldlM (goInto oracle subject depth) walk := rfl

section

variable {depth : Nat} {argument : TypeId}

theorem goInto_refused {error : ResolveError}
    (hmeet : walk.meet oracle subject argument = .error error) :
    goInto oracle subject depth walk argument = .error error := by
  rw [goInto, hmeet]
  rfl

theorem goInto_known (hmeet : walk.meet oracle subject argument = .ok mid)
    (hin : argument ∈ mid.expanded) : goInto oracle subject depth walk argument = .ok mid := by
  rw [goInto, hmeet]
  exact if_pos hin

/-- Different types that were gone into leave a depth for one more. -/
theorem goInto_new (hmeet : walk.meet oracle subject argument = .ok mid)
    (hout : argument ∉ mid.expanded) (hnodup : mid.expanded.Nodup)
    (hlimit : TypeId.count < depth + 1 + mid.expanded.length) :
    ∃ less, goInto oracle subject depth walk argument =
        (oracle.arguments argument).foldlM (goInto oracle subject less)
          { mid with expanded := argument :: mid.expanded } ∧
      TypeId.count < less + 1 + (argument :: mid.expanded).length := by
  have hcount := TypeId.length_le_count (List.nodup_cons.mpr ⟨hout, hnodup⟩)
  rw [List.length_cons] at hcount
  obtain ⟨less, rfl⟩ : ∃ less, depth = less + 1 := ⟨depth - 1, by omega⟩
  refine ⟨less, ?_, by rw [List.length_cons]; omega⟩
  rw [goInto, hmeet]
  exact if_neg hout

/-- Meeting an argument mints nothing but names of types, and goes into none. -/
theorem meet_ok (hmeet : walk.meet oracle subject argument = .ok mid) :
    Growth (oracle.Implied fun _ => True) walk.registry mid.registry ∧
      mid.expanded = walk.expanded ∧ mid.visited = walk.visited := by
  have hmet : Progress oracle subject (fun _ => True) walk mid ∧ mid.expanded = walk.expanded ∧
      Noted oracle subject mid argument := progress_meet trivial hmeet
  exact ⟨hmet.1.registry, hmet.2.1, hmet.1.visited⟩

end

namespace Gathers

/-- What a run goes into, it has behind it in the end. -/
theorem expanded_eq (h : Gathers oracle subject walk arguments trace ending) :
    ∀ last, ending = .reached last →
      last.expanded = trace.reverse ++ walk.expanded ∧ last.visited = walk.visited := by
  induction h with
  | done =>
    rintro last ⟨⟩
    exact ⟨rfl, rfl⟩
  | refused => intro last hlast; cases hlast
  | known hmeet _ _ ih =>
    intro last hlast
    obtain ⟨hexpanded, hvisited⟩ := (meet_ok hmeet).2
    rw [← hexpanded, ← hvisited]
    exact ih last hlast
  | stopped => intro last hlast; cases hlast
  | expanded hmeet _ _ _ ihinner ihouter =>
    intro last hlast
    obtain ⟨hexpanded, hvisited⟩ := (meet_ok hmeet).2
    obtain ⟨hinner, hinner'⟩ := ihinner _ rfl
    obtain ⟨houter, houter'⟩ := ihouter last hlast
    rw [houter, houter', hinner, hinner', hexpanded, hvisited]
    simp

/-- No argument is gone into twice, and none that was gone into before. -/
theorem new (h : Gathers oracle subject walk arguments trace ending) :
    trace.Nodup ∧ ∀ ty ∈ trace, ty ∉ walk.expanded := by
  induction h with
  | done => exact ⟨List.nodup_nil, by simp⟩
  | refused => exact ⟨List.nodup_nil, by simp⟩
  | known hmeet _ _ ih =>
    rw [← (meet_ok hmeet).2.1]
    exact ih
  | stopped hmeet hout _ ih =>
    rw [(meet_ok hmeet).2.1] at hout ih
    obtain ⟨hnodup, hnew⟩ := ih
    refine ⟨List.nodup_cons.mpr ⟨fun hin => hnew _ hin List.mem_cons_self, hnodup⟩, ?_⟩
    exact List.forall_mem_cons.mpr
      ⟨hout, fun ty hty hin => hnew ty hty (List.mem_cons_of_mem _ hin)⟩
  | expanded hmeet hout hrun _ ihinner ihouter =>
    have hmid := (hrun.expanded_eq _ rfl).1
    rw [(meet_ok hmeet).2.1] at hout ihinner hmid
    obtain ⟨hinner, hinnerNew⟩ := ihinner
    obtain ⟨houter, houterNew⟩ := ihouter
    rw [hmid] at houterNew
    refine ⟨List.nodup_cons.mpr ⟨?_, List.nodup_append.mpr ⟨hinner, houter, ?_⟩⟩, ?_⟩
    · intro hin
      rcases List.mem_append.mp hin with hin | hin
      · exact hinnerNew _ hin List.mem_cons_self
      · exact houterNew _ hin (by simp)
    · rintro ty hty other hother rfl
      exact houterNew ty hother (by simp [hty])
    · refine List.forall_mem_cons.mpr ⟨hout, fun ty hty hin => ?_⟩
      rcases List.mem_append.mp hty with hty | hty
      · exact hinnerNew ty hty (List.mem_cons_of_mem _ hin)
      · exact houterNew ty hty (by simp [hin])

theorem nodup_expanded (h : Gathers oracle subject walk arguments trace (.reached last))
    (hwalk : walk.expanded.Nodup) : last.expanded.Nodup := by
  obtain ⟨hnodup, hnew⟩ := h.new
  rw [(h.expanded_eq _ rfl).1]
  refine List.nodup_append.mpr ⟨(List.reverse_perm trace).nodup_iff.mpr hnodup, hwalk, ?_⟩
  rintro ty hty other hother rfl
  exact hnew ty (List.mem_reverse.mp hty) hother

theorem length_expanded (h : Gathers oracle subject walk arguments trace (.reached last)) :
    walk.expanded.length ≤ last.expanded.length := by
  rw [(h.expanded_eq _ rfl).1, List.length_append]
  omega

/-- Nothing is minted but names of types. -/
theorem growth (h : Gathers oracle subject walk arguments trace ending) :
    Growth (oracle.Implied fun _ => True) walk.registry (ending.registry registry) := by
  induction h with
  | done => exact .refl _ _
  | refused => exact .refl _ _
  | known hmeet _ _ ih => exact (meet_ok hmeet).1.trans ih
  | stopped hmeet _ _ ih => exact (meet_ok hmeet).1.trans ih
  | expanded hmeet _ _ _ ihinner ihouter => exact ((meet_ok hmeet).1.trans ihinner).trans ihouter

/-- A depth that is not too small does not change what comes out. -/
theorem result_eq (h : Gathers oracle subject walk arguments trace ending) :
    ∀ {depth : Nat}, walk.expanded.Nodup → TypeId.count < depth + 1 + walk.expanded.length →
      arguments.foldlM (goInto oracle subject depth) walk = ending.result := by
  induction h with
  | done => intros; rfl
  | refused hmeet =>
    intros
    rw [List.foldlM_cons, goInto_refused hmeet]
    rfl
  | known hmeet hin _ ih =>
    intro depth hnodup hlimit
    rw [← (meet_ok hmeet).2.1] at hnodup hlimit
    rw [List.foldlM_cons, goInto_known hmeet hin]
    exact ih hnodup hlimit
  | stopped hmeet hout _ ih =>
    intro depth hnodup hlimit
    rw [← (meet_ok hmeet).2.1] at hnodup hlimit
    obtain ⟨less, hinto, hless⟩ := goInto_new hmeet hout hnodup hlimit
    rw [List.foldlM_cons, hinto, ih (List.nodup_cons.mpr ⟨hout, hnodup⟩) hless]
    rfl
  | expanded hmeet hout hrun _ ihinner ihouter =>
    intro depth hnodup hlimit
    rw [← (meet_ok hmeet).2.1] at hnodup hlimit
    obtain ⟨less, hinto, hless⟩ := goInto_new hmeet hout hnodup hlimit
    have hmarked := List.nodup_cons.mpr ⟨hout, hnodup⟩
    have hlength := hrun.length_expanded
    rw [List.length_cons] at hlength
    rw [List.foldlM_cons, hinto, ihinner hmarked hless]
    exact ihouter (hrun.nodup_expanded hmarked) (by omega)

/-- Every walk over arguments has a run, since each argument that it goes into leaves fewer handles
to go into. -/
theorem exists_run (oracle : Oracle) (subject : Subject) (room : Nat) :
    ∀ (arguments : List TypeId) (walk : Walk), walk.expanded.Nodup →
      TypeId.count ≤ room + walk.expanded.length →
      ∃ trace ending, Gathers oracle subject walk arguments trace ending := by
  induction room using Nat.strongRecOn with
  | ind room ihroom =>
    intro arguments
    induction arguments with
    | nil => exact fun walk _ _ => ⟨[], .reached walk, .done⟩
    | cons argument rest ihrest =>
      intro walk hnodup hroom
      cases hmeet : walk.meet oracle subject argument with
      | error error => exact ⟨[], _, .refused hmeet⟩
      | ok met =>
        rw [← (meet_ok hmeet).2.1] at hnodup hroom
        by_cases hin : argument ∈ met.expanded
        · obtain ⟨trace, ending, hrun⟩ := ihrest met hnodup hroom
          exact ⟨trace, ending, .known hmeet hin hrun⟩
        · have hinto := List.nodup_cons.mpr ⟨hin, hnodup⟩
          have hcount := TypeId.length_le_count hinto
          rw [List.length_cons] at hcount
          obtain ⟨inner, ending, hinner⟩ := ihroom (room - 1) (by omega) (oracle.arguments argument)
            { met with expanded := argument :: met.expanded } hinto
            (by simp only [List.length_cons]; omega)
          cases ending with
          | stopped error registry => exact ⟨_, _, .stopped hmeet hin hinner⟩
          | reached mid =>
            have hlength := hinner.length_expanded
            rw [List.length_cons] at hlength
            obtain ⟨outer, ending, houter⟩ :=
              ihrest mid (hinner.nodup_expanded hinto) (by omega)
            exact ⟨_, ending, .expanded hmeet hin hinner houter⟩

end Gathers

/-- The walk over the arguments of a type ends as its run does. -/
theorem arguments_eq {registry : Registry}
    (h : Gathers oracle subject { registry } (oracle.arguments ty) trace ending) :
    Walk.arguments oracle subject registry ty = ending.result := by
  rw [Walk.arguments, deepest, expand_succ]
  exact h.result_eq List.nodup_nil (by simp)

theorem exists_gathers (oracle : Oracle) (subject : Subject) (registry : Registry) (ty : TypeId) :
    ∃ trace ending, Gathers oracle subject { registry } (oracle.arguments ty) trace ending :=
  Gathers.exists_run oracle subject TypeId.count _ _ List.nodup_nil (by simp)

/-! ## Bases -/

/-- What a walk does: it comes to a type, begins the loop over the arguments of a type that it came
to, or goes into an argument. -/
inductive Event where
  | visited (ty : TypeId)
  | looped (ty : TypeId)
  | expanded (ty : TypeId)

/-- The walk has done that, or will not do it any more. -/
def Event.Done (walk : Walk) : Event → Prop
  | visited ty => ty ∈ walk.visited
  | looped ty => ty ∈ walk.visited
  | expanded ty => ty ∈ walk.expanded

theorem Event.Done.mono {event : Event} (h : event.Done walk)
    (hvisited : walk.visited ⊆ last.visited) (hexpanded : walk.expanded ⊆ last.expanded) :
    event.Done last := by
  cases event with
  | visited ty => exact hvisited h
  | looped ty => exact hvisited h
  | expanded ty => exact hexpanded h

/-- What a walk does when it comes to a type. -/
inductive Arrives (oracle : Oracle) (subject : Subject) (walk : Walk) (ty : TypeId) :
    List Event → Ending Walk → Prop
  | passed : (∀ name, ¬ Notices oracle subject walk ty name) →
      Arrives oracle subject walk ty [.visited ty]
        (.reached { walk with visited := ty :: walk.visited })
  | noticed {name : String} {trace : List TypeId} {ending : Ending Walk} :
      Notices oracle subject walk ty name →
      Gathers oracle subject
        { walk with
          visited := ty :: walk.visited
          implements := appendNew walk.implements (walk.registry.idFor name) }
        (oracle.arguments ty) trace ending →
      Arrives oracle subject walk ty (.visited ty :: .looped ty :: trace.map .expanded) ending

/-- The walk over some types and what they extend, with all that it does in order. -/
inductive Visits (oracle : Oracle) (subject : Subject) :
    Walk → List TypeId → List Event → Ending Walk → Prop
  | done {walk : Walk} : Visits oracle subject walk [] [] (.reached walk)
  | known {walk : Walk} {ty : TypeId} {rest : List TypeId} {trace : List Event}
      {ending : Ending Walk} : ty ∈ walk.visited →
      Visits oracle subject walk rest trace ending →
      Visits oracle subject walk (ty :: rest) trace ending
  | halted {walk : Walk} {ty : TypeId} {rest : List TypeId} {trace : List Event}
      {error : ResolveError} {registry : Registry} : ty ∉ walk.visited →
      Arrives oracle subject walk ty trace (.stopped error registry) →
      Visits oracle subject walk (ty :: rest) trace (.stopped error registry)
  | stopped {walk mid : Walk} {ty : TypeId} {rest : List TypeId} {first second : List Event}
      {error : ResolveError} {registry : Registry} : ty ∉ walk.visited →
      Arrives oracle subject walk ty first (.reached mid) →
      Visits oracle subject mid (oracle.bases ty) second (.stopped error registry) →
      Visits oracle subject walk (ty :: rest) (first ++ second) (.stopped error registry)
  | visited {walk mid next : Walk} {ty : TypeId} {rest : List TypeId}
      {first second third : List Event} {ending : Ending Walk} : ty ∉ walk.visited →
      Arrives oracle subject walk ty first (.reached mid) →
      Visits oracle subject mid (oracle.bases ty) second (.reached next) →
      Visits oracle subject next rest third ending →
      Visits oracle subject walk (ty :: rest) (first ++ second ++ third) ending

/-- No type was visited or expanded twice. -/
structure Distinct (walk : Walk) : Prop where
  visited : walk.visited.Nodup
  expanded : walk.expanded.Nodup

/-- What a part of a walk does is new and different, and a part that comes to its end has it done:
afterwards the walk is as distinct as before and has no less behind it. -/
structure Fresh (walk : Walk) (trace : List Event) (ending : Ending Walk) : Prop where
  nodup : trace.Nodup
  new : ∀ event ∈ trace, ¬ event.Done walk
  done : ∀ last, ending = .reached last → ∀ event ∈ trace, event.Done last
  kept : ∀ last, ending = .reached last → ∀ event : Event, event.Done walk → event.Done last
  distinct : ∀ last, ending = .reached last → walk.Distinct → last.Distinct

namespace Fresh

variable {first second : List Event}

theorem nil (walk : Walk) : Fresh walk [] (.reached walk) := by
  refine ⟨List.nodup_nil, by simp, by simp, ?_, ?_⟩
  · rintro last ⟨⟩ event h
    exact h
  · rintro last ⟨⟩ h
    exact h

theorem append (hfirst : Fresh walk first (.reached mid)) (hsecond : Fresh mid second ending) :
    Fresh walk (first ++ second) ending where
  nodup := by
    refine List.nodup_append.mpr ⟨hfirst.nodup, hsecond.nodup, ?_⟩
    rintro event hevent other hother rfl
    exact hsecond.new event hother (hfirst.done mid rfl event hevent)
  new event hevent := by
    rcases List.mem_append.mp hevent with h | h
    · exact hfirst.new event h
    · exact fun hdone => hsecond.new event h (hfirst.kept mid rfl event hdone)
  done last hlast event hevent := by
    rcases List.mem_append.mp hevent with h | h
    · exact hsecond.kept last hlast event (hfirst.done mid rfl event h)
    · exact hsecond.done last hlast event h
  kept last hlast event hdone := hsecond.kept last hlast event (hfirst.kept mid rfl event hdone)
  distinct last hlast hwalk := hsecond.distinct last hlast (hfirst.distinct mid rfl hwalk)

theorem length_visited (h : Fresh walk first (.reached last)) (hwalk : walk.visited.Nodup) :
    walk.visited.length ≤ last.visited.length :=
  List.Nodup.length_le_of_subset hwalk fun ty hty => h.kept last rfl (.visited ty) hty

/-- Coming to a new type puts it among the visited ones. -/
theorem mark {marked : Walk} {events : List Event} (hout : ty ∉ walk.visited)
    (hvisited : marked.visited = ty :: walk.visited) (hexpanded : marked.expanded = walk.expanded)
    (hnodup : events.Nodup)
    (hevents : ∀ event ∈ events, event = .visited ty ∨ event = .looped ty) :
    Fresh walk events (.reached marked) where
  nodup := hnodup
  new event hevent := by
    rcases hevents event hevent with rfl | rfl
    · exact hout
    · exact hout
  done := by
    rintro last ⟨⟩ event hevent
    have hin : ty ∈ marked.visited := hvisited ▸ List.mem_cons_self
    rcases hevents event hevent with rfl | rfl
    · exact hin
    · exact hin
  kept := by
    rintro last ⟨⟩ event hdone
    refine hdone.mono ?_ ?_
    · rw [hvisited]
      exact List.subset_cons_self ty _
    · rw [hexpanded]
      exact List.Subset.refl _
  distinct := by
    rintro last ⟨⟩ hwalk
    exact ⟨hvisited ▸ List.nodup_cons.mpr ⟨hout, hwalk.visited⟩, hexpanded ▸ hwalk.expanded⟩

end Fresh

/-- A walk over arguments does nothing twice. -/
theorem Gathers.fresh (h : Gathers oracle subject walk arguments trace ending) :
    Fresh walk (trace.map .expanded) ending where
  nodup := h.new.1.map fun _ _ he => Event.expanded.inj he
  new event hevent := by
    obtain ⟨argument, hin, rfl⟩ := List.mem_map.mp hevent
    exact h.new.2 argument hin
  done last hlast event hevent := by
    obtain ⟨argument, hin, rfl⟩ := List.mem_map.mp hevent
    rw [Event.Done, (h.expanded_eq last hlast).1]
    exact List.mem_append_left _ (List.mem_reverse.mpr hin)
  kept last hlast event hdone := by
    obtain ⟨hexpanded, hvisited⟩ := h.expanded_eq last hlast
    refine hdone.mono ?_ ?_
    · rw [hvisited]
      exact List.Subset.refl _
    · rw [hexpanded]
      exact List.subset_append_right _ _
  distinct := by
    rintro last rfl hwalk
    exact ⟨(h.expanded_eq last rfl).2 ▸ hwalk.visited, h.nodup_expanded hwalk.expanded⟩

namespace Arrives

variable {events : List Event}

/-- Coming to a type that was not visited does nothing twice. -/
theorem fresh (h : Arrives oracle subject walk ty events ending) (hout : ty ∉ walk.visited) :
    Fresh walk events ending := by
  cases h with
  | passed => exact .mark hout rfl rfl (by simp) (by simp)
  | noticed _ hrun =>
    show Fresh walk ([.visited ty, .looped ty] ++ _) ending
    refine .append ?_ hrun.fresh
    exact .mark hout rfl rfl (by simp) (by simp)

theorem visited_eq (h : Arrives oracle subject walk ty events (.reached last)) :
    last.visited = ty :: walk.visited := by
  cases h with
  | passed => rfl
  | noticed _ hrun => exact (hrun.expanded_eq last rfl).2

theorem growth (h : Arrives oracle subject walk ty events ending) :
    Growth (oracle.Implied fun _ => True) walk.registry (ending.registry registry) := by
  cases h with
  | passed => exact .refl _ _
  | noticed _ hrun => exact hrun.growth

theorem result_eq (h : Arrives oracle subject walk ty events ending)
    (hwalk : walk.expanded.Nodup) : arrive oracle subject walk ty = ending.result := by
  rw [arrive, enter]
  cases h with
  | passed hnone =>
    split
    · rfl
    · next name hname =>
      have hidle := hnone name
      rw [Notices, not_and] at hidle
      have hidle := hidle hname
      dsimp only
      rw [if_neg (by simpa using hidle)]
      rfl
  | noticed hnoticed hrun =>
    obtain ⟨hname, hcontains, hother⟩ := hnoticed
    rw [hname]
    dsimp only
    rw [if_pos (by simp [hcontains, hother]), deepest, expand_succ]
    exact hrun.result_eq hwalk (by omega)

theorem exists_run (oracle : Oracle) (subject : Subject) (walk : Walk) (ty : TypeId)
    (hwalk : walk.expanded.Nodup) :
    ∃ events ending, Arrives oracle subject walk ty events ending := by
  by_cases hnoticed : ∃ name, Notices oracle subject walk ty name
  · obtain ⟨name, hname⟩ := hnoticed
    obtain ⟨trace, ending, hrun⟩ := Gathers.exists_run oracle subject TypeId.count
      (oracle.arguments ty)
      { walk with
        visited := ty :: walk.visited
        implements := appendNew walk.implements (walk.registry.idFor name) } hwalk (by omega)
    exact ⟨_, ending, .noticed hname hrun⟩
  · exact ⟨_, _, .passed fun name hname => hnoticed ⟨name, hname⟩⟩

end Arrives

section

variable {depth : Nat}

theorem visit_known (hin : ty ∈ walk.visited) : visit oracle subject depth walk ty = .ok walk := by
  cases depth with
  | zero => rfl
  | succ depth => rw [visit, if_pos hin]

/-- Different types that were visited leave a depth for one more. -/
theorem visit_new (hout : ty ∉ walk.visited) (hnodup : walk.visited.Nodup)
    (hlimit : TypeId.count < depth + walk.visited.length) :
    ∃ less, visit oracle subject depth walk ty = (do
        let walk ← arrive oracle subject walk ty
        (oracle.bases ty).foldlM (visit oracle subject less) walk) ∧
      TypeId.count < less + (ty :: walk.visited).length := by
  have hcount := TypeId.length_le_count (List.nodup_cons.mpr ⟨hout, hnodup⟩)
  rw [List.length_cons] at hcount
  obtain ⟨less, rfl⟩ : ∃ less, depth = less + 1 := ⟨depth - 1, by omega⟩
  refine ⟨less, ?_, by rw [List.length_cons]; omega⟩
  rw [visit, if_neg hout]
  rfl

end

namespace Visits

variable {events : List Event}

theorem fresh (h : Visits oracle subject walk types events ending) : Fresh walk events ending := by
  induction h with
  | done => exact .nil _
  | known _ _ ih => exact ih
  | halted hout hstep => exact hstep.fresh hout
  | stopped hout hstep _ ih => exact (hstep.fresh hout).append ih
  | visited hout hstep _ _ ihbases ihrest => exact ((hstep.fresh hout).append ihbases).append ihrest

/-- Nothing is minted but names of types. -/
theorem growth (h : Visits oracle subject walk types events ending) :
    Growth (oracle.Implied fun _ => True) walk.registry (ending.registry registry) := by
  induction h with
  | done => exact .refl _ _
  | known _ _ ih => exact ih
  | halted _ hstep => exact hstep.growth
  | stopped _ hstep _ ih => exact hstep.growth.trans ih
  | visited _ hstep _ _ ihbases ihrest => exact (hstep.growth.trans ihbases).trans ihrest

/-- A depth that is not too small does not change what comes out. -/
theorem result_eq (h : Visits oracle subject walk types events ending) :
    ∀ {depth : Nat}, walk.Distinct → TypeId.count < depth + walk.visited.length →
      types.foldlM (visit oracle subject depth) walk = ending.result := by
  induction h with
  | done => intros; rfl
  | known hin _ ih =>
    intro depth hwalk hlimit
    rw [List.foldlM_cons, visit_known hin]
    exact ih hwalk hlimit
  | halted hout hstep =>
    intro depth hwalk hlimit
    obtain ⟨less, hvisit, -⟩ := visit_new hout hwalk.visited hlimit
    rw [List.foldlM_cons, hvisit, hstep.result_eq hwalk.expanded]
    rfl
  | stopped hout hstep _ ih =>
    intro depth hwalk hlimit
    obtain ⟨less, hvisit, hless⟩ := visit_new hout hwalk.visited hlimit
    have hmid := (hstep.fresh hout).distinct _ rfl hwalk
    rw [← hstep.visited_eq] at hless
    rw [List.foldlM_cons, hvisit, hstep.result_eq hwalk.expanded, Ending.result_reached_bind,
      ih hmid hless]
    rfl
  | visited hout hstep hbases _ ihbases ihrest =>
    intro depth hwalk hlimit
    obtain ⟨less, hvisit, hless⟩ := visit_new hout hwalk.visited hlimit
    have hmid := (hstep.fresh hout).distinct _ rfl hwalk
    rw [← hstep.visited_eq] at hless
    have hlength := hbases.fresh.length_visited hmid.visited
    rw [hstep.visited_eq, List.length_cons] at hlength
    rw [List.foldlM_cons, hvisit, hstep.result_eq hwalk.expanded, Ending.result_reached_bind,
      ihbases hmid hless, Ending.result_reached_bind]
    exact ihrest (hbases.fresh.distinct _ rfl hmid) (by omega)

/-- Every walk has a run, since each type that it comes to leaves fewer handles to come to. -/
theorem exists_run (oracle : Oracle) (subject : Subject) (room : Nat) :
    ∀ (types : List TypeId) (walk : Walk), walk.Distinct →
      TypeId.count ≤ room + walk.visited.length →
      ∃ events ending, Visits oracle subject walk types events ending := by
  induction room using Nat.strongRecOn with
  | ind room ihroom =>
    intro types
    induction types with
    | nil => exact fun walk _ _ => ⟨[], .reached walk, .done⟩
    | cons ty rest ihrest =>
      intro walk hwalk hroom
      by_cases hin : ty ∈ walk.visited
      · obtain ⟨events, ending, hrun⟩ := ihrest walk hwalk hroom
        exact ⟨events, ending, .known hin hrun⟩
      · have hcount := TypeId.length_le_count (List.nodup_cons.mpr ⟨hin, hwalk.visited⟩)
        rw [List.length_cons] at hcount
        obtain ⟨first, ending, hstep⟩ :=
          Arrives.exists_run oracle subject walk ty hwalk.expanded
        cases ending with
        | stopped error registry => exact ⟨first, _, .halted hin hstep⟩
        | reached mid =>
          have hmid := (hstep.fresh hin).distinct _ rfl hwalk
          obtain ⟨second, ending, hbases⟩ := ihroom (room - 1) (by omega) (oracle.bases ty) mid hmid
            (by rw [hstep.visited_eq, List.length_cons]; omega)
          cases ending with
          | stopped error registry => exact ⟨_, _, .stopped hin hstep hbases⟩
          | reached next =>
            have hlength := hbases.fresh.length_visited hmid.visited
            rw [hstep.visited_eq, List.length_cons] at hlength
            obtain ⟨third, ending, hrest⟩ :=
              ihrest next (hbases.fresh.distinct _ rfl hmid) (by omega)
            exact ⟨_, ending, .visited hin hstep hbases hrest⟩

end Visits

/-- Walks one after the other, which begin with nothing visited and nothing expanded, end as their
run does. -/
theorem foldlM_follow_eq {events : List Event} (h : Visits oracle subject walk types events ending)
    (hvisited : walk.visited = []) (hexpanded : walk.expanded = []) :
    types.foldlM (follow oracle subject) walk = ending.result :=
  h.result_eq ⟨by simp [hvisited], by simp [hexpanded]⟩ (by simp [deepest, hvisited])

theorem follow_eq {events : List Event} (h : Visits oracle subject walk [ty] events ending)
    (hvisited : walk.visited = []) (hexpanded : walk.expanded = []) :
    follow oracle subject walk ty = ending.result := by
  rw [← foldlM_follow_eq h hvisited hexpanded, foldlM_singleton]

theorem exists_visits (oracle : Oracle) (subject : Subject) (walk : Walk) (types : List TypeId)
    (hvisited : walk.visited = []) (hexpanded : walk.expanded = []) :
    ∃ events ending, Visits oracle subject walk types events ending :=
  Visits.exists_run oracle subject TypeId.count types walk
    ⟨by simp [hvisited], by simp [hexpanded]⟩ (by omega)

end Walk

end InjectionPlan

import InjectionPlan.Proofs.ArgumentWalk

/-!
# Bases are followed in one pass

A walk from a type on comes to each type that it extends exactly once, in the order of the lineage
of the type. So the whole walk is a run of one step, `arrive`, over the lineage, and what the walk
finds is said in terms of the state in which it comes to each type.
-/

namespace InjectionPlan.Walk

open Registry (Growth)

variable {oracle : Oracle} {subject : Subject} {walk mid last : Walk} {ty : TypeId}

/-- The name of the type has a token, and that is not the token of the subject. -/
def Notices (oracle : Oracle) (subject : Subject) (walk : Walk) (ty : TypeId) (name : String) :
    Prop :=
  oracle.named? ty = some name ∧ walk.registry.contains name = true ∧
    walk.registry.idFor name ≠ subject.id

/-- A walk comes to a type. -/
def arrive (oracle : Oracle) (subject : Subject) (walk : Walk) (ty : TypeId) :
    Except ResolveError Walk :=
  enter oracle subject { walk with visited := ty :: walk.visited } ty

/-- Coming to a type of which the name has a token adds the token and everything nested in the
type; coming to another type does nothing. -/
theorem arrive_ok (hs : Settled oracle subject walk)
    (hrun : arrive oracle subject walk ty = .ok last) :
    (∃ name, Notices oracle subject walk ty name ∧
      Expands oracle subject (oracle.Nests ty) (oracle.arguments ty)
        { walk with
          visited := ty :: walk.visited
          implements := appendNew walk.implements (walk.registry.idFor name) } last) ∨
    ((∀ name, ¬ Notices oracle subject walk ty name) ∧
      last = { walk with visited := ty :: walk.visited }) := by
  rw [arrive, enter] at hrun
  split at hrun
  · next hnone =>
    cases hrun
    refine Or.inr ⟨fun name h => ?_, rfl⟩
    cases hnone.symm.trans h.1
  · next name hname =>
    simp only [Bool.and_eq_true, decide_eq_true_eq] at hrun
    split at hrun
    · next h =>
      refine Or.inl ⟨name, ⟨hname, h.1, h.2⟩, ?_⟩
      refine expands_expand (fun ty argument hn ha => .tail hn ha) (fun argument ha => .single ha)
        hs.nodup ?_ hrun
      simp only [deepest]
      omega
    · next h =>
      cases hrun
      refine Or.inr ⟨fun other hother => h ?_, rfl⟩
      cases hname.symm.trans hother.1
      exact hother.2

theorem settled_arrive (hs : Settled oracle subject walk)
    (hrun : arrive oracle subject walk ty = .ok last) : Settled oracle subject last := by
  rcases arrive_ok hs hrun with ⟨name, -, h⟩ | ⟨-, rfl⟩
  · exact h.settled ⟨hs.nodup, hs.noted⟩
  · exact ⟨hs.nodup, hs.noted⟩

theorem visited_arrive (hs : Settled oracle subject walk)
    (hrun : arrive oracle subject walk ty = .ok last) : last.visited = ty :: walk.visited := by
  rcases arrive_ok hs hrun with ⟨name, -, h⟩ | ⟨-, rfl⟩
  · exact h.progress.visited
  · rfl

/-- What a walk adds comes after what the subject implements already. -/
theorem prefix_implements_foldlM_arrive {types : List TypeId} (hs : Settled oracle subject walk)
    (hrun : types.foldlM (arrive oracle subject) walk = .ok last) :
    walk.implements <+: last.implements := by
  refine (foldlM_keeps (fun state : Walk => Settled oracle subject state ∧
    walk.implements <+: state.implements) ?_ ⟨hs, List.prefix_rfl⟩ hrun).2
  intro ty _ state next ⟨hstate, hprefix⟩ hstep
  refine ⟨settled_arrive hstate hstep, hprefix.trans ?_⟩
  rcases arrive_ok hstate hstep with ⟨name, -, h⟩ | ⟨-, rfl⟩
  · rw [h.progress.implements]
    exact prefix_appendNew _ _
  · exact List.prefix_rfl

/-- A run over some types has come to all of them. -/
theorem visited_foldlM_arrive {types : List TypeId} (hs : Settled oracle subject walk)
    (hrun : types.foldlM (arrive oracle subject) walk = .ok last) :
    Settled oracle subject last ∧ last.visited = types.reverse ++ walk.visited := by
  induction types generalizing walk with
  | nil =>
    cases hrun
    exact ⟨hs, rfl⟩
  | cons ty types ih =>
    rw [List.foldlM_cons, bind_eq_ok] at hrun
    obtain ⟨mid, hstep, hrest⟩ := hrun
    obtain ⟨hlast, hvisited⟩ := ih (settled_arrive hs hstep) hrest
    refine ⟨hlast, ?_⟩
    rw [hvisited, visited_arrive hs hstep]
    simp

/-- Visits one after the other, each of which is a run over the types it adds. -/
theorem foldlM_visit_eq {depth : Nat}
    (visits : ∀ {walk : Walk} (ty : TypeId) {added : List TypeId}, Settled oracle subject walk →
      oracle.trail depth walk.visited ty = added ++ walk.visited →
      visit oracle subject depth walk ty = added.reverse.foldlM (arrive oracle subject) walk)
    (types : List TypeId) {added : List TypeId} (hs : Settled oracle subject walk)
    (htrail : types.foldl (oracle.trail depth) walk.visited = added ++ walk.visited) :
    types.foldlM (visit oracle subject depth) walk =
      added.reverse.foldlM (arrive oracle subject) walk := by
  induction types generalizing walk added with
  | nil =>
    have hnil : added = [] := by simpa using htrail
    rw [hnil]
    rfl
  | cons ty types ih =>
    obtain ⟨first, hfirst⟩ := oracle.trail_suffix depth walk.visited ty
    have hvisit := visits ty hs hfirst.symm
    rw [List.foldl_cons, ← hfirst] at htrail
    obtain ⟨second, hsecond⟩ :=
      oracle.foldl_trail_suffix depth types (first ++ walk.visited)
    have hadded : added = second ++ first := by
      rw [← hsecond, ← List.append_assoc] at htrail
      exact (List.append_cancel_right htrail).symm
    rw [List.foldlM_cons, hvisit, hadded, List.reverse_append, List.foldlM_append]
    cases hrun : first.reverse.foldlM (arrive oracle subject) walk with
    | error error => rfl
    | ok next =>
      obtain ⟨hnext, hvisited⟩ := visited_foldlM_arrive hs hrun
      rw [List.reverse_reverse] at hvisited
      exact ih hnext (by rw [hvisited, hsecond])

/-- A visit is a run over the types that the search adds. -/
theorem visit_eq_foldlM :
    ∀ {depth : Nat} {walk : Walk} (ty : TypeId) {added : List TypeId},
      Settled oracle subject walk →
      oracle.trail depth walk.visited ty = added ++ walk.visited →
      visit oracle subject depth walk ty = added.reverse.foldlM (arrive oracle subject) walk := by
  intro depth
  induction depth with
  | zero =>
    intro walk ty added _ htrail
    have hnil : added = [] := by simpa [Oracle.trail] using htrail
    rw [hnil]
    rfl
  | succ depth ih =>
    intro walk ty added hs htrail
    rw [Oracle.trail] at htrail
    rw [visit]
    split at htrail
    · next hin =>
      have hnil : added = [] := by simpa using htrail
      rw [if_pos hin, hnil]
      rfl
    · next hout =>
      obtain ⟨rest, hrest⟩ :=
        oracle.foldl_trail_suffix depth (oracle.bases ty) (ty :: walk.visited)
      have hadded : added = rest ++ [ty] := by
        rw [← hrest] at htrail
        have h : (rest ++ [ty]) ++ walk.visited = added ++ walk.visited := by simpa using htrail
        exact (List.append_cancel_right h).symm
      rw [if_neg hout, hadded, List.reverse_append, List.reverse_singleton, List.singleton_append,
        List.foldlM_cons]
      change arrive oracle subject walk ty >>= _ = _
      cases hrun : arrive oracle subject walk ty with
      | error error => rfl
      | ok next =>
        have hvisited := visited_arrive hs hrun
        exact foldlM_visit_eq (fun ty _ hs htrail => ih ty hs htrail) (oracle.bases ty)
          (settled_arrive hs hrun) (by rw [hvisited, hrest])

/-- A walk from a type on is a run over its lineage. -/
theorem follow_eq_foldlM (hs : Settled oracle subject walk) (hvisited : walk.visited = []) :
    follow oracle subject walk ty =
      (oracle.lineage ty).foldlM (arrive oracle subject) walk := by
  rw [follow, Oracle.lineage]
  exact visit_eq_foldlM ty hs (by rw [hvisited, List.append_nil]; rfl)

end InjectionPlan.Walk

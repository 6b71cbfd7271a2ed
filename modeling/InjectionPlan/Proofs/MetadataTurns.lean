import InjectionPlan.Proofs.PlanReferences

/-!
# The turn of a token

Every token that is planned had one turn in the pass of metadata, and later turns leave what it got
alone. `ComesTo` names the state in which the turn began: what the walk of the token finds depends
on the registry of that state, and that registry has a token only if it was minted before.
-/

namespace InjectionPlan

namespace Context

variable {context state next last : Context} {minted : Minted} {id : TokenId}

theorem get?_describe_of_isEmpty {metadata : Metadata} (h : metadata.isEmpty = true) :
    (context.describe id metadata).metadata.get? id = context.metadata.get? id := by
  rw [describe, if_pos h]

theorem get?_describe_of_not_isEmpty {metadata : Metadata} (h : metadata.isEmpty = false) :
    (context.describe id metadata).metadata.get? id = some metadata := by
  rw [describe, if_neg (by simp [h]), Table.get?_insert, if_pos rfl]

theorem get?_describe_of_ne {other : TokenId} {metadata : Metadata} (h : other ≠ id) :
    (context.describe id metadata).metadata.get? other = context.metadata.get? other := by
  unfold describe
  split
  · rfl
  · rw [Table.get?_insert, if_neg h]

/-- A turn gives metadata to its own token only. -/
theorem get?_describeToken (hrun : context.describeToken minted = .ok next)
    (h : id ≠ context.registry.idFor minted.name) :
    next.metadata.get? id = context.metadata.get? id := by
  rcases describeToken_ok hrun with ⟨-, rfl⟩ | ⟨-, walk, -, rfl⟩
  · rfl
  · exact get?_describe_of_ne h

/-- Before its turn a token has what the factories gave it. -/
theorem get?_turns_of_later {start : Context} (h : context.Linked)
    (hstart : context.turns 0 = .ok start) {position later : Nat}
    (hrun : context.turns position = .ok state) (hle : position ≤ later)
    (hlater : context.turns later = .ok last)
    (hminted : last.registry.minted[later]? = some minted) :
    state.metadata.get? (context.registry.idFor minted.name) =
      start.metadata.get? (context.registry.idFor minted.name) := by
  induction position generalizing state with
  | zero =>
    cases hstart.symm.trans hrun
    rfl
  | succ position ih =>
    obtain ⟨before, hbefore, ⟨-, rfl⟩ | ⟨other, hother, hstep⟩⟩ := turns_succ.mp hrun
    · exact ih hbefore (by omega)
    · rw [← ih hbefore (by omega)]
      refine get?_describeToken hstep fun he => ?_
      rw [← (turns_keeps h hbefore).2.registry.idFor, Registry.idFor_inj] at he
      have hsame := (turns_mono h (by omega) hbefore hlater).registry.getElem? hother
      have hposition := Registry.position_eq hsame hminted he.symm
      omega

/-- A token that is there in the end had its turn, and keeps what it got then. -/
theorem exists_turn (h : context.Linked) {count position : Nat}
    (hrun : context.turns count = .ok last) (hlt : position < count)
    (hminted : last.registry.minted[position]? = some minted) :
    ∃ state next, context.turns position = .ok state ∧
      state.registry.minted[position]? = some minted ∧ state.describeToken minted = .ok next ∧
      last.metadata.get? (state.registry.idFor minted.name) =
        next.metadata.get? (state.registry.idFor minted.name) := by
  induction count generalizing last with
  | zero => omega
  | succ count ih =>
    obtain ⟨before, hbefore, ⟨hsize, rfl⟩ | ⟨other, hother, hstep⟩⟩ := turns_succ.mp hrun
    · -- an idle turn comes after the last token
      have hin : position < last.registry.minted.length :=
        (List.getElem?_eq_some_iff.mp hminted).1
      exact ih hbefore (Nat.lt_of_lt_of_le hin hsize) hminted
    · have hgrowth := (turns_mono h (Nat.le_succ count) hbefore hrun).registry
      have hbound : count < before.registry.minted.length :=
        (List.getElem?_eq_some_iff.mp hother).1
      have hold : before.registry.minted[position]? = some minted := by
        have hin : position < before.registry.minted.length := by omega
        rw [List.getElem?_eq_getElem hin, ← hminted]
        exact (hgrowth.getElem? (List.getElem?_eq_getElem hin)).symm
      rcases Nat.lt_succ_iff_lt_or_eq.mp hlt with hearlier | rfl
      · obtain ⟨state, next, hstate, hposition, hturn, hkept⟩ := ih hbefore hearlier hold
        have hne : state.registry.idFor minted.name ≠ before.registry.idFor other.name := by
          have hkeeps := (turns_mono h (Nat.le_of_lt hearlier) hstate hbefore).registry
          rw [← hkeeps.idFor, ne_eq, Registry.idFor_inj]
          intro hname
          exact Nat.ne_of_lt hearlier (Registry.position_eq hold hother hname)
        exact ⟨state, next, hstate, hposition, hturn,
          (get?_describeToken hstep hne).trans hkept⟩
      · cases hold.symm.trans hother
        exact ⟨before, last, hbefore, hold, hstep, rfl⟩

end Context

/-- The pass of metadata comes to the token of a name in a state. -/
def ComesTo (oracle : Oracle) (settings : Settings) (name : String) (state : Context) : Prop :=
  ∃ before position minted,
    Resolution.reach Pass.beforeMetadata (.start oracle settings) = .ok before ∧
    before.turns position = .ok state ∧ state.registry.minted[position]? = some minted ∧
    minted.name = name

/-- A token has one turn. -/
theorem ComesTo.unique {oracle : Oracle} {settings : Settings} {name : String}
    {state other : Context} (h : ComesTo oracle settings name state)
    (h' : ComesTo oracle settings name other) : state = other := by
  obtain ⟨before, i, a, hbefore, hstate, ha, hname⟩ := h
  obtain ⟨before', j, b, hbefore', hother, hb, hname'⟩ := h'
  cases hbefore.symm.trans hbefore'
  have hlinked := (Resolution.keeps_beforeMetadata hbefore).1
  have hij : i = j := by
    rcases Nat.le_total i j with hle | hle
    · have hgrowth := (Context.turns_mono hlinked hle hstate hother).registry
      exact Registry.position_eq (hgrowth.getElem? ha) hb (hname.trans hname'.symm)
    · have hgrowth := (Context.turns_mono hlinked hle hother hstate).registry
      exact Registry.position_eq ha (hgrowth.getElem? hb) (hname.trans hname'.symm)
  subst hij
  exact Except.ok.inj (hstate.symm.trans hother)

namespace Course

variable {oracle : Oracle} {settings : Settings} {plan : Plan} {minted : Minted}

/-- A token had its turn in a state and was left as it is planned in the next one. -/
structure Turn (course : Course oracle settings plan) (minted : Minted) (state next : Context) :
    Prop where
  comes : ComesTo oracle settings minted.name state
  mem : minted ∈ state.registry.minted
  linked : state.Linked
  codeBase : state.oracle = oracle
  suffix : state.registry.suffix = settings.tokenSuffix
  run : state.describeToken minted = .ok next
  planned : (course.described.planned minted).metadata =
    (next.metadata.get? (state.registry.idFor minted.name)).getD {}
  untouched : ∀ start, course.before.turns 0 = .ok start →
    state.metadata.get? (state.registry.idFor minted.name) =
      start.metadata.get? (state.registry.idFor minted.name)

theorem exists_turn (course : Course oracle settings plan)
    (hminted : minted ∈ course.described.registry.minted) :
    ∃ state next, course.Turn minted state next := by
  obtain ⟨position, hposition⟩ := List.getElem?_of_mem hminted
  obtain ⟨hbefore, hstart⟩ := Resolution.keeps_beforeMetadata course.reaches
  obtain ⟨count, hcount, hsize⟩ := Context.collectMetadata_ok hbefore course.describes
  have hlt : position < count :=
    Nat.lt_of_lt_of_le (List.getElem?_eq_some_iff.mp hposition).1 hsize
  obtain ⟨state, next, hstate, hturn, hstep, hkept⟩ :=
    Context.exists_turn hbefore hcount hlt hposition
  obtain ⟨hlinked, hadvances⟩ := Context.turns_keeps hbefore hstate
  have hlater := Context.turns_mono hbefore (Nat.le_of_lt hlt) hstate hcount
  refine ⟨state, next, ⟨course.before, position, minted, course.reaches, hstate, hturn, rfl⟩,
    List.mem_of_getElem? hturn, hlinked, hadvances.oracle.trans hstart.oracle,
    hadvances.registry.suffix.trans hstart.registry.suffix, hstep, ?_, fun start hfirst => ?_⟩
  · rw [← hkept, ← hlater.registry.idFor]
    rfl
  · rw [hadvances.registry.idFor]
    exact Context.get?_turns_of_later hbefore hfirst hstate (Nat.le_refl _) hstate hturn

end Course

end InjectionPlan

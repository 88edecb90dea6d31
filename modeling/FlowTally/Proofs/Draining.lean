import FlowTally.Proofs.Interference
/-!
# Chains that were read

Reading a chain sets its counts to zero. A session that never commits changes nothing else
(`Session.run_reads`): the rule set after it is the one before with the chains cleared that it has
read (`Session.drained`). So it is the same rule set exactly if those chains had nothing to lose
(`Ruleset.foldl_clear_eq_self_iff`).
-/

namespace FlowTally

open Kernel (Disturbed)

theorem map_eq_self_iff {α : Type} {f : α → α} {as : List α} :
    as.map f = as ↔ ∀ a ∈ as, f a = a := by
  conv_lhs => rhs; rw [← List.map_id as]
  exact List.map_inj_left

namespace Rule

/-- Has counted nothing since it was read. -/
def Idle (r : Rule) : Prop :=
  ∀ packets bytes, .counter packets bytes ∈ r.exprs → packets = 0 ∧ bytes = 0

theorem reset_eq_self_iff {r : Rule} : r.reset = r ↔ r.Idle := by
  have hexprs : r.reset = r ↔ r.exprs.map Expr.reset = r.exprs := by
    cases r
    simp [reset]
  rw [hexprs, map_eq_self_iff]
  constructor
  · intro h packets bytes hm
    have he := h _ hm
    injection he with h1 h2
    exact ⟨h1.symm, h2.symm⟩
  · intro h e he
    cases e with
    | counter packets bytes =>
      obtain ⟨rfl, rfl⟩ := h packets bytes he
      rfl
    | _ => rfl

theorem map_reset_eq_self_iff {rs : List Rule} : rs.map reset = rs ↔ ∀ r ∈ rs, r.Idle := by
  simp only [map_eq_self_iff, reset_eq_self_iff]

@[simp]
theorem reset_reset (r : Rule) : r.reset.reset = r.reset := by
  have h (e : Expr) : e.reset.reset = e.reset := by cases e <;> rfl
  simp [reset, h]

end Rule

/-! ## Clearing a chain -/

namespace Ruleset

variable {rs : Ruleset} {t : Table} {name : String}

/-- Sets the counts of a chain to zero, if it is there. -/
def clear (rs : Ruleset) (x : Table × String) : Ruleset :=
  match rs.drain x.1 x.2 with
  | .ok (_, rs) => rs
  | .error _ => rs

theorem clear_of_drain {rules : List Rule} {rs' : Ruleset}
    (h : rs.drain t name = .ok (rules, rs')) : rs.clear (t, name) = rs' := by
  rw [clear, h]

theorem rules_eq_getD (rs : Ruleset) (t : Table) (name : String) :
    rs.rules t name = ((rs.findChain? t name).map ChainState.rules).getD [] := by
  unfold rules findChain?
  cases (rs.find? t).bind (·.find? name) <;> rfl

theorem drain_of_none (h : rs.findChain? t name = none) : ∃ e, rs.drain t name = .error e := by
  have hf := rs.toOption_findChain t name
  rw [h] at hf
  unfold drain
  cases hc : rs.findChain t name with
  | ok c => rw [hc] at hf; cases hf
  | error e => exact ⟨e, rfl⟩

theorem clear_of_none (h : rs.findChain? t name = none) : rs.clear (t, name) = rs := by
  obtain ⟨e, he⟩ := drain_of_none h
  rw [clear, he]

/-- Clearing one chain leaves the others as they were. -/
theorem rules_clear (rs : Ruleset) (x : Table × String) (t : Table) (name : String) :
    (rs.clear x).rules t name =
      if (t, name) = x then (rs.rules t name).map Rule.reset else rs.rules t name := by
  obtain ⟨u, m⟩ := x
  cases hf : rs.findChain? u m with
  | none =>
    rw [clear_of_none hf]
    split
    · next h =>
      injection h with h1 h2
      subst h1 h2
      rw [rules_eq_getD, hf]
      rfl
    · rfl
  | some cs =>
    obtain ⟨hc, P, C, hP⟩ := exists_fill_chain hf
    rw [hP, clear_of_drain (drain_fill P C hc), rules_eq_getD,
      findChain?_fill P C hc { cs with rules := cs.rules.map Rule.reset } hc]
    split
    · next h =>
      injection h with h1 h2
      subst h1 h2
      rw [rules_fill P C hc]
      rfl
    · rw [rules_eq_getD]

theorem clear_eq_self_iff {x : Table × String} :
    rs.clear x = rs ↔ ∀ r ∈ rs.rules x.1 x.2, r.Idle := by
  rw [← Rule.map_reset_eq_self_iff]
  constructor
  · intro h
    have hr := rs.rules_clear x x.1 x.2
    rw [h, if_pos rfl] at hr
    exact hr.symm
  · intro h
    obtain ⟨t, name⟩ := x
    cases hf : rs.findChain? t name with
    | none => exact clear_of_none hf
    | some cs =>
      obtain ⟨hc, P, C, hP⟩ := exists_fill_chain hf
      rw [hP, rules_fill P C hc] at h
      rw [hP, clear_of_drain (drain_fill P C hc), h]

theorem rules_foldl_clear (xs : List (Table × String)) (t : Table) (name : String) :
    ∀ rs : Ruleset, (xs.foldl clear rs).rules t name =
      if (t, name) ∈ xs then (rs.rules t name).map Rule.reset else rs.rules t name := by
  induction xs with
  | nil => intro rs; rfl
  | cons x xs ih =>
    intro rs
    rw [List.foldl_cons, ih, rules_clear]
    by_cases hx : (t, name) = x <;> by_cases hm : (t, name) ∈ xs <;> simp [hx, hm]

/-- Clearing chains changes nothing exactly if none of their rules has counted. -/
theorem foldl_clear_eq_self_iff {xs : List (Table × String)} :
    xs.foldl clear rs = rs ↔ ∀ x ∈ xs, ∀ r ∈ rs.rules x.1 x.2, r.Idle := by
  constructor
  · intro h x hx
    have hr := rules_foldl_clear xs x.1 x.2 rs
    rw [h, if_pos hx] at hr
    exact Rule.map_reset_eq_self_iff.1 hr.symm
  · intro h
    induction xs with
    | nil => rfl
    | cons x xs ih =>
      rw [List.foldl_cons, clear_eq_self_iff.2 (h x List.mem_cons_self)]
      exact ih fun y hy => h y (List.mem_cons_of_mem x hy)

end Ruleset

/-! ## What a session reads -/

namespace Session

variable {σ α β : Type} [Transport σ]

/-- The chains that a session has read, in the order in which it did. -/
def drained : Session α → σ → List (Table × String)
  | done _, _ => []
  | lookupTable family name next, s =>
    let (r, s) := Transport.lookupTable family name s
    (next r).drained s
  | lookupChain t name next, s =>
    let (r, s) := Transport.lookupChain t name s
    (next r).drained s
  | drainRules t c next, s =>
    match Transport.drainRules t c s with
    | (.ok rules, s) => (t, c.name) :: (next (.ok rules)).drained s
    | (.error e, s) => (next (.error e)).drained s
  | stage edits next, s => next.drained (Transport.stage edits s)
  | discard next, s => next.drained (Transport.discard s)
  | commit next, s =>
    let (r, s) := Transport.commit s
    (next r).drained s

theorem drained_bind (m : Session α) (f : α → Session β) : ∀ s : σ,
    (m.bind f).drained s = m.drained s ++ (f (m.run s).1).drained (m.run s).2 := by
  induction m with
  | done a => intro s; rfl
  | lookupTable family name next ih => exact fun s => ih _ _
  | lookupChain t name next ih => exact fun s => ih _ _
  | drainRules t c next ih =>
    intro s
    simp only [Session.bind, drained, run]
    generalize Transport.drainRules t c s = r
    obtain ⟨r, s'⟩ := r
    cases r with
    | error e => exact ih _ _
    | ok rules => exact congrArg _ (ih _ _)
  | stage edits next ih => exact fun s => ih _
  | discard next ih => exact fun s => ih _
  | commit next ih => exact fun s => ih _ _

/-- Never commits, whatever it is answered. -/
def Reads : Session α → Prop
  | done _ => True
  | lookupTable _ _ next => ∀ r, (next r).Reads
  | lookupChain _ _ next => ∀ r, (next r).Reads
  | drainRules _ _ next => ∀ r, (next r).Reads
  | stage _ next => next.Reads
  | discard next => next.Reads
  | commit _ => False

theorem Reads.bind {m : Session α} {f : α → Session β} (h : m.Reads) (h' : ∀ a, (f a).Reads) :
    (m.bind f).Reads := by
  induction m with
  | done a => exact h' a
  | lookupTable family name next ih => exact fun r => ih r (h r)
  | lookupChain t name next ih => exact fun r => ih r (h r)
  | drainRules t c next ih => exact fun r => ih r (h r)
  | stage edits next ih => exact ih h
  | discard next ih => exact ih h
  | commit next ih => exact h.elim

/-- A session that never commits leaves the rule set as it was, but for the chains it has read. -/
theorem run_reads {m : Session α} (h : m.Reads) : ∀ s : Disturbed,
    (m.run s).2.ruleset = (m.drained s).foldl Ruleset.clear s.ruleset := by
  induction m with
  | done a => intro s; rfl
  | lookupTable family name next ih =>
    intro s
    have hl := s.lookupTable_looks ⟨family, name⟩
    change Disturbed.Looks s _ _ (Transport.lookupTable family name s) at hl
    rw [← hl.kept.ruleset]
    exact ih _ (h _) _
  | lookupChain t name next ih =>
    intro s
    rw [← (s.lookupChain_looks t name).kept.ruleset]
    exact ih _ (h _) _
  | drainRules t c next ih =>
    intro s
    have hd := s.drainRules_ends t c
    simp only [run, drained]
    generalize Transport.drainRules t c s = r at hd ⊢
    -- Only a read that is answered changes the rule set.
    cases hd with
    | answered hb hr ha =>
      rw [List.foldl_cons, Ruleset.clear_of_drain ha]
      exact ih _ (h _) _
    | refused hb hr hs ha => exact hs ▸ ih _ (h _) _
    | provoked hb hr hs he hn => exact hs ▸ ih _ (h _) _
  | stage edits next ih => exact fun s => ih h _
  | discard next ih => exact fun s => ih h _
  | commit next ih => exact h.elim

end Session

end FlowTally

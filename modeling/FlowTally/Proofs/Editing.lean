import FlowTally.Proofs.Installed
import FlowTally.Reconcile
import Mathlib.Data.List.Nodup
import Mathlib.Logic.Function.Basic
/-!
# Editing one table

Every edit, lookup and count of a table concerns the first table of that identity, and in it the
first chain of a name. A `Slot` is the place of such a first element. With the table and the chain
in their slots, each operation on a rule set is an operation on what fills them, and leaves all that
is around them as it was. `applyAll_chainEdits` says what the edits of one direction make of a
table: the chain is taken out and comes back at the end with fresh rules.
-/

namespace FlowTally

/-! ## Places in a list -/

/-- The place of the first element with a property. -/
structure Slot {α : Type} (p : α → Bool) where
  before : List α
  after : List α
  free : ∀ a ∈ before, p a = false

namespace Slot

variable {α ε : Type} {p : α → Bool} (s : Slot p) {a : α}

def fill (a : α) : List α := s.before ++ a :: s.after

theorem exists_fill {as : List α} (h : as.find? p = some a) : ∃ s : Slot p, as = s.fill a := by
  obtain ⟨-, before, after, hs, hf⟩ := List.find?_eq_some_iff_append.1 h
  exact ⟨⟨before, after, fun b hb => by simpa using hf b hb⟩, hs⟩

/-- The end of a list that has no such element. -/
def last (as : List α) (h : as.find? p = none) : Slot p where
  before := as
  after := []
  free a ha := by simpa using List.find?_eq_none.1 h a ha

theorem find?_before : s.before.find? p = none :=
  List.find?_eq_none.2 fun b hb => by simp [s.free b hb]

theorem mem_fill {b : α} : b ∈ s.fill a ↔ b = a ∨ b ∈ s.before ∨ b ∈ s.after := by
  simp [fill, or_left_comm]

@[simp]
theorem find?_fill (h : p a = true) : (s.fill a).find? p = some a := by
  simp [fill, s.find?_before, h]

/-- Another search does not see what fills the place, if that is nothing it looks for. -/
theorem find?_fill_congr {q : α → Bool} {b : α} (ha : q a = false) (hb : q b = false) :
    (s.fill a).find? q = (s.fill b).find? q := by
  simp [fill, ha, hb]

@[simp]
theorem updateFirst_fill (h : p a = true) (missing : ε) (f : α → Except ε α) :
    updateFirst p missing f (s.fill a) = (f a).map s.fill := by
  obtain ⟨before, after, free⟩ := s
  -- Nothing before the place has the property, so each of it is passed over.
  show updateFirst p missing f (before ++ a :: after) = (f a).map fun a => before ++ a :: after
  induction before with
  | nil => rw [List.nil_append, updateFirst, if_pos h]; rfl
  | cons b before ih =>
    have hb := free b (by simp)
    rw [List.cons_append, updateFirst, if_neg (by simp [hb]),
      ih fun x hx => free x (List.mem_cons_of_mem b hx)]
    cases f a <;> rfl

theorem updateFirst_of_none {as : List α} (h : as.find? p = none) (missing : ε)
    (f : α → Except ε α) : updateFirst p missing f as = .error missing := by
  induction as with
  | nil => rfl
  | cons a as ih =>
    rw [List.find?_cons] at h
    cases hp : p a with
    | true => simp [hp] at h
    | false =>
      simp only [hp] at h
      rw [updateFirst, if_neg (by simp [hp]), ih h]
      rfl

@[simp]
theorem eraseP_fill (h : p a = true) : (s.fill a).eraseP p = s.before ++ s.after := by
  rw [fill, List.eraseP_append_right _ fun b hb => by simp [s.free b hb], List.eraseP_cons_of_pos h]

end Slot

/-! ## Keyed lists -/

section ByKey

open Function (update)

variable {α κ : Type} [DecidableEq κ] {key : α → κ} {as : List α} {a b : α} {k : κ}

/-- The first element of each key. -/
def byKey (key : α → κ) (as : List α) (k : κ) : Option α := as.find? (key · = k)

theorem byKey_fill (s : Slot fun a => decide (key a = k)) (ha : key a = k) (hb : key b = k) :
    byKey key (s.fill b) = update (byKey key (s.fill a)) k (some b) := by
  funext k'
  by_cases hk : k' = k
  · subst hk
    rw [Function.update_self]
    exact s.find?_fill (decide_eq_true hb)
  · rw [Function.update_of_ne hk]
    exact s.find?_fill_congr (by simp [hb, Ne.symm hk]) (by simp [ha, Ne.symm hk])

theorem byKey_append_singleton (h : byKey key as (key a) = none) :
    byKey key (as ++ [a]) = update (byKey key as) (key a) (some a) := by
  funext k
  rw [byKey, List.find?_append]
  by_cases hk : k = key a
  · subst hk
    rw [Function.update_self, show as.find? _ = none from h]
    simp
  · rw [Function.update_of_ne hk, List.find?_cons_of_neg (by simpa using Ne.symm hk)]
    simp [byKey]

theorem byKey_filter_ne :
    byKey key (as.filter (key · ≠ k)) = update (byKey key as) k none := by
  funext k'
  by_cases hk : k' = k
  · subst hk
    rw [Function.update_self, byKey, List.find?_eq_none]
    intro a ha
    simpa using (List.mem_filter.1 ha).2
  · rw [Function.update_of_ne hk, byKey, List.find?_filter]
    refine congrArg (List.find? · as) (funext fun a => ?_)
    by_cases ha : key a = k' <;> simp [ha, hk]

theorem byKey_eraseP (h : (as.map key).Nodup) :
    byKey key (as.eraseP (key · = k)) = update (byKey key as) k none := by
  have hall : as.eraseP (key · = k) = as.filter (key · ≠ k) := by
    induction as with
    | nil => rfl
    | cons a as ih =>
      rw [List.map_cons, List.nodup_cons] at h
      by_cases ha : key a = k
      -- no other element has the key
      · have hothers : ∀ b ∈ as, decide (key b ≠ k) = true := fun b hb =>
          decide_eq_true fun hk => h.1 (ha.trans hk.symm ▸ List.mem_map_of_mem hb)
        rw [List.eraseP_cons_of_pos (by simp [ha]), List.filter_cons_of_neg (by simp [ha]),
          List.filter_eq_self.2 hothers]
      · rw [List.eraseP_cons_of_neg (by simp [ha]), List.filter_cons_of_pos (by simp [ha]), ih h.2]
  rw [hall, byKey_filter_ne]

end ByKey

/-! ## What lookups find -/

namespace Ruleset

variable {rs : Ruleset} {t : Table} {name : String} {e : TransportError}

/-- The first chain of a name in the first table of an identity. -/
def findChain? (rs : Ruleset) (t : Table) (name : String) : Option ChainState :=
  (rs.find? t).bind (·.find? name)

theorem toOption_findTable (rs : Ruleset) (t : Table) : (rs.findTable t).toOption = rs.find? t := by
  unfold findTable
  cases rs.find? t <;> rfl

theorem notFound_of_findTable (h : rs.findTable t = .error e) : ∃ what, e = .notFound what := by
  unfold findTable at h
  cases hf : rs.find? t with
  | some ts => rw [hf] at h; cases h
  | none => rw [hf] at h; injection h with h; exact ⟨_, h.symm⟩

theorem toOption_findChain (rs : Ruleset) (t : Table) (name : String) :
    (rs.findChain t name).toOption = rs.findChain? t name := by
  unfold findChain findChain? findTable
  cases rs.find? t with
  | none => rfl
  | some ts =>
    simp only [bind, Except.bind, Option.bind]
    cases ts.find? name <;> rfl

theorem notFound_of_findChain (h : rs.findChain t name = .error e) :
    ∃ what, e = .notFound what := by
  unfold findChain at h
  cases hf : rs.findTable t with
  | error e' => rw [hf] at h; injection h with h; exact h ▸ notFound_of_findTable hf
  | ok ts =>
    rw [hf] at h
    simp only [bind, Except.bind] at h
    cases hc : ts.find? name with
    | some c => rw [hc] at h; cases h
    | none => rw [hc] at h; injection h with h; exact ⟨_, h.symm⟩

end Ruleset

/-! ## Tables and chains in their places -/

/-- Raises the counts of a rule that has the label. -/
def Rule.bumpLabelled (label : String) (packets bytes : UInt64) (r : Rule) : Rule :=
  if r.comment == some label then r.bump packets bytes else r

/-- The place of a table. -/
abbrev Table.Place (t : Table) := Slot fun s : TableState => decide (s.table = t)

/-- The place of a chain of a name in its table. -/
abbrev Chain.Place (name : String) := Slot fun s : ChainState => decide (s.chain.name = name)

namespace TableState

variable {t : Table} {cs : List ChainState} {c : Chain}

theorem addChain_fill (C : Chain.Place c.name) {s : ChainState} (h : s.chain.name = c.name) :
    addChain ⟨t, C.fill s⟩ c = ⟨t, C.fill { s with chain := c }⟩ := by
  rw [addChain, C.updateFirst_fill (by simp [h])]
  rfl

theorem addChain_of_none (h : cs.find? (·.chain.name = c.name) = none) :
    addChain ⟨t, cs⟩ c = ⟨t, cs ++ [⟨c, []⟩]⟩ := by
  rw [addChain, Slot.updateFirst_of_none h]

/-- A chain takes the place of the first of its name, or joins the others if none has its name. -/
theorem addChain_cases (ts : TableState) (c : Chain) :
    (∃ (C : Chain.Place c.name) (s : ChainState), s.chain.name = c.name ∧ ts.chains = C.fill s ∧
      ts.addChain c = ⟨ts.table, C.fill { s with chain := c }⟩) ∨
    ts.chains.find? (·.chain.name = c.name) = none ∧
      ts.addChain c = ⟨ts.table, ts.chains ++ [⟨c, []⟩]⟩ := by
  obtain ⟨t, cs⟩ := ts
  cases hf : cs.find? (·.chain.name = c.name) with
  | none => exact .inr ⟨rfl, addChain_of_none hf⟩
  | some s =>
    have hs : s.chain.name = c.name := by simpa using List.find?_some hf
    obtain ⟨C, rfl⟩ := Slot.exists_fill hf
    exact .inl ⟨C, s, hs, rfl, addChain_fill C hs⟩

end TableState

namespace Ruleset

variable {t : Table} (P : t.Place) {name : String} (C : Chain.Place name) {ts : TableState}
  {cs : ChainState} {n : UInt64} {rs rs' : Ruleset}

theorem find?_fill (h : ts.table = t) : (⟨P.fill ts, n⟩ : Ruleset).find? t = some ts :=
  P.find?_fill (by simp [h])

theorem exists_fill (h : rs.find? t = some ts) :
    ts.table = t ∧ ∃ P : t.Place, rs = ⟨P.fill ts, rs.lastHandle⟩ := by
  obtain ⟨P, hP⟩ := Slot.exists_fill h
  exact ⟨by simpa using List.find?_some h, P, by rw [← hP]⟩

/-- A chain that is there, in its place. -/
theorem exists_fill_chain {cs : ChainState} (h : rs.findChain? t name = some cs) :
    cs.chain.name = name ∧ ∃ (P : t.Place) (C : Chain.Place name),
      rs = ⟨P.fill ⟨t, C.fill cs⟩, rs.lastHandle⟩ := by
  obtain ⟨ts, hts, hcs⟩ := Option.bind_eq_some_iff.1 h
  obtain ⟨rfl, P, hP⟩ := exists_fill hts
  obtain ⟨C, hC⟩ := Slot.exists_fill hcs
  refine ⟨by simpa using List.find?_some hcs, P, C, ?_⟩
  rw [← hC]
  exact hP

theorem updateTable_fill (h : ts.table = t)
    (f : TableState → Except TransportError TableState) :
    (⟨P.fill ts, n⟩ : Ruleset).updateTable t f = (f ts).map fun ts => ⟨P.fill ts, n⟩ := by
  rw [updateTable, P.updateFirst_fill (by simp [h])]
  cases f ts <;> rfl

theorem findTable_fill (h : ts.table = t) : (⟨P.fill ts, n⟩ : Ruleset).findTable t = .ok ts := by
  rw [findTable, find?_fill P h]

theorem findChain_fill (h : cs.chain.name = name) :
    (⟨P.fill ⟨t, C.fill cs⟩, n⟩ : Ruleset).findChain t name = .ok cs := by
  have hc : TableState.find? ⟨t, C.fill cs⟩ name = some cs := C.find?_fill (by simp [h])
  rw [findChain, findTable_fill P rfl]
  simp [bind, Except.bind, hc]

theorem rules_fill (h : cs.chain.name = name) :
    (⟨P.fill ⟨t, C.fill cs⟩, n⟩ : Ruleset).rules t name = cs.rules := by
  have hc : TableState.find? ⟨t, C.fill cs⟩ name = some cs := C.find?_fill (by simp [h])
  rw [rules, find?_fill P rfl, Option.bind_some, hc]

/-- Another chain in the place of one does not change what else is found. -/
theorem findChain?_fill (h : cs.chain.name = name) (cs' : ChainState) (h' : cs'.chain.name = name)
    (u : Table) (m : String) : (⟨P.fill ⟨t, C.fill cs'⟩, n⟩ : Ruleset).findChain? u m =
      if (u, m) = (t, name) then some cs'
      else (⟨P.fill ⟨t, C.fill cs⟩, n⟩ : Ruleset).findChain? u m := by
  -- The chain itself, another chain of its table, and a chain of another table.
  by_cases hu : u = t
  · subst hu
    rw [findChain?, findChain?, find?_fill P rfl, find?_fill P rfl, Option.bind_some,
      Option.bind_some, TableState.find?, TableState.find?]
    by_cases hm : m = name
    · rw [if_pos (by rw [hm]), hm, C.find?_fill (by simp [h'])]
    · rw [if_neg fun he => hm (Prod.ext_iff.1 he).2]
      exact C.find?_fill_congr (by simp [h', Ne.symm hm]) (by simp [h, Ne.symm hm])
  · rw [if_neg fun he => hu (Prod.ext_iff.1 he).1, findChain?, findChain?, find?, find?,
      P.find?_fill_congr (b := ⟨t, C.fill cs⟩) (by simp [Ne.symm hu]) (by simp [Ne.symm hu])]

theorem updateChain_fill (h : cs.chain.name = name) (f : ChainState → ChainState) :
    (⟨P.fill ⟨t, C.fill cs⟩, n⟩ : Ruleset).updateChain t name f =
      .ok ⟨P.fill ⟨t, C.fill (f cs)⟩, n⟩ := by
  rw [updateChain, updateTable_fill P rfl, C.updateFirst_fill (by simp [h])]
  rfl

theorem drain_fill (h : cs.chain.name = name) :
    (⟨P.fill ⟨t, C.fill cs⟩, n⟩ : Ruleset).drain t name =
      .ok (cs.rules, ⟨P.fill ⟨t, C.fill { cs with rules := cs.rules.map Rule.reset }⟩, n⟩) := by
  rw [drain, findChain_fill P C h]
  simp only [bind, Except.bind, updateChain_fill P C h]
  rfl

theorem bump_fill (h : cs.chain.name = name) (label : String) (packets bytes : UInt64) :
    (⟨P.fill ⟨t, C.fill cs⟩, n⟩ : Ruleset).bump t name label packets bytes =
      (⟨P.fill ⟨t, C.fill { cs with
        rules := cs.rules.map (Rule.bumpLabelled label packets bytes) }⟩, n⟩,
       total ((cs.rules.filter (·.comment == some label)).map Rule.counterCount)) := by
  unfold bump
  rw [rules_fill P C h]
  have hu := updateChain_fill P C (n := n) h fun c =>
    { c with rules := c.rules.map (Rule.bumpLabelled label packets bytes) }
  unfold Rule.bumpLabelled at hu
  simp only [hu]
  rfl

theorem updateChain_of_none (h : rs.findChain? t name = none) (f : ChainState → ChainState) :
    ∃ e, rs.updateChain t name f = .error e := by
  cases hf : rs.find? t with
  | none =>
    refine ⟨.notFound s!"table {t.text}", ?_⟩
    rw [updateChain, updateTable, Slot.updateFirst_of_none hf]
    rfl
  | some ts =>
    obtain ⟨ht, P, hP⟩ := exists_fill hf
    have hc : ts.chains.find? (·.chain.name = name) = none := by
      rw [findChain?, hf] at h
      exact h
    refine ⟨.notFound s!"chain {t.text} {name}", ?_⟩
    rw [hP, updateChain, updateTable_fill P ht, Slot.updateFirst_of_none hc]
    rfl

theorem bump_of_none (h : rs.findChain? t name = none) (label : String) (packets bytes : UInt64) :
    rs.bump t name label packets bytes = (rs, 0) := by
  unfold bump
  obtain ⟨e, he⟩ := updateChain_of_none h fun c =>
    { c with rules := c.rules.map (Rule.bumpLabelled label packets bytes) }
  unfold Rule.bumpLabelled at he
  simp only [he]

/-- Raising counts in one table leaves the others as they were. -/
theorem find?_bump_of_ne {u : Table} (h : u ≠ t) (name label : String) (packets bytes : UInt64) :
    (rs.bump t name label packets bytes).1.find? u = rs.find? u := by
  cases hf : rs.findChain? t name with
  | none => rw [bump_of_none hf]
  | some cs =>
    obtain ⟨hc, P, C, hP⟩ := exists_fill_chain hf
    rw [hP, bump_fill P C hc]
    exact P.find?_fill_congr (by simp [Ne.symm h]) (by simp [Ne.symm h])

/-! ## Edits one after the other -/

@[simp]
theorem applyAll_nil : rs.applyAll [] = .ok rs := rfl

theorem applyAll_cons {e : Edit} (h : rs.apply e = .ok rs') (b : Batch) :
    rs.applyAll (e :: b) = rs'.applyAll b := by
  rw [applyAll, List.foldlM_cons, h]
  rfl

theorem applyAll_cons_of_error {e : Edit} {error : TransportError} (h : rs.apply e = .error error)
    (b : Batch) : rs.applyAll (e :: b) = .error error := by
  rw [applyAll, List.foldlM_cons, h]
  rfl

theorem applyAll_append {b : Batch} (h : rs.applyAll b = .ok rs') (b' : Batch) :
    rs.applyAll (b ++ b') = rs'.applyAll b' := by
  rw [applyAll, List.foldlM_append]
  rw [applyAll] at h
  rw [h]
  rfl

end Ruleset

/-! ## Adding rules -/

namespace Rule

/-- The rules that counters get in a chain when `n` handles have been given out before. -/
def fresh (chain : Chain) : UInt64 → List Counter → List Rule
  | _, [] => []
  | n, c :: cs => installed chain c (some (n + 1)) 0 0 :: fresh chain (n + 1) cs

end Rule

namespace Ruleset

theorem apply_addRule_fill (chain : Chain) (P : chain.table.Place) (C : Chain.Place chain.name)
    (rules : List Rule) (n : UInt64) (c : Counter) :
    (⟨P.fill ⟨chain.table, C.fill ⟨chain, rules⟩⟩, n⟩ : Ruleset).apply
        (.addRule (Rule.ofCounter chain c)) =
      .ok ⟨P.fill ⟨chain.table, C.fill
        ⟨chain, rules ++ [Rule.installed chain c (some (n + 1)) 0 0]⟩⟩, n + 1⟩ :=
  updateChain_fill P C rfl _

theorem applyAll_addRules_fill (chain : Chain) (P : chain.table.Place) (C : Chain.Place chain.name)
    (counters : List Counter) : ∀ (rules : List Rule) (n : UInt64),
    (⟨P.fill ⟨chain.table, C.fill ⟨chain, rules⟩⟩, n⟩ : Ruleset).applyAll
        (counters.map fun c => .addRule (Rule.ofCounter chain c)) =
      .ok ⟨P.fill ⟨chain.table, C.fill ⟨chain, rules ++ Rule.fresh chain n counters⟩⟩,
        n + .ofNat counters.length⟩ := by
  induction counters with
  | nil => intro rules n; simp [Rule.fresh]
  | cons c counters ih =>
    intro rules n
    have hn : n + 1 + .ofNat counters.length = n + .ofNat (c :: counters).length := by
      rw [List.length_cons, UInt64.ofNat_add, UInt64.add_comm (.ofNat _), UInt64.add_assoc]
      rfl
    rw [List.map_cons, applyAll_cons (apply_addRule_fill chain P C rules n c), ih, hn, Rule.fresh,
      List.append_assoc, List.singleton_append]

end Ruleset

/-! ## Replacing a chain -/

namespace Layout

variable (l : Layout)

/-- The chains of the table after the chain of a direction has been replaced. -/
def rebuild (d : Direction) (n : UInt64) (counters : List Counter) (cs : List ChainState) :
    List ChainState :=
  cs.eraseP (·.chain.name = l.chainName d) ++ [⟨l.chain d, Rule.fresh (l.chain d) n counters⟩]

/-- The chain of a direction among those of a table. -/
def existing (d : Direction) (cs : List ChainState) : Option Chain :=
  (cs.find? (·.chain.name = l.chainName d)).map ChainState.chain

end Layout

/-- Chains with names of their own, each of the table it is in. -/
structure ChainState.Distinct (t : Table) (cs : List ChainState) : Prop where
  own : ∀ c ∈ cs, c.chain.table = t
  names : (cs.map (·.chain.name)).Nodup

namespace ChainState.Distinct

variable {t : Table} {cs : List ChainState} {l : Layout}

theorem find?_eraseP (h : Distinct t cs) (name : String) :
    (cs.eraseP (·.chain.name = name)).find? (·.chain.name = name) = none :=
  (congrFun (byKey_eraseP h.names) name).trans (Function.update_self ..)

theorem rebuild (h : Distinct l.table cs) (d : Direction) (n : UInt64) (counters : List Counter) :
    Distinct l.table (l.rebuild d n counters cs) := by
  have hsub : (cs.eraseP (·.chain.name = l.chainName d)).Sublist cs := List.eraseP_sublist
  constructor
  · intro c hc
    rcases List.mem_append.1 hc with hc | hc
    · exact h.own c (hsub.subset hc)
    · rw [List.mem_singleton.1 hc]
      rfl
  · rw [Layout.rebuild, List.map_append, List.nodup_append]
    refine ⟨h.names.sublist (hsub.map _), List.nodup_singleton _, ?_⟩
    intro name hname name' hname' he
    obtain ⟨c, hc, rfl⟩ := List.mem_map.1 hname
    have hn := List.find?_eq_none.1 (h.find?_eraseP (l.chainName d)) c hc
    rw [List.mem_singleton.1 hname'] at he
    exact hn (decide_eq_true he)

end ChainState.Distinct

namespace Layout

variable (l : Layout)

/-- Replacing the chain of one direction does not touch the chains of other names. -/
theorem find?_rebuild_of_ne {d : Direction} {name : String} (h : name ≠ l.chainName d) (n : UInt64)
    (counters : List Counter) (cs : List ChainState) :
    (l.rebuild d n counters cs).find? (·.chain.name = name) = cs.find? (·.chain.name = name) := by
  have hlast : ([⟨l.chain d, Rule.fresh (l.chain d) n counters⟩] : List ChainState).find?
      (·.chain.name = name) = none := by
    simpa [List.find?_singleton] using fun h' : (l.chain d).name = name => h h'.symm
  rw [rebuild, List.find?_append, hlast, Option.or_none]
  cases hf : cs.find? (·.chain.name = l.chainName d) with
  | none => rw [List.eraseP_of_forall_not fun c hc => List.find?_eq_none.1 hf c hc]
  | some c =>
    have hc : c.chain.name = l.chainName d := by simpa using List.find?_some hf
    obtain ⟨C, rfl⟩ := Slot.exists_fill hf
    -- The chain that is taken out is not the one looked for.
    rw [C.eraseP_fill (by simpa using hc), Slot.fill, List.find?_append, List.find?_append,
      List.find?_cons_of_neg]
    simpa [hc] using h.symm

theorem existing_rebuild {d e : Direction} (h : l.chainName e ≠ l.chainName d) (n : UInt64)
    (counters : List Counter) (cs : List ChainState) :
    l.existing e (l.rebuild d n counters cs) = l.existing e cs := by
  rw [existing, l.find?_rebuild_of_ne h, existing]

/-- The edits of a direction replace its chain, or add it if there was none. -/
theorem applyAll_chainEdits (P : l.table.Place) {cs : List ChainState}
    (h : ChainState.Distinct l.table cs) (n : UInt64) (d : Direction) (counters : List Counter) :
    (⟨P.fill ⟨l.table, cs⟩, n⟩ : Ruleset).applyAll
        (l.chainEdits d (l.existing d cs) counters) =
      .ok ⟨P.fill ⟨l.table, l.rebuild d n counters cs⟩, n + .ofNat counters.length⟩ := by
  have hfree := h.find?_eraseP (l.chainName d)
  -- From here the edits are the same, whether the chain was there or not.
  have hadd : (⟨P.fill ⟨l.table, cs.eraseP (·.chain.name = l.chainName d)⟩, n⟩ : Ruleset).applyAll
      (.addChain (l.chain d) :: counters.map fun c => .addRule (Rule.ofCounter (l.chain d) c)) =
      .ok ⟨P.fill ⟨l.table, l.rebuild d n counters cs⟩, n + .ofNat counters.length⟩ := by
    have hchain : (⟨P.fill ⟨l.table, cs.eraseP (·.chain.name = l.chainName d)⟩, n⟩ : Ruleset).apply
        (.addChain (l.chain d)) =
        .ok ⟨P.fill ⟨l.table, (Slot.last _ hfree).fill ⟨l.chain d, []⟩⟩, n⟩ := by
      refine (Ruleset.updateTable_fill P rfl _).trans ?_
      rw [TableState.addChain_of_none hfree]
      rfl
    rw [Ruleset.applyAll_cons hchain]
    exact Ruleset.applyAll_addRules_fill (l.chain d) P (Slot.last _ hfree) counters [] n
  unfold existing chainEdits
  cases hf : cs.find? (·.chain.name = l.chainName d) with
  | none =>
    rw [List.eraseP_of_forall_not fun c hc => List.find?_eq_none.1 hf c hc] at hadd
    exact hadd
  | some c =>
    have hc : c.chain.name = l.chainName d := by simpa using List.find?_some hf
    have ht : c.chain.table = l.table := h.own c (List.mem_of_find?_eq_some hf)
    obtain ⟨C, rfl⟩ := Slot.exists_fill hf
    -- A chain can be deleted only once its rules are gone.
    have hflush : (⟨P.fill ⟨l.table, C.fill c⟩, n⟩ : Ruleset).apply (.flushChain c.chain) =
        .ok ⟨P.fill ⟨l.table, C.fill { c with rules := [] }⟩, n⟩ := by
      rw [Ruleset.apply, ht, hc]
      exact Ruleset.updateChain_fill P C hc _
    have hdelete : (⟨P.fill ⟨l.table, C.fill { c with rules := [] }⟩, n⟩ : Ruleset).apply
        (.deleteChain c.chain) = .ok ⟨P.fill ⟨l.table, C.before ++ C.after⟩, n⟩ := by
      have hfind : TableState.find? ⟨l.table, C.fill { c with rules := [] }⟩ (l.chainName d) =
          some { c with rules := [] } := C.find?_fill (by simpa using hc)
      rw [Ruleset.apply, ht, Ruleset.updateTable_fill P rfl, TableState.deleteChain, hc, hfind]
      simp [C.eraseP_fill, hc, Except.map]
    rw [C.eraseP_fill (by simpa using hc)] at hadd
    simp only [Option.map_some, List.cons_append, List.nil_append]
    rw [Ruleset.applyAll_cons hflush, Ruleset.applyAll_cons hdelete]
    exact hadd

end Layout

end FlowTally

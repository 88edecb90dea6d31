import FlowTally.Proofs.Reachable
/-!
# What edits do

A table is looked up by its identity and a chain by its name, so a rule set is seen as a map from
identities to maps from names (`Ruleset.View`). `Edit.effect` says what an edit makes of these maps,
or that it fails; `Ruleset.view_apply` that applying the edit does that, and `view_applyAll` that a
batch does so edit by edit.
-/

namespace FlowTally

open Function (update)
open Wire (map_eq_ok_iff)

/-! ## What lookups find -/

/-- The chains of a table by their names. -/
abbrev ChainsByName := String → Option ChainState

/-- The tables that there are, in whatever order, and the last handle. -/
@[ext]
structure Ruleset.View where
  tables : Table → Option ChainsByName
  lastHandle : UInt64

def TableState.view (s : TableState) : ChainsByName := byKey (·.chain.name) s.chains

namespace Ruleset

def view (rs : Ruleset) : View where
  tables t := (byKey TableState.table rs.tables t).map TableState.view
  lastHandle := rs.lastHandle

/-- Changes the chains of a table, if the table is there and they can be changed so. -/
def View.changeTable (v : View) (t : Table) (f : ChainsByName → Option ChainsByName) :
    Option View :=
  ((v.tables t).bind f).map fun cs => { v with tables := update v.tables t (some cs) }

end Ruleset

/-- What an edit makes of what lookups find, unless it fails. -/
def Edit.effect (v : Ruleset.View) : Edit → Option Ruleset.View
  | addTable t =>
    some { v with tables := update v.tables t (some ((v.tables t).getD fun _ => none)) }
  | addChain c => v.changeTable c.table fun cs =>
    some (update cs c.name (some ⟨c, ((cs c.name).map ChainState.rules).getD []⟩))
  | addRule r =>
    let v := { v with lastHandle := v.lastHandle + 1 }
    v.changeTable r.table fun cs => (cs r.chain).map fun s =>
      update cs r.chain (some { s with rules := s.rules ++ [{ r with handle := v.lastHandle }] })
  | flushChain c => v.changeTable c.table fun cs => (cs c.name).map fun s =>
    update cs c.name (some { s with rules := [] })
  | deleteChain c => v.changeTable c.table fun cs => (cs c.name).bind fun s =>
    if s.rules = [] then some (update cs c.name none) else none
  | flushTable t => v.changeTable t fun cs => some fun name => (cs name).map fun s =>
    { s with rules := [] }
  | deleteTable t => (v.tables t).map fun _ => { v with tables := update v.tables t none }

/-- What the edits of a batch make of what lookups find, unless one of them fails. -/
def Batch.effect (b : Batch) (v : Ruleset.View) : Option Ruleset.View := b.foldlM Edit.effect v

/-! ## One edit -/

namespace Ruleset

variable {rs : Ruleset} {t : Table}

theorem tables_view {x : Option TableState} (h : rs.find? t = x) :
    rs.view.tables t = x.map TableState.view := congrArg (Option.map TableState.view) h

/-- Other chains in a table that stays in its place. -/
theorem view_fill (P : t.Place) {ts ts' : TableState} {n : UInt64} (ht : ts.table = t)
    (ht' : ts'.table = t) : (⟨P.fill ts', n⟩ : Ruleset).view =
      { (⟨P.fill ts, n⟩ : Ruleset).view with
        tables := update (⟨P.fill ts, n⟩ : Ruleset).view.tables t (some ts'.view) } := by
  ext1
  · show Option.map TableState.view ∘ byKey TableState.table (P.fill ts') = _
    rw [byKey_fill P ht ht', Function.comp_update]
    rfl
  · rfl

/-- A change to the chains of one table. -/
theorem view_updateTable {f : TableState → Except TransportError TableState}
    {g : ChainsByName → Option ChainsByName}
    (htable : ∀ s s', f s = .ok s' → s'.table = s.table)
    (hf : ∀ s, rs.find? t = some s → (f s).toOption.map TableState.view = g s.view) :
    (rs.updateTable t f).toOption.map view = rs.view.changeTable t g := by
  cases hfind : rs.find? t with
  | none =>
    rw [updateTable, Slot.updateFirst_of_none hfind, View.changeTable, tables_view hfind]
    rfl
  | some ts =>
    have hg := hf ts hfind
    obtain ⟨ht, P, hP⟩ := exists_fill hfind
    rw [View.changeTable, tables_view hfind, Option.map_some, Option.bind_some, ← hg, hP,
      updateTable_fill P ht]
    cases hts : f ts with
    | error e => rfl
    | ok ts' =>
      have ht' := (htable ts ts' hts).trans ht
      exact congrArg some (view_fill P ht ht')

/-- A change to the rules of one chain. -/
theorem view_updateChain {name : String} {f : ChainState → ChainState}
    (hf : ∀ s, (f s).chain = s.chain) : (rs.updateChain t name f).toOption.map view =
      rs.view.changeTable t fun cs => (cs name).map fun s => update cs name (some (f s)) := by
  refine view_updateTable (fun s s' h => ?_) fun s _ => ?_
  · obtain ⟨cs, -, rfl⟩ := map_eq_ok_iff.1 h
    rfl
  · obtain ⟨u, cs⟩ := s
    cases hfind : cs.find? (·.chain.name = name) with
    | none =>
      have hview : TableState.view ⟨u, cs⟩ name = none := hfind
      rw [Slot.updateFirst_of_none hfind, hview]
      rfl
    | some c =>
      have hc : c.chain.name = name := by simpa using List.find?_some hfind
      have hview : TableState.view ⟨u, cs⟩ name = some c := hfind
      rw [hview]
      obtain ⟨C, rfl⟩ := Slot.exists_fill hfind
      rw [C.updateFirst_fill (by simp [hc])]
      exact congrArg some (byKey_fill C hc ((congrArg Chain.name (hf c)).trans hc))

theorem view_addTable : (rs.apply (.addTable t)).toOption.map view =
    (Edit.addTable t).effect rs.view := by
  rw [apply, Edit.effect, tables_view rfl]
  cases hfind : rs.find? t with
  | none =>
    have hadd : byKey TableState.table (rs.tables ++ [⟨t, []⟩]) =
        update (byKey TableState.table rs.tables) t (some ⟨t, []⟩) := byKey_append_singleton hfind
    refine congrArg some (View.ext ?_ rfl)
    show Option.map TableState.view ∘ byKey TableState.table (rs.tables ++ [⟨t, []⟩]) = _
    rw [hadd, Function.comp_update]
    rfl
  | some ts =>
    have hsame : update rs.view.tables t (some ts.view) = rs.view.tables := by
      rw [← Option.map_some, ← tables_view hfind, Function.update_eq_self]
    rw [Option.map_some, Option.getD_some, hsame]
    rfl

theorem view_addChain (c : Chain) : (rs.apply (.addChain c)).toOption.map view =
    (Edit.addChain c).effect rs.view := by
  refine view_updateTable (fun s s' h => ?_) fun s _ => congrArg some ?_
  · cases h
    exact s.table_addChain c
  · obtain ⟨u, cs⟩ := s
    rcases TableState.addChain_cases ⟨u, cs⟩ c with ⟨C, x, hx, rfl, hadd⟩ | ⟨hnone, hadd⟩
    · have hview : TableState.view ⟨u, C.fill x⟩ c.name = some x := C.find?_fill (by simp [hx])
      rw [hview, hadd]
      exact byKey_fill C hx rfl
    · have hview : TableState.view ⟨u, cs⟩ c.name = none := hnone
      have hnew : byKey (fun s : ChainState => s.chain.name) (cs ++ [⟨c, []⟩]) =
          update (TableState.view ⟨u, cs⟩) c.name (some ⟨c, []⟩) := byKey_append_singleton hnone
      rw [hview, hadd]
      exact hnew

theorem view_deleteChain (hs : rs.Sound) (c : Chain) :
    (rs.apply (.deleteChain c)).toOption.map view = (Edit.deleteChain c).effect rs.view := by
  refine view_updateTable (fun s s' h => (TableState.sublist_of_deleteChain h).1) fun s hfind => ?_
  have hd := hs.chains s (List.mem_of_find?_eq_some hfind)
  show (s.deleteChain c).toOption.map TableState.view = (s.find? c.name).bind _
  unfold TableState.deleteChain
  cases hf : s.find? c.name with
  | none => rfl
  | some x =>
    cases hr : x.rules with
    | nil =>
      simp only [hr, List.isEmpty_nil, if_true, Option.bind_some]
      exact congrArg some (byKey_eraseP hd.names)
    | cons r rules =>
      simp only [hr, List.isEmpty_cons, Bool.false_eq_true, if_false, Option.bind_some,
        reduceCtorEq]
      rfl

theorem view_flushTable : (rs.apply (.flushTable t)).toOption.map view =
    (Edit.flushTable t).effect rs.view := by
  refine view_updateTable (fun s s' h => ?_) fun s _ => congrArg some (funext fun name => ?_)
  · cases h
    rfl
  · show (s.chains.map _).find? _ = _
    rw [List.find?_map]
    rfl

theorem view_deleteTable : (rs.apply (.deleteTable t)).toOption.map view =
    (Edit.deleteTable t).effect rs.view := by
  rw [apply, findTable, Edit.effect, tables_view rfl]
  cases hfind : rs.find? t with
  | none => rfl
  | some ts =>
    refine congrArg some (View.ext ?_ rfl)
    show Option.map TableState.view ∘ byKey TableState.table (rs.tables.filter (·.table ≠ t)) = _
    rw [byKey_filter_ne, Function.comp_update]
    rfl

/-- An edit does to what lookups find what it is to do, and fails if that fails. -/
theorem view_apply (hs : rs.Sound) (e : Edit) :
    (rs.apply e).toOption.map view = e.effect rs.view := by
  cases e with
  | addTable t => exact view_addTable
  | addChain c => exact view_addChain c
  | addRule r => exact @view_updateChain rs.takeHandle r.table r.chain _ fun _ => rfl
  | flushChain c => exact view_updateChain fun _ => rfl
  | deleteChain c => exact view_deleteChain hs c
  | flushTable t => exact view_flushTable
  | deleteTable t => exact view_deleteTable

/-! ## Batches -/

theorem view_applyAll {b : Batch} : ∀ {rs : Ruleset}, rs.Sound →
    (rs.applyAll b).toOption.map view = b.effect rs.view := by
  induction b with
  | nil => exact fun _ => rfl
  | cons e b ih =>
    intro rs hs
    have he := view_apply hs e
    rw [Batch.effect, List.foldlM_cons, ← he]
    cases ha : rs.apply e with
    | error error =>
      rw [applyAll_cons_of_error ha]
      rfl
    | ok rs₁ =>
      rw [applyAll_cons ha]
      exact ih (hs.apply ha)

end Ruleset

end FlowTally

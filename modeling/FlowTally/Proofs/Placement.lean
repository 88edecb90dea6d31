import FlowTally.Proofs.Reachable
/-!
# Rules in their places

Every rule names the table and the chain that it is in and has a handle, and along a chain the
handles get higher (`ChainState.Orderly`): a new rule comes last, under a handle above those of all
others, and nothing else that happens to rules touches their names or handles. With what is known of
tables and handles this is all that holds of a rule set whatever happens to it
(`Ruleset.Reachable.consistent`).
-/

namespace FlowTally

open Wire (bind_eq_ok_iff map_eq_ok_iff)

/-! ## The rules of a chain -/

namespace ChainState

/-- The rules of a chain that is in the table. -/
structure Orderly (t : Table) (s : ChainState) : Prop where
  placed : ∀ r ∈ s.rules, r.table = t ∧ r.chain = s.chain.name
  handled : ∀ r ∈ s.rules, r.handle.isSome
  increasing : s.handles.Pairwise (· < ·)

namespace Orderly
variable {t : Table} {s : ChainState}

theorem empty (t : Table) (c : Chain) : Orderly t ⟨c, []⟩ := ⟨by simp, by simp, .nil⟩

/-- A chain that takes the place of another of its name has its rules. -/
theorem rename (h : s.Orderly t) {c : Chain} (hc : s.chain.name = c.name) :
    Orderly t { s with chain := c } :=
  ⟨hc ▸ h.placed, h.handled, h.increasing⟩

/-- A change to each rule that keeps what the rule is named by. -/
theorem map (h : s.Orderly t) {f : Rule → Rule}
    (hf : ∀ r, (f r).table = r.table ∧ (f r).chain = r.chain ∧ (f r).handle = r.handle) :
    Orderly t { s with rules := s.rules.map f } := by
  constructor
  · intro r hr
    obtain ⟨x, hx, rfl⟩ := List.mem_map.1 hr
    rw [(hf x).1, (hf x).2.1]
    exact h.placed x hx
  · intro r hr
    obtain ⟨x, hx, rfl⟩ := List.mem_map.1 hr
    rw [(hf x).2.2]
    exact h.handled x hx
  · rw [s.handles_map fun r => (hf r).2.2]
    exact h.increasing

theorem append (h : s.Orderly t) {r : Rule} {n : UInt64} (htable : r.table = t)
    (hchain : r.chain = s.chain.name) (hn : ∀ m ∈ s.handles, m < n) :
    Orderly t { s with rules := s.rules ++ [{ r with handle := some n }] } := by
  constructor
  · intro x hx
    rcases List.mem_append.1 hx with hx | hx
    · exact h.placed x hx
    · rw [List.mem_singleton.1 hx]
      exact ⟨htable, hchain⟩
  · intro x hx
    rcases List.mem_append.1 hx with hx | hx
    · exact h.handled x hx
    · rw [List.mem_singleton.1 hx]
      rfl
  · have hh : handles { s with rules := s.rules ++ [{ r with handle := some n }] } =
        s.handles ++ [n] := by simp [handles]
    rw [hh, List.pairwise_append]
    exact ⟨h.increasing, List.pairwise_singleton _ _, by simpa using hn⟩

theorem deliver (h : s.Orderly t) (p : Packet) : Orderly t (s.deliver p).1 := by
  unfold ChainState.deliver
  split
  · simp only [List.map_map]
    exact h.map fun _ => ⟨rfl, rfl, rfl⟩
  · exact h

end Orderly

end ChainState

/-! ## The rules of a rule set -/

namespace Ruleset

def Orderly (rs : Ruleset) : Prop := ∀ t ∈ rs.tables, ∀ s ∈ t.chains, s.Orderly t.table

theorem mem_handles {rs : Ruleset} {t : TableState} {s : ChainState} {n : UInt64}
    (ht : t ∈ rs.tables) (hs : s ∈ t.chains) (hn : n ∈ s.handles) : n ∈ rs.handles :=
  List.mem_flatMap.2 ⟨t, ht, List.mem_flatMap.2 ⟨s, hs, hn⟩⟩

namespace Orderly
variable {rs rs' : Ruleset} {t : Table}

theorem updateTable (ho : rs.Orderly) {f : TableState → Except TransportError TableState}
    (htable : ∀ s s', f s = .ok s' → s'.table = s.table)
    (hf : ∀ s s', s ∈ rs.tables → s.table = t → f s = .ok s' → ∀ c ∈ s'.chains, c.Orderly t)
    (h : rs.updateTable t f = .ok rs') : rs'.Orderly := by
  obtain ⟨ts, hu, rfl⟩ := map_eq_ok_iff.1 h
  intro s hm
  rcases mem_of_updateFirst hu hm with hm | ⟨x, hx, hp, hfx⟩
  · exact ho s hm
  · have ht : x.table = t := by simpa using hp
    rw [htable x s hfx, ht]
    exact hf x s hx ht hfx

theorem updateChain (ho : rs.Orderly) {name : String} {f : ChainState → ChainState}
    (hf : ∀ s ∈ rs.tables, s.table = t → ∀ c ∈ s.chains, c.chain.name = name → (f c).Orderly t)
    (h : rs.updateChain t name f = .ok rs') : rs'.Orderly := by
  refine ho.updateTable (fun s s' h => ?_) (fun s s' hs ht h c hc => ?_) h
  · obtain ⟨cs, -, rfl⟩ := map_eq_ok_iff.1 h
    rfl
  · obtain ⟨cs, hu, rfl⟩ := map_eq_ok_iff.1 h
    rcases mem_of_updateFirst hu hc with hc | ⟨x, hx, hp, hfx⟩
    · exact ht ▸ ho s hs c hc
    · cases hfx
      exact hf s hs ht x hx (by simpa using hp)

/-- A change to each rule of one chain that keeps what the rule is named by. -/
theorem mapRules (ho : rs.Orderly) {name : String} {f : Rule → Rule}
    (hf : ∀ r, (f r).table = r.table ∧ (f r).chain = r.chain ∧ (f r).handle = r.handle)
    (h : rs.updateChain t name (fun c => { c with rules := c.rules.map f }) = .ok rs') :
    rs'.Orderly :=
  ho.updateChain (fun s hs ht c hc _ => (ht ▸ ho s hs c hc).map hf) h

/-- The new rule has a handle above those of the rules before it. -/
theorem addRule (ho : rs.Orderly) (hn : rs.Numbered) (hw : rs.lastHandle.toNat + 1 < 2 ^ 64)
    {r : Rule} (h : rs.addRule r = .ok rs') : rs'.Orderly := by
  have htaken : rs.takeHandle.Orderly := ho
  refine htaken.updateChain (fun s hs ht c hc hname => ?_) h
  refine (ht ▸ ho s hs c hc).append rfl hname.symm fun m hm => ?_
  exact UInt64.lt_of_le_of_lt (hn.le_last m (mem_handles hs hc hm)) (Numbered.lt_of_not_wrapped hw)

theorem addChain {s : TableState} {c : Chain} (h : ∀ x ∈ s.chains, x.Orderly t) :
    ∀ x ∈ (s.addChain c).chains, x.Orderly t := by
  obtain ⟨u, cs⟩ := s
  rcases TableState.addChain_cases ⟨u, cs⟩ c with ⟨C, y, hname, rfl, hadd⟩ | ⟨-, hadd⟩
  · rw [hadd]
    intro x hx
    rcases C.mem_fill.1 hx with rfl | hx
    · exact (h y (C.mem_fill.2 (.inl rfl))).rename hname
    · exact h x (C.mem_fill.2 (.inr hx))
  · rw [hadd]
    intro x hx
    rcases List.mem_append.1 hx with hx | hx
    · exact h x hx
    · rw [List.mem_singleton.1 hx]
      exact .empty t c

theorem apply (ho : rs.Orderly) (hn : rs.Numbered) {e : Edit}
    (hw : rs.lastHandle.toNat + e.taken < 2 ^ 64) (h : rs.apply e = .ok rs') : rs'.Orderly := by
  cases e with
  | addTable u =>
    simp only [Ruleset.apply] at h
    split at h
    · cases h
      exact ho
    · cases h
      intro s hm
      rcases List.mem_append.1 hm with hm | hm
      · exact ho s hm
      · rw [List.mem_singleton.1 hm]
        simp
  | addChain c =>
    refine ho.updateTable (fun s s' h => ?_) (fun s s' hs ht h => ?_) h
    · cases h
      exact s.table_addChain c
    · cases h
      exact addChain fun x hx => ht ▸ ho s hs x hx
  | addRule r => exact ho.addRule hn hw h
  | flushChain c =>
    exact ho.updateChain (f := fun s => { s with rules := [] })
      (fun _ _ _ s _ _ => .empty c.table s.chain) h
  | deleteChain c =>
    refine ho.updateTable (fun s s' h => (TableState.sublist_of_deleteChain h).1)
      (fun s s' hs ht h x hx => ?_) h
    exact ht ▸ ho s hs x ((TableState.sublist_of_deleteChain h).2.subset hx)
  | flushTable u =>
    refine ho.updateTable (fun s s' h => ?_) (fun s s' hs ht h => ?_) h
    · cases h
      rfl
    · cases h
      intro x hx
      obtain ⟨y, hy, rfl⟩ := List.mem_map.1 hx
      exact .empty u y.chain
  | deleteTable u =>
    obtain ⟨-, -, rfl⟩ := map_eq_ok_iff.1 h
    exact fun s hm => ho s (List.mem_filter.1 hm).1

theorem drain (ho : rs.Orderly) {name : String} {rules : List Rule}
    (h : rs.drain t name = .ok (rules, rs')) : rs'.Orderly := by
  obtain ⟨c, -, h⟩ := bind_eq_ok_iff.1 h
  obtain ⟨rs'', hu, h⟩ := bind_eq_ok_iff.1 h
  cases h
  exact ho.mapRules (f := Rule.reset) (fun _ => ⟨rfl, rfl, rfl⟩) hu

theorem bump (ho : rs.Orderly) (name label : String) (packets bytes : UInt64) :
    (rs.bump t name label packets bytes).1.Orderly := by
  unfold Ruleset.bump
  simp only
  split
  · next h =>
    refine ho.mapRules (f := fun r => if r.comment == some label then r.bump packets bytes else r)
      (fun r => ?_) h
    split <;> exact ⟨rfl, rfl, rfl⟩
  · exact ho

theorem deliver (ho : rs.Orderly) (p : Packet) : (rs.deliver p).1.Orderly := by
  intro s hm
  simp only [Ruleset.deliver, List.map_map, List.mem_map] at hm
  obtain ⟨x, hx, rfl⟩ := hm
  rw [Function.comp_apply, TableState.deliver]
  split
  · intro c hc
    simp only [List.map_map, List.mem_map] at hc
    obtain ⟨y, hy, rfl⟩ := hc
    exact (ho x hx y hy).deliver p
  · exact ho x hx

end Orderly

/-! ## Whatever happens -/

/-- Tables and chains can be told apart, and every rule is where it says, under a handle of its
own. -/
structure Consistent (rs : Ruleset) : Prop extends Sound rs, Numbered rs where
  orderly : rs.Orderly

theorem Reachable.orderly {n : Nat} {rs : Ruleset} (h : rs.Reachable n) (hn : n < 2 ^ 64) :
    rs.Orderly := by
  induction h with
  | empty => simp [Orderly]
  | applied h ha ih =>
    obtain ⟨hnum, hlast⟩ := h.numbered (by omega)
    exact (ih (by omega)).apply hnum (by omega) ha
  | drained _ hd ih => exact (ih hn).drain hd
  | bumped _ t name label packets bytes ih => exact (ih hn).bump name label packets bytes
  | delivered _ p ih => exact (ih hn).deliver p
  | handleTaken _ ih => exact ih (by omega)

theorem Reachable.consistent {n : Nat} {rs : Ruleset} (h : rs.Reachable n) (hn : n < 2 ^ 64) :
    rs.Consistent :=
  { h.sound, (h.numbered hn).1 with orderly := h.orderly hn }

end Ruleset

end FlowTally

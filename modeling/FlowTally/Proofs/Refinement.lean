import FlowTally.Proofs.Ledger
/-!
# A layout behaves as its ledger

Whatever is done with a layout in whatever order, and whatever calls are made to fail while it is
set up or removed, what comes of it is what the ledger says (`refines`): an operation that fails
leaves the ledger as it was, and a listing without faults reads what is in it. Each step of a client
is one of the ledger (`Ledger.Holds.step`), as long as no one else writes the table.
-/

namespace FlowTally

open Kernel (Client Disturbed)

/-! ## Steps -/

/-- What is done, with the answer that it gets. -/
inductive Layout.Event where
  | setup (set : CounterSet) (answer : Except ReconcileError Unit)
  | cleanup (answer : Except ReconcileError Unit)
  | list (answer : Except ReconcileError CounterSet)
  | bump (table : Table) (chain label : String) (packets bytes : UInt64) (count : Nat)
  /-- what others do with other tables, or so that calls fail -/
  | elsewhere

/-- Steps one after the other. -/
inductive Run {σ ε : Type} (step : σ → ε → σ → Prop) : σ → List ε → σ → Prop where
  | nil (s : σ) : Run step s [] s
  | cons {s s' s'' : σ} {e : ε} {es : List ε} (h : step s e s') (hs : Run step s' es s'') :
    Run step s (e :: es) s''

namespace Layout

/-- What a client does with a layout. Calls can be made to fail at any point of an installation or a
removal, but not while counters are listed. -/
inductive Step (l : Layout) : Client → Event → Client → Prop where
  | setup {c : Client} {s : Disturbed} {set : CounterSet} {r : Except ReconcileError Unit}
    (ahead : List (List Disturbance))
    (hs : ∀ d, (Config.checkCounters l.family d [] 0 (set.get d)).value = .ok ())
    (hr : (l.setup set).run (⟨c, ahead⟩ : Disturbed) = (r, s)) : Step l c (.setup set r) s.client
  | cleanup {c : Client} {s : Disturbed} {r : Except ReconcileError Unit}
    (ahead : List (List Disturbance))
    (hr : l.cleanup.run (⟨c, ahead⟩ : Disturbed) = (r, s)) : Step l c (.cleanup r) s.client
  | list {c c' : Client} {r : Except ReconcileError CounterSet}
    (hc : ∀ f, f ≠ .commit → c.kernel.Ready f)
    (hr : l.listCounters.run.run c = (r, c')) : Step l c (.list r) c'
  | bump {c : Client} {k : Kernel} {t : Table} {chain label : String} {packets bytes : UInt64}
    {count : Nat} (hr : c.kernel.bump t chain label packets bytes = (k, count)) :
    Step l c (.bump t chain label packets bytes count) { c with kernel := k }
  | elsewhere {c c' : Client}
    (h : c'.kernel.ruleset.find? l.table = c.kernel.ruleset.find? l.table) : Step l c .elsewhere c'

end Layout

namespace Ledger

/-- What a listing reads. -/
def report (es : Direction → List Entry) : CounterSet where
  input := (es .input).map (Entry.reading .input)
  output := (es .output).map (Entry.reading .output)

/-- What the ledger says comes of an event. -/
inductive Step (l : Layout) : Ledger → Layout.Event → Ledger → Prop where
  | setup_ok (a : Ledger) (set : CounterSet) : Step l a (.setup set (.ok ())) (fresh set)
  | setup_error (a : Ledger) (set : CounterSet) (e : ReconcileError) :
    Step l a (.setup set (.error e)) a
  | cleanup_ok (a : Ledger) : Step l a (.cleanup (.ok ())) .absent
  | cleanup_error (a : Ledger) (e : ReconcileError) : Step l a (.cleanup (.error e)) a
  | list_absent : Step l .absent (.list (.error (.tableNotFound l.tableName))) .absent
  | list (es : Direction → List Entry) :
    Step l (.installed es) (.list (.ok (report es))) (.installed fun d => (es d).map Entry.clear)
  | bump (es : Direction → List Entry) (d : Direction) (label : String) (packets bytes : UInt64) :
    Step l (.installed es)
      (.bump l.table (l.chainName d) label packets bytes ((es d).countP (·.counter.label = label)))
      (.installed (Function.update es d ((es d).map (Entry.bump label packets bytes))))
  | bump_nothing (a : Ledger) (chain label : String) (packets bytes : UInt64)
    (h : a = .absent ∨ ∀ d, l.chainName d ≠ chain) :
    Step l a (.bump l.table chain label packets bytes 0) a
  | bump_other (a : Ledger) (t : Table) (chain label : String) (packets bytes : UInt64)
    (count : Nat) (h : t ≠ l.table) : Step l a (.bump t chain label packets bytes count) a
  | elsewhere (a : Ledger) : Step l a .elsewhere a

variable {l : Layout} {s : Disturbed} {c c' : Client} {a : Ledger} {es : Direction → List Entry}

/-! ## Listing what is held -/

theorem Holds.listDirection (hne : l.inputChain ≠ l.outputChain)
    (h : (Ledger.installed es).Holds l s.ruleset)
    (hr : ∀ f, f ≠ .commit → s.Ready f) (d : Direction) : ∃ s',
      (l.listDirection l.table d).run.run s = (.ok ((es d).map (Entry.reading d)), s') ∧
      (∀ f, s.Ready f → s'.Ready f) ∧
      (Ledger.installed (Function.update es d ((es d).map Entry.clear))).Holds l s'.ruleset := by
  obtain ⟨rules, rs, hd, hread, hafter⟩ := h.drain hne d
  have hl := l.listDirection_lists d s
  generalize (l.listDirection l.table d).run.run s = r at hl ⊢
  generalize (l.listDirection l.table d).run.drained s = xs at hl
  cases hl with
  | @read rules' s' hr hb hd' =>
    rw [hd] at hd'
    injection hd' with hd'
    injection hd' with hrules hrs
    subst hrules hrs
    exact ⟨s', by rw [hread], hr, hafter⟩
  | missing hk hn =>
    obtain ⟨e, he⟩ := Ruleset.drain_of_none hn
    rw [hd] at he
    cases he
  | failed hk hn => exact absurd ⟨hr _ (by simp), hr _ (by simp)⟩ hn

/-- A listing without faults reads every entry and clears it. -/
theorem Holds.listCounters (hne : l.inputChain ≠ l.outputChain)
    (h : (Ledger.installed es).Holds l s.ruleset) (hr : ∀ f, f ≠ .commit → s.Ready f) :
    ∃ s', l.listCounters.run.run s = (.ok (report es), s') ∧
      (Ledger.installed fun d => (es d).map Entry.clear).Holds l s'.ruleset := by
  have ht := l.findTable_finds s
  rw [Layout.listCounters, Operation.run_bind]
  generalize l.findTable.run.run s = r at ht ⊢
  cases ht with
  | missing hk hn =>
    cases h with
    | installed h => rw [hn] at h; cases h
  | failed hk hn => exact absurd (hr _ (by simp)) hn
  | @found s₁ hk =>
    rw [← hk.ruleset] at h
    obtain ⟨s₂, hi, hr₂, h₂⟩ := h.listDirection hne (fun f hf => hk.ready f (hr f hf)) .input
    obtain ⟨s₃, ho, -, h₃⟩ := h₂.listDirection hne
      (fun f hf => hr₂ f (hk.ready f (hr f hf))) .output
    refine ⟨s₃, ?_, ?_⟩
    · simp only
      rw [Operation.run_bind, hi]
      simp only
      rw [Operation.run_bind, ho]
      rfl
    -- First one chain and then the other is cleared.
    · convert h₃ using 2
      funext d
      cases d <;> rfl

theorem Holds.listCounters_absent (h : Ledger.absent.Holds l s.ruleset)
    (hr : s.Ready .lookupTable) : ∃ s',
      l.listCounters.run.run s = (.error (.tableNotFound l.tableName), s') ∧
      Ledger.absent.Holds l s'.ruleset := by
  have ht := l.findTable_finds s
  rw [Layout.listCounters, Operation.run_bind]
  generalize l.findTable.run.run s = r at ht ⊢
  cases ht with
  | found hk hn =>
    cases h with
    | absent h => rw [h] at hn; cases hn
  | failed hk hn => exact absurd hr hn
  | @missing s' hk hn => exact ⟨s', rfl, h.congr (by rw [hk.ruleset])⟩

/-! ## Every step is one of the ledger -/

theorem Holds.setup (hne : l.inputChain ≠ l.outputChain) (h : a.Holds l s.ruleset)
    {set : CounterSet} (hs : set.Accepted l.family) {r : Except ReconcileError Unit}
    {s' : Disturbed} (hr : (l.setup set).run s = (r, s')) :
    ∃ a', Step l a (.setup set r) a' ∧ a'.Holds l s'.ruleset := by
  have hc := l.setup_commits set s
  rw [hr] at hc
  cases hc with
  | committed hb hr hn =>
    obtain ⟨rs, hrs, hf⟩ := h.install hne set
    rw [hrs] at hn
    injection hn with hn
    subst hn
    exact ⟨_, .setup_ok a set, holds_fresh hs hf⟩
  | failed hb hr hk => exact ⟨a, .setup_error a set _, by rwa [hk]⟩

theorem Holds.cleanup (h : a.Holds l s.ruleset) {r : Except ReconcileError Unit}
    {s' : Disturbed} (hr : l.cleanup.run s = (r, s')) :
    ∃ a', Step l a (.cleanup r) a' ∧ a'.Holds l s'.ruleset := by
  have hc := l.cleanup_commits s
  rw [hr] at hc
  cases hc with
  | committed hb hr hn =>
    injection hn with hn
    exact ⟨_, .cleanup_ok a, .absent (hn ▸ Ruleset.find?_without _ _)⟩
  | failed hb hr hk => exact ⟨a, .cleanup_error a _, by rwa [hk]⟩

theorem Holds.list (hne : l.inputChain ≠ l.outputChain) (h : a.Holds l c.kernel.ruleset)
    (hc : ∀ f, f ≠ .commit → c.kernel.Ready f) {r : Except ReconcileError CounterSet}
    (hr : l.listCounters.run.run c = (r, c')) :
    ∃ a', Step l a (.list r) a' ∧ a'.Holds l c'.kernel.ruleset := by
  -- A client is a disturbed one that nothing happens to.
  let s : Disturbed := ⟨c, []⟩
  have hready : ∀ f, f ≠ .commit → s.Ready f := fun f hf => ⟨rfl, hc f hf⟩
  have hrun : l.listCounters.run.run s = (r, ⟨c', []⟩) := by
    rw [Session.run_undisturbed, hr]
  cases a with
  | absent =>
    obtain ⟨s', hs', ha⟩ := Holds.listCounters_absent (s := s) h (hready _ (by simp))
    rw [hrun] at hs'
    cases hs'
    exact ⟨_, .list_absent, ha⟩
  | installed es =>
    obtain ⟨s', hs', ha⟩ := Holds.listCounters (s := s) hne h hready
    rw [hrun] at hs'
    cases hs'
    exact ⟨_, .list es, ha⟩

theorem Holds.bumped (hne : l.inputChain ≠ l.outputChain) {rs rs' : Ruleset} (h : a.Holds l rs)
    {t : Table} {chain label : String} {packets bytes : UInt64} {count : Nat}
    (hr : rs.bump t chain label packets bytes = (rs', count)) :
    ∃ a', Step l a (.bump t chain label packets bytes count) a' ∧ a'.Holds l rs' := by
  by_cases ht : t = l.table
  · subst ht
    by_cases hc : a = .absent ∨ ∀ d, l.chainName d ≠ chain
    · rw [h.bump_elsewhere hc] at hr
      cases hr
      exact ⟨a, .bump_nothing a chain label packets bytes hc, h⟩
    · rw [not_or, not_forall] at hc
      obtain ⟨ha, d, hd⟩ := hc
      rw [not_not] at hd
      subst hd
      cases a with
      | absent => exact absurd rfl ha
      | installed es =>
        have hb := h.bump hne d label packets bytes
        rw [hr] at hb
        obtain ⟨rfl, hb⟩ := hb
        exact ⟨_, .bump es d label packets bytes, hb⟩
  · have hf : (rs.bump t chain label packets bytes).1.find? l.table = rs.find? l.table :=
      Ruleset.find?_bump_of_ne (Ne.symm ht) chain label packets bytes
    rw [hr] at hf
    exact ⟨a, .bump_other a t chain label packets bytes count ht, h.congr hf⟩

theorem Holds.step (hne : l.inputChain ≠ l.outputChain) (h : a.Holds l c.kernel.ruleset)
    {e : Layout.Event} (hs : l.Step c e c') :
    ∃ a', Step l a e a' ∧ a'.Holds l c'.kernel.ruleset := by
  cases hs with
  | setup ahead hs hr =>
    exact Holds.setup (s := ⟨c, ahead⟩) hne h (Config.checkCounters_eq_ok_iff.1 hs) hr
  | cleanup ahead hr => exact Holds.cleanup (s := ⟨c, ahead⟩) h hr
  | list hc hr => exact h.list hne hc hr
  | bump hr =>
    cases hr
    exact h.bumped hne rfl
  | elsewhere hf => exact ⟨a, .elsewhere a, h.congr hf⟩

/-- Without faults, a layout can be set up and removed at any time. -/
theorem Holds.succeeds (hne : l.inputChain ≠ l.outputChain) (h : a.Holds l c.kernel.ruleset)
    (hc : ∀ f, c.kernel.Ready f) :
    (∀ set, ((l.setup set).run c).1 = .ok ()) ∧ (l.cleanup.run c).1 = .ok () := by
  let s : Disturbed := ⟨c, []⟩
  have hready : ∀ f, s.Ready f := fun f => ⟨rfl, hc f⟩
  have hrun {α : Type} (m : Session α) : (m.run s).1 = (m.run c).1 := by
    rw [Session.run_undisturbed]
  constructor
  · intro set
    obtain ⟨rs, hrs, -⟩ := h.install hne set
    rw [← hrun]
    exact (l.setup_commits set s).ok_of_ready hready hrs
  · rw [← hrun]
    exact (l.cleanup_commits s).ok_of_ready hready rfl

theorem Holds.run (hne : l.inputChain ≠ l.outputChain) {events : List Layout.Event}
    (hrun : Run l.Step c events c') : ∀ {a : Ledger}, a.Holds l c.kernel.ruleset →
      ∃ a', Run (Step l) a events a' ∧ a'.Holds l c'.kernel.ruleset := by
  induction hrun with
  | nil c => exact fun {a} h => ⟨a, .nil a, h⟩
  | cons hs _ ih =>
    intro a h
    obtain ⟨a', ha, h'⟩ := h.step hne hs
    obtain ⟨a'', hrun, h''⟩ := ih h'
    exact ⟨a'', .cons ha hrun, h''⟩

end Ledger

/-- What a client does with a layout whose table was not there at first, and the answers it gets,
are what the ledger says, starting from none. In the end the rule set holds the ledger, and without
faults the layout could be set up with any set or removed. -/
theorem refines {l : Layout} (hne : l.inputChain ≠ l.outputChain) {c c' : Client}
    {events : List Layout.Event} (h : c.kernel.ruleset.find? l.table = none)
    (hrun : Run l.Step c events c') :
    ∃ a, Run (Ledger.Step l) .absent events a ∧ a.Holds l c'.kernel.ruleset ∧
      ((∀ f, c'.kernel.Ready f) →
        (∀ set, ((l.setup set).run c').1 = .ok ()) ∧ (l.cleanup.run c').1 = .ok ()) := by
  obtain ⟨a, ha, h'⟩ := Ledger.Holds.run hne hrun (.absent h)
  exact ⟨a, ha, h', h'.succeeds hne⟩

/-- Counts what comes to a web server. -/
def web : Counter where
  label := "web"
  protocol := some .tcp
  destinationPort := some 80

/-- A client of a kernel that has a table of someone else's. -/
def neighbour : Client where
  kernel := { ruleset := { tables := [⟨⟨.ip, "nat"⟩, []⟩], lastHandle := 7 } }

/-- Between an installation and a removal, another installation fails at its last call. -/
def episode : List Layout.Event :=
  [.setup { input := [web] } (.ok ()),
   .bump (Layout.table {}) "input" "web" 3 180 1,
   .setup {} (.error (.commitFailed (.injected .commit))),
   .list (.ok { input := [{ web with direction := some .input, packets := 3, bytes := 180 }] }),
   .cleanup (.ok ())]

theorem refines_episode : ∃ c', Run (Layout.Step {}) neighbour episode c' ∧
    neighbour.kernel.ruleset.find? (Layout.table {}) = none ∧
    ∃ a, Run (Ledger.Step {}) .absent episode a ∧ a.Holds {} c'.kernel.ruleset ∧
      ((∀ f, c'.kernel.Ready f) →
        (∀ set, ((Layout.setup {} set).run c').1 = .ok ()) ∧
          ((Layout.cleanup {}).run c').1 = .ok ()) := by
  have hweb : ∀ d, (Config.checkCounters (Layout.family {}) d [] 0
      (({ input := [web] } : CounterSet).get d)).value = .ok () := by
    intro d
    cases d <;> decide +kernel
  have hempty : ∀ d, (Config.checkCounters (Layout.family {}) d [] 0
      (({} : CounterSet).get d)).value = .ok () := by
    intro d
    cases d <;> decide +kernel
  have h : neighbour.kernel.ruleset.find? (Layout.table {}) = none := by decide +kernel
  have hrun : ∃ c', Run (Layout.Step {}) neighbour episode c' := by
    refine ⟨_, .cons (.setup [] hweb (Prod.ext ?_ rfl)) (.cons (.bump (Prod.ext rfl ?_))
      (.cons (.setup [[], [], [], [.failNext .commit 1]] hempty (Prod.ext ?_ rfl))
        (.cons (.list ?_ (Prod.ext ?_ rfl)) (.cons (.cleanup [] (Prod.ext ?_ rfl)) (.nil _)))))⟩
    · decide +kernel
    · decide +kernel
    · decide +kernel
    · intro f hf
      cases f <;> decide +kernel
    · decide +kernel
    · decide +kernel
  obtain ⟨c', hrun⟩ := hrun
  exact ⟨c', hrun, h, refines (by decide) h hrun⟩

end FlowTally

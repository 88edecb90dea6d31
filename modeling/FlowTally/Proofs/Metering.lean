import FlowTally.Monitor
import FlowTally.Proofs.Configured
import FlowTally.Proofs.Hosting
/-!
# No count is lost between the kernel and the metrics

While packets come in, counts are raised and counters are polled, what the rule of a counter still
has and what its series has got by then make up all that the rule was given
(`Config.metered_of_validate`). A poll moves the count from the one to the other
(`Monitor.Step.balance`). This needs each series to be that of one counter: its labels begin with
the direction and the label, and in one direction no label comes twice
(`CounterSet.nodup_published`).
-/

namespace FlowTally

open Kernel (Client Disturbed)

/-! ## Published labels -/

/-- The labels of a counter's series, which name the direction that it counts. -/
def Counter.published (d : Direction) (c : Counter) : List (String × String) :=
  ({ c with direction := some d } : Counter).attributes

namespace Counter

theorem take_published {c : Counter} (h : c.label ≠ "") (d : Direction) :
    (c.published d).take 2 = [("direction", d.name), ("label", c.label)] := by
  simp [published, attributes, h]

end Counter

/-- No two counters have one series. -/
theorem CounterSet.nodup_published {family : Family} {s : CounterSet} (h : s.Accepted family) :
    (s.toList.map fun x => x.2.published x.1).Nodup := by
  -- The direction and the label come first, and they are enough to tell counters apart.
  refine List.Nodup.of_map (List.take 2) ?_
  have htake : (s.toList.map fun x => x.2.published x.1).map (List.take 2) =
      s.toList.map fun x => [("direction", x.1.name), ("label", x.2.label)] := by
    rw [List.map_map]
    refine List.map_congr_left fun x hx => ?_
    obtain ⟨d, c⟩ := x
    exact Counter.take_published (h.wellFormed d c (mem_toList_iff.1 hx)).label_ne d
  have hdir (d : Direction) (cs : List Counter) (hcs : (cs.map Counter.label).Nodup) :
      ((cs.map (d, ·)).map fun x => [("direction", x.1.name), ("label", x.2.label)]).Nodup := by
    refine List.Nodup.of_map (fun ls => (ls.getD 1 ("", "")).2) ?_
    rwa [List.map_map, List.map_map]
  rw [htake, toList, List.map_append]
  refine (hdir .input _ (h.labels .input)).append (hdir .output _ (h.labels .output)) ?_
  intro ls hi ho
  simp only [List.map_map, List.mem_map, Function.comp_apply] at hi ho
  obtain ⟨a, -, rfl⟩ := hi
  obtain ⟨b, -, he⟩ := ho
  simp [Direction.name] at he

/-! ## Figures -/

/-- What is counted. -/
inductive Quantity where
  | packets
  | bytes

namespace Quantity

/-- The total that the readings are added to. -/
def metric : Quantity → Metric
  | packets => .flowPacketsTotal
  | bytes => .flowBytesTotal

def pick {α : Type} (q : Quantity) (packets bytes : α) : α :=
  match q with
  | .packets => packets
  | .bytes => bytes

def series (q : Quantity) (d : Direction) (c : Counter) : Series := ⟨q.metric, c.published d⟩

end Quantity

namespace Registry

/-- What a series says. One that is not there says nothing yet. -/
def figure (r : Registry) (s : Series) : UInt64 := (r.get? s).getD 0

variable (r : Registry) (q : Quantity) (labels : List (String × String))

theorem figure_add_of_ne {s : Series} (h : s.metric ≠ q.metric) (n : UInt64) :
    (r.add s n).figure ⟨q.metric, labels⟩ = r.figure ⟨q.metric, labels⟩ := by
  have hs : (⟨q.metric, labels⟩ : Series) ≠ s := fun he => h (by rw [← he])
  rw [figure, get?_add, if_neg hs, figure]

theorem figure_recordCounter (c : Counter) :
    (r.recordCounter c).figure ⟨q.metric, labels⟩ =
      if labels = c.attributes then r.figure ⟨q.metric, labels⟩ + q.pick c.packets c.bytes
      else r.figure ⟨q.metric, labels⟩ := by
  cases q <;> by_cases h : labels = c.attributes <;>
    simp [figure, recordCounter, Quantity.metric, Quantity.pick, h]

variable {labels} {cs : List (Direction × Counter)}

theorem figure_foldl_of_not_mem (h : ∀ x ∈ cs, labels ≠ x.2.attributes) : ∀ r : Registry,
    (cs.foldl (fun r x => r.recordCounter x.2) r).figure ⟨q.metric, labels⟩ =
      r.figure ⟨q.metric, labels⟩ := by
  induction cs with
  | nil => exact fun r => rfl
  | cons y cs ih =>
    intro r
    rw [List.foldl_cons, ih fun x hx => h x (List.mem_cons_of_mem y hx), figure_recordCounter,
      if_neg (h y List.mem_cons_self)]

/-- A series is added to once, for the counter that it is the series of. -/
theorem figure_foldl_of_mem (h : (cs.map fun x => x.2.attributes).Nodup)
    {x : Direction × Counter} (hx : x ∈ cs) : ∀ r : Registry,
    (cs.foldl (fun r x => r.recordCounter x.2) r).figure ⟨q.metric, x.2.attributes⟩ =
      r.figure ⟨q.metric, x.2.attributes⟩ + q.pick x.2.packets x.2.bytes := by
  induction cs with
  | nil => cases hx
  | cons y cs ih =>
    rw [List.map_cons, List.nodup_cons] at h
    have hy : ∀ z ∈ cs, y.2.attributes ≠ z.2.attributes := fun z hz he =>
      h.1 (List.mem_map.2 ⟨z, hz, he.symm⟩)
    intro r
    rw [List.foldl_cons]
    rcases List.mem_cons.1 hx with rfl | hx
    · rw [figure_foldl_of_not_mem q hy, figure_recordCounter, if_pos rfl]
    · rw [ih h.2 hx, figure_recordCounter, if_neg (hy x hx).symm]

end Registry

/-! ## Monitors at work -/

namespace Monitor

/-- What happens while a monitor watches a kernel. -/
inductive Event where
  | deliver (p : Packet)
  | bump (table : Table) (chain label : String) (packets bytes : UInt64)
  | poll

/-- No poll fails. -/
inductive Step (l : Layout) : Monitor Client → Event → Monitor Client → Prop where
  | deliver {k : Kernel} {b : Batch} {r : Registry} (p : Packet) :
    Step l ⟨⟨k, b⟩, r⟩ (.deliver p) ⟨⟨(k.deliver p).1, b⟩, r⟩
  | bump {k : Kernel} {b : Batch} {r : Registry} (t : Table) (chain label : String)
    (packets bytes : UInt64) : Step l ⟨⟨k, b⟩, r⟩ (.bump t chain label packets bytes)
      ⟨⟨(k.bump t chain label packets bytes).1, b⟩, r⟩
  | poll {m m' : Monitor Client} {set : CounterSet} (h : (m.poll l).value = (.ok set, m')) :
    Step l m .poll m'

namespace Event

variable (l : Layout) (d : Direction)

/-- What is added to the rule of a counter. -/
def added (q : Quantity) (c : Counter) : Event → Nat
  | deliver p =>
    if l.family.carries p ∧ p.direction = d ∧ c.Matches p then (q.pick 1 p.length).toNat else 0
  | bump t chain label packets bytes =>
    if t = l.table ∧ chain = l.chainName d ∧ label = c.label then (q.pick packets bytes).toNat
    else 0
  | poll => 0

/-- What becomes of an entry of a direction. -/
def after (e : Entry) : Event → Entry
  | deliver p => if l.family.carries p ∧ p.direction = d then e.count p else e
  | bump t chain label packets bytes =>
    if (l.table, l.chainName d) = (t, chain) then e.bump label packets bytes else e
  | poll => e.clear

@[simp]
theorem counter_after (e : Entry) (x : Event) : (x.after l d e).counter = e.counter := by
  cases x with
  | deliver p => rw [after]; split <;> simp
  | bump t chain label packets bytes => rw [after]; split <;> simp
  | poll => rfl

end Event

end Monitor

namespace Quantity

variable (q : Quantity)

def ofEntry (e : Entry) : UInt64 := q.pick e.packets e.bytes

theorem toNat_ofEntry_raised {e : Entry} {packets bytes : UInt64}
    (h : (q.ofEntry e).toNat + (q.pick packets bytes).toNat < 2 ^ 64) :
    (q.ofEntry { e with packets := e.packets + packets, bytes := e.bytes + bytes }).toNat =
      (q.ofEntry e).toNat + (q.pick packets bytes).toNat := by
  have hadd : q.ofEntry { e with packets := e.packets + packets, bytes := e.bytes + bytes } =
      q.ofEntry e + q.pick packets bytes := by cases q <;> rfl
  rw [hadd, UInt64.toNat_add, Nat.mod_eq_of_lt h]

/-- Between polls, what is added to a rule is what it has more. -/
theorem toNat_ofEntry_after {l : Layout} {d : Direction} {e : Entry} {x : Monitor.Event}
    (hx : x ≠ .poll) (h : (q.ofEntry e).toNat + x.added l d q e.counter < 2 ^ 64) :
    (q.ofEntry (x.after l d e)).toNat = (q.ofEntry e).toNat + x.added l d q e.counter := by
  cases x with
  | poll => exact absurd rfl hx
  | deliver p =>
    rw [Monitor.Event.after, Entry.count]
    rw [Monitor.Event.added] at h ⊢
    by_cases hp : l.family.carries p ∧ p.direction = d
    · by_cases hm : e.counter.Matches p
      · have ha : l.family.carries p ∧ p.direction = d ∧ e.counter.Matches p := ⟨hp.1, hp.2, hm⟩
        rw [if_pos ha] at h
        rw [if_pos hp, if_pos hm, if_pos ha, q.toNat_ofEntry_raised h]
      · rw [if_pos hp, if_neg hm, if_neg fun ha => hm ha.2.2, Nat.add_zero]
    · rw [if_neg hp, if_neg fun ha => hp ⟨ha.1, ha.2.1⟩, Nat.add_zero]
  | bump t chain label packets bytes =>
    rw [Monitor.Event.after, Entry.bump]
    rw [Monitor.Event.added] at h ⊢
    by_cases hc : (l.table, l.chainName d) = (t, chain)
    · cases hc
      by_cases hl : e.counter.label = label
      · subst hl
        rw [if_pos ⟨rfl, rfl, rfl⟩] at h
        rw [if_pos rfl, if_pos rfl, if_pos ⟨rfl, rfl, rfl⟩, q.toNat_ofEntry_raised h]
      · rw [if_pos rfl, if_neg hl, if_neg fun ha => hl ha.2.2.symm, Nat.add_zero]
    · rw [if_neg hc, if_neg fun ha => hc (by rw [ha.1, ha.2.1]), Nat.add_zero]

end Quantity

namespace Monitor

variable {l : Layout} {set : CounterSet} {m m' : Monitor Client} {es : Direction → List Entry}

/-- What the series of an entry has, and what its rule still has. -/
def balance (m : Monitor Client) (q : Quantity) (d : Direction) (e : Entry) : Nat :=
  (m.registry.figure (q.series d e.counter)).toNat + (q.ofEntry e).toNat

/-- The monitored kernel hosts entries of the counters of a set. -/
structure Watches (l : Layout) (set : CounterSet) (m : Monitor Client)
    (es : Direction → List Entry) : Prop where
  hosts : l.Hosts m.transport.kernel.ruleset es
  counters : ∀ d, (es d).map Entry.counter = set.get d

namespace Watches

theorem mem_set (h : Watches l set m es) {d : Direction} {e : Entry} (he : e ∈ es d) :
    e.counter ∈ set.get d := h.counters d ▸ List.mem_map_of_mem he

theorem nodup_report (hs : set.Accepted l.family) (h : Watches l set m es) :
    ((Ledger.report es).toList.map fun x => x.2.attributes).Nodup := by
  have hdir (d : Direction) : ((es d).map (Entry.reading d)).map Counter.attributes =
      (set.get d).map (Counter.published d) := by
    rw [← h.counters d, List.map_map, List.map_map]
    rfl
  have hn := CounterSet.nodup_published hs
  have hin := hdir .input
  have hout := hdir .output
  simp only [CounterSet.toList, CounterSet.get, Ledger.report, List.map_append, List.map_map,
    Function.comp_def] at hn hin hout ⊢
  rwa [hin, hout]

/-- A poll that succeeds moves what the rules have counted to their series. -/
theorem poll (hne : l.inputChain ≠ l.outputChain) (hs : set.Accepted l.family)
    (h : Watches l set m es) {reading : CounterSet}
    (hp : (m.poll l).value = (.ok reading, m')) :
    l.Hosts m'.transport.kernel.ruleset (fun d => (es d).map Entry.clear) ∧
      ∀ d, ∀ e ∈ es d, ∀ q : Quantity, m'.registry.figure (q.series d e.counter) =
        m.registry.figure (q.series d e.counter) + q.ofEntry e := by
  simp only [Monitor.poll, Logged.value_bind, Layout.collect] at hp
  generalize hr : l.listCounters.run.run m.transport = r at hp
  obtain ⟨e | set', c⟩ := r
  · cases hp
  cases hp
  let s : Disturbed := ⟨m.transport, []⟩
  have hrun : l.listCounters.run.run s = (.ok reading, ⟨c, []⟩) := by
    rw [Session.run_undisturbed, hr]
  obtain ⟨hread, hhosts⟩ := Layout.Hosts.of_listCounters (s := s) hne h.hosts
    (fun d e he => hs.wellFormed d _ (h.mem_set he)) hrun
  refine ⟨hhosts, fun d e he q => ?_⟩
  have hmem : (d, e.reading d) ∈ reading.toList := by
    rw [hread, CounterSet.mem_toList_iff]
    cases d <;> exact List.mem_map_of_mem he
  have hfold := Registry.figure_foldl_of_mem q (hread ▸ h.nodup_report hs) hmem
    (m.registry.add ⟨.pollsTotal, []⟩ 1)
  rw [m.registry.figure_add_of_ne q _ (by cases q <;> decide)] at hfold
  exact hfold

/-- What happens to a rule and its series is what happens to its entry, and they have what was
added more than before. -/
theorem step (hne : l.inputChain ≠ l.outputChain) (hs : set.Accepted l.family)
    (h : Watches l set m es) {x : Event} (hx : Step l m x m') :
    Watches l set m' (fun d => (es d).map (x.after l d)) ∧
      ∀ d, ∀ e ∈ es d, ∀ q : Quantity, m.balance q d e + x.added l d q e.counter < 2 ^ 64 →
        m'.balance q d (x.after l d e) = m.balance q d e + x.added l d q e.counter := by
  have hcounters (d : Direction) : ((es d).map (x.after l d)).map Entry.counter = set.get d := by
    rw [List.map_map, ← h.counters d]
    exact List.map_congr_left fun e _ => x.counter_after l d e
  have hraised (d : Direction) (e : Entry) (q : Quantity) (hp : x ≠ .poll)
      (hm : m'.registry = m.registry) (hlt : m.balance q d e + x.added l d q e.counter < 2 ^ 64) :
      m'.balance q d (x.after l d e) = m.balance q d e + x.added l d q e.counter := by
    unfold balance at hlt ⊢
    rw [hm, x.counter_after, q.toNat_ofEntry_after hp (by omega), Nat.add_assoc]
  cases hx with
  | deliver p =>
    exact ⟨⟨h.hosts.deliver p, hcounters⟩, fun d e _ q hlt => hraised d e q (by simp) rfl hlt⟩
  | bump t chain label packets bytes =>
    exact ⟨⟨h.hosts.bump t chain label packets bytes, hcounters⟩,
      fun d e _ q hlt => hraised d e q (by simp) rfl hlt⟩
  | poll hp =>
    obtain ⟨hhosts, hfigure⟩ := h.poll hne hs hp
    refine ⟨⟨hhosts, hcounters⟩, fun d e he q hlt => ?_⟩
    have hclear : q.ofEntry (Event.poll.after l d e) = 0 := by cases q <;> rfl
    unfold balance Event.added at hlt ⊢
    rw [Event.counter_after, hfigure d e he q, hclear, UInt64.toNat_add,
      Nat.mod_eq_of_lt (by omega)]
    rfl

theorem run (hne : l.inputChain ≠ l.outputChain) (hs : set.Accepted l.family)
    {events : List Event} (hrun : Run (Step l) m events m') :
    ∀ {es : Direction → List Entry}, Watches l set m es →
      ∃ after : Direction → Entry → Entry, Watches l set m' (fun d => (es d).map (after d)) ∧
        ∀ d, ∀ e ∈ es d, (after d e).counter = e.counter ∧ ∀ q : Quantity,
          m.balance q d e + (events.map (·.added l d q e.counter)).sum < 2 ^ 64 →
            m'.balance q d (after d e) =
              m.balance q d e + (events.map (·.added l d q e.counter)).sum := by
  induction hrun with
  | nil m =>
    intro es h
    exact ⟨fun _ e => e, by simpa using h, fun d e _ => ⟨rfl, fun q _ => rfl⟩⟩
  | @cons m₀ m₁ m₂ x events hx _ ih =>
    intro es h
    obtain ⟨h₁, hstep⟩ := h.step hne hs hx
    obtain ⟨after, h₂, hafter⟩ := ih h₁
    refine ⟨fun d e => after d (x.after l d e), by simpa [Function.comp_def] using h₂, ?_⟩
    intro d e he
    obtain ⟨hcounter, hbalance⟩ := hafter d _ (List.mem_map_of_mem he)
    rw [x.counter_after] at hcounter hbalance
    refine ⟨hcounter, fun q hlt => ?_⟩
    rw [List.map_cons, List.sum_cons, ← Nat.add_assoc] at hlt ⊢
    have hfirst := hstep d e he q (by omega)
    rw [hbalance q (by omega), hfirst]

end Watches

end Monitor

/-- After an accepted configuration has been set up, whatever packets come in, counts are raised and
polls succeed: each counter has its rule in its place, with what the rule had counted since it was
polled. As long as it does not overflow, the total under the counter's labels and that count make up
what the total was at first and all that was added to the rule since. No two counters have the same
labels. -/
theorem Config.metered_of_validate {config : Config} (hv : config.validate.value = .ok ())
    {c c' : Client} (hs : c.kernel.ruleset.Sound)
    (hsetup : (config.layout.setup config.counters).run c = (.ok (), c')) {r : Registry}
    {events : List Monitor.Event} {m : Monitor Client}
    (hrun : Run (Monitor.Step config.layout) ⟨c', r⟩ events m) :
    (config.counters.toList.map fun x => x.2.published x.1).Nodup ∧
    ∀ d, (m.transport.kernel.ruleset.rules config.layout.table (config.layout.chainName d)).length =
        (config.counters.get d).length ∧
      ∀ (i : Nat) (k : Counter), (config.counters.get d)[i]? = some k → ∃ handle packets bytes,
        (m.transport.kernel.ruleset.rules config.layout.table (config.layout.chainName d))[i]? =
          some (Rule.installed (config.layout.chain d) k handle packets bytes) ∧
        ∀ q : Quantity, (r.figure (q.series d k)).toNat +
            (events.map (·.added config.layout d q k)).sum < 2 ^ 64 →
          (m.registry.figure (q.series d k)).toNat + (q.pick packets bytes).toNat =
            (r.figure (q.series d k)).toNat +
              (events.map (·.added config.layout d q k)).sum := by
  have hne := chains_ne (settingFault_of_validate hv)
  have hset := accepted_of_validate hv
  let s : Disturbed := ⟨c, []⟩
  have hdone : (config.layout.setup config.counters).run s = (.ok (), ⟨c', []⟩) := by
    rw [Session.run_undisturbed, hsetup]
  have hwatch : Monitor.Watches config.layout config.counters ⟨c', r⟩
      fun d => (config.counters.get d).map fun c => { counter := c } :=
    ⟨Layout.Hosts.of_setup (s := s) hne hs hdone, fun d => by simp [Function.comp_def]⟩
  obtain ⟨after, hend, hafter⟩ := Monitor.Watches.run hne hset hrun hwatch
  refine ⟨CounterSet.nodup_published hset, fun d => ?_⟩
  obtain ⟨rules, hfind, hheld⟩ := hend.hosts d
  rw [Ruleset.rules_eq_getD, hfind, Option.map_some, Option.getD_some]
  refine ⟨by simpa using hheld.length_eq, fun i k hk => ?_⟩
  obtain ⟨hcounter, hbalance⟩ := hafter d { counter := k }
    (List.mem_map_of_mem (List.mem_of_getElem? hk))
  obtain ⟨_, hr, handle, rfl⟩ := Entry.exists_held hheld (i := i)
    (e := after d { counter := k }) (by simp [hk])
  rw [hcounter] at hr
  refine ⟨handle, _, _, hr, fun q hlt => ?_⟩
  have h0 : (q.ofEntry { counter := k }).toNat = 0 := by cases q <;> rfl
  have hq := hbalance q
  simp only [Monitor.balance, hcounter, h0, Nat.add_zero] at hq
  exact hq hlt

/-- One label in both directions. -/
def bothWays : Config where
  counters.input := [web]
  counters.output := [{ label := "web" }]

/-- What a visitor of the web server sends. -/
def visit : Packet :=
  .tcp .input (.v4 ⟨[10, 0, 0, 3], rfl⟩) (.v4 ⟨[10, 0, 0, 2], rfl⟩) 40000 80 2

/-- Two visits with a poll after the first, and counts that are raised between them. -/
def visits : List Monitor.Event :=
  [.deliver visit, .poll, .bump bothWays.layout.table "output" "web" 3 180, .deliver visit]

theorem Config.metered_of_validate_bothWays :
    bothWays.validate.value = .ok () ∧ neighbour.kernel.ruleset.Sound ∧
    ∃ c', (bothWays.layout.setup bothWays.counters).run neighbour = (.ok (), c') ∧
    ∃ m, Run (Monitor.Step bothWays.layout) ⟨c', {}⟩ visits m ∧
    (bothWays.counters.toList.map fun x => x.2.published x.1).Nodup ∧
    ∀ d, (m.transport.kernel.ruleset.rules bothWays.layout.table
        (bothWays.layout.chainName d)).length = (bothWays.counters.get d).length ∧
      ∀ (i : Nat) (k : Counter), (bothWays.counters.get d)[i]? = some k → ∃ handle packets bytes,
        (m.transport.kernel.ruleset.rules bothWays.layout.table (bothWays.layout.chainName d))[i]? =
          some (Rule.installed (bothWays.layout.chain d) k handle packets bytes) ∧
        ∀ q : Quantity, (({} : Registry).figure (q.series d k)).toNat +
            (visits.map (·.added bothWays.layout d q k)).sum < 2 ^ 64 →
          (m.registry.figure (q.series d k)).toNat + (q.pick packets bytes).toNat =
            (({} : Registry).figure (q.series d k)).toNat +
              (visits.map (·.added bothWays.layout d q k)).sum := by
  have hv : bothWays.validate.value = .ok () := by decide +kernel
  have hs : neighbour.kernel.ruleset.Sound := by
    refine ⟨by decide, ?_⟩
    simp only [neighbour, List.forall_mem_cons, List.not_mem_nil, false_imp_iff, implies_true,
      and_true]
    exact ⟨by simp, by simp⟩
  have hsetup : ∃ c', (bothWays.layout.setup bothWays.counters).run neighbour = (.ok (), c') :=
    ⟨_, Prod.ext (by decide +kernel) rfl⟩
  obtain ⟨c', hsetup⟩ := hsetup
  have hrun : ∃ m, Run (Monitor.Step bothWays.layout) ⟨c', {}⟩ visits m := by
    obtain rfl : ((bothWays.layout.setup bothWays.counters).run neighbour).2 = c' := by rw [hsetup]
    refine ⟨_, .cons (.deliver visit) (.cons (.poll (Prod.ext ?_ rfl))
      (.cons (.bump _ _ _ _ _) (.cons (.deliver visit) (.nil _))))⟩
    decide +kernel
  obtain ⟨m, hrun⟩ := hrun
  exact ⟨hv, hs, c', hsetup, m, hrun, Config.metered_of_validate hv hs hsetup hrun⟩

end FlowTally

import FlowTally.Daemon
import FlowTally.Proofs.Configured
import FlowTally.Proofs.Hosting
/-!
# What a daemon leaves alone

A daemon works on one table. Whatever calls are made to fail while it is set up, polls and is shut
down, the other tables stay as they would be without it. The rules that were compiled from its
configuration stay in their chains until it is told to remove them (`Daemon.Intact`), and then
either the whole table is gone or nothing has happened. `Daemon.lifetime` goes through a daemon's
life from beginning to end. Of packets it says what they do; without any, nothing else happens.
-/

namespace FlowTally

open Kernel (Disturbed)

/-! ## The other tables -/

namespace Ruleset

/-- The tables besides one, with all that is in them. -/
def others (rs : Ruleset) (t : Table) : List TableState := rs.tables.filter (·.table ≠ t)

/-- What packets make of a rule set. -/
def deliverAll (rs : Ruleset) (packets : List Packet) : Ruleset :=
  packets.foldl (fun rs p => (rs.deliver p).1) rs

variable {rs rs' : Ruleset} {t : Table}

theorem others_deliver (rs : Ruleset) (t : Table) (p : Packet) :
    (rs.deliver p).1.others t = (rs.others t).map fun s => (s.deliver p).1 := by
  simp [others, deliver, List.filter_map, Function.comp_def]

theorem others_deliver_congr (h : rs.others t = rs'.others t) (p : Packet) :
    (rs.deliver p).1.others t = (rs'.deliver p).1.others t := by
  rw [others_deliver, others_deliver, h]

theorem others_clear (rs : Ruleset) (t : Table) (name : String) :
    (rs.clear (t, name)).others t = rs.others t := by
  cases hf : rs.findChain? t name with
  | none => rw [clear_of_none hf]
  | some cs =>
    obtain ⟨hc, P, C, hP⟩ := exists_fill_chain hf
    rw [hP, clear_of_drain (drain_fill P C hc)]
    simp [others, Slot.fill]

/-- Clearing does to a chain what reading it does. -/
theorem findChain?_clear (rs : Ruleset) (x : Table × String) (t : Table) (name : String) :
    (rs.clear x).findChain? t name = (rs.findChain? t name).map fun cs =>
      if (t, name) = x then { cs with rules := cs.rules.map Rule.reset } else cs := by
  obtain ⟨u, m⟩ := x
  cases hf : rs.findChain? u m with
  | none =>
    rw [clear_of_none hf]
    by_cases hx : (t, name) = (u, m)
    · cases hx
      rw [hf, Option.map_none]
    · simp [hx]
  | some cs =>
    obtain ⟨hc, P, C, hP⟩ := exists_fill_chain hf
    have hd := drain_fill P C hc (n := rs.lastHandle)
    rw [← hP] at hd
    rw [clear_of_drain hd, (findChain?_drain hd).2]

end Ruleset

/-! ## The rules of a configuration -/

namespace Layout

theorem Hosts.clear {l : Layout} {rs : Ruleset} {es : Direction → List Entry} (h : l.Hosts rs es)
    (x : Table × String) : l.Hosts (rs.clear x) fun d => (es d).map fun e =>
      if (l.table, l.chainName d) = x then e.clear else e := by
  refine h.congr (fun d => rs.findChain?_clear x _ _) fun d rules hr => ?_
  split
  · exact ⟨_, rfl, Entry.held_reset hr⟩
  · exact ⟨rules, rfl, by rwa [List.map_id']⟩

/-- What is left of a rule set on which the counters of a set were installed, packets or none having
come since: all but the table is as the packets alone would have made it, and both chains still have
the compiled rules of their counters, which have counted only if there was something to count. -/
structure Intact (l : Layout) (set : CounterSet) (start : Ruleset) (packets : List Packet)
    (rs : Ruleset) : Prop where
  others : rs.others l.table = (start.deliverAll packets).others l.table
  hosts : ∃ es : Direction → List Entry, l.Hosts rs es ∧
    (∀ d, (es d).map Entry.counter = set.get d) ∧
    (packets = [] → ∀ d, ∀ e ∈ es d, e.packets = 0 ∧ e.bytes = 0)

namespace Intact

variable {l : Layout} {set : CounterSet} {start rs : Ruleset} {packets : List Packet}

theorem deliver (h : l.Intact set start packets rs) (p : Packet) :
    l.Intact set start (packets ++ [p]) (rs.deliver p).1 := by
  obtain ⟨es, hes, hcounter, -⟩ := h.hosts
  constructor
  · rw [Ruleset.others_deliver_congr h.others, Ruleset.deliverAll, Ruleset.deliverAll,
      List.foldl_append]
    rfl
  · refine ⟨_, hes.deliver p, fun d => ?_, by simp⟩
    rw [List.map_map, ← hcounter d]
    refine List.map_congr_left fun e _ => ?_
    simp only [Function.comp_apply]
    split
    · exact e.counter_count p
    · rfl

theorem clear (h : l.Intact set start packets rs) (name : String) :
    l.Intact set start packets (rs.clear (l.table, name)) := by
  obtain ⟨es, hes, hcounter, hidle⟩ := h.hosts
  constructor
  · rw [Ruleset.others_clear, h.others]
  · refine ⟨_, hes.clear (l.table, name), fun d => ?_, fun hp d e he => ?_⟩
    · rw [List.map_map, ← hcounter d]
      refine List.map_congr_left fun e _ => ?_
      simp only [Function.comp_apply]
      split <;> rfl
    · obtain ⟨e', he', rfl⟩ := List.mem_map.1 he
      split
      · exact ⟨rfl, rfl⟩
      · exact hidle hp d e' he'

theorem foldl_clear {xs : List (Table × String)} (hx : ∀ x ∈ xs, x.1 = l.table) :
    ∀ {rs : Ruleset}, l.Intact set start packets rs →
      l.Intact set start packets (xs.foldl Ruleset.clear rs) := by
  induction xs with
  | nil => exact fun h => h
  | cons x xs ih =>
    intro rs h
    obtain ⟨t, name⟩ := x
    obtain rfl : t = l.table := hx _ List.mem_cons_self
    exact ih (fun x h => hx x (List.mem_cons_of_mem _ h)) (h.clear name)

/-- An installation that succeeds leaves the rules of its set, and the other tables alone. -/
theorem of_setup {s s' : Disturbed} (hne : l.inputChain ≠ l.outputChain) (hs : s.ruleset.Sound)
    (h : (l.setup set).run s = (.ok (), s')) : l.Intact set s.ruleset [] s'.ruleset := by
  constructor
  · have hc := l.setup_commits set s
    obtain ⟨rs, happly, hreplaces⟩ := exists_replaces hne hs set
    rw [h, happly] at hc
    generalize hx : ((.ok (), s') : Except ReconcileError Unit × Disturbed) = r at hc
    cases hc with
    | failed => cases hx
    | committed hb hr hn =>
      cases hx
      cases hn
      exact hreplaces.tables
  · refine ⟨_, Hosts.of_setup hne hs h, fun d => by simp [Function.comp_def], fun _ d e he => ?_⟩
    obtain ⟨c, -, rfl⟩ := List.mem_map.1 he
    exact ⟨rfl, rfl⟩

end Intact

/-! ## Polls -/

variable (l : Layout)

theorem drained_listDirection (d : Direction) (s : Disturbed) :
    ∀ x ∈ (l.listDirection l.table d).run.drained s, x.1 = l.table := by
  have h := l.listDirection_lists d s
  generalize (l.listDirection l.table d).run.run s = r at h
  generalize (l.listDirection l.table d).run.drained s = xs at h ⊢
  cases h <;> simp

/-- Only chains of the table are read. -/
theorem drained_listCounters (s : Disturbed) :
    ∀ x ∈ l.listCounters.run.drained s, x.1 = l.table := by
  have ht := l.findTable_finds s
  rw [listCounters, Operation.drained_bind, l.drained_findTable, List.nil_append]
  generalize l.findTable.run.run s = r at ht ⊢
  cases ht with
  | missing | failed => simp
  | @found s₁ =>
    have hinput := l.drained_listDirection .input s₁
    simp only [Operation.drained_bind]
    generalize (l.listDirection l.table .input).run.run s₁ = r
    obtain ⟨e | input, s₂⟩ := r
    · simpa using hinput
    · have houtput := l.drained_listDirection .output s₂
      simp only
      have hnil : ∀ x ∈ ([] : List (Table × String)), x.1 = l.table := by simp
      generalize (l.listDirection l.table .output).run.run s₂ = r
      obtain ⟨e | output, s₃⟩ := r <;>
        exact List.forall_mem_append.2 ⟨hinput, List.forall_mem_append.2 ⟨houtput, hnil⟩⟩

end Layout

/-! ## A daemon's life -/

/-- The packet, if that is what happens. -/
def Event.packet? : Event → Option Packet
  | packet p => some p
  | poll => none

namespace Kernel.Disturbed

/-- Sends a packet through the kernel. -/
def deliver (p : Packet) (s : Disturbed) : Disturbed :=
  { s with client.kernel := (s.client.kernel.deliver p).1 }

end Kernel.Disturbed

namespace Daemon

/-- The ways in which a daemon can come up, or not: the configuration is refused and nothing is
done, or a call was made to fail and nothing has changed, or its rules are there. -/
inductive Builds (c : Config) (keepRules : Bool) (m : Monitor Disturbed) :
    Except DaemonError Daemon × Monitor Disturbed → Prop where
  | invalid {cause : Invalid} (hv : c.validate.value = .error cause) :
    Builds c keepRules m (.error (.invalid cause), m)
  | failed {cause : ReconcileError} {s : Disturbed} (hv : c.validate.value = .ok ())
    (hs : s.ruleset = m.transport.ruleset) (hr : ¬ ∀ f, m.transport.Ready f) :
    Builds c keepRules m (.error (.setup cause), { m with transport := s })
  | built {m' : Monitor Disturbed} (hv : c.validate.value = .ok ())
    (hi : c.layout.Intact c.counters m.transport.ruleset [] m'.transport.ruleset) :
    Builds c keepRules m (.ok ⟨c, keepRules⟩, m')

/-- The ways in which a daemon can end: it leaves its rules, or removes the table and nothing else,
or a call was made to fail and nothing has changed. -/
inductive Ends (d : Daemon) (m : Monitor Disturbed) :
    Except DaemonError Unit × Monitor Disturbed → Prop where
  | kept (hk : d.keepRules = true) : Ends d m (.ok (), m)
  | removed {s : Disturbed} (hk : d.keepRules = false)
    (hs : s.ruleset.find? d.config.layout.table = none)
    (ho : s.ruleset.tables = m.transport.ruleset.others d.config.layout.table) :
    Ends d m (.ok (), { m with transport := s })
  | failed {cause : ReconcileError} {s : Disturbed} (hk : d.keepRules = false)
    (hs : s.ruleset = m.transport.ruleset) (hr : ¬ ∀ f, m.transport.Ready f) :
    Ends d m (.error (.cleanup cause), { m with transport := s })

/-- A configuration that is not valid is refused without a call. -/
theorem build_of_invalid {σ : Type} [Transport σ] {c : Config} {cause : Invalid}
    (h : c.validate.value = .error cause) (keepRules : Bool) (m : Monitor σ) :
    (build c keepRules m).value = (.error (.invalid cause), m) := by
  rw [build, Logged.value_bind, h]
  rfl

theorem build_builds (c : Config) (keepRules : Bool) {m : Monitor Disturbed}
    (hs : m.transport.ruleset.Sound) : Builds c keepRules m (build c keepRules m).value := by
  cases hv : c.validate.value with
  | error cause =>
    rw [build_of_invalid hv]
    exact .invalid hv
  | ok _ =>
    have hne := Config.chains_ne (Config.settingFault_of_validate hv)
    obtain ⟨rs, happly, -⟩ := Layout.exists_replaces hne hs c.counters
    have hset := c.layout.setup_commits c.counters m.transport
    rw [happly] at hset
    have hintact (s : Disturbed) : (c.layout.setup c.counters).run m.transport = (.ok (), s) →
        c.layout.Intact c.counters m.transport.ruleset [] s.ruleset := .of_setup hne hs
    rw [build, Logged.value_bind, hv]
    simp only
    generalize (c.layout.setup c.counters).run m.transport = r at hset hintact ⊢
    cases hset with
    | @committed s hb hr hn => exact .built hv (hintact s rfl)
    | failed hb hr hs h => exact .failed hv hs fun hready => by simpa using h hready

theorem shutdown_ends (d : Daemon) (m : Monitor Disturbed) : Ends d m (d.shutdown m) := by
  unfold shutdown
  cases hk : d.keepRules with
  | true => exact .kept hk
  | false =>
    have h := d.config.layout.cleanup_commits m.transport
    simp only [Bool.false_eq_true, if_false]
    generalize d.config.layout.cleanup.run m.transport = r at h ⊢
    cases h with
    | @committed s hb hr hn =>
      have hs : m.transport.ruleset.without d.config.layout.table = s.ruleset := Except.ok.inj hn
      exact .removed hk (by rw [← hs, Ruleset.find?_without]) (by rw [← hs]; rfl)
    | failed hb hr hs h => exact .failed hk hs fun hready => by simpa using h hready

/-- A poll clears what it reads, also if it fails. -/
theorem ruleset_tick (d : Daemon) (m : Monitor Disturbed) :
    (d.tick m).value.transport.ruleset =
      (d.config.layout.listCounters.run.drained m.transport).foldl Ruleset.clear
        m.transport.ruleset := by
  rw [← Session.run_reads d.config.layout.reads_listCounters]
  simp only [tick, Monitor.poll, Layout.collect, Logged.value_bind]
  generalize d.config.layout.listCounters.run.run m.transport = r
  obtain ⟨e | set, s⟩ := r <;> rfl

/-- Packets and polls leave the rules of a configuration in place, and the other tables to the
packets. -/
theorem serve_intact {d : Daemon} {set : CounterSet} {start : Ruleset} (events : List Event) :
    ∀ {packets : List Packet} {m : Monitor Disturbed},
      d.config.layout.Intact set start packets m.transport.ruleset →
      d.config.layout.Intact set start (packets ++ events.filterMap Event.packet?)
        (d.serve Disturbed.deliver events m).value.transport.ruleset := by
  induction events with
  | nil =>
    intro packets m h
    rw [List.filterMap_nil, List.append_nil]
    exact h
  | cons x events ih =>
    intro packets m h
    cases x with
    | packet p =>
      have hp := ih (m := { m with transport := m.transport.deliver p }) (h.deliver p)
      rwa [List.append_assoc] at hp
    | poll =>
      -- A poll only clears chains of the table, however far it got.
      have ht := h.foldl_clear (d.config.layout.drained_listCounters m.transport)
      rw [← d.ruleset_tick m] at ht
      exact ih ht

/-- An invalid configuration is refused without a call, over any transport. Otherwise a daemon comes
up with the rules of its configuration, or has changed nothing since a call was made to fail.
Packets and polls, be they answered or not, leave these rules in place and the other tables to the
packets, and in the end the rules are left there, or the table is gone and nothing else, or again
nothing has changed. -/
theorem lifetime (c : Config) (keepRules : Bool) {m : Monitor Disturbed} {n : Nat}
    (h : m.transport.ruleset.Reachable n) (events : List Event) :
    (∀ cause, c.validate.value = .error cause → ∀ {σ : Type} [Transport σ] (m : Monitor σ),
      (build c keepRules m).value = (.error (.invalid cause), m)) ∧
    Builds c keepRules m (build c keepRules m).value ∧
    ∀ d m₀, (build c keepRules m).value = (.ok d, m₀) →
      d = ⟨c, keepRules⟩ ∧
      c.layout.Intact c.counters m.transport.ruleset (events.filterMap Event.packet?)
        (d.serve Disturbed.deliver events m₀).value.transport.ruleset ∧
      Ends d (d.serve Disturbed.deliver events m₀).value
        (d.run Disturbed.deliver events m₀).value := by
  have hbuilds := build_builds c keepRules h.sound
  refine ⟨fun cause hv σ _ m => build_of_invalid hv keepRules m, hbuilds, fun d m₀ hbuild => ?_⟩
  rw [hbuild] at hbuilds
  generalize hx : ((.ok d, m₀) : Except DaemonError Daemon × Monitor Disturbed) = r at hbuilds
  cases hbuilds with
  | invalid | failed => cases hx
  | built hv hi =>
    cases hx
    have hserve := serve_intact (d := ⟨c, keepRules⟩) events hi
    rw [List.nil_append] at hserve
    exact ⟨rfl, hserve, shutdown_ends _ _⟩

/-- A kernel with a rule of someone else's in another table, where the first reading of a chain is
going to fail. -/
def guest : Monitor Disturbed where
  transport := {
    client := ⟨{ ruleset := {
      tables := [⟨⟨.inet, "nat"⟩, [⟨⟨⟨.inet, "nat"⟩, "forward", none⟩,
        [{ table := ⟨.inet, "nat"⟩, chain := "forward", handle := some 1,
           exprs := [.counter 0 0] }]⟩]⟩]
      lastHandle := 1 } }, []⟩
    ahead := [[.failNext .drainRules 1]] }

theorem lifetime_guest :
    guest.transport.ruleset.Reachable 1 ∧
    ∃ d m₀, (build Config.webServer false guest).value = (.ok d, m₀) ∧
      d = ⟨Config.webServer, false⟩ ∧
      Config.webServer.layout.Intact Config.webServer.counters guest.transport.ruleset []
        (d.serve Disturbed.deliver [.poll, .poll] m₀).value.transport.ruleset ∧
      Ends d (d.serve Disturbed.deliver [.poll, .poll] m₀).value
        (d.run Disturbed.deliver [.poll, .poll] m₀).value := by
  have hreach : guest.transport.ruleset.Reachable 1 :=
    .applied (e := .addRule
        { table := ⟨.inet, "nat"⟩, chain := "forward", exprs := [.counter 0 0] })
      (.applied (e := .addChain ⟨⟨.inet, "nat"⟩, "forward", none⟩)
        (.applied (e := .addTable ⟨.inet, "nat"⟩) .empty rfl) rfl) rfl
  obtain ⟨-, -, hlife⟩ := lifetime Config.webServer false hreach [.poll, .poll]
  have hok : (build Config.webServer false guest).value.1.isOk = true := by decide +kernel
  generalize (build Config.webServer false guest).value = r at hok hlife ⊢
  obtain ⟨e | d, m₀⟩ := r
  · cases hok
  · exact ⟨hreach, d, m₀, rfl, hlife d m₀ rfl⟩

end Daemon

end FlowTally

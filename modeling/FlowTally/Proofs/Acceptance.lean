import FlowTally.Config.Validate
import Mathlib.Data.List.Nodup
/-!
# What is accepted

A counter without faults is one that fits its label, its addresses, its ports and its flags to each
other (`fault_eq_none_iff`), and the counters of a direction pass if each of them does and no two
have one label (`checkCounters_value_eq_ok_iff`). `accepted_of_validate` says that the counters of
an accepted configuration have passed.
-/

namespace FlowTally

/-! ## Logged values -/

namespace Logged

variable {α β : Type}

@[simp]
theorem value_pure (a : α) : (pure a : Logged α).value = a := rfl

@[simp]
theorem value_bind (m : Logged α) (f : α → Logged β) : (m >>= f).value = (f m.value).value := rfl

end Logged

/-! ## One counter -/

/-- A counter whose parts fit each other and the family of its table. -/
structure Counter.WellFormed (family : Family) (c : Counter) : Prop where
  label_ne : c.label ≠ ""
  label_fits : c.label.utf8ByteSize ≤ maxCommentBytes
  label_text : '\x00' ∉ c.label.toList
  source : ∀ a ∈ c.source, family.accepts a
  destination : ∀ a ∈ c.destination, family.accepts a
  sourcePort : ∀ n ∈ c.sourcePort, c.hasPorts ∧ n ≠ 0
  destinationPort : ∀ n ∈ c.destinationPort, c.hasPorts ∧ n ≠ 0
  flags : c.flags.isEmpty = false → c.isTcp

namespace Counter

theorem labelFault_eq_none_iff {c : Counter} : c.labelFault = none ↔
    c.label ≠ "" ∧ c.label.utf8ByteSize ≤ maxCommentBytes ∧ '\x00' ∉ c.label.toList := by
  unfold labelFault
  by_cases he : c.label = ""
  · simp [he]
  · by_cases hb : maxCommentBytes < c.label.utf8ByteSize ∨ '\x00' ∈ c.label.toList
    · simp only [String.isEmpty_iff, he, hb, if_true, if_false, reduceCtorEq, false_iff]
      rintro ⟨-, h1, h2⟩
      exact hb.elim (fun h => absurd h1 (by omega)) h2
    · simp only [String.isEmpty_iff, he, hb, if_false, true_iff]
      exact ⟨he, by omega, fun h => hb (.inr h)⟩

theorem addressFault_eq_none_iff {family : Family} {side : End} {address : Option Address} :
    addressFault family side address = none ↔ ∀ a ∈ address, family.accepts a := by
  cases address with
  | none => simp [addressFault]
  | some a => simp [addressFault]

theorem portFault_eq_none_iff {c : Counter} {side : End} {port : Option UInt16} :
    c.portFault side port = none ↔ ∀ n ∈ port, c.hasPorts ∧ n ≠ 0 := by
  cases port with
  | none => simp [portFault]
  | some n => cases hp : c.hasPorts <;> simp [portFault, hp]

theorem flagsFault_eq_none_iff {c : Counter} :
    c.flagsFault = none ↔ (c.flags.isEmpty = false → c.isTcp) := by
  cases hf : c.flags.isEmpty <;> cases ht : c.isTcp <;> simp [flagsFault, hf, ht]

theorem fault_eq_none_iff {family : Family} {c : Counter} :
    c.fault family = none ↔ c.WellFormed family := by
  simp only [fault, List.findSome?_eq_none_iff, List.forall_mem_cons, List.not_mem_nil,
    false_imp_iff, implies_true, and_true, id_eq, labelFault_eq_none_iff,
    addressFault_eq_none_iff, portFault_eq_none_iff, flagsFault_eq_none_iff]
  constructor
  · rintro ⟨⟨h1, h2, h3⟩, h4, h5, h6, h7, h8⟩
    exact ⟨h1, h2, h3, h4, h5, h6, h7, h8⟩
  · intro h
    exact ⟨⟨h.label_ne, h.label_fits, h.label_text⟩, h.source, h.destination, h.sourcePort,
      h.destinationPort, h.flags⟩

end Counter

/-! ## The counters of a configuration -/

/-- A set whose counters pass the checks that a configuration's counters have to pass. -/
structure CounterSet.Accepted (family : Family) (s : CounterSet) : Prop where
  wellFormed : ∀ d, ∀ c ∈ s.get d, c.WellFormed family
  labels : ∀ d, ((s.get d).map Counter.label).Nodup

namespace Config

/-- The counters pass after others with the labels `seen`. -/
theorem checkCounters_value_eq_ok_iff (family : Family) (d : Direction) (cs : List Counter) :
    ∀ (seen : List String) (index : Nat), (checkCounters family d seen index cs).value = .ok () ↔
      (∀ c ∈ cs, c.WellFormed family ∧ c.label ∉ seen) ∧ (cs.map Counter.label).Nodup := by
  induction cs with
  | nil => intro seen index; simp [checkCounters]
  | cons c cs ih =>
    intro seen index
    rw [checkCounters]
    cases hf : c.fault family with
    | some e =>
      have hc : ¬ c.WellFormed family := by simp [← Counter.fault_eq_none_iff, hf]
      simp [hc]
    | none =>
      have hc : c.WellFormed family := Counter.fault_eq_none_iff.1 hf
      by_cases hs : c.label ∈ seen
      · simp [hs]
      · rw [List.forall_mem_cons, List.map_cons, List.nodup_cons]
        simp only [Logged.value_bind, hs, if_false, ih, List.mem_cons, not_or]
        constructor
        · rintro ⟨h1, h2⟩
          refine ⟨⟨⟨hc, not_false⟩, fun x hx => ⟨(h1 x hx).1, (h1 x hx).2.2⟩⟩, ?_, h2⟩
          intro hm
          obtain ⟨x, hx, he⟩ := List.mem_map.1 hm
          exact (h1 x hx).2.1 he
        · rintro ⟨⟨-, h1⟩, h2, h3⟩
          refine ⟨fun x hx => ⟨(h1 x hx).1, fun he => h2 ?_, (h1 x hx).2⟩, h3⟩
          exact he ▸ List.mem_map_of_mem hx

theorem checkCounters_eq_ok_iff {family : Family} {s : CounterSet} :
    (∀ d, (checkCounters family d [] 0 (s.get d)).value = .ok ()) ↔ s.Accepted family := by
  simp only [checkCounters_value_eq_ok_iff, List.not_mem_nil, not_false_eq_true, and_true]
  exact ⟨fun h => ⟨fun d => (h d).1, fun d => (h d).2⟩, fun h d => ⟨h.wellFormed d, h.labels d⟩⟩

theorem accepted_of_validate {c : Config} (h : c.validate.value = .ok ()) :
    c.counters.Accepted c.layout.family := by
  rw [← checkCounters_eq_ok_iff]
  unfold validate at h
  split at h
  · simp at h
  · simp only [Logged.value_bind] at h
    cases hi : (checkCounters c.layout.family .input [] 0 c.counters.input).value with
    | error e => rw [hi] at h; simp at h
    | ok _ =>
      rw [hi] at h
      intro d
      cases d with
      | input => exact hi
      | output => exact h

end Config

end FlowTally

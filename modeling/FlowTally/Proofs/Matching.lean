import FlowTally.Proofs.Installed
import Mathlib.Tactic.MkIffOfInductiveProp
/-!
# What compiled rules match

A compiled rule counts a packet exactly if the packet has, in the place of each field that the
counter asks for, the bytes asked for (`Counter.Matches`). This holds of any bytes: headers may be
too short to have the field, and nothing tells whether they are of the version that the offsets are
meant for. `evaluate_installed` is the statement for one rule. Each block of tests lets a packet
through under a condition of its own, whatever the registers hold (`Passes`).
-/

namespace FlowTally

namespace Packet

/-- What the packet has in the place of a field. -/
def field? (p : Packet) (f : Field) : Option Bytes :=
  match f.place with
  | none => some [p.protocol]
  | some (base, offset) => (p.header base).bind fun header => header.slice? offset.toNat f.width

end Packet

/-- The packet has the bytes that the counter asks for. -/
@[mk_iff]
structure Counter.Matches (c : Counter) (p : Packet) : Prop where
  source : ∀ a ∈ c.source, p.field? (if a.isV4 then .sourceV4 else .sourceV6) = some a.octets
  destination : ∀ a ∈ c.destination,
    p.field? (if a.isV4 then .destinationV4 else .destinationV6) = some a.octets
  protocol : ∀ q ∈ c.protocol, p.field? .protocol = some [q.number]
  sourcePort : c.hasPorts → ∀ n ∈ Counter.askedPort c.sourcePort,
    p.field? .sourcePort = some (Bytes.ofNatBE 2 n.toNat)
  destinationPort : c.hasPorts → ∀ n ∈ Counter.askedPort c.destinationPort,
    p.field? .destinationPort = some (Bytes.ofNatBE 2 n.toNat)
  flags : c.isTcp → c.flags.isEmpty = false →
    (p.field? .flags).map (Packet.combine · [TcpFlags.matchable.bits] [0]) = some [c.flags.bits]

instance (c : Counter) (p : Packet) : Decidable (c.Matches p) :=
  -- Of all ports, only the one that is asked for has to be looked at.
  have (port : Option UInt16) (f : Field) :
      Decidable (∀ n ∈ port, p.field? f = some (Bytes.ofNatBE 2 n.toNat)) :=
    Option.decidableForallMem port
  decidable_of_iff _ (Counter.matches_iff c p).symm

theorem Counter.isTcp_iff {c : Counter} : c.isTcp ↔ c.protocol = some .tcp := by simp [isTcp]

/-! ## Running tests -/

namespace Packet

variable (p : Packet)

theorem step_load (regs : Registers) (f : Field) :
    p.step regs f.load = (p.field? f).map fun value => (.scratch, value) :: regs := by
  have width : (UInt32.ofNat f.width).toNat = f.width := by cases f <;> rfl
  unfold Field.load field?
  cases f.place with
  | none => rfl
  | some place =>
    simp only [step, width]
    cases p.header place.1 with
    | none => rfl
    | some header => cases h : header.slice? place.2.toNat f.width <;> simp [h]

/-- Expressions that do not count are left alone, and what comes behind them is run exactly if the
packet passes them all. -/
theorem run_append {es : List Expr} (h : CounterFree es) (rest : List Expr) (regs : Registers) :
    p.run regs (es ++ rest) = match es.foldlM p.step regs with
      | none => (es ++ rest, 0)
      | some regs => (es ++ (p.run regs rest).1, (p.run regs rest).2) := by
  induction es generalizing regs with
  | nil => rfl
  | cons e es ih =>
    have he : e.isCounter = false := h e List.mem_cons_self
    rw [List.cons_append, run, List.foldlM_cons]
    cases p.step regs e with
    | none => rfl
    | some regs =>
      simp only [ih (fun e he => h e (List.mem_cons_of_mem _ he)) regs]
      show _ = match List.foldlM p.step regs es with
        | none => _
        | some regs => _
      cases List.foldlM p.step regs es <;> simp [he, Expr.bump_eq_self]

/-- Whatever the registers hold, the packet passes the expressions exactly if `P`. -/
def Passes (es : List Expr) (P : Prop) : Prop :=
  ∀ regs, (es.foldlM p.step regs).isSome ↔ P

namespace Passes

variable {p}

theorem nil : p.Passes [] True := fun _ => by simp

theorem append {es es' : List Expr} {P P' : Prop} (h : p.Passes es P) (h' : p.Passes es' P') :
    p.Passes (es ++ es') (P ∧ P') := by
  intro regs
  rw [List.foldlM_append, ← h regs]
  cases es.foldlM p.step regs with
  | none => simp
  | some regs => simpa using h' regs

theorem congr {es : List Expr} {P P' : Prop} (h : p.Passes es P) (hP : P ↔ P') : p.Passes es P' :=
  fun regs => (h regs).trans hP

theorem ite {es : List Expr} {P : Prop} (b : Bool) (h : p.Passes es P) :
    p.Passes (if b then es else []) (b → P) := by
  cases b with
  | true => exact h.congr (by simp)
  | false => exact nil.congr (by simp)

theorem test (f : Field) (data : Bytes) : p.Passes (Rule.test f data) (p.field? f = some data) := by
  intro regs
  rw [Rule.test, List.foldlM_cons, step_load]
  cases p.field? f with
  | none => simp
  | some value =>
    by_cases hv : value = data
    · subst hv
      simp [step]
    · simp [step, hv]

theorem address (v4 v6 : Field) (address : Option Address) :
    p.Passes (Rule.testAddress v4 v6 address)
      (∀ a ∈ address, p.field? (if a.isV4 then v4 else v6) = some a.octets) := by
  cases address with
  | none => exact nil.congr (by simp)
  | some a => cases a <;> exact (test _ _).congr (by simp [Address.isV4, Address.octets])

theorem protocol (protocol : Option Protocol) : p.Passes (Rule.testProtocol protocol)
    (∀ q ∈ protocol, p.field? .protocol = some [q.number]) := by
  cases protocol with
  | none => exact nil.congr (by simp)
  | some q => exact (test _ _).congr (by simp)

theorem port (f : Field) (port : Option UInt16) : p.Passes (Rule.testPort f port)
    (∀ n ∈ Counter.askedPort port, p.field? f = some (Bytes.ofNatBE 2 n.toNat)) := by
  unfold Rule.testPort
  cases Counter.askedPort port with
  | none => exact nil.congr (by simp)
  | some n => exact (test _ _).congr (by simp)

theorem flags (flags : TcpFlags) : p.Passes (Rule.testFlags flags) (flags.isEmpty = false →
    (p.field? .flags).map (combine · [TcpFlags.matchable.bits] [0]) = some [flags.bits]) := by
  unfold Rule.testFlags
  cases flags.isEmpty with
  | true => exact nil.congr (by simp)
  | false =>
    intro regs
    simp only [Bool.false_eq_true, if_false, List.foldlM_cons, step_load]
    cases p.field? .flags with
    | none => simp
    | some value =>
      by_cases hv : combine value [TcpFlags.matchable.bits] [0] = [flags.bits]
      · simp [step, hv]
      · simp [step, hv]

/-- All tests of a counter together ask for what the counter asks for. -/
theorem tests (c : Counter) : p.Passes (Rule.tests c) (c.Matches p) := by
  have h : p.Passes (Rule.tests c) _ := ((((address .sourceV4 .sourceV6 c.source).append
    (address .destinationV4 .destinationV6 c.destination)).append (protocol c.protocol)).append
    (((port .sourcePort c.sourcePort).append (port .destinationPort c.destinationPort)).ite
      c.hasPorts)).append ((flags c.flags).ite c.isTcp)
  refine h.congr ⟨?_, ?_⟩
  · rintro ⟨⟨⟨⟨h1, h2⟩, h3⟩, h4⟩, h5⟩
    exact ⟨h1, h2, h3, fun hp => (h4 hp).1, fun hp => (h4 hp).2, h5⟩
  · intro h
    exact ⟨⟨⟨⟨h.source, h.destination⟩, h.protocol⟩,
      fun hp => ⟨h.sourcePort hp, h.destinationPort hp⟩⟩, h.flags⟩

end Passes

/-- A rule counts the packets that have what its counter asks for, and is left alone by others. -/
theorem evaluate_installed (chain : Chain) (c : Counter) (handle : Option UInt64)
    (packets bytes : UInt64) : p.evaluate (Rule.installed chain c handle packets bytes) =
      if c.Matches p then (Rule.installed chain c handle (packets + 1) (bytes + p.length), 1)
      else (Rule.installed chain c handle packets bytes, 0) := by
  have hm := Passes.tests (p := p) c []
  unfold evaluate
  rw [Rule.exprs_installed, run_append p (Rule.counterFree_tests c)]
  by_cases h : c.Matches p
  · rw [if_pos h]
    obtain ⟨regs, hr⟩ := Option.isSome_iff_exists.1 (hm.2 h)
    rw [hr]
    rfl
  · rw [if_neg h]
    have hr : (Rule.tests c).foldlM p.step [] = none := by
      cases hr : (Rule.tests c).foldlM p.step [] with
      | none => rfl
      | some regs => exact absurd (hm.1 (by simp [hr])) h
    rw [hr]
    rfl

end Packet

end FlowTally

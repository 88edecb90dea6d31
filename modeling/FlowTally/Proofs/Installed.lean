import FlowTally.Rule.OfCounter
import FlowTally.Ruleset
/-!
# Installed rules

A rule of a counter as the kernel holds it: under a handle and with totals of its own
(`Rule.installed`). Its only counter expression is the last one, so clearing and raising its counts
change nothing but the totals.
-/

namespace FlowTally

/-! ## Ports as bytes -/

namespace Bytes

theorem ofNat_toNatBE_port (n : UInt16) : UInt16.ofNat (toNatBE (ofNatBE 2 n.toNat)) = n := by
  have hn : n.toNat % capacity 2 = n.toNat := Nat.mod_eq_of_lt n.toNat_lt
  rw [toNatBE_ofNatBE, hn, UInt16.ofNat_toNat]

theorem ofNatBE_toNatBE_port {bs : Bytes} (h : bs.length = 2) :
    ofNatBE 2 (UInt16.ofNat (toNatBE bs)).toNat = bs := by
  have hn : toNatBE bs < UInt16.size := by
    match bs, h with
    | [a, b], _ =>
      have ha := a.toNat_lt
      have hb := b.toNat_lt
      simp only [toNatBE, toNatLE, List.reverse_cons, List.reverse_nil, List.nil_append,
        List.cons_append, UInt16.size]
      omega
  rw [UInt16.toNat_ofNat_of_lt' hn, ← h, ofNatBE_toNatBE]

theorem port_inj {m n : UInt16} (h : ofNatBE 2 m.toNat = ofNatBE 2 n.toNat) : m = n := by
  rw [← ofNat_toNatBE_port m, h, ofNat_toNatBE_port]

end Bytes

/-! ## Expressions that do not count -/

namespace Expr

theorem reset_eq_self {e : Expr} (h : e.isCounter = false) : e.reset = e := by
  cases e <;> first | rfl | cases h

theorem bump_eq_self {e : Expr} (packets bytes : UInt64) (h : e.isCounter = false) :
    e.bump packets bytes = e := by
  cases e <;> first | rfl | cases h

end Expr

/-- None of the expressions counts. -/
def CounterFree (es : List Expr) : Prop := ∀ e ∈ es, e.isCounter = false

namespace CounterFree

variable {es es' : List Expr}

theorem nil : CounterFree [] := fun _ h => absurd h List.not_mem_nil

theorem append (h : CounterFree es) (h' : CounterFree es') : CounterFree (es ++ es') := by
  intro e he
  rcases List.mem_append.1 he with he | he
  · exact h e he
  · exact h' e he

theorem map_reset (h : CounterFree es) : es.map Expr.reset = es := by
  rw [List.map_congr_left fun e he => Expr.reset_eq_self (h e he), List.map_id']

theorem map_bump (h : CounterFree es) (packets bytes : UInt64) :
    es.map (Expr.bump packets bytes) = es := by
  rw [List.map_congr_left fun e he => Expr.bump_eq_self packets bytes (h e he), List.map_id']

theorem countP (h : CounterFree es) : es.countP Expr.isCounter = 0 := by
  rw [List.countP_eq_zero]
  intro e he
  simp [h e he]

end CounterFree

/-! ## The tests of a counter -/

namespace Rule

theorem counterFree_test (f : Field) (data : Bytes) : CounterFree (test f data) := by
  intro e he
  simp only [test, List.mem_cons, List.not_mem_nil, or_false] at he
  rcases he with rfl | rfl
  · cases f <;> rfl
  · rfl

theorem counterFree_testAddress (v4 v6 : Field) (address : Option Address) :
    CounterFree (testAddress v4 v6 address) := by
  cases address with
  | none => exact .nil
  | some a => cases a <;> exact counterFree_test _ _

theorem counterFree_testProtocol (protocol : Option Protocol) :
    CounterFree (testProtocol protocol) := by
  cases protocol with
  | none => exact .nil
  | some p => exact counterFree_test _ _

theorem counterFree_testPort (f : Field) (port : Option UInt16) :
    CounterFree (testPort f port) := by
  unfold testPort
  split
  · exact .nil
  · exact counterFree_test _ _

theorem counterFree_testFlags (s : TcpFlags) : CounterFree (testFlags s) := by
  unfold testFlags
  split
  · exact .nil
  · intro e he
    simp only [List.mem_cons, List.not_mem_nil, or_false] at he
    rcases he with rfl | rfl | rfl <;> rfl

theorem counterFree_tests (c : Counter) : CounterFree (tests c) := by
  have ports : CounterFree (if c.hasPorts then
      testPort .sourcePort c.sourcePort ++ testPort .destinationPort c.destinationPort
      else []) := by
    split
    · exact (counterFree_testPort _ _).append (counterFree_testPort _ _)
    · exact .nil
  have flags : CounterFree (if c.isTcp then testFlags c.flags else []) := by
    split
    · exact counterFree_testFlags _
    · exact .nil
  exact ((((counterFree_testAddress _ _ _).append (counterFree_testAddress _ _ _)).append
    (counterFree_testProtocol _)).append ports).append flags

/-! ## Rules with totals -/

/-- The rule of a counter under a handle, having counted so much. -/
def installed (chain : Chain) (c : Counter) (handle : Option UInt64) (packets bytes : UInt64) :
    Rule :=
  { ofCounter chain c with handle, exprs := tests c ++ [.counter packets bytes] }

section Installed

variable (chain : Chain) (c : Counter) (handle : Option UInt64) (packets bytes : UInt64)

@[simp]
theorem comment_installed : (installed chain c handle packets bytes).comment = some c.label := rfl

@[simp]
theorem exprs_installed :
    (installed chain c handle packets bytes).exprs = tests c ++ [.counter packets bytes] := rfl

@[simp]
theorem reset_installed :
    (installed chain c handle packets bytes).reset = installed chain c handle 0 0 := by
  simp [reset, installed, (counterFree_tests c).map_reset, Expr.reset]

@[simp]
theorem bump_installed (p b : UInt64) : (installed chain c handle packets bytes).bump p b =
    installed chain c handle (packets + p) (bytes + b) := by
  simp [bump, installed, (counterFree_tests c).map_bump, Expr.bump]

@[simp]
theorem counterCount_installed : (installed chain c handle packets bytes).counterCount = 1 := by
  simp [counterCount, installed, (counterFree_tests c).countP, Expr.isCounter]

end Installed

end Rule

end FlowTally

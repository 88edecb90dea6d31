import FlowTally.Proofs.Installed
import Mathlib.Data.List.Forall2
/-!
# What a rule demands

Running a rule's expressions without a packet tells what each register will hold of it, byte by byte
(`Cell`), and with that what the expressions before the counter demand of a packet: how far it
reaches into its headers, and what is in which of its bytes (`Rule.demands`). A rule with one counter
counts the packets that meet its demands, and no others (`Packet.raises_iff`). Nothing is assumed of
the rule's expressions, their order or their registers.
-/

namespace FlowTally

/-! ## Bytes of a packet -/

/-- A byte of a packet. -/
inductive Place where
  | protocol
  | header (base : HeaderBase) (index : Nat)
  deriving DecidableEq, Repr

/-- A byte of a packet as a register holds it: `(byte &&& mask) ^^^ xor`. -/
structure Cell where
  place : Place
  mask : UInt8 := 0xff
  xor : UInt8 := 0
  deriving DecidableEq, Repr

namespace Cell

/-- What a bitwise operation makes of the byte. -/
def masked (c : Cell) (mask xor : UInt8) : Cell :=
  { c with mask := c.mask &&& mask, xor := (c.xor &&& mask) ^^^ xor }

/-- The cells of a register that a header is loaded into. -/
def ofHeader (base : HeaderBase) (offset length : Nat) : List Cell :=
  (List.range length).map fun i => { place := .header base (offset + i) }

/-- A bitwise operation goes as far as the shortest of its three operands. -/
def combine (cells : List Cell) (mask xor : Bytes) : List Cell :=
  ((cells.zip mask).zip xor).map fun ((c, m), x) => c.masked m x

end Cell

/-- What a packet has to be like for a rule to go on. -/
inductive Demand where
  | never
  /-- the header has so many bytes -/
  | reach (base : HeaderBase) (length : Nat)
  | byte (place : Place) (mask value : UInt8)
  deriving DecidableEq, Repr

/-- What a register with these cells demands of a packet that it is to equal the data. -/
def Cell.demands (cells : List Cell) (data : Bytes) : List Demand :=
  if cells.length = data.length then
    List.zipWith (fun c d => .byte c.place c.mask (d ^^^ c.xor)) cells data
  else [.never]

namespace Packet

def byte? (p : Packet) : Place → Option UInt8
  | .protocol => some p.protocol
  | .header base i => (p.header base).bind (·[i]?)

def cell? (p : Packet) (c : Cell) : Option UInt8 :=
  (p.byte? c.place).map fun b => (b &&& c.mask) ^^^ c.xor

def Meets (p : Packet) : Demand → Prop
  | .never => False
  | .reach base n => ∃ header ∈ p.header base, n ≤ header.length
  | .byte q mask value => ∃ b ∈ p.byte? q, b &&& mask = value

instance (p : Packet) : (d : Demand) → Decidable (p.Meets d)
  | .never => inferInstanceAs (Decidable False)
  | .reach base n => inferInstanceAs (Decidable (∃ header ∈ p.header base, n ≤ header.length))
  | .byte q mask value => inferInstanceAs (Decidable (∃ b ∈ p.byte? q, b &&& mask = value))

/-- The packet raises the rule's counter. -/
def Raises (p : Packet) (r : Rule) : Prop := p.evaluate r = (r.bump 1 p.length, 1)

instance (p : Packet) (r : Rule) : Decidable (p.Raises r) :=
  inferInstanceAs (Decidable (_ = _))

end Packet

/-! ## Running without a packet -/

/-- What is known of the registers, latest load first. -/
abbrev Sights := List (Register × List Cell)

/-- What the expressions up to the first counter demand, if the registers hold what is known. -/
def demandsFrom : Sights → List Expr → List Demand
  | _, [] => [.never]
  | ss, .metadata .protocol target :: es => demandsFrom ((target, [{ place := .protocol }]) :: ss) es
  | ss, .payload base offset length target :: es =>
    .reach base (offset.toNat + length.toNat) ::
      demandsFrom ((target, Cell.ofHeader base offset.toNat length.toNat) :: ss) es
  | ss, .bitwise source target _ mask xor :: es =>
    match ss.lookup source with
    | some cells => demandsFrom ((target, Cell.combine cells mask xor) :: ss) es
    | none => [.never]
  | ss, .compare source .equal data :: es =>
    match ss.lookup source with
    | some cells => Cell.demands cells data ++ demandsFrom ss es
    | none => [.never]
  | _, .counter _ _ :: _ => []
  | _, .metadata (.other _) _ :: _ | _, .compare _ (.other _) _ :: _ | _, .other _ :: _ => [.never]

/-- What the rule demands of a packet that it is to count. -/
def Rule.demands (r : Rule) : List Demand := demandsFrom [] r.exprs

namespace Packet

variable {p : Packet}

/-- The packet has these bytes in the cells. -/
def Shows (p : Packet) (cells : List Cell) (bs : Bytes) : Prop :=
  List.Forall₂ (fun c b => p.cell? c = some b) cells bs

/-- The registers hold what is known of them. -/
def Agrees (p : Packet) (ss : Sights) (regs : Registers) : Prop :=
  List.Forall₂ (fun s r => s.1 = r.1 ∧ p.Shows s.2 r.2) ss regs

theorem cell?_masked (p : Packet) (c : Cell) (m x : UInt8) :
    p.cell? (c.masked m x) = (p.cell? c).map fun b => (b &&& m) ^^^ x := by
  have hbits (b : UInt8) : (b &&& (c.mask &&& m)) ^^^ ((c.xor &&& m) ^^^ x) =
      (((b &&& c.mask) ^^^ c.xor) &&& m) ^^^ x := by
    rw [← UInt8.toBitVec_inj]
    ext i hi
    simp only [UInt8.toBitVec_xor, UInt8.toBitVec_and, BitVec.getElem_xor, BitVec.getElem_and]
    grind
  simp only [cell?, Cell.masked, Option.map_map, Function.comp_def, hbits]

theorem Shows.combine {cells : List Cell} {bs : Bytes} (h : p.Shows cells bs) :
    ∀ mask xor, p.Shows (Cell.combine cells mask xor) (Packet.combine bs mask xor) := by
  induction h with
  | nil => exact fun _ _ => .nil
  | @cons c b cells bs hb _ ih =>
    intro mask xor
    cases mask with
    | nil => exact .nil
    | cons m mask =>
      cases xor with
      | nil => exact .nil
      | cons x xor => exact .cons (by rw [cell?_masked, hb]; rfl) (ih mask xor)

theorem meets_byte_iff {c : Cell} {b : UInt8} (h : p.cell? c = some b) (d : UInt8) :
    p.Meets (.byte c.place c.mask (d ^^^ c.xor)) ↔ b = d := by
  obtain ⟨v, hv, rfl⟩ := Option.map_eq_some_iff.1 h
  have hx : v &&& c.mask = d ^^^ c.xor ↔ (v &&& c.mask) ^^^ c.xor = d := by
    constructor
    · intro h
      rw [h, UInt8.xor_assoc, UInt8.xor_self, UInt8.xor_zero]
    · rintro rfl
      rw [UInt8.xor_assoc, UInt8.xor_self, UInt8.xor_zero]
  simp [Meets, hv, hx]

/-- A register has the data exactly if the packet meets what its cells demand. -/
theorem Shows.eq_iff {cells : List Cell} {bs : Bytes} (h : p.Shows cells bs) (data : Bytes) :
    bs = data ↔ ∀ d ∈ Cell.demands cells data, p.Meets d := by
  unfold Cell.demands
  split
  · next hlength =>
    induction h generalizing data with
    | nil =>
      obtain rfl := List.eq_nil_of_length_eq_zero hlength.symm
      simp
    | @cons c b cells bs hb _ ih =>
      cases data with
      | nil => cases hlength
      | cons d data =>
        rw [List.zipWith_cons_cons, List.forall_mem_cons, meets_byte_iff hb,
          ← ih data (Nat.succ.inj hlength), List.cons.injEq]
  · next hlength =>
    refine iff_of_false (fun he => hlength ?_) fun hm => hm .never (List.mem_singleton_self _)
    rw [← he, h.length_eq]

/-- A load goes through if the header has all the bytes, and these are what the register shows. -/
theorem load_cases (p : Packet) (base : HeaderBase) (offset length : Nat) :
    (p.Meets (.reach base (offset + length)) ∧
      ∃ bs, (p.header base).bind (·.slice? offset length) = some bs ∧
        p.Shows (Cell.ofHeader base offset length) bs) ∨
    ¬ p.Meets (.reach base (offset + length)) ∧
      (p.header base).bind (·.slice? offset length) = none := by
  cases hh : p.header base with
  | none => exact .inr ⟨by simp [Meets, hh], rfl⟩
  | some header =>
    by_cases hl : offset + length ≤ header.length
    · refine .inl ⟨⟨header, hh, hl⟩, (header.drop offset).take length, ?_, ?_⟩
      · simp [Bytes.slice?, hl]
      · refine List.forall₂_iff_get.2 ⟨by simp [Cell.ofHeader]; omega, fun i h₁ h₂ => ?_⟩
        have hi : offset + i < header.length := by
          simp only [Cell.ofHeader, List.length_map, List.length_range] at h₁
          omega
        have hfull : (0xff : UInt8) = -1 := by decide
        simp [Cell.ofHeader, cell?, byte?, hh, hi, hfull]
    · exact .inr ⟨by simp [Meets, hh, hl], by simp [Bytes.slice?, hl]⟩

theorem Agrees.lookup {ss : Sights} {regs : Registers} (h : p.Agrees ss regs) (r : Register) :
    (ss.lookup r = none ∧ regs.lookup r = none) ∨
      ∃ cells bs, ss.lookup r = some cells ∧ regs.lookup r = some bs ∧ p.Shows cells bs := by
  induction h with
  | nil => exact .inl ⟨rfl, rfl⟩
  | @cons s reg _ _ hs _ ih =>
    obtain ⟨r', cells⟩ := s
    obtain ⟨r'', bs⟩ := reg
    obtain ⟨rfl, hs⟩ := hs
    rw [List.lookup_cons, List.lookup_cons]
    cases r == r' with
    | true => exact .inr ⟨cells, bs, rfl, rfl, hs⟩
    | false => exact ih

/-! ## Running with a packet -/

theorem run_cons_of_step {e : Expr} {regs regs' : Registers} (h : p.step regs e = some regs')
    (es : List Expr) : p.run regs (e :: es) = (e.bump 1 p.length :: (p.run regs' es).1,
      (p.run regs' es).2 + if e.isCounter then 1 else 0) := by
  rw [run, h]

/-- Expressions without a counter leave no trace. -/
theorem run_of_counterFree (p : Packet) {es : List Expr} (h : CounterFree es) :
    ∀ regs : Registers, p.run regs es = (es, 0) := by
  induction es with
  | nil => exact fun _ => rfl
  | cons e es ih =>
    intro regs
    have he : e.isCounter = false := h e List.mem_cons_self
    cases hs : p.step regs e with
    | none => rw [run, hs]
    | some regs' =>
      rw [run_cons_of_step hs, ih fun e he => h e (List.mem_cons_of_mem _ he)]
      simp [he, Expr.bump_eq_self]

/-- A run counts once and raises what it counts, if `P`, and does nothing if not. -/
inductive Runs (p : Packet) (es : List Expr) (P : Prop) : List Expr × Nat → Prop where
  | counted (h : P) : Runs p es P (es.map (Expr.bump 1 p.length), 1)
  | stopped (h : ¬ P) : Runs p es P (es, 0)

theorem Runs.congr {es : List Expr} {P Q : Prop} {r : List Expr × Nat} (h : Runs p es P r)
    (hP : P ↔ Q) : Runs p es Q r := propext hP ▸ h

/-- An expression that no packet passes. -/
theorem Runs.of_none {e : Expr} {es : List Expr} {regs : Registers} {P : Prop}
    (h : p.step regs e = none) (hP : ¬ P) : Runs p (e :: es) P (p.run regs (e :: es)) := by
  rw [run, h]
  exact .stopped hP

/-- An expression that a packet passes stands before the others. -/
theorem Runs.of_some {e : Expr} {es : List Expr} {regs regs' : Registers} {P : Prop}
    (he : e.isCounter = false) (hs : p.step regs e = some regs') (h : Runs p es P (p.run regs' es)) :
    Runs p (e :: es) P (p.run regs (e :: es)) := by
  have hbump := Expr.bump_eq_self 1 p.length he
  rw [run_cons_of_step hs, hbump]
  generalize p.run regs' es = r at h ⊢
  cases h with
  | counted hP =>
    have hc : Runs p (e :: es) P _ := .counted hP
    rw [List.map_cons, hbump] at hc
    simpa [he] using hc
  | stopped hP =>
    have hc : Runs p (e :: es) P _ := .stopped hP
    simpa [he] using hc

theorem Agrees.cons {ss : Sights} {regs : Registers} (h : p.Agrees ss regs) (r : Register)
    {cells : List Cell} {bs : Bytes} (hs : p.Shows cells bs) :
    p.Agrees ((r, cells) :: ss) ((r, bs) :: regs) := List.Forall₂.cons ⟨rfl, hs⟩ h

theorem shows_protocol (p : Packet) : p.Shows [{ place := .protocol }] [p.protocol] := by
  have hfull : (0xff : UInt8) = -1 := by decide
  exact .cons (by simp [cell?, byte?, hfull]) .nil

theorem step_payload (p : Packet) (regs : Registers) (base : HeaderBase) (offset length : UInt32)
    (target : Register) : p.step regs (.payload base offset length target) =
      ((p.header base).bind (·.slice? offset.toNat length.toNat)).map fun value =>
        (target, value) :: regs := by
  simp only [step]
  cases p.header base with
  | none => rfl
  | some header => cases h : header.slice? offset.toNat length.toNat <;> simp [h]

/-- Expressions with one counter count a packet exactly if it meets what they demand. -/
theorem run_demands {es : List Expr} (hone : es.countP Expr.isCounter = 1) : ∀ {ss : Sights}
    {regs : Registers}, p.Agrees ss regs →
      Runs p es (∀ d ∈ demandsFrom ss es, p.Meets d) (p.run regs es) := by
  induction es with
  | nil => cases hone
  | cons e es ih =>
    intro ss regs ha
    have hnever : ¬ ∀ d ∈ [Demand.never], p.Meets d := fun h => h .never (List.mem_singleton_self _)
    cases e with
    | metadata key target =>
      cases key with
      | protocol => exact .of_some rfl rfl (ih hone (ha.cons target p.shows_protocol))
      | other raw => exact .of_none rfl hnever
    | payload base offset length target =>
      rw [demandsFrom, List.forall_mem_cons]
      rcases p.load_cases base offset.toNat length.toNat with ⟨hm, bs, hbs, hs⟩ | ⟨hm, hbs⟩
      · have hstep : p.step regs (.payload base offset length target) =
            some ((target, bs) :: regs) := by rw [step_payload, hbs, Option.map_some]
        exact (Runs.of_some rfl hstep (ih hone (ha.cons target hs))).congr (and_iff_right hm).symm
      · have hstep : p.step regs (.payload base offset length target) = none := by
          rw [step_payload, hbs, Option.map_none]
        exact .of_none hstep fun h => hm h.1
    | compare source op data =>
      cases op with
      | equal =>
        rw [demandsFrom]
        rcases ha.lookup source with ⟨hl, hr⟩ | ⟨cells, bs, hl, hr, hs⟩
        · rw [hl]
          exact .of_none (by simp [step, hr]) hnever
        · rw [hl]
          simp only
          rw [List.forall_mem_append, ← hs.eq_iff data]
          by_cases hd : bs = data
          · exact (Runs.of_some rfl (by simp [step, hr, hd]) (ih hone ha)).congr
              (and_iff_right hd).symm
          · exact .of_none (by simp [step, hr, hd]) fun h => hd h.1
      | other raw => exact .of_none rfl hnever
    | bitwise source target length mask xor =>
      rw [demandsFrom]
      rcases ha.lookup source with ⟨hl, hr⟩ | ⟨cells, bs, hl, hr, hs⟩
      · rw [hl]
        exact .of_none (by simp [step, hr]) hnever
      · rw [hl]
        exact .of_some rfl (by simp [step, hr]) (ih hone (ha.cons target (hs.combine mask xor)))
    | counter packets bytes =>
      have hfree : CounterFree es := by
        intro e he
        have hzero : es.countP Expr.isCounter = 0 := by
          simpa [List.countP_cons, Expr.isCounter] using hone
        simpa using List.countP_eq_zero.1 hzero e he
      have hrun : p.run regs (.counter packets bytes :: es) =
          ((Expr.counter packets bytes :: es).map (Expr.bump 1 p.length), 1) := by
        rw [run_cons_of_step rfl, p.run_of_counterFree hfree, List.map_cons, hfree.map_bump]
        rfl
      rw [hrun]
      exact .counted (by simp [demandsFrom])
    | other name => exact .of_none rfl hnever

/-- A rule with one counter counts the packets that meet its demands. -/
theorem evaluate_runs {r : Rule} (h : r.counterCount = 1) :
    Runs p r.exprs (∀ d ∈ r.demands, p.Meets d) (p.run [] r.exprs) :=
  run_demands h .nil

theorem raises_iff {r : Rule} (h : r.counterCount = 1) :
    p.Raises r ↔ ∀ d ∈ r.demands, p.Meets d := by
  have hr := evaluate_runs (p := p) h
  unfold Raises evaluate
  generalize p.run [] r.exprs = x at hr ⊢
  cases hr with
  | counted hm => exact iff_of_true rfl hm
  | stopped hm => exact iff_of_false (fun he => absurd (Prod.mk.inj he).2 Nat.zero_ne_one) hm

end Packet

end FlowTally

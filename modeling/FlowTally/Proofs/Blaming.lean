import FlowTally.Proofs.Acceptance
import Mathlib.Tactic.MkIffOfInductiveProp
/-!
# What is blamed

All that can be wrong with a configuration is said without an order of checks (`Config.Has`), and
the order apart from it (`Invalid.place`). `validate_blames` says that a configuration is accepted
if everything fits, that otherwise the first thing wrong is named, and which warnings come up before.
A check that looks at one part of a configuration names the first thing wrong there (`Foremost`),
and checks that look at one part after the other do so for all of them.
-/

namespace FlowTally

/-! ## The first of several things -/

section Foremost
variable {α β : Type}

/-- What is found is wrong, and all else that is wrong has a later place. If nothing is found then
nothing is wrong. -/
def Foremost (place : α → List Nat) (wrong : α → Prop) : Option α → Prop
  | none => ∀ a, ¬ wrong a
  | some a => wrong a ∧ ∀ b, wrong b → b = a ∨ place a < place b

variable {place : α → List Nat} {P Q : α → Prop} {x y : Option α}

namespace Foremost

theorem congr (h : Foremost place P x) (hP : ∀ a, P a ↔ Q a) : Foremost place Q x := by
  obtain rfl : P = Q := funext fun a => propext (hP a)
  exact h

theorem or (hx : Foremost place P x) (hy : Foremost place Q y)
    (h : ∀ a b, P a → Q b → place a < place b) :
    Foremost place (fun a => P a ∨ Q a) (x.or y) := by
  cases x with
  | none => exact hy.congr fun a => (or_iff_right (hx a)).symm
  | some a => exact ⟨.inl hx.1, fun b hb => hb.elim (hx.2 b) fun hq => .inr (h a b hx.1 hq)⟩

theorem map {place' : β → List Nat} {g : α → β} (hx : Foremost place P x)
    (hg : ∀ a b, place a < place b → place' (g a) < place' (g b)) :
    Foremost place' (fun b => ∃ a, b = g a ∧ P a) (x.map g) := by
  cases x with
  | none =>
    rintro _ ⟨a, -, ha⟩
    exact hx a ha
  | some a =>
    refine ⟨⟨a, rfl, hx.1⟩, ?_⟩
    rintro _ ⟨b, rfl, hb⟩
    exact (hx.2 b hb).imp (congrArg g) (hg a b)

/-- A check for one thing. -/
theorem check {fits : Prop} [Decidable fits] {a : α} (hP : ∀ b, P b ↔ b = a ∧ ¬ fits) :
    Foremost place P (if fits then none else some a) := by
  by_cases h : fits
  · rw [if_pos h]
    exact fun b hb => ((hP b).1 hb).2 h
  · rw [if_neg h]
    exact ⟨(hP a).2 ⟨rfl, h⟩, fun b hb => .inl ((hP b).1 hb).1⟩

/-- Checks one after the other, each for what is wrong with a part of its own. -/
theorem findSome? {part : α → Nat} (hp : ∀ a b, part a < part b → place a < place b) :
    ∀ {xs : List (Option α)} {k : Nat},
      (∀ x ∈ xs.zipIdx k, Foremost place (fun a => P a ∧ part a = x.2) x.1) →
      Foremost place (fun a => P a ∧ k ≤ part a ∧ part a < k + xs.length) (xs.findSome? id) := by
  intro xs
  induction xs with
  | nil =>
    rintro k - a ⟨-, h1, h2⟩
    rw [List.length_nil] at h2
    omega
  | cons x xs ih =>
    intro k h
    rw [List.zipIdx_cons, List.forall_mem_cons] at h
    have hor : (x :: xs).findSome? id = x.or (xs.findSome? id) := by cases x <;> rfl
    rw [hor]
    refine (h.1.or (ih h.2) ?_).congr fun a => ?_
    · rintro a b ⟨-, ha⟩ ⟨-, hb, -⟩
      exact hp a b (by simp only at ha; omega)
    · rw [← and_or_left, List.length_cons]
      exact and_congr_right fun _ => by simp only; omega

/-- Only the first thing wrong is found. -/
theorem eq_some_iff (h : Foremost place P x) {a : α} :
    x = some a ↔ P a ∧ ∀ b, P b → b = a ∨ place a < place b := by
  constructor
  · rintro rfl
    exact h
  · rintro ⟨ha, hfirst⟩
    cases x with
    | none => exact absurd ha (h a)
    | some b =>
      rcases h.2 a ha with rfl | hba
      · rfl
      · rcases hfirst b h.1 with rfl | hab
        · rfl
        · exact absurd (List.lt_trans hab hba) (List.lt_irrefl _)

end Foremost

end Foremost

/-! ## What can be wrong -/

namespace Counter

def address (c : Counter) : End → Option Address
  | .source => c.source
  | .destination => c.destination

def port (c : Counter) : End → Option UInt16
  | .source => c.sourcePort
  | .destination => c.destinationPort

/-- What is wrong with a counter of a direction, behind others with the labels `taken`. -/
def Has (family : Family) (d : Direction) (taken : List String) (c : Counter) :
    CounterFault → Prop
  | .emptyLabel => c.label = ""
  | .badLabel => maxCommentBytes < c.label.utf8ByteSize ∨ '\x00' ∈ c.label.toList
  | .foreignAddress side a f => c.address side = some a ∧ f = family ∧ ¬ family.accepts a
  | .portsNotAllowed side => c.port side ≠ none ∧ ¬ c.hasPorts
  | .zeroPort side => c.port side = some 0
  | .flagsNotAllowed => ¬ c.flags.isEmpty ∧ ¬ c.isTcp
  | .duplicateLabel label d' => label = c.label ∧ d' = d ∧ label ∈ taken

end Counter

/-- The source is looked at before the destination. -/
def End.rank : End → Nat
  | source => 0
  | destination => 1

namespace CounterFault

/-- The parts of a counter in the order in which they are looked at. -/
def part : CounterFault → Nat
  | emptyLabel | badLabel => 0
  | foreignAddress side .. => 1 + side.rank
  | portsNotAllowed side | zeroPort side => 3 + side.rank
  | flagsNotAllowed => 5
  | duplicateLabel .. => 6

/-- Where the check for it stands, part by part. -/
def place (f : CounterFault) : List Nat :=
  [f.part, match f with | badLabel | zeroPort _ => 1 | _ => 0]

variable {f f' : CounterFault} {side : End}

theorem place_lt_of_part_lt (h : f.part < f'.part) : f.place < f'.place :=
  List.cons_lt_cons_iff.2 (.inl h)

theorem part_le (f : CounterFault) : f.part ≤ 6 := by
  cases f with
  | foreignAddress side | portsNotAllowed side | zeroPort side =>
    cases side <;> simp [part, End.rank]
  | emptyLabel | badLabel | flagsNotAllowed | duplicateLabel => simp [part]

theorem part_eq_label_iff : f.part = 0 ↔ f = emptyLabel ∨ f = badLabel := by
  cases f <;> simp [part]

theorem part_eq_address_iff :
    f.part = 1 + side.rank ↔ ∃ a family, f = foreignAddress side a family := by
  cases f with
  | foreignAddress side' a family => cases side <;> cases side' <;> simp [part, End.rank]
  | portsNotAllowed side' | zeroPort side' =>
    cases side <;> cases side' <;> simp [part, End.rank]
  | emptyLabel | badLabel | flagsNotAllowed | duplicateLabel =>
    cases side <;> simp [part, End.rank]

theorem part_eq_port_iff :
    f.part = 3 + side.rank ↔ f = portsNotAllowed side ∨ f = zeroPort side := by
  cases f with
  | foreignAddress side' a family => cases side <;> cases side' <;> simp [part, End.rank]
  | portsNotAllowed side' | zeroPort side' =>
    cases side <;> cases side' <;> simp [part, End.rank]
  | emptyLabel | badLabel | flagsNotAllowed | duplicateLabel =>
    cases side <;> simp [part, End.rank]

theorem part_eq_flags_iff : f.part = 5 ↔ f = flagsNotAllowed := by
  cases f with
  | foreignAddress side | portsNotAllowed side | zeroPort side =>
    cases side <;> simp [part, End.rank]
  | emptyLabel | badLabel | flagsNotAllowed | duplicateLabel => simp [part]

theorem not_flagsNotAllowed_lt (h : f.part < 6) : ¬ flagsNotAllowed.place < f.place := by
  rcases Nat.lt_or_eq_of_le (Nat.le_of_lt_succ h) with h | h
  · exact fun h' => List.lt_irrefl _ (List.lt_trans h' (place_lt_of_part_lt h))
  · rw [part_eq_flags_iff.1 h]
    exact List.lt_irrefl _

theorem part_eq_duplicate_iff : f.part = 6 ↔ ∃ label d, f = duplicateLabel label d := by
  cases f with
  | foreignAddress side | portsNotAllowed side | zeroPort side =>
    cases side <;> simp [part, End.rank]
  | emptyLabel | badLabel | flagsNotAllowed | duplicateLabel => simp [part]

end CounterFault

namespace Invalid

/-- The parts of a configuration in the order in which they are looked at. -/
def part : Invalid → Nat
  | logLevel => 0
  | logFormat => 1
  | emptyTableName => 2
  | emptyChainName .input => 3
  | emptyChainName .output => 4
  | sameChain => 5
  | zeroInterval => 6
  | address _ => 7
  | endpoint _ => 8
  | counter .input .. => 9
  | counter .output .. => 10

/-- Where the check for it stands. The counters of a direction are checked one after the other. -/
def place (e : Invalid) : List Nat :=
  e.part :: match e with | counter _ i f => i :: f.place | _ => []

theorem place_lt_of_part_lt {e e' : Invalid} (h : e.part < e'.part) : e.place < e'.place :=
  List.cons_lt_cons_iff.2 (.inl h)

theorem part_cases (e : Invalid) : e.part < 9 ∨ (∃ i f, e = counter .input i f) ∨
    ∃ i f, e = counter .output i f := by
  cases e with
  | counter d i f => cases d <;> simp
  | emptyChainName d => cases d <;> simp [part]
  | _ => simp [part]

theorem place_counter_lt_iff {d : Direction} {i i' : Nat} {f f' : CounterFault} :
    (counter d i f).place < (counter d i' f').place ↔ i < i' ∨ i = i' ∧ f.place < f'.place := by
  have hpart : (counter d i f).part = (counter d i' f').part := by cases d <;> rfl
  simp only [place, hpart, List.cons_lt_cons_iff, Nat.lt_irrefl, false_or, true_and]

end Invalid

/-! ## Counters -/

namespace Counter

variable (family : Family) (d : Direction) (taken : List String) (c : Counter)

theorem foremost_labelFault : Foremost CounterFault.place
    (fun f => c.Has family d taken f ∧ f.part = 0) c.labelFault := by
  unfold labelFault
  by_cases he : c.label = ""
  · rw [if_pos (by simpa using he)]
    refine ⟨⟨he, rfl⟩, fun f hf => ?_⟩
    rcases CounterFault.part_eq_label_iff.1 hf.2 with rfl | rfl
    · exact .inl rfl
    · exact .inr (by decide)
  · rw [if_neg (by simpa using he)]
    split
    · next hb =>
      refine ⟨⟨hb, rfl⟩, fun f hf => ?_⟩
      rcases CounterFault.part_eq_label_iff.1 hf.2 with rfl | rfl
      · exact absurd hf.1 he
      · exact .inl rfl
    · next hb =>
      intro f hf
      rcases CounterFault.part_eq_label_iff.1 hf.2 with rfl | rfl
      · exact he hf.1
      · exact hb hf.1

theorem foremost_addressFault (side : End) : Foremost CounterFault.place
    (fun f => c.Has family d taken f ∧ f.part = 1 + side.rank)
    (addressFault family side (c.address side)) := by
  unfold addressFault
  cases ha : c.address side with
  | none =>
    rintro f ⟨hf, hp⟩
    obtain ⟨a, family, rfl⟩ := CounterFault.part_eq_address_iff.1 hp
    cases ha.symm.trans hf.1
  | some a =>
    refine Foremost.check fun f => ?_
    rw [CounterFault.part_eq_address_iff]
    constructor
    · rintro ⟨hf, a', family', rfl⟩
      obtain ⟨ha', rfl, hn⟩ := hf
      cases ha.symm.trans ha'
      exact ⟨rfl, hn⟩
    · rintro ⟨rfl, hn⟩
      exact ⟨⟨ha, rfl, hn⟩, _, _, rfl⟩

theorem foremost_portFault (side : End) : Foremost CounterFault.place
    (fun f => c.Has family d taken f ∧ f.part = 3 + side.rank) (c.portFault side (c.port side)) := by
  unfold portFault
  cases hn : c.port side with
  | none =>
    rintro f ⟨hf, hp⟩
    rcases CounterFault.part_eq_port_iff.1 hp with rfl | rfl
    · exact hf.1 hn
    · cases hn.symm.trans hf
  | some n =>
    cases hports : c.hasPorts with
    | false =>
      refine ⟨⟨⟨by simp [hn], by simp [hports]⟩, rfl⟩, fun f hf => ?_⟩
      rcases CounterFault.part_eq_port_iff.1 hf.2 with rfl | rfl
      · exact .inl rfl
      · exact .inr (by cases side <;> decide)
    | true =>
      have hzero (f : CounterFault) (hf : c.Has family d taken f ∧ f.part = 3 + side.rank) :
          f = .zeroPort side ∧ n = 0 := by
        rcases CounterFault.part_eq_port_iff.1 hf.2 with rfl | rfl
        · exact absurd hports hf.1.2
        · exact ⟨rfl, Option.some.inj (hn.symm.trans hf.1)⟩
      by_cases h0 : n = 0
      · subst h0
        exact ⟨⟨hn, rfl⟩, fun f hf => .inl (hzero f hf).1⟩
      · simp only [Bool.not_true, Bool.false_eq_true, if_false, h0]
        exact fun f hf => h0 (hzero f hf).2

theorem foremost_flagsFault : Foremost CounterFault.place
    (fun f => c.Has family d taken f ∧ f.part = 5) c.flagsFault := by
  have hflags : c.flagsFault =
      if c.flags.isEmpty || c.isTcp then none else some .flagsNotAllowed := by
    unfold flagsFault
    cases c.flags.isEmpty <;> cases c.isTcp <;> rfl
  rw [hflags]
  refine Foremost.check fun f => ?_
  rw [CounterFault.part_eq_flags_iff, and_comm, Bool.or_eq_true, not_or]
  exact and_congr_right fun hf => by rw [hf, Has]

/-- By itself, a counter is blamed for the first part that does not fit. -/
theorem foremost_fault : Foremost CounterFault.place
    (fun f => c.Has family d taken f ∧ f.part < 6) (c.fault family) := by
  refine (Foremost.findSome? (P := c.Has family d taken) (k := 0)
    (fun _ _ => CounterFault.place_lt_of_part_lt) ?_).congr fun f => by simp
  simp only [List.zipIdx_cons, List.zipIdx_nil, List.forall_mem_cons]
  exact ⟨c.foremost_labelFault family d taken, c.foremost_addressFault family d taken .source,
    c.foremost_addressFault family d taken .destination,
    c.foremost_portFault family d taken .source,
    c.foremost_portFault family d taken .destination, c.foremost_flagsFault family d taken,
    by simp⟩

variable {family d taken c}

theorem Has.congr {taken' : List String} {f : CounterFault} (h : ∀ l, l ∈ taken ↔ l ∈ taken') :
    c.Has family d taken f ↔ c.Has family d taken' f := by
  cases f <;> simp only [Has, h]

end Counter

namespace Config

/-! ## The counters of a direction -/

/-- What is blamed, if anything is. -/
def blamed : Except Invalid Unit → Option Invalid
  | .ok () => none
  | .error e => some e

/-- What is wrong with counters from an index on, behind others with the labels `taken`. -/
def HasFrom (family : Family) (d : Direction) (taken : List String) (index : Nat)
    (cs : List Counter) (e : Invalid) : Prop :=
  ∃ i c f, e = .counter d (index + i) f ∧ cs[i]? = some c ∧
    c.Has family d ((cs.take i).map Counter.label ++ taken) f

section Counters
variable (family : Family) (d : Direction)

theorem hasFrom_cons_iff (taken : List String) (index : Nat) (c : Counter) (cs : List Counter)
    (e : Invalid) : HasFrom family d taken index (c :: cs) e ↔
      (∃ f, e = .counter d index f ∧ c.Has family d taken f) ∨
        HasFrom family d (c.label :: taken) (index + 1) cs e := by
  have hcongr (i : Nat) (k : Counter) (f : CounterFault) :
      k.Has family d (((c :: cs).take (i + 1)).map Counter.label ++ taken) f ↔
        k.Has family d ((cs.take i).map Counter.label ++ c.label :: taken) f :=
    Counter.Has.congr fun l => by simp [or_left_comm]
  constructor
  · rintro ⟨_ | i, k, f, rfl, hk, hf⟩
    · cases hk
      exact .inl ⟨f, rfl, hf⟩
    · exact .inr ⟨i, k, f, by rw [Nat.add_right_comm, Nat.add_assoc], hk, (hcongr i k f).1 hf⟩
  · rintro (⟨f, rfl, hf⟩ | ⟨i, k, f, rfl, hk, hf⟩)
    · exact ⟨0, c, f, rfl, rfl, hf⟩
    · exact ⟨i + 1, k, f, by rw [Nat.add_right_comm, Nat.add_assoc], hk, (hcongr i k f).2 hf⟩

theorem blamed_checkCounters_cons (taken : List String) (index : Nat) (c : Counter)
    (cs : List Counter) : blamed (checkCounters family d taken index (c :: cs)).value =
      ((c.fault family).map (.counter d index)).or
        ((if c.label ∉ taken then none
          else some (.counter d index (.duplicateLabel c.label d))).or
          (blamed (checkCounters family d (c.label :: taken) (index + 1) cs).value)) := by
  rw [checkCounters]
  cases c.fault family with
  | some f => rfl
  | none => by_cases h : c.label ∈ taken <;> simp [h, blamed]

/-- Of the counters of a direction, the first thing wrong with the first of them is blamed. -/
theorem foremost_checkCounters (cs : List Counter) : ∀ (taken : List String) (index : Nat),
    Foremost Invalid.place (HasFrom family d taken index cs)
      (blamed (checkCounters family d taken index cs).value) := by
  induction cs with
  | nil =>
    rintro taken index e ⟨i, c, f, -, hc, -⟩
    cases hc
  | cons c cs ih =>
    intro taken index
    rw [blamed_checkCounters_cons]
    have hown : Foremost Invalid.place
        (fun e => ∃ f, e = .counter d index f ∧ c.Has family d taken f ∧ f.part < 6)
        ((c.fault family).map (.counter d index)) :=
      (c.foremost_fault family d taken).map fun f f' h =>
        Invalid.place_counter_lt_iff.2 (.inr ⟨rfl, h⟩)
    have hlabel : Foremost Invalid.place
        (fun e => ∃ f, e = .counter d index f ∧ c.Has family d taken f ∧ f.part = 6)
        (if c.label ∉ taken then none
          else some (.counter d index (.duplicateLabel c.label d))) := by
      refine Foremost.check fun e => ?_
      simp only [CounterFault.part_eq_duplicate_iff, not_not]
      constructor
      · rintro ⟨_, rfl, hf, label, d', rfl⟩
        obtain ⟨rfl, rfl, h⟩ := hf
        exact ⟨rfl, h⟩
      · rintro ⟨rfl, h⟩
        exact ⟨_, rfl, ⟨rfl, rfl, h⟩, _, _, rfl⟩
    refine (hown.or (hlabel.or (ih (c.label :: taken) (index + 1)) ?_) ?_).congr fun e => ?_
    · rintro _ _ ⟨f, rfl, -⟩ ⟨i, k, f', rfl, -⟩
      exact Invalid.place_counter_lt_iff.2 (.inl (by omega))
    · rintro _ _ ⟨f, rfl, -, hf⟩ (⟨f', rfl, -, hf'⟩ | ⟨i, k, f', rfl, -⟩)
      · exact Invalid.place_counter_lt_iff.2
          (.inr ⟨rfl, CounterFault.place_lt_of_part_lt (by omega)⟩)
      · exact Invalid.place_counter_lt_iff.2 (.inl (by omega))
    · have hpart (f : CounterFault) : f.part < 6 ∨ f.part = 6 := by have := f.part_le; omega
      rw [hasFrom_cons_iff, ← or_assoc, ← exists_or]
      simp only [← and_or_left, hpart, and_true]

end Counters

/-! ## All of a configuration -/

/-- What is wrong with a configuration. -/
def Has (c : Config) : Invalid → Prop
  | .logLevel => c.general.logLevel ∉ ["trace", "debug", "info", "warn", "error"]
  | .logFormat => c.general.logFormat ∉ ["json", "pretty"]
  | .emptyTableName => c.layout.tableName = ""
  | .emptyChainName d => c.layout.chainName d = ""
  | .sameChain => c.layout.inputChain = c.layout.outputChain
  | .zeroInterval => c.exporter.interval = 0
  | .address value => value = c.exporter.address ∧ Address.parse? value = none
  | .endpoint value => value = c.exporter.endpoint ∧ value ≠ "/metrics"
  | .counter d i f => ∃ k, (c.counters.get d)[i]? = some k ∧
      k.Has c.layout.family d (((c.counters.get d).take i).map Counter.label) f

variable (c : Config)

theorem hasFrom_start_iff (d : Direction) (e : Invalid) :
    HasFrom c.layout.family d [] 0 (c.counters.get d) e ↔ c.Has e ∧ ∃ i f, e = .counter d i f := by
  constructor
  · rintro ⟨i, k, f, rfl, hk, hf⟩
    rw [List.append_nil] at hf
    rw [Nat.zero_add]
    exact ⟨⟨k, hk, hf⟩, i, f, rfl⟩
  · rintro ⟨he, i, f, rfl⟩
    obtain ⟨k, hk, hf⟩ := he
    exact ⟨i, k, f, by rw [Nat.zero_add], hk, by rwa [List.append_nil]⟩

/-- What can be wrong with the settings, each at the number of its part. -/
def settings : List Invalid :=
  [.logLevel, .logFormat, .emptyTableName, .emptyChainName .input, .emptyChainName .output,
    .sameChain, .zeroInterval, .address c.exporter.address, .endpoint c.exporter.endpoint]

variable {c} in
theorem setting_of_has {e : Invalid} (h : c.Has e) (hp : e.part < 9) :
    c.settings[e.part]? = some e := by
  cases e with
  | emptyChainName d => cases d <;> rfl
  | address value | endpoint value =>
    obtain ⟨rfl, -⟩ := h
    rfl
  | counter d i f => cases d <;> exact absurd hp (by simp [Invalid.part])
  | logLevel | logFormat | emptyTableName | sameChain | zeroInterval => rfl

variable {c} in
theorem foremost_setting {i : Nat} {e : Invalid} (hi : c.settings[i]? = some e) (hp : e.part = i)
    {fits : Prop} [Decidable fits] (h : c.Has e ↔ ¬ fits) :
    Foremost Invalid.place (fun e => c.Has e ∧ e.part = i) (if fits then none else some e) := by
  have hlt : i < 9 := (List.getElem?_eq_some_iff.1 hi).1
  refine Foremost.check fun e' => ?_
  constructor
  · rintro ⟨he, rfl⟩
    have heq := setting_of_has he hlt
    rw [hi] at heq
    cases heq
    exact ⟨rfl, h.1 he⟩
  · rintro ⟨rfl, hfits⟩
    exact ⟨h.2 hfits, hp⟩

/-- Of the settings, the first that does not fit is blamed. -/
theorem foremost_settingFault :
    Foremost Invalid.place (fun e => c.Has e ∧ e.part < 9) c.settingFault := by
  refine (Foremost.findSome? (P := c.Has) (k := 0)
    (fun _ _ => Invalid.place_lt_of_part_lt) ?_).congr fun f => by simp
  simp only [List.zipIdx_cons, List.zipIdx_nil, List.forall_mem_cons]
  exact ⟨foremost_setting rfl rfl (by simp [Has, logLevels]),
    foremost_setting rfl rfl (by simp [Has, logFormats]),
    foremost_setting rfl rfl (by simp [Has]),
    foremost_setting rfl rfl (by simp [Has, Layout.chainName]),
    foremost_setting rfl rfl (by simp [Has, Layout.chainName]),
    foremost_setting rfl rfl (by simp [Has]),
    foremost_setting rfl rfl (by simp [Has]),
    foremost_setting rfl rfl (by simp [Has]),
    foremost_setting rfl rfl (by simp [Has]), by simp⟩

theorem blamed_validate : blamed c.validate.value = c.settingFault.or
    ((blamed (checkCounters c.layout.family .input [] 0 c.counters.input).value).or
      (blamed (checkCounters c.layout.family .output [] 0 c.counters.output).value)) := by
  unfold validate
  cases c.settingFault with
  | some e => rfl
  | none =>
    simp only [Logged.value_bind]
    cases (checkCounters c.layout.family .input [] 0 c.counters.input).value <;> rfl

/-- What is blamed is the first thing wrong. -/
theorem foremost_validate : Foremost Invalid.place c.Has (blamed c.validate.value) := by
  have hcounters (d : Direction) := (foremost_checkCounters c.layout.family d (c.counters.get d)
    [] 0).congr (c.hasFrom_start_iff d)
  rw [blamed_validate]
  refine (c.foremost_settingFault.or ((hcounters .input).or (hcounters .output) ?_) ?_).congr
    fun e => ?_
  · rintro _ _ ⟨-, i, f, rfl⟩ ⟨-, i', f', rfl⟩
    exact Invalid.place_lt_of_part_lt (by simp [Invalid.part])
  · rintro e _ ⟨-, he⟩ (⟨-, i, f, rfl⟩ | ⟨-, i, f, rfl⟩)
    · exact Invalid.place_lt_of_part_lt he
    · exact Invalid.place_lt_of_part_lt (Nat.lt_succ_of_lt he)
  · rw [← and_or_left, ← and_or_left]
    exact and_iff_left e.part_cases

end Config

/-! ## Warnings -/

namespace Logged

variable {α β : Type}

@[simp]
theorem warnings_pure (a : α) : (pure a : Logged α).warnings = [] := rfl

@[simp]
theorem warnings_bind (m : Logged α) (f : α → Logged β) :
    (m >>= f).warnings = m.warnings ++ (f m.value).warnings := rfl

@[simp]
theorem warnings_forM_warn (w : Option Warning) : (w.forM warn).warnings = w.toList := by
  cases w <;> rfl

end Logged

/-- The warning for a TCP counter with flags that rules do not look at, which are all but FIN, SYN,
RST and ACK. -/
def Counter.neverMatches? (c : Counter) : Option Warning :=
  if c.protocol = some .tcp ∧ c.flags.bits &&& ~~~0x17 ≠ 0 then
    some (.neverMatches c.label ⟨c.flags.bits &&& ~~~0x17⟩)
  else none

theorem Counter.warning_eq {family : Family} {c : Counter} (h : c.WellFormed family) :
    c.warning = c.neverMatches? := by
  have htcp : c.flags.bits &&& ~~~0x17 ≠ 0 → c.protocol = some .tcp := by
    intro hu
    refine beq_iff_eq.1 (h.flags ?_)
    refine Bool.eq_false_iff.2 fun he => hu ?_
    rw [beq_iff_eq.1 he, UInt8.zero_and]
  have hlost : c.flags.unmatchable = ⟨c.flags.bits &&& ~~~0x17⟩ := rfl
  unfold warning neverMatches? TcpFlags.isEmpty
  rw [hlost]
  by_cases hu : c.flags.bits &&& ~~~0x17 = 0
  · simp [hu]
  · simp [hu, htcp hu]

namespace Config

/-- The checks of the counter at an index by itself come before what is blamed. -/
def Passed (d : Direction) (i : Nat) : Except Invalid Unit → Prop
  | .ok () => True
  | .error e => (Invalid.counter d i .flagsNotAllowed).place < e.place

instance (d : Direction) (i : Nat) : ∀ x, Decidable (Passed d i x)
  | .ok () => inferInstanceAs (Decidable True)
  | .error e => inferInstanceAs (Decidable (_ < e.place))

/-- The warnings for the counters that have passed. -/
def warned (d : Direction) (x : Except Invalid Unit) (cs : List (Counter × Nat)) : List Warning :=
  cs.filterMap fun c => if Passed d c.2 x then c.1.neverMatches? else none

section Warnings
variable (family : Family) (d : Direction)

theorem warned_eq_nil {cs : List (Counter × Nat)} {x : Except Invalid Unit}
    (h : ∀ c ∈ cs, ¬ Passed d c.2 x) : warned d x cs = [] :=
  List.filterMap_eq_nil_iff.2 fun c hc => if_neg (h c hc)

theorem warned_cons {c : Counter} {i : Nat} {cs : List (Counter × Nat)} {x : Except Invalid Unit}
    (h : Passed d i x) : warned d x ((c, i) :: cs) = c.neverMatches?.toList ++ warned d x cs := by
  unfold warned
  rw [List.filterMap_cons, if_pos h]
  cases c.neverMatches? <;> rfl

theorem warned_congr {cs : List (Counter × Nat)} {x y : Except Invalid Unit}
    (h : ∀ i, Passed d i x ↔ Passed d i y) : warned d x cs = warned d y cs :=
  List.filterMap_congr fun c _ => by simp only [h]

/-- Nothing behind a counter that is blamed has passed. -/
theorem warned_behind (f : CounterFault) (cs : List Counter) (i : Nat) :
    warned d (.error (.counter d i f)) (cs.zipIdx (i + 1)) = [] := by
  refine warned_eq_nil d fun c hc h => ?_
  have hle := List.le_snd_of_mem_zipIdx hc
  rcases Invalid.place_counter_lt_iff.1 h with hlt | ⟨heq, -⟩ <;> omega

/-- Counters that have passed are warned of, up to the first that is blamed. -/
theorem warnings_checkCounters (cs : List Counter) : ∀ (taken : List String) (index : Nat),
    (checkCounters family d taken index cs).warnings =
      warned d (checkCounters family d taken index cs).value (cs.zipIdx index) := by
  induction cs with
  | nil => exact fun taken index => rfl
  | cons c cs ih =>
    intro taken index
    rw [List.zipIdx_cons, checkCounters]
    cases hf : c.fault family with
    | some f =>
      have hfound := c.foremost_fault family d taken
      rw [hf] at hfound
      have hnot : ¬ Passed d index (.error (.counter d index f)) := fun h =>
        (Invalid.place_counter_lt_iff.1 h).elim (Nat.lt_irrefl _)
          fun h => CounterFault.not_flagsNotAllowed_lt hfound.1.2 h.2
      have hwarned : warned d (.error (.counter d index f)) ((c, index) :: cs.zipIdx (index + 1)) =
          warned d (.error (.counter d index f)) (cs.zipIdx (index + 1)) := by
        rw [warned, List.filterMap_cons, if_neg hnot]
        rfl
      exact (hwarned.trans (warned_behind d f cs index)).symm
    | none =>
      rw [Counter.warning_eq (Counter.fault_eq_none_iff.1 hf)]
      by_cases hs : c.label ∈ taken
      · have hpassed : Passed d index (.error (.counter d index (.duplicateLabel c.label d))) :=
          Invalid.place_counter_lt_iff.2 (.inr ⟨rfl, CounterFault.place_lt_of_part_lt (Nat.lt_succ_self 5)⟩)
        simp only [hs, if_true, Logged.warnings_bind, Logged.warnings_forM_warn, Logged.value_bind,
          Logged.value_pure, Logged.warnings_pure]
        rw [warned_cons d hpassed, warned_behind]
      · simp only [hs, if_false, Logged.warnings_bind, Logged.warnings_forM_warn,
          Logged.value_bind, ih]
        rw [warned_cons]
        -- what is blamed later comes behind this counter
        have hlater := foremost_checkCounters family d cs (c.label :: taken) (index + 1)
        cases hx : (checkCounters family d (c.label :: taken) (index + 1) cs).value with
        | ok _ => trivial
        | error e =>
          rw [hx] at hlater
          obtain ⟨⟨i, k, f, rfl, -⟩, -⟩ := hlater
          exact Invalid.place_counter_lt_iff.2 (.inl (by omega))

end Warnings

theorem warnings_validate (c : Config) : c.validate.warnings =
    Direction.all.flatMap fun d => warned d c.validate.value (c.counters.get d).zipIdx := by
  have hall (f : Direction → List Warning) :
      Direction.all.flatMap f = f .input ++ f .output := by simp [Direction.all]
  rw [hall]
  have hsettings := c.foremost_settingFault
  unfold validate
  cases hs : c.settingFault with
  | some e =>
    rw [hs] at hsettings
    have hnot (d : Direction) (i : Nat) : ¬ Passed d i (.error e) := fun h =>
      List.lt_irrefl _ (List.lt_trans h (Invalid.place_lt_of_part_lt (by
        cases d
        · exact hsettings.1.2
        · exact Nat.lt_succ_of_lt hsettings.1.2)))
    simp only [Logged.warnings_pure, Logged.value_pure]
    rw [warned_eq_nil .input fun k _ => hnot _ _, warned_eq_nil .output fun k _ => hnot _ _]
    rfl
  | none =>
    simp only [Logged.warnings_bind, Logged.value_bind, warnings_checkCounters]
    have hinput := foremost_checkCounters c.layout.family .input c.counters.input [] 0
    cases hx : (checkCounters c.layout.family .input [] 0 c.counters.input).value with
    | error e =>
      rw [hx] at hinput
      obtain ⟨⟨i, k, f, rfl, -⟩, -⟩ := hinput
      have hnot (j : Nat) : ¬ Passed .output j (.error (.counter .input (0 + i) f)) := fun h =>
        List.lt_irrefl _ (List.lt_trans h (Invalid.place_lt_of_part_lt (Nat.lt_succ_self 9)))
      simp only [Logged.warnings_pure, Logged.value_pure]
      rw [warned_eq_nil .output fun k _ => hnot _]
      rfl
    | ok _ =>
      -- all input counters have passed, whatever is blamed then
      have houtput := foremost_checkCounters c.layout.family .output c.counters.output [] 0
      simp only [warnings_checkCounters]
      rw [warned_congr .input (x := .ok ()) fun j => ?_]
      · rfl
      · cases hy : (checkCounters c.layout.family .output [] 0 c.counters.output).value with
        | ok _ => exact Iff.rfl
        | error e =>
          rw [hy] at houtput
          obtain ⟨⟨i, k, f, rfl, -⟩, -⟩ := houtput
          exact iff_of_true trivial (Invalid.place_lt_of_part_lt (Nat.lt_succ_self 9))

/-! ## Acceptance -/

/-- Everything in a configuration fits. -/
@[mk_iff]
structure Fits (c : Config) : Prop where
  logLevel : c.general.logLevel ∈ ["trace", "debug", "info", "warn", "error"]
  logFormat : c.general.logFormat ∈ ["json", "pretty"]
  tableName : c.layout.tableName ≠ ""
  inputChain : c.layout.inputChain ≠ ""
  outputChain : c.layout.outputChain ≠ ""
  chains : c.layout.inputChain ≠ c.layout.outputChain
  interval : 0 < c.exporter.interval
  address : ∃ a, Address.parse? c.exporter.address = some a
  endpoint : c.exporter.endpoint = "/metrics"
  counters : c.counters.Accepted c.layout.family

theorem blamed_eq_none_iff {x : Except Invalid Unit} : blamed x = none ↔ x = .ok () := by
  cases x <;> simp [blamed]

theorem blamed_eq_some_iff {x : Except Invalid Unit} {e : Invalid} :
    blamed x = some e ↔ x = .error e := by
  cases x <;> simp [blamed]

theorem settingFault_eq_none_iff {c : Config} :
    c.settingFault = none ↔ ∀ e ∈ c.settings, ¬ c.Has e := by
  have hfound := c.foremost_settingFault
  cases hs : c.settingFault with
  | none =>
    rw [hs] at hfound
    have hpart : ∀ e ∈ c.settings, e.part < 9 := by
      simp only [settings, List.forall_mem_cons]
      simp [Invalid.part]
    simpa using fun e he h => hfound e ⟨h, hpart e he⟩
  | some e =>
    rw [hs] at hfound
    obtain ⟨⟨he, hp⟩, -⟩ := hfound
    simpa using ⟨e, List.mem_of_getElem? (setting_of_has he hp), he⟩

theorem validate_eq_ok_iff (c : Config) : c.validate.value = .ok () ↔ c.Fits := by
  have hcounters : c.counters.Accepted c.layout.family ↔
      (checkCounters c.layout.family .input [] 0 c.counters.input).value = .ok () ∧
        (checkCounters c.layout.family .output [] 0 c.counters.output).value = .ok () := by
    rw [← checkCounters_eq_ok_iff]
    exact ⟨fun h => ⟨h .input, h .output⟩, fun h d => by cases d; exacts [h.1, h.2]⟩
  rw [← blamed_eq_none_iff, blamed_validate, Option.or_eq_none_iff, Option.or_eq_none_iff,
    blamed_eq_none_iff, blamed_eq_none_iff, ← hcounters, settingFault_eq_none_iff, fits_iff]
  simp only [settings, List.forall_mem_cons, List.not_mem_nil, false_imp_iff, implies_true,
    and_true, and_assoc, Has, not_not, Layout.chainName, true_and, ← ne_eq,
    Option.ne_none_iff_exists', UInt64.pos_iff_ne_zero]

/-- A configuration is accepted if everything fits, and else refused for the first thing that is
wrong. There is a warning for each TCP counter with flags that rules do not look at, if the counter
has passed by then. -/
theorem validate_blames (c : Config) :
    (c.validate.value = .ok () ↔ c.Fits) ∧
      (∀ e, c.validate.value = .error e ↔
        c.Has e ∧ ∀ e', c.Has e' → e' = e ∨ e.place < e'.place) ∧
      c.validate.warnings =
        Direction.all.flatMap fun d => warned d c.validate.value (c.counters.get d).zipIdx :=
  ⟨c.validate_eq_ok_iff, fun _ => blamed_eq_some_iff.symm.trans c.foremost_validate.eq_some_iff,
    c.warnings_validate⟩

/-- The second counter of a label is looked at by itself first. -/
example :
    let first : Counter := { label := "web" }
    let second : Counter := { label := "web", protocol := some .tcp, sourcePort := some 0 }
    (validate { counters := ⟨[first, second], []⟩ }).value =
      .error (.counter .input 1 (.zeroPort .source)) := by
  decide +kernel

/-- The counter with a flag that rules do not look at has passed when the one behind it is blamed,
and is warned of. -/
example :
    let pushed : Counter :=
      { label := "pushed", protocol := some .tcp, flags := .ofList [.psh, .ack] }
    let unnamed : Counter := { label := "" }
    let c : Config := { counters := ⟨[pushed, unnamed, pushed], []⟩ }
    c.validate.value = .error (.counter .input 1 .emptyLabel) ∧
      c.validate.warnings = [.neverMatches "pushed" ⟨0x08⟩] := by
  decide +kernel

end Config

end FlowTally

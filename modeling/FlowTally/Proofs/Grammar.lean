import Mathlib.Data.List.Induction
import FlowTally.Proofs.Attributes
import FlowTally.Proofs.ReadBack
/-!
# Which rules are counters'

The reader goes through a rule once and keeps what each register was loaded with. Here the same is
said of the places in the rule: an expression is at fault by itself or by what stands before it
(`Rule.fault?`), the first one at fault gives the error, and a field of the counter is what the last
comparison of it says (`Rule.reported`). `Rule.toCounter_iff_grammatical` puts together which rules
are read, as what, and why the others are not. `Rule.Reading.Of.absorb` is the step of the reader
that it rests on.
-/

namespace FlowTally

/-! ## Registers -/

/-- The field that the expression loads into the register. -/
def Expr.loads? (r : Register) : Expr → Option Field
  | .metadata .protocol target => if target = r then some .protocol else none
  | .payload base offset length target =>
    if target = r then Field.ofLoad? base offset length else none
  | _ => none

/-- The totals that the expression holds. -/
def Expr.totals? : Expr → Option (UInt64 × UInt64)
  | .counter packets bytes => some (packets, bytes)
  | _ => none

namespace Rule

/-- The field that the register was loaded with last. -/
def lastLoad? (es : List Expr) (r : Register) : Option Field := es.reverse.findSome? (Expr.loads? r)

/-- The data of a comparison that stands behind others, if it compares one of the fields. -/
def compared? (fields : List Field) (before : List Expr) : Expr → Option Bytes
  | .compare source _ data => if ∃ f ∈ lastLoad? before source, f ∈ fields then some data else none
  | _ => none

/-- What one of the fields is compared with last. -/
def lastCompared? (fields : List Field) (es : List Expr) : Option Bytes :=
  ((List.range es.length).filterMap fun i => es[i]?.bind (compared? fields (es.take i))).getLast?

/-- The counter that the expressions say, but for its label. -/
def reported (es : List Expr) : Counter where
  source := (lastCompared? [.sourceV4, .sourceV6] es).bind Address.ofOctets?
  destination := (lastCompared? [.destinationV4, .destinationV6] es).bind Address.ofOctets?
  protocol := (lastCompared? [.protocol] es).bind fun data =>
    Protocol.ofNumber? (UInt8.ofNat (Bytes.toNatBE data))
  sourcePort := (lastCompared? [.sourcePort] es).map fun data => UInt16.ofNat (Bytes.toNatBE data)
  destinationPort :=
    (lastCompared? [.destinationPort] es).map fun data => UInt16.ofNat (Bytes.toNatBE data)
  flags := ((lastCompared? [.flags] es).map fun data => ⟨UInt8.ofNat (Bytes.toNatBE data)⟩).getD
    .empty
  packets := ((es.findSome? Expr.totals?).map Prod.fst).getD 0
  bytes := ((es.findSome? Expr.totals?).map Prod.snd).getD 0

/-! ## Faults -/

/-- The loads of a header that a counter leads to. -/
def knownLoads : List (HeaderBase × UInt32 × UInt32) :=
  [(.network, 12, 4), (.network, 8, 16), (.network, 16, 4), (.network, 24, 16), (.transport, 0, 2),
    (.transport, 2, 2), (.transport, 13, 1)]

/-- What is wrong with comparing the field with the data. -/
def comparisonFault? (f : Field) (data : Bytes) : Option ForeignRule :=
  if data.length ≠ f.width then some (.dataLength f data.length)
  else
    match f, data with
    | .protocol, [n] => if (Protocol.ofNumber? n).isSome then none else some (.unknownProtocol n)
    | _, _ => none

/-- What is wrong with an expression that stands behind others. -/
def fault? (before : List Expr) : Expr → Option ForeignRule
  | .metadata .protocol _ => none
  | .metadata (.other raw) _ => some (.unsupportedMetaKey raw)
  | .payload base offset length _ =>
    if (base, offset, length) ∈ knownLoads then none
    else some (.unsupportedLoad base offset length)
  | .bitwise source _ _ _ _ =>
    if (lastLoad? before source).isSome then none else some (.unknownRegister source.number)
  | .compare _ (.other raw) _ => some (.unsupportedOperator raw)
  | .compare source .equal data =>
    match lastLoad? before source with
    | none => some (.unknownRegister source.number)
    | some f => comparisonFault? f data
  | .counter _ _ => if before.any Expr.isCounter then some .secondCounter else none
  | .other name => some (.unsupportedExpr name)

/-- None of the expressions is at fault. -/
def Faultless (es : List Expr) : Prop := ∀ before e, before ++ [e] <+: es → fault? before e = none

/-- Why a rule is not read as a counter: its first expression at fault, or what it does not have. -/
inductive Foreign (r : Rule) : ForeignRule → Prop where
  | expr {before : List Expr} {e : Expr} {why : ForeignRule} (he : before ++ [e] <+: r.exprs)
    (hfirst : Faultless before) (h : fault? before e = some why) : Foreign r why
  | noCounter (h : Faultless r.exprs) (hc : r.counterCount = 0) : Foreign r .noCounter
  | noLabel (h : Faultless r.exprs) (hc : r.counterCount ≠ 0)
    (hl : ∀ label ∈ r.comment, label = "") : Foreign r .noLabel

/-- What a rule has to be like to be read as a counter. -/
structure Grammatical (r : Rule) : Prop where
  exprs : ∀ name, .other name ∉ r.exprs
  keys : ∀ key target, .metadata key target ∈ r.exprs → key = .protocol
  loads : ∀ base offset length target, .payload base offset length target ∈ r.exprs →
    (base, offset, length) ∈ knownLoads
  masks : ∀ before source target length mask xor,
    before ++ [.bitwise source target length mask xor] <+: r.exprs →
      ∃ f, lastLoad? before source = some f
  comparisons : ∀ before source op data, before ++ [.compare source op data] <+: r.exprs →
    op = .equal ∧ ∃ f, lastLoad? before source = some f ∧ data.length = f.width ∧
      (f = .protocol → ∃ q : Protocol, data = [q.number])
  counter : r.counterCount = 1
  label : ∃ label ∈ r.comment, label ≠ ""

/-! ## One more expression -/

theorem lastLoad?_append_singleton (es : List Expr) (e : Expr) (r : Register) :
    lastLoad? (es ++ [e]) r = (e.loads? r).or (lastLoad? es r) := by
  rw [lastLoad?, List.reverse_append, List.reverse_singleton, List.singleton_append,
    List.findSome?_cons, lastLoad?]
  cases e.loads? r <;> rfl

theorem lastCompared?_append_singleton (fields : List Field) (es : List Expr) (e : Expr) :
    lastCompared? fields (es ++ [e]) = (compared? fields es e).or (lastCompared? fields es) := by
  -- What stands before the old places is the same as it was.
  have hbefore : ∀ i ∈ List.range es.length,
      (es ++ [e])[i]?.bind (compared? fields ((es ++ [e]).take i)) =
        es[i]?.bind (compared? fields (es.take i)) := by
    intro i hi
    have hi := List.mem_range.1 hi
    rw [List.getElem?_append_left hi, List.take_append_of_le_length (Nat.le_of_lt hi)]
  have hlast : (es ++ [e])[es.length]?.bind (compared? fields ((es ++ [e]).take es.length)) =
      compared? fields es e := by simp
  rw [lastCompared?, List.length_append, List.length_singleton, List.range_succ,
    List.filterMap_append, List.filterMap_congr hbefore, List.getLast?_append, lastCompared?]
  cases hc : compared? fields es e <;> simp [hc]

theorem any_isCounter_append_singleton (es : List Expr) (e : Expr) :
    (es ++ [e]).any Expr.isCounter = (es.any Expr.isCounter || e.isCounter) := by simp

theorem findSome?_totals?_append_singleton (es : List Expr) (e : Expr) :
    (es ++ [e]).findSome? Expr.totals? = (es.findSome? Expr.totals?).or e.totals? := by
  rw [List.findSome?_append]
  cases h : e.totals? <;> simp [h]

/-- An expression that neither compares nor counts changes nothing. -/
theorem reported_append_singleton {e : Expr} (h : ∀ fields before, compared? fields before e = none)
    (ht : e.totals? = none) (es : List Expr) : reported (es ++ [e]) = reported es := by
  simp only [reported, lastCompared?_append_singleton, findSome?_totals?_append_singleton, h, ht,
    Option.none_or, Option.or_none]

theorem comparisonFault?_eq_none_iff {f : Field} {data : Bytes} :
    comparisonFault? f data = none ↔
      data.length = f.width ∧ (f = .protocol → ∃ q : Protocol, data = [q.number]) := by
  unfold comparisonFault?
  by_cases hl : data.length = f.width
  · rw [if_neg (not_not.2 hl), and_iff_right hl]
    cases f with
    | protocol =>
      obtain ⟨n, rfl⟩ := List.length_eq_one_iff.1 hl
      have hn : ¬ Protocol.ofNumber? n = none ↔ ∃ q : Protocol, n = q.number := by
        rw [← ne_eq, Option.ne_none_iff_exists']
        exact exists_congr fun q => Protocol.ofNumber?_eq_some_iff.trans eq_comm
      simpa using hn
    | _ => simp
  · simp [hl]

theorem setField_of_fault {f : Field} {data : Bytes} {why : ForeignRule}
    (h : comparisonFault? f data = some why) (c : Counter) : c.setField f data = .error why := by
  unfold comparisonFault? at h
  by_cases hl : data.length = f.width
  · rw [if_neg (not_not.2 hl)] at h
    split at h
    · next n =>
      split at h
      · cases h
      · next hn =>
        cases h
        have hn : Protocol.ofNumber? n = none := by simpa using hn
        simp [Counter.setField, Field.width, Bytes.toNatBE_singleton, hn]
    · cases h
  · rw [if_pos hl] at h
    cases h
    unfold Counter.setField
    rw [if_pos hl]

/-- A comparison sets its field. -/
theorem setField_reported {es : List Expr} {source : Register} {f : Field} {data : Bytes}
    (hf : lastLoad? es source = some f) (h : comparisonFault? f data = none) :
    (reported es).setField f data = .ok (reported (es ++ [.compare source .equal data])) := by
  have hc (fields : List Field) : compared? fields es (.compare source .equal data) =
      if f ∈ fields then some data else none := by simp [compared?, hf]
  have ht : (Expr.compare source .equal data).totals? = none := rfl
  obtain ⟨hl, hq⟩ := comparisonFault?_eq_none_iff.1 h
  simp only [reported, lastCompared?_append_singleton, findSome?_totals?_append_singleton, hc, ht,
    Option.or_none]
  unfold Counter.setField
  rw [if_neg (not_not.2 hl)]
  cases f with
  | protocol =>
    obtain ⟨q, rfl⟩ := hq rfl
    simp [Bytes.toNatBE_singleton]
  | _ => simp

/-- What the reader knows after some expressions. -/
structure Reading.Of (es : List Expr) (s : Reading) : Prop where
  field? : ∀ r, s.field? r = lastLoad? es r
  counted : s.counted = es.any Expr.isCounter
  counter : s.counter = reported es

theorem isSome_ofLoad?_iff {base : HeaderBase} {offset length : UInt32} :
    (Field.ofLoad? base offset length).isSome ↔ (base, offset, length) ∈ knownLoads := by
  constructor
  · intro h
    obtain ⟨f, hf⟩ := Option.isSome_iff_exists.1 h
    obtain ⟨hp, rfl⟩ := Field.ofLoad?_eq_some_iff.1 hf
    cases f <;> simp [Field.place] at hp <;> obtain ⟨rfl, rfl⟩ := hp <;> decide
  · intro h
    simp only [knownLoads, List.mem_cons, Prod.mk.injEq, List.not_mem_nil, or_false] at h
    rcases h with ⟨rfl, rfl, rfl⟩ | ⟨rfl, rfl, rfl⟩ | ⟨rfl, rfl, rfl⟩ | ⟨rfl, rfl, rfl⟩ |
      ⟨rfl, rfl, rfl⟩ | ⟨rfl, rfl, rfl⟩ | ⟨rfl, rfl, rfl⟩ <;> rfl

namespace Reading.Of

variable {es : List Expr} {s : Reading}

theorem nil : Of [] {} := ⟨fun _ => rfl, rfl, rfl⟩

/-- A load is all that is new. -/
theorem loaded (h : Of es s) {e : Expr} {target : Register} {f : Field}
    (hl : ∀ r, e.loads? r = if target = r then some f else none)
    (hc : ∀ fields before, compared? fields before e = none) (ht : e.totals? = none)
    (hn : e.isCounter = false) : Of (es ++ [e]) (s.loaded target f) := by
  refine ⟨fun r => ?_, ?_, ?_⟩
  · rw [lastLoad?_append_singleton, hl, ← h.field? r]
    by_cases hr : target = r
    · subst hr
      simp
    · have hr' : (r == target) = false := beq_false_of_ne (Ne.symm hr)
      simp [Reading.field?, Reading.loaded, List.lookup_cons, hr, hr']
  · rw [any_isCounter_append_singleton, hn, Bool.or_false]
    exact h.counted
  · rw [reported_append_singleton hc ht]
    exact h.counter

/-- An expression that loads nothing. -/
theorem keep (h : Of es s) {e : Expr} (hl : ∀ r, e.loads? r = none) {s' : Reading}
    (hr : s'.registers = s.registers) (hn : s'.counted = (s.counted || e.isCounter))
    (hc : s'.counter = reported (es ++ [e])) : Of (es ++ [e]) s' := by
  refine ⟨fun r => ?_, ?_, hc⟩
  · rw [lastLoad?_append_singleton, hl, Option.none_or, ← h.field? r, Reading.field?, hr,
      Reading.field?]
  · rw [any_isCounter_append_singleton, ← h.counted, hn]

theorem absorb (h : Of es s) (e : Expr) :
    (∃ why, fault? es e = some why ∧ s.absorb e = .error why) ∨
      fault? es e = none ∧ ∃ s', s.absorb e = .ok s' ∧ Of (es ++ [e]) s' := by
  cases e with
  | metadata key target =>
    cases key with
    | protocol => exact .inr ⟨rfl, _, rfl, h.loaded (fun _ => rfl) (fun _ _ => rfl) rfl rfl⟩
    | other raw => exact .inl ⟨_, rfl, rfl⟩
  | payload base offset length target =>
    cases hf : Field.ofLoad? base offset length with
    | none =>
      have hn : (base, offset, length) ∉ knownLoads := by rw [← isSome_ofLoad?_iff, hf]; simp
      exact .inl ⟨_, by rw [fault?, if_neg hn], by rw [Reading.absorb, hf]⟩
    | some f =>
      have hk : (base, offset, length) ∈ knownLoads := by rw [← isSome_ofLoad?_iff, hf]; rfl
      refine .inr ⟨by rw [fault?, if_pos hk], _, by rw [Reading.absorb, hf], ?_⟩
      exact h.loaded (fun r => by rw [Expr.loads?, hf]) (fun _ _ => rfl) rfl rfl
  | bitwise source target length mask xor =>
    cases hf : lastLoad? es source with
    | none =>
      exact .inl ⟨.unknownRegister source.number, by simp [fault?, hf],
        by simp [Reading.absorb, h.field?, hf]⟩
    | some f =>
      refine .inr ⟨by simp [fault?, hf], s, by simp [Reading.absorb, h.field?, hf], ?_⟩
      refine h.keep (fun _ => rfl) rfl (Bool.or_false _).symm ?_
      rw [reported_append_singleton (fun _ _ => rfl) rfl]
      exact h.counter
  | compare source op data =>
    cases op with
    | other raw => exact .inl ⟨_, rfl, rfl⟩
    | equal =>
      cases hf : lastLoad? es source with
      | none =>
        exact .inl ⟨.unknownRegister source.number, by simp [fault?, hf],
          by simp [Reading.absorb, h.field?, hf]⟩
      | some f =>
        have hfault : fault? es (.compare source .equal data) = comparisonFault? f data := by
          rw [fault?, hf]
        have habsorb : s.absorb (.compare source .equal data) =
            (s.counter.setField f data).map fun c => { s with counter := c } := by
          simp only [Reading.absorb, h.field?, hf]
        rw [hfault, habsorb]
        cases hc : comparisonFault? f data with
        | some why => exact .inl ⟨why, rfl, by rw [setField_of_fault hc]; rfl⟩
        | none =>
          refine .inr ⟨rfl, _, by rw [h.counter, setField_reported hf hc]; rfl, ?_⟩
          exact h.keep (fun _ => rfl) rfl (Bool.or_false _).symm rfl
  | counter packets bytes =>
    cases hn : es.any Expr.isCounter with
    | true =>
      have hs : s.counted = true := h.counted.trans hn
      exact .inl ⟨_, by rw [fault?, if_pos hn], by rw [Reading.absorb, if_pos hs]⟩
    | false =>
      have hs : s.counted = false := h.counted.trans hn
      refine .inr ⟨by simp [fault?, hn], _, by rw [Reading.absorb, hs]; rfl, ?_⟩
      refine h.keep (fun _ => rfl) rfl (by simp [Expr.isCounter]) ?_
      have hnone : es.findSome? Expr.totals? = none := by
        rw [List.findSome?_eq_none_iff]
        intro e he
        have hne := List.any_eq_false.1 hn e he
        cases e <;> first | rfl | exact absurd rfl hne
      have hc (fields : List Field) : compared? fields es (.counter packets bytes) = none := rfl
      rw [h.counter]
      simp only [reported, lastCompared?_append_singleton, findSome?_totals?_append_singleton, hc,
        hnone, Option.none_or]
      rfl
  | other name => exact .inl ⟨_, rfl, rfl⟩

end Reading.Of

/-! ## All of them -/

theorem Faultless.nil : Faultless [] := fun _ _ he => by simpa using he.length_le

theorem faultless_append_singleton {es : List Expr} {e : Expr} :
    Faultless (es ++ [e]) ↔ Faultless es ∧ fault? es e = none := by
  constructor
  · exact fun h => ⟨fun before e' he => h before e' (he.trans (List.prefix_append _ _)),
      h es e (List.prefix_refl _)⟩
  · rintro ⟨hes, he⟩ before e' hp
    rcases List.prefix_concat_iff.1 hp with heq | hp
    · obtain ⟨rfl, hlast⟩ := List.append_inj' heq rfl
      obtain rfl := List.singleton_inj.1 hlast
      exact he
    · exact hes before e' hp

/-- Faultless expressions are read to their end. -/
theorem Faultless.read {es : List Expr} (h : Faultless es) :
    ∃ s, es.foldlM Reading.absorb {} = .ok s ∧ Reading.Of es s := by
  -- By the last expression, since a fault depends on all that stands before.
  induction es using List.reverseRecOn with
  | nil => exact ⟨_, rfl, .nil⟩
  | append_singleton es e ih =>
    obtain ⟨hes, he⟩ := faultless_append_singleton.1 h
    obtain ⟨s, hs, hof⟩ := ih hes
    obtain ⟨why, hwhy, -⟩ | ⟨-, s', hs', hof'⟩ := hof.absorb e
    · rw [he] at hwhy
      cases hwhy
    · refine ⟨s', ?_, hof'⟩
      rw [List.foldlM_append, hs]
      simp [bind, Except.bind, hs']
      rfl

/-- An expression at fault behind faultless ones is where the reader stops. -/
theorem Faultless.stops {es before : List Expr} {e : Expr} {why : ForeignRule}
    (h : Faultless before) (he : before ++ [e] <+: es) (hwhy : fault? before e = some why) :
    es.foldlM Reading.absorb {} = .error why := by
  obtain ⟨behind, rfl⟩ := he
  obtain ⟨s, hs, hof⟩ := h.read
  obtain ⟨why', hwhy', habsorb⟩ | ⟨hnone, -⟩ := hof.absorb e
  · obtain rfl : why' = why := Option.some.inj (hwhy'.symm.trans hwhy)
    rw [List.append_assoc, List.foldlM_append, hs]
    simp [bind, Except.bind, habsorb]
  · rw [hnone] at hwhy
    cases hwhy

theorem faultless_or_stops (es : List Expr) :
    Faultless es ∨
      ∃ before e why, before ++ [e] <+: es ∧ Faultless before ∧ fault? before e = some why := by
  induction es using List.reverseRecOn with
  | nil => exact .inl .nil
  | append_singleton es e ih =>
    obtain hes | ⟨before, e', why, he, h⟩ := ih
    · cases hwhy : fault? es e with
      | none => exact .inl (faultless_append_singleton.2 ⟨hes, hwhy⟩)
      | some why => exact .inr ⟨es, e, why, List.prefix_refl _, hes, hwhy⟩
    · exact .inr ⟨before, e', why, he.trans (List.prefix_append _ _), h⟩

/-- A second counter is a fault. -/
theorem Faultless.countP_le {es : List Expr} (h : Faultless es) :
    es.countP Expr.isCounter ≤ 1 := by
  induction es using List.reverseRecOn with
  | nil => exact Nat.zero_le _
  | append_singleton es e ih =>
    obtain ⟨hes, he⟩ := faultless_append_singleton.1 h
    rw [List.countP_append, List.countP_singleton]
    cases e with
    | counter packets bytes =>
      have hnone : es.countP Expr.isCounter = 0 := by
        rw [List.countP_eq_zero]
        simpa [fault?] using he
      simp [hnone, Expr.isCounter]
    | _ => simpa [Expr.isCounter] using ih hes

/-! ## Rules -/

theorem grammatical_iff {r : Rule} :
    r.Grammatical ↔
      Faultless r.exprs ∧ r.counterCount = 1 ∧ ∃ label ∈ r.comment, label ≠ "" := by
  constructor
  · intro h
    refine ⟨fun before e he => ?_, h.counter, h.label⟩
    have hmem : e ∈ r.exprs := he.subset (by simp)
    cases e with
    | metadata key target => rw [h.keys key target hmem, fault?]
    | payload base offset length target =>
      rw [fault?, if_pos (h.loads base offset length target hmem)]
    | bitwise source target length mask xor =>
      obtain ⟨f, hf⟩ := h.masks before source target length mask xor he
      simp [fault?, hf]
    | compare source op data =>
      obtain ⟨rfl, f, hf, hl, hq⟩ := h.comparisons before source op data he
      rw [fault?, hf]
      exact comparisonFault?_eq_none_iff.2 ⟨hl, hq⟩
    | counter packets bytes =>
      have hle : (before ++ [Expr.counter packets bytes]).countP Expr.isCounter ≤ 1 :=
        h.counter ▸ he.sublist.countP_le
      have hnone : ¬ before.any Expr.isCounter = true := by
        rw [List.any_eq_true, ← List.countP_pos_iff]
        simp [Expr.isCounter] at hle ⊢
        omega
      rw [fault?, if_neg hnone]
    | other name => exact absurd hmem (h.exprs name)
  · rintro ⟨h, hc, hl⟩
    have hat {e : Expr} (he : e ∈ r.exprs) : ∃ before, before ++ [e] <+: r.exprs := by
      obtain ⟨before, behind, heq⟩ := List.append_of_mem he
      exact ⟨before, behind, by rw [heq]; simp⟩
    refine ⟨?_, ?_, ?_, ?_, ?_, hc, hl⟩
    · intro name he
      obtain ⟨before, he⟩ := hat he
      cases h before _ he
    · intro key target he
      obtain ⟨before, he⟩ := hat he
      have := h before _ he
      cases key with
      | protocol => rfl
      | other raw => cases this
    · intro base offset length target he
      obtain ⟨before, he⟩ := hat he
      simpa [fault?] using h before _ he
    · intro before source target length mask xor he
      simpa [fault?, Option.isSome_iff_exists] using h before _ he
    · intro before source op data he
      have hnone := h before _ he
      cases op with
      | other raw => cases hnone
      | equal =>
        cases hf : lastLoad? before source with
        | none => simp [fault?, hf] at hnone
        | some f =>
          rw [fault?, hf] at hnone
          exact ⟨rfl, f, rfl, comparisonFault?_eq_none_iff.1 hnone⟩

theorem Grammatical.isCounterRule {r : Rule} (h : r.Grammatical) : r.isCounterRule = true := by
  obtain ⟨label, hl, hne⟩ := h.label
  simp [Rule.isCounterRule, h.counter, Option.mem_def.1 hl, hne]

theorem Grammatical.toCounter {r : Rule} (h : r.Grammatical) :
    r.toCounter = .ok { reported r.exprs with label := r.comment.getD "" } := by
  obtain ⟨hf, hc, label, hl, hne⟩ := grammatical_iff.1 h
  obtain ⟨s, hs, hof⟩ := hf.read
  have hcounted : s.counted = true := by
    rw [hof.counted, List.any_eq_true, ← List.countP_pos_iff]
    exact Nat.pos_of_ne_zero (hc.trans_ne Nat.one_ne_zero)
  simp [Rule.toCounter, hs, hcounted, Option.mem_def.1 hl, hne, hof.counter, bind, Except.bind]
  rfl

theorem Foreign.toCounter {r : Rule} {why : ForeignRule} (h : r.Foreign why) :
    r.toCounter = .error why := by
  cases h with
  | expr he hfirst hwhy => simp [Rule.toCounter, hfirst.stops he hwhy, bind, Except.bind]
  | noCounter hf hc =>
    obtain ⟨s, hs, hof⟩ := hf.read
    have hcounted : s.counted = false := by
      rw [hof.counted, List.any_eq_false]
      simpa [counterCount, List.countP_eq_zero] using hc
    simp [Rule.toCounter, hs, hcounted, bind, Except.bind]
    rfl
  | noLabel hf hc hl =>
    obtain ⟨s, hs, hof⟩ := hf.read
    have hcounted : s.counted = true := by
      rw [hof.counted, List.any_eq_true, ← List.countP_pos_iff]
      exact Nat.pos_of_ne_zero hc
    simp only [Rule.toCounter, hs, hcounted, bind, Except.bind]
    cases hcomment : r.comment with
    | none => rfl
    | some label =>
      obtain rfl := hl label hcomment
      rfl

theorem grammatical_or_foreign (r : Rule) : r.Grammatical ∨ ∃ why, r.Foreign why := by
  rw [grammatical_iff]
  obtain hf | ⟨before, e, why, he, hfirst, hwhy⟩ := faultless_or_stops r.exprs
  · have hle : r.counterCount ≤ 1 := hf.countP_le
    by_cases hc : r.counterCount = 0
    · exact .inr ⟨_, .noCounter hf hc⟩
    · by_cases hl : ∃ label ∈ r.comment, label ≠ ""
      · exact .inl ⟨hf, by omega, hl⟩
      · exact .inr ⟨_, .noLabel hf hc fun label hlabel => by_contra fun h => hl ⟨label, hlabel, h⟩⟩
  · exact .inr ⟨why, .expr he hfirst hwhy⟩

/-- The reader takes the grammatical rules and no others, all of them counter rules. The counter
has in each field what it is compared with last, the totals and the label, and no direction. The
error is the one of the first expression at fault, else that there is no counter, else that there is
no label. -/
theorem toCounter_iff_grammatical (r : Rule) :
    ((∃ c, r.toCounter = .ok c) ↔ r.Grammatical) ∧ (r.Grammatical → r.isCounterRule = true) ∧
      (∀ c, r.toCounter = .ok c →
        c = { reported r.exprs with label := r.comment.getD "" } ∧ c.direction = none) ∧
      ∀ why, r.toCounter = .error why ↔ r.Foreign why := by
  have hok {c : Counter} (hc : r.toCounter = .ok c) : r.Grammatical := by
    obtain h | ⟨why, h⟩ := grammatical_or_foreign r
    · exact h
    · cases h.toCounter.symm.trans hc
  refine ⟨⟨fun ⟨c, hc⟩ => hok hc, fun h => ⟨_, h.toCounter⟩⟩, Grammatical.isCounterRule,
    fun c hc => ?_, fun why => ⟨fun hwhy => ?_, Foreign.toCounter⟩⟩
  · cases (hok hc).toCounter.symm.trans hc
    exact ⟨rfl, rfl⟩
  · obtain h | ⟨why', h⟩ := grammatical_or_foreign r
    · cases h.toCounter.symm.trans hwhy
    · cases h.toCounter.symm.trans hwhy
      exact h

/-- A source port that is compared twice, at last from a register that held an address before. -/
def recompared : Rule where
  table := ⟨.inet, "web"⟩
  chain := "input"
  exprs := [
    .payload .network 12 4 ⟨9⟩, .compare ⟨9⟩ .equal [192, 0, 2, 1],
    .metadata .protocol ⟨1⟩, .compare ⟨1⟩ .equal [6],
    .payload .transport 0 2 ⟨1⟩, .compare ⟨1⟩ .equal [0, 80], .counter 3 180,
    .payload .transport 0 2 ⟨9⟩, .compare ⟨9⟩ .equal [1, 187]]
  comment := some "web"

theorem recompared_grammatical :
    recompared.Grammatical ∧ recompared.isCounterRule = true ∧
      (∃ c, recompared.toCounter = .ok c ∧ c.sourcePort = some 443 ∧ c.direction = none) ∧
      { recompared with comment := some "" }.Foreign .noLabel := by
  obtain ⟨hok, hcounter, hread, -⟩ := toCounter_iff_grammatical recompared
  have hc : recompared.toCounter = .ok
      { label := "web", source := some (.v4 ⟨[192, 0, 2, 1], rfl⟩), protocol := some .tcp,
        sourcePort := some 443, packets := 3, bytes := 180 } := by decide
  have hg := hok.1 ⟨_, hc⟩
  obtain ⟨-, hdirection⟩ := hread _ hc
  have hforeign := (toCounter_iff_grammatical { recompared with comment := some "" }).2.2.2 .noLabel
  exact ⟨hg, hcounter hg, ⟨_, hc, rfl, hdirection⟩, hforeign.1 (by decide)⟩

end Rule

end FlowTally

import FlowTally.Proofs.Demands
/-!
# Rules that count the same packets

What a list of demands asks of a packet comes down to two things: which bytes of its headers are
there (`Reaches`), and what is in which bits (`Fixes`). If packets meet the demands at all, then
those bytes and bits are the only ones that all of them have in common, since any other can be cut
off or turned over in one of them. So two rules that count anything count the same packets exactly
if their demands are alike (`Packet.raises_same_iff`).
-/

namespace FlowTally

/-! ## Bits -/

def bit (b : UInt8) (k : Fin 8) : Bool := b.toBitVec[k]

/-- The byte with one bit turned over. -/
def turnOver (k : Fin 8) (b : UInt8) : UInt8 := b ^^^ ⟨BitVec.twoPow 8 k⟩

theorem bit_and (a b : UInt8) (k : Fin 8) : bit (a &&& b) k = (bit a k && bit b k) := by
  simp [bit]

theorem bit_turnOver (j : Fin 8) (b : UInt8) (k : Fin 8) :
    bit (turnOver j b) k = (bit b k ^^ decide (k = j)) := by
  simp [bit, turnOver, Fin.ext_iff]

theorem eq_iff_bits {a b : UInt8} : a = b ↔ ∀ k, bit a k = bit b k := by
  rw [← UInt8.toBitVec_inj]
  exact ⟨fun h k => by rw [bit, bit, h], fun h => BitVec.eq_of_getElem_eq fun i hi => h ⟨i, hi⟩⟩

/-! ## Altered packets -/

namespace Packet

variable (p : Packet)

/-- The packet with something else in place of a header, if it has that header. -/
def mapHeader (f : Bytes → Bytes) : HeaderBase → Packet
  | .network => { p with network := f p.network }
  | .transport => { p with transport := f p.transport }
  | .link | .other _ => p

theorem header_mapHeader (f : Bytes → Bytes) (base base' : HeaderBase) :
    (p.mapHeader f base).header base' =
      if base' = base then (p.header base').map f else p.header base' := by
  cases base <;> cases base' <;> simp [mapHeader, header]

/-- The packet with one byte altered, if it has that byte. -/
def alter (f : UInt8 → UInt8) : Place → Packet
  | .protocol => { p with protocol := f p.protocol }
  | .header base i => p.mapHeader (·.modify i f) base

theorem byte?_alter (f : UInt8 → UInt8) (q q' : Place) :
    (p.alter f q).byte? q' = if q' = q then (p.byte? q').map f else p.byte? q' := by
  cases q with
  | protocol =>
    cases q' with
    | protocol => rfl
    | header base i => cases base <;> rfl
  | header base i =>
    cases q' with
    | protocol => cases base <;> rfl
    | header base' j =>
      simp only [byte?, alter, header_mapHeader, Place.header.injEq]
      by_cases hb : base' = base
      · subst hb
        cases p.header base' with
        | none => simp
        | some header =>
          by_cases hi : j = i
          · simp [hi]
          · simp [hi, Ne.symm hi]
      · simp [hb]

theorem length_alter (f : UInt8 → UInt8) (q : Place) (base : HeaderBase) :
    ((p.alter f q).header base).map List.length = (p.header base).map List.length := by
  cases q with
  | protocol => cases base <;> rfl
  | header base' i =>
    rw [alter, header_mapHeader]
    split
    · simp [Function.comp_def]
    · rfl

end Packet

/-! ## Demands on bytes and bits -/

/-- The header has to have the byte. -/
def Reaches (ds : List Demand) (base : HeaderBase) (i : Nat) : Prop :=
  ∃ n, .reach base n ∈ ds ∧ i < n

/-- The bit has to be so. -/
def Fixes (ds : List Demand) (q : Place) (k : Fin 8) (b : Bool) : Prop :=
  ∃ mask value, .byte q mask value ∈ ds ∧ bit mask k = true ∧ bit value k = b

/-- No byte of a header is looked at that the header does not have to have. -/
def Covered (ds : List Demand) : Prop :=
  ∀ base i mask value, .byte (.header base i) mask value ∈ ds → Reaches ds base i

/-- The same bytes have to be there, and the same bits have to be so. -/
structure Alike (ds ds' : List Demand) : Prop where
  reaches : ∀ base i, Reaches ds base i ↔ Reaches ds' base i
  fixes : ∀ q k b, Fixes ds q k b ↔ Fixes ds' q k b

namespace Packet

def MeetsAll (p : Packet) (ds : List Demand) : Prop := ∀ d ∈ ds, p.Meets d

theorem meets_reach_iff {p : Packet} {base : HeaderBase} {n : Nat} :
    p.Meets (.reach base n) ↔ ∃ m ∈ (p.header base).map List.length, n ≤ m := by
  simp [Meets]

theorem isSome_byte?_header {p : Packet} {base : HeaderBase} {i : Nat} :
    (p.byte? (.header base i)).isSome ↔ ∃ m ∈ (p.header base).map List.length, i < m := by
  cases h : p.header base <;> simp [byte?, h]

section Altered
variable {p : Packet} {ds : List Demand} {base : HeaderBase} {i : Nat} {q : Place} {k : Fin 8}

/-- A header may end before any byte that it does not have to have. -/
theorem MeetsAll.truncate (h : p.MeetsAll ds) (hc : Covered ds) (hn : ¬ Reaches ds base i) :
    (p.mapHeader (·.take i) base).MeetsAll ds := by
  intro d hd
  have hm := h d hd
  cases d with
  | never => exact hm
  | reach base' n =>
    obtain ⟨header, hh, hl⟩ := hm
    rw [Meets, header_mapHeader]
    split
    · next he =>
      subst he
      have hi : n ≤ i := Nat.le_of_not_lt fun hi => hn ⟨n, hd, hi⟩
      exact ⟨header.take i, by rw [Option.mem_def.1 hh]; rfl, by rw [List.length_take]; omega⟩
    · exact ⟨header, hh, hl⟩
  | byte q mask value =>
    cases q with
    | protocol => cases base <;> exact hm
    | header base' j =>
      simp only [Meets, byte?, header_mapHeader] at hm ⊢
      split
      · next he =>
        subst he
        have hj : j < i := by
          obtain ⟨n, hr, hj⟩ := hc _ _ _ _ hd
          exact Nat.lt_of_lt_of_le hj (Nat.le_of_not_lt fun hi => hn ⟨n, hr, hi⟩)
        cases hh : p.header base' <;> simp_all [List.getElem?_take_of_lt]
      · exact hm

/-- A bit may be turned over that does not have to be as it is. -/
theorem MeetsAll.turnOver (h : p.MeetsAll ds) {b : UInt8} (hb : p.byte? q = some b)
    (hn : ¬ Fixes ds q k (bit b k)) : (p.alter (turnOver k) q).MeetsAll ds := by
  intro d hd
  have hm := h d hd
  cases d with
  | never => exact hm
  | reach base n => rwa [meets_reach_iff, length_alter, ← meets_reach_iff]
  | byte q' mask value =>
    obtain ⟨b', hb', hv⟩ := hm
    rw [Meets, byte?_alter]
    split
    · next he =>
      subst he
      obtain rfl : b = b' := Option.some.inj (hb.symm.trans hb')
      refine ⟨FlowTally.turnOver k b, by rw [hb]; rfl, hv ▸ eq_iff_bits.2 fun j => ?_⟩
      have hmask : bit mask k = true → False := fun hmask =>
        hn ⟨mask, value, hd, hmask, by rw [← hv, bit_and, hmask, Bool.and_true]⟩
      rw [bit_and, bit_and, bit_turnOver]
      by_cases hj : j = k
      · subst hj
        simp [Bool.eq_false_iff.2 hmask]
      · simp [hj]
    · exact ⟨b', hb', hv⟩

/-- If the demands can be met, these bytes and bits are what they ask for. -/
theorem MeetsAll.iff (h : p.MeetsAll ds) (hc : Covered ds) (p' : Packet) : p'.MeetsAll ds ↔
    (∀ base i, Reaches ds base i → (p'.byte? (.header base i)).isSome) ∧
      ∀ q k b, Fixes ds q k b → (p'.byte? q).map (bit · k) = some b := by
  constructor
  · intro h'
    refine ⟨fun base i ⟨n, hd, hi⟩ => ?_, fun q k b ⟨mask, value, hd, hmask, hvalue⟩ => ?_⟩
    · obtain ⟨m, hm, hn⟩ := meets_reach_iff.1 (h' _ hd)
      exact isSome_byte?_header.2 ⟨m, hm, by omega⟩
    · obtain ⟨b', hb', hv⟩ := h' _ hd
      rw [Option.mem_def.1 hb', Option.map_some, ← hvalue, ← hv, bit_and, hmask, Bool.and_true]
  · rintro ⟨hr, hf⟩ d hd
    have hm := h d hd
    cases d with
    | never => exact hm
    | reach base n =>
      cases n with
      | zero =>
        obtain ⟨header, hh, -⟩ := hm
        cases base with
        | network => exact ⟨p'.network, rfl, Nat.zero_le _⟩
        | transport => exact ⟨p'.transport, rfl, Nat.zero_le _⟩
        | link => cases hh
        | other raw => cases hh
      | succ n =>
        obtain ⟨m, hm, hn⟩ := isSome_byte?_header.1 (hr base n ⟨n + 1, hd, Nat.lt_succ_self n⟩)
        exact meets_reach_iff.2 ⟨m, hm, hn⟩
    | byte q mask value =>
      obtain ⟨b, -, hv⟩ := hm
      have hsome : (p'.byte? q).isSome := by
        cases q with
        | protocol => rfl
        | header base i => exact hr base i (hc _ _ _ _ hd)
      obtain ⟨b', hb'⟩ := Option.isSome_iff_exists.1 hsome
      refine ⟨b', hb', eq_iff_bits.2 fun k => ?_⟩
      rw [bit_and]
      cases hmask : bit mask k with
      | true =>
        have := hf q k _ ⟨mask, value, hd, hmask, rfl⟩
        rw [hb', Option.map_some] at this
        rw [Bool.and_true, Option.some.inj this]
      | false => rw [← hv, bit_and, hmask, Bool.and_false, Bool.and_false]

theorem reaches_iff (h : p.MeetsAll ds) (hc : Covered ds) : Reaches ds base i ↔
    ∀ p' : Packet, p'.MeetsAll ds → (p'.byte? (.header base i)).isSome := by
  refine ⟨fun hr p' hp' => ((h.iff hc p').1 hp').1 base i hr, fun hall => ?_⟩
  by_contra hn
  obtain ⟨m, hm, hi⟩ := isSome_byte?_header.1 (hall _ (h.truncate hc hn))
  rw [header_mapHeader, if_pos rfl, Option.map_map] at hm
  obtain ⟨header, -, rfl⟩ := Option.map_eq_some_iff.1 hm
  simp only [Function.comp_apply, List.length_take] at hi
  omega

theorem fixes_iff (h : p.MeetsAll ds) (hc : Covered ds) {b : Bool} : Fixes ds q k b ↔
    ∀ p' : Packet, p'.MeetsAll ds → (p'.byte? q).map (bit · k) = some b := by
  refine ⟨fun hf p' hp' => ((h.iff hc p').1 hp').2 q k b hf, fun hall => ?_⟩
  obtain ⟨c, hc', rfl⟩ := Option.map_eq_some_iff.1 (hall p h)
  by_contra hn
  have hturned := hall _ (h.turnOver hc' hn)
  rw [byte?_alter, if_pos rfl, hc', Option.map_some, Option.map_some, bit_turnOver] at hturned
  simp at hturned

end Altered

/-- Demands that can be met are met by the same packets exactly if they are alike. -/
theorem MeetsAll.same_iff {p p' : Packet} {ds ds' : List Demand} (h : p.MeetsAll ds)
    (h' : p'.MeetsAll ds') (hc : Covered ds) (hc' : Covered ds') :
    (∀ x : Packet, x.MeetsAll ds ↔ x.MeetsAll ds') ↔ Alike ds ds' := by
  constructor
  · intro hs
    exact ⟨fun base i => by simp only [reaches_iff h hc, reaches_iff h' hc', hs],
      fun q k b => by simp only [fixes_iff h hc, fixes_iff h' hc', hs]⟩
  · intro ha x
    simp only [h.iff hc, h'.iff hc', ha.reaches, ha.fixes]

end Packet

/-! ## The demands of rules -/

/-- A cell of some register is of that byte. -/
def Sights.Of (ss : Sights) (q : Place) : Prop := ∃ s ∈ ss, ∃ c ∈ s.2, c.place = q

theorem Sights.of_cons {ss : Sights} {r : Register} {cells : List Cell} {q : Place} :
    Sights.Of ((r, cells) :: ss) q ↔ (∃ c ∈ cells, c.place = q) ∨ ss.Of q := by
  simp [Sights.Of]

theorem Sights.of_lookup {ss : Sights} {r : Register} {cells : List Cell} {c : Cell}
    (h : ss.lookup r = some cells) (hc : c ∈ cells) : ss.Of c.place := by
  obtain ⟨l₁, l₂, rfl, -⟩ := List.lookup_eq_some_iff.1 h
  exact ⟨(r, cells), List.mem_append_right _ List.mem_cons_self, c, hc, rfl⟩

theorem place_of_mem_combine {cells : List Cell} {mask xor : Bytes} {c : Cell}
    (h : c ∈ Cell.combine cells mask xor) : ∃ c' ∈ cells, c'.place = c.place := by
  obtain ⟨⟨⟨c', m⟩, x⟩, hz, rfl⟩ := List.mem_map.1 h
  exact ⟨c', (List.of_mem_zip (List.of_mem_zip hz).1).1, rfl⟩

theorem place_of_mem_demands {cells : List Cell} {data : Bytes} {q : Place} {mask value : UInt8}
    (h : .byte q mask value ∈ Cell.demands cells data) : ∃ c ∈ cells, c.place = q := by
  unfold Cell.demands at h
  split at h
  · rw [← List.map_uncurry_zip_eq_zipWith, List.mem_map] at h
    obtain ⟨⟨c, d⟩, hz, he⟩ := h
    injection he with hq
    exact ⟨c, (List.of_mem_zip hz).1, hq⟩
  · simp at h

theorem Reaches.cons {ds : List Demand} {base : HeaderBase} {i : Nat} (h : Reaches ds base i)
    (d : Demand) : Reaches (d :: ds) base i :=
  let ⟨n, hn, hi⟩ := h
  ⟨n, List.mem_cons_of_mem _ hn, hi⟩

/-- What is looked at was loaded before, or is loaded on the way. -/
theorem covered_demandsFrom {es : List Expr} {base : HeaderBase} {i : Nat} {mask value : UInt8} :
    ∀ {ss : Sights}, .byte (.header base i) mask value ∈ demandsFrom ss es →
      ss.Of (.header base i) ∨ Reaches (demandsFrom ss es) base i := by
  induction es with
  | nil =>
    intro ss h
    simp [demandsFrom] at h
  | cons e es ih =>
    intro ss h
    cases e with
    | metadata key target =>
      cases key with
      | protocol =>
        refine (ih h).imp_left fun hs => (Sights.of_cons.1 hs).resolve_left ?_
        simp
      | other raw => simp [demandsFrom] at h
    | payload base' offset length target =>
      rw [demandsFrom] at h ⊢
      rcases ih (List.mem_of_ne_of_mem Demand.noConfusion h) with hs | hr
      · refine (Sights.of_cons.1 hs).symm.imp_right ?_
        rintro ⟨c, hc, hq⟩
        obtain ⟨j, hj, rfl⟩ := List.mem_map.1 hc
        injection hq with hb hi
        have hj := List.mem_range.1 hj
        exact ⟨offset.toNat + length.toNat, hb ▸ List.mem_cons_self, by omega⟩
      · exact .inr (hr.cons _)
    | compare source op data =>
      cases op with
      | equal =>
        rw [demandsFrom] at h ⊢
        cases hl : ss.lookup source with
        | none => simp [hl] at h
        | some cells =>
          simp only [hl] at h ⊢
          rcases List.mem_append.1 h with h | h
          · obtain ⟨c, hc, hq⟩ := place_of_mem_demands h
            exact .inl (hq ▸ Sights.of_lookup hl hc)
          · exact (ih h).imp_right <| Exists.imp fun n hr =>
              ⟨List.mem_append_right _ hr.1, hr.2⟩
      | other raw => simp [demandsFrom] at h
    | bitwise source target length mask' xor =>
      rw [demandsFrom] at h ⊢
      cases hl : ss.lookup source with
      | none => simp [hl] at h
      | some cells =>
        simp only [hl] at h ⊢
        refine (ih h).imp_left fun hs => (Sights.of_cons.1 hs).elim ?_ id
        rintro ⟨c, hc, hq⟩
        obtain ⟨c', hc', hp⟩ := place_of_mem_combine hc
        exact hp.trans hq ▸ Sights.of_lookup hl hc'
    | counter packets bytes => simp [demandsFrom] at h
    | other name => simp [demandsFrom] at h

theorem Rule.covered_demands (r : Rule) : Covered r.demands := by
  intro base i mask value h
  rcases covered_demandsFrom h with ⟨s, hs, -⟩ | hr
  · cases hs
  · exact hr

/-- Two rules with one counter each count the same packets exactly if neither counts any, or both
do and their demands are alike. -/
theorem Packet.raises_same_iff {r r' : Rule} (h : r.counterCount = 1) (h' : r'.counterCount = 1) :
    (∀ p : Packet, p.Raises r ↔ p.Raises r') ↔
      ((∃ p : Packet, p.Raises r) ↔ ∃ p : Packet, p.Raises r') ∧
        ((∃ p : Packet, p.Raises r) → Alike r.demands r'.demands) := by
  have hr (p : Packet) : p.Raises r ↔ p.MeetsAll r.demands := raises_iff h
  have hr' (p : Packet) : p.Raises r' ↔ p.MeetsAll r'.demands := raises_iff h'
  constructor
  · intro hs
    refine ⟨exists_congr hs, fun ⟨p, hp⟩ => ?_⟩
    refine (((hr p).1 hp).same_iff ((hr' p).1 ((hs p).1 hp)) r.covered_demands
      r'.covered_demands).1 fun x => ?_
    rw [← hr, ← hr', hs]
  · rintro ⟨hboth, ha⟩ p
    by_cases hp : ∃ p : Packet, p.Raises r
    · obtain ⟨p₁, h₁⟩ := hboth.1 hp
      obtain ⟨p₀, h₀⟩ := hp
      rw [hr, hr']
      exact (((hr p₀).1 h₀).same_iff ((hr' p₁).1 h₁) r.covered_demands r'.covered_demands).2
        (ha ⟨p₀, h₀⟩) p
    · exact iff_of_false (fun h => hp ⟨p, h⟩) fun h => hp (hboth.2 ⟨p, h⟩)

end FlowTally

import FlowTally.Proofs.Attributes
import Mathlib.Data.List.Pairwise
/-!
# Attributes in any bytes

Whatever the bytes, one step of reading either ends, or fails and ends, or finds an attribute and
goes on behind it (`Wire.attributes_cases`). So what is read of a buffer are attributes that stand
in it one behind the other, each at a multiple of four, and an error at most at the end; and of what
was written, plain or nested, everything is read (`Wire.attributes_stand`).
-/

namespace FlowTally

namespace Wire

/-- The attribute stands in the buffer from `start` on: its length, its kind under some marks, and
its data. -/
structure Stands (buf : Bytes) (start : Nat) (a : Attribute) : Prop where
  aligned : 4 ∣ start
  inside : start + (4 + a.data.length) ≤ buf.length
  bytes : ∃ mark, unmarked mark = a.kind ∧
    (buf.drop start).take (4 + a.data.length) =
      Bytes.ofNatLE 2 (4 + a.data.length) ++ Bytes.ofNatLE 2 mark.toNat ++ a.data

/-- Where the attributes of a list start if each stands behind the padding of the one before. -/
def places (start : Nat) : List Attribute → List (Nat × Attribute)
  | [] => []
  | a :: as => (start, a) :: places (start + (4 + padded a.data.length)) as

/-- The first attribute ends where the second starts, or before. -/
def Precedes (p q : Nat × Attribute) : Prop := p.1 + (4 + p.2.data.length) ≤ q.1

/-! ## One step -/

theorem attributes_short {buf : Bytes} (h : buf.length < 4) : attributes buf = [] := by
  unfold attributes
  split
  · simp only [List.length_cons] at h
    omega
  · rfl

/-- Four bytes say a length and a kind. -/
theorem exists_head {buf : Bytes} (h : 4 ≤ buf.length) : ∃ (length : Nat) (mark : UInt16)
    (body : Bytes), length < 0x10000 ∧
      buf = Bytes.ofNatLE 2 length ++ Bytes.ofNatLE 2 mark.toNat ++ body := by
  match buf, h with
  | l₀ :: l₁ :: k₀ :: k₁ :: body, _ =>
    have hword (b₀ b₁ : UInt8) : Bytes.toNatLE [b₀, b₁] < 0x10000 ∧
        Bytes.ofNatLE 2 (Bytes.toNatLE [b₀, b₁]) = [b₀, b₁] := by
      have h₀ := b₀.toNat_lt
      have h₁ := b₁.toNat_lt
      have hn : Bytes.toNatLE [b₀, b₁] = b₀.toNat + 256 * b₁.toNat := by simp [Bytes.toNatLE]
      exact ⟨by omega, Bytes.ofNatLE_toNatLE [b₀, b₁]⟩
    obtain ⟨hl, hlength⟩ := hword l₀ l₁
    obtain ⟨hk, hkind⟩ := hword k₀ k₁
    have hmark : (UInt16.ofNat (Bytes.toNatLE [k₀, k₁])).toNat = Bytes.toNatLE [k₀, k₁] :=
      UInt16.toNat_ofNat_of_lt' hk
    refine ⟨_, UInt16.ofNat (Bytes.toNatLE [k₀, k₁]), body, hl, ?_⟩
    rw [hmark, hlength, hkind]
    rfl

/-- What is read next of a buffer, and where reading goes on. -/
theorem attributes_cases (buf : Bytes) :
    attributes buf = [] ∨ (4 ≤ buf.length ∧ ∃ e, attributes buf = [.error e]) ∨
      ∃ a, Stands buf 0 a ∧
        attributes buf = .ok a :: attributes (buf.drop (4 + padded a.data.length)) := by
  by_cases h4 : buf.length < 4
  · exact .inl (attributes_short h4)
  obtain ⟨length, mark, body, hlength, rfl⟩ := exists_head (by omega : 4 ≤ buf.length)
  have hhead := attributes_head length mark body
  rw [Nat.mod_eq_of_lt hlength] at hhead
  by_cases hbad : length < 4 ∨ body.length < length - 4
  · rw [if_pos hbad] at hhead
    exact .inr (.inl ⟨by omega, _, hhead⟩)
  · rw [if_neg hbad] at hhead
    -- the length leaves room for the data, which is the front part of the body
    obtain ⟨n, rfl⟩ : ∃ n, length = 4 + n := ⟨length - 4, by omega⟩
    have hn : n ≤ body.length := by omega
    have hdata : (body.take n).length = n := by rw [List.length_take]; omega
    have hfront : (Bytes.ofNatLE 2 (4 + n) ++ Bytes.ofNatLE 2 mark.toNat).length = 4 := by simp
    rw [Nat.add_sub_cancel_left, padding_four_add] at hhead
    refine .inr (.inr ⟨⟨unmarked mark, body.take n⟩, ⟨Nat.dvd_zero 4, ?_, mark, rfl, ?_⟩, ?_⟩)
    · rw [hdata, List.length_append, hfront]
      omega
    · rw [hdata, List.drop_zero, List.take_append, hfront, Nat.add_sub_cancel_left,
        List.take_of_length_le (by rw [hfront]; omega)]
    · have hrest : (Bytes.ofNatLE 2 (4 + n) ++ Bytes.ofNatLE 2 mark.toNat ++ body).drop
          (4 + padded n) = body.drop (padded n) := by
        rw [← List.drop_drop, List.drop_left' hfront]
      rw [hhead, hdata, hrest]
      rfl

/-! ## A whole buffer -/

theorem Stands.drop {buf : Bytes} {start offset : Nat} {a : Attribute} (ho : 4 ∣ offset)
    (h : Stands (buf.drop offset) start a) : Stands buf (offset + start) a := by
  have hinside := h.inside
  rw [List.length_drop] at hinside
  refine ⟨Nat.dvd_add ho h.aligned, by omega, ?_⟩
  obtain ⟨mark, hkind, hbytes⟩ := h.bytes
  exact ⟨mark, hkind, by rwa [List.drop_drop] at hbytes⟩

theorem places_add (offset start : Nat) (as : List Attribute) :
    places (offset + start) as = (places start as).map fun p => (offset + p.1, p.2) := by
  induction as generalizing start with
  | nil => rfl
  | cons a as ih => rw [places, places, List.map_cons, Nat.add_assoc, ih]

theorem le_of_mem_places {start : Nat} {as : List Attribute} {p : Nat × Attribute}
    (h : p ∈ places start as) : start ≤ p.1 := by
  induction as generalizing start with
  | nil => cases h
  | cons a as ih =>
    rcases List.mem_cons.1 h with rfl | h
    · exact Nat.le_refl _
    · exact Nat.le_trans (Nat.le_add_right _ _) (ih h)

theorem pairwise_places (start : Nat) (as : List Attribute) :
    (places start as).Pairwise Precedes := by
  induction as generalizing start with
  | nil => exact List.Pairwise.nil
  | cons a as ih =>
    refine List.pairwise_cons.2 ⟨fun p hp => ?_, ih _⟩
    have hstart := le_of_mem_places hp
    have hpadded := padded_spec a.data.length
    show start + (4 + a.data.length) ≤ p.1
    omega

/-- What is read of a buffer stands in it, each attribute behind the one before. -/
theorem stands_of_attributes {as : List Attribute} : ∀ {buf : Bytes}
    {items : List (Except WireError Attribute)}, attributes buf = as.map .ok ++ items →
    ∀ p ∈ places 0 as, Stands buf p.1 p.2 := by
  induction as with
  | nil => simp [places]
  | cons a as ih =>
    intro buf items h p hp
    rcases attributes_cases buf with hread | ⟨-, e, hread⟩ | ⟨b, hb, hread⟩
    · rw [hread] at h
      cases h
    · rw [hread] at h
      cases h
    · rw [hread, List.map_cons, List.cons_append, List.cons.injEq, Except.ok.injEq] at h
      obtain ⟨rfl, hrest⟩ := h
      rcases List.mem_cons.1 hp with rfl | hp
      · exact hb
      · rw [Nat.zero_add, ← Nat.add_zero (4 + _), places_add] at hp
        obtain ⟨q, hq, rfl⟩ := List.mem_map.1 hp
        exact (ih hrest q hq).drop (Nat.dvd_add (by decide) (dvd_padded _))

/-- Every item takes up four bytes or more, and only the last may be an error. -/
theorem exists_items (buf : Bytes) : ∃ (as : List Attribute) (e : Option WireError),
    attributes buf = as.map .ok ++ e.toList.map .error ∧
      4 * (as.length + e.toList.length) ≤ buf.length := by
  induction hn : buf.length using Nat.strong_induction_on generalizing buf with
  | _ n ih =>
    subst hn
    rcases attributes_cases buf with h | ⟨h4, e, h⟩ | ⟨a, ha, h⟩
    · exact ⟨[], none, h, Nat.zero_le _⟩
    · exact ⟨[], some e, h, by simpa using h4⟩
    · have hinside := ha.inside
      have hpadded := padded_spec a.data.length
      have hshorter : (buf.drop (4 + padded a.data.length)).length < buf.length := by
        rw [List.length_drop]
        omega
      obtain ⟨as, e, hrest, hcount⟩ := ih _ hshorter _ rfl
      refine ⟨a :: as, e, by rw [h, hrest]; rfl, ?_⟩
      rw [List.length_drop] at hcount
      rw [List.length_cons]
      omega

/-! ## What was written -/

/-- An attribute as a writer appends it, plain or with other attributes as its data. -/
structure Written where
  item : Attribute
  isNested : Bool
  kind_lt : item.kind < 0x4000
  length_le : item.data.length ≤ 65531

namespace Written

def bytes (w : Written) : Bytes :=
  if w.isNested then nested w.item.kind w.item.data
  else attr w.item.kind w.item.data

theorem attributes_bytes_append (w : Written) (rest : Bytes) :
    attributes (w.bytes ++ rest) = .ok w.item :: attributes rest := by
  have hf : Fits w.item.data := by
    have h := w.length_le
    show 4 + w.item.data.length < 0x10000
    omega
  unfold bytes
  split
  · exact attributes_nested w.kind_lt hf rest
  · exact attributes_attr w.kind_lt hf rest

theorem attributes_flatMap (ws : List Written) :
    attributes (ws.flatMap bytes) = (ws.map item).map .ok := by
  induction ws with
  | nil => exact attributes_nil
  | cons w ws ih => rw [List.flatMap_cons, attributes_bytes_append, ih]; rfl

end Written

/-- Reading a buffer gives at most one item for every four bytes: attributes that stand in it one
behind the other, and then possibly an error. Of what was written it gives everything and no
more. -/
theorem attributes_stand :
    (∀ buf : Bytes, ∃ (as : List Attribute) (e : Option WireError),
      attributes buf = as.map .ok ++ e.toList.map .error ∧
        (attributes buf).length ≤ buf.length / 4 ∧
        (∀ p ∈ places 0 as, Stands buf p.1 p.2) ∧ (places 0 as).Pairwise Precedes) ∧
      ∀ ws : List Written, attributes (ws.flatMap Written.bytes) =
          (ws.map Written.item).map .ok ∧
        ∀ p ∈ places 0 (ws.map Written.item), Stands (ws.flatMap Written.bytes) p.1 p.2 := by
  constructor
  · intro buf
    obtain ⟨as, e, h, hcount⟩ := exists_items buf
    refine ⟨as, e, h, ?_, stands_of_attributes h, pairwise_places 0 as⟩
    rw [h, List.length_append, List.length_map, List.length_map]
    omega
  · intro ws
    have h := Written.attributes_flatMap ws
    exact ⟨h, stands_of_attributes (h.trans (List.append_nil _).symm)⟩

end Wire

end FlowTally

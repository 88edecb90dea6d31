import FlowTally.Wire.Attribute
import Mathlib.Data.List.Forall2
import Mathlib.Data.List.TakeWhile
/-!
# Attributes and what is read of them

A length that has room in its sixteen bits (`Wire.Fits`) leads back to the data that was written,
and reading goes on behind it with whatever follows (`Wire.attributes_attr`,
`Wire.absorb_attr`). Numbers, names and nested attributes are read from their data as they were
put in; a name must not hold its own terminator. A length that has no room wraps
(`Wire.attributes_of_length_wraps`, `Wire.attributes_of_length_skips`).
-/

namespace FlowTally

namespace Bytes

/-! ## Text -/

theorem ofString_eq_flatMap (s : String) : ofString s = s.toList.flatMap String.utf8EncodeChar := by
  have h : s.toByteArray = s.toList.utf8Encode := by
    rw [← String.toByteArray_ofList, String.ofList_toList]
  rw [ofString, String.toUTF8_eq_toByteArray, h]
  simp [List.utf8Encode]

/-- Only the NUL character has a NUL byte in it. -/
theorem zero_mem_utf8EncodeChar_iff {c : Char} : 0 ∈ String.utf8EncodeChar c ↔ c = '\x00' := by
  have hc : c = '\x00' ↔ c.val.toNat = 0 := by
    constructor
    · rintro rfl
      rfl
    · intro h
      exact Char.ext (UInt32.toNat_inj.1 h)
  have hz (n : Nat) : (0 : UInt8) = UInt8.ofNat n ↔ n % 256 = 0 := by
    rw [← UInt8.toNat_inj]
    simp
    omega
  rw [hc, String.utf8EncodeChar]
  split_ifs <;> simp only [List.mem_cons, List.not_mem_nil, or_false, hz] <;> omega

theorem zero_mem_ofString_iff {s : String} : 0 ∈ ofString s ↔ '\x00' ∈ s.toList := by
  simp [ofString_eq_flatMap, zero_mem_utf8EncodeChar_iff]

@[simp]
theorem length_ofString (s : String) : (ofString s).length = s.utf8ByteSize := rfl

theorem ofString_of_toString? {bs : Bytes} {s : String} (h : toString? bs = some s) :
    ofString s = bs := by
  unfold toString? String.fromUTF8? at h
  split at h
  · injection h with h
    subst h
    rfl
  · cases h

/-! ## Terminators -/

theorem untilNul_eq_self {bs : Bytes} (h : 0 ∉ bs) : untilNul bs = bs := by
  refine List.takeWhile_eq_self_iff.2 fun b hb => ?_
  rw [bne_iff_ne]
  rintro rfl
  exact h hb

theorem untilNul_append {bs : Bytes} (h : 0 ∉ bs) (rest : Bytes) :
    untilNul (bs ++ 0 :: rest) = bs := by
  unfold untilNul
  rw [List.takeWhile_append_of_pos, List.takeWhile_cons_of_neg] <;> simp
  intro b hb hz
  exact h (hz ▸ hb)

theorem zero_not_mem_untilNul (bs : Bytes) : 0 ∉ untilNul bs := fun h => by
  simpa using List.mem_takeWhile_imp h

theorem length_untilNul_le (bs : Bytes) : (untilNul bs).length ≤ bs.length :=
  (List.takeWhile_sublist _).length_le

end Bytes

namespace Wire

/-! ## Steps that may fail -/

section Steps
variable {ε α β : Type} {x : Except ε α} {b : β}

theorem bind_eq_ok_iff {f : α → Except ε β} : x >>= f = .ok b ↔ ∃ a, x = .ok a ∧ f a = .ok b := by
  cases x with
  | error e => simp [bind, Except.bind]
  | ok a => simp [bind, Except.bind]

theorem map_eq_ok_iff {f : α → β} : x.map f = .ok b ↔ ∃ a, x = .ok a ∧ f a = b := by
  cases x with
  | error e => simp [Except.map]
  | ok a => simp [Except.map]

theorem pure_eq_ok_iff {a a' : α} : (pure a : Except ε α) = .ok a' ↔ a = a' := by
  simp [pure, Except.pure]

/-- A step for each element in turn. -/
theorem mapM_eq_ok_iff {f : α → Except ε β} {as : List α} : ∀ {bs : List β},
    as.mapM f = .ok bs ↔ List.Forall₂ (fun a b => f a = .ok b) as bs := by
  induction as with
  | nil =>
    intro bs
    rw [List.mapM_nil, pure_eq_ok_iff, List.forall₂_nil_left_iff]
    exact eq_comm
  | cons a as ih =>
    intro bs
    simp only [List.mapM_cons, bind_eq_ok_iff, pure_eq_ok_iff, ih, List.forall₂_cons_left_iff]
    constructor
    · rintro ⟨b, hb, bs, hbs, rfl⟩
      exact ⟨b, bs, hb, hbs, rfl⟩
    · rintro ⟨b, bs, hb, hbs, rfl⟩
      exact ⟨b, hb, bs, hbs, rfl⟩

theorem exists_forall₂_iff {R : α → β → Prop} {as : List α} :
    (∃ bs, List.Forall₂ R as bs) ↔ ∀ a ∈ as, ∃ b, R a b := by
  induction as with
  | nil => simp
  | cons a as ih =>
    rw [List.forall_mem_cons, ← ih]
    constructor
    · rintro ⟨_, h⟩
      cases h with
      | cons h hs => exact ⟨⟨_, h⟩, _, hs⟩
    · rintro ⟨⟨b, h⟩, bs, hs⟩
      exact ⟨b :: bs, .cons h hs⟩

end Steps

/-! ## One attribute -/

/-- The length of an attribute with this data has room in sixteen bits. -/
def Fits (data : Bytes) : Prop := 4 + data.length < 0x10000

instance (data : Bytes) : Decidable (Fits data) :=
  inferInstanceAs (Decidable (4 + data.length < 0x10000))

theorem Fits.of_length_le {data data' : Bytes} (h : Fits data') (hl : data.length ≤ data'.length) :
    Fits data := by
  unfold Fits at h ⊢
  omega

/-- A length with its padding. -/
def padded (n : Nat) : Nat := n + padding n

theorem padded_spec (n : Nat) : padded n % 4 = 0 ∧ n ≤ padded n ∧ padded n < n + 4 := by
  unfold padded padding
  omega

theorem dvd_padded (n : Nat) : 4 ∣ padded n := Nat.dvd_of_mod_eq_zero (padded_spec n).1

theorem padded_of_dvd {n : Nat} (h : 4 ∣ n) : padded n = n := by
  unfold padded padding
  omega

@[simp]
theorem padding_four_add (n : Nat) : padding (4 + n) = padding n := by
  unfold padding
  omega

@[simp]
theorem length_attr (kind : UInt16) (data : Bytes) :
    (attr kind data).length = 4 + padded data.length := by
  simp [attr, padded, Bytes.zeros]
  omega

@[simp]
theorem length_nested (kind : UInt16) (children : Bytes) :
    (nested kind children).length = 4 + padded children.length := length_attr ..

/-- A kind as it is read, without its marks. -/
def unmarked (kind : UInt16) : UInt16 := UInt16.ofNat (kind.toNat % 0x4000)

theorem unmarked_eq_self {kind : UInt16} (h : kind < 0x4000) : unmarked kind = kind := by
  have hk : kind.toNat < 0x4000 := UInt16.lt_iff_toNat_lt.1 h
  rw [unmarked, Nat.mod_eq_of_lt hk, UInt16.ofNat_toNat]

theorem unmarked_nested {kind : UInt16} (h : kind < 0x4000) :
    unmarked (kind ||| 0x8000) = kind := by
  have hk : kind.toNat < 0x4000 := UInt16.lt_iff_toNat_lt.1 h
  have hor : (kind ||| 0x8000).toNat = 0x8000 + kind.toNat := by
    rw [UInt16.toNat_or, Nat.or_comm]
    exact (Nat.two_pow_add_eq_or_of_lt (i := 15) (by omega) 1).symm
  have hm : (0x8000 + kind.toNat) % 0x4000 = kind.toNat := by omega
  rw [unmarked, hor, hm, UInt16.ofNat_toNat]

/-- What is read where the four bytes in front say some length and kind. -/
theorem attributes_head (length : Nat) (kind : UInt16) (body : Bytes) :
    attributes (Bytes.ofNatLE 2 length ++ Bytes.ofNatLE 2 kind.toNat ++ body) =
      if length % 0x10000 < 4 ∨ body.length < length % 0x10000 - 4 then
        [.error (.attributeLength (unmarked kind) (length % 0x10000))]
      else
        .ok ⟨unmarked kind, body.take (length % 0x10000 - 4)⟩ ::
          attributes (body.drop (length % 0x10000 - 4 + padding (length % 0x10000))) := by
  have hlength : Bytes.toNatLE [UInt8.ofNat length, UInt8.ofNat (length / 256)] =
      length % 0x10000 := Bytes.toNatLE_ofNatLE 2 length
  have hkind : Bytes.toNatLE [UInt8.ofNat kind.toNat, UInt8.ofNat (kind.toNat / 256)] =
      kind.toNat := (Bytes.toNatLE_ofNatLE 2 _).trans (Nat.mod_eq_of_lt kind.toNat_lt)
  change attributes (UInt8.ofNat length :: UInt8.ofNat (length / 256) :: UInt8.ofNat kind.toNat ::
    UInt8.ofNat (kind.toNat / 256) :: body) = _
  rw [attributes, hlength, hkind]
  have hshort (n : Nat) : min n body.length < n ↔ body.length < n := by omega
  simp only [List.length_take, hshort]
  rfl

theorem attributes_attr_unmarked (kind : UInt16) {data : Bytes} (h : Fits data) (rest : Bytes) :
    attributes (attr kind data ++ rest) = .ok ⟨unmarked kind, data⟩ :: attributes rest := by
  have hl : (4 + data.length) % 0x10000 = 4 + data.length := Nat.mod_eq_of_lt h
  rw [attr, List.append_assoc, List.append_assoc, attributes_head, hl, if_neg (by simp)]
  simp [Bytes.zeros]

section Reading
variable {kind : UInt16} (hk : kind < 0x4000) {data : Bytes} (h : Fits data) (rest : Bytes)
include hk h

theorem attributes_attr :
    attributes (attr kind data ++ rest) = .ok ⟨kind, data⟩ :: attributes rest := by
  rw [attributes_attr_unmarked kind h, unmarked_eq_self hk]

theorem attributes_nested :
    attributes (nested kind data ++ rest) = .ok ⟨kind, data⟩ :: attributes rest := by
  rw [nested, attributes_attr_unmarked _ h, unmarked_nested hk]

end Reading

@[simp]
theorem attributes_nil : attributes [] = [] := by simp [attributes]

/-- The length of whatever is read is one of sixteen bits. -/
theorem fits_of_mem_attributes {buf : Bytes} {a : Attribute} (h : .ok a ∈ attributes buf) :
    Fits a.data := by
  fun_induction attributes buf with
  | case1 => simp at h
  | case2 l₀ l₁ k₀ k₁ rest length kind data _ ih =>
    rcases List.mem_cons.1 h with h | h
    · cases h
      have h₀ := l₀.toNat_lt
      have h₁ := l₁.toNat_lt
      have hlength : length = l₀.toNat + 256 * l₁.toNat := by simp [length, Bytes.toNatLE]
      have hdata : data.length ≤ length - 4 := List.length_take_le _ _
      show 4 + data.length < 0x10000
      omega
    · exact ih h
  | case3 => simp at h

/-! ## Lengths that do not fit -/

/-- The four bytes in front of an attribute, and what comes behind them. -/
theorem attr_append (kind : UInt16) (data rest : Bytes) :
    attr kind data ++ rest = Bytes.ofNatLE 2 (4 + data.length) ++ Bytes.ofNatLE 2 kind.toNat ++
      (data ++ (Bytes.zeros (padding data.length) ++ rest)) := by
  simp [attr]

theorem take_attr_append (kind : UInt16) (data rest : Bytes) (k : Nat) :
    (attr kind data ++ rest).take (4 + k) =
      Bytes.ofNatLE 2 (4 + data.length) ++ Bytes.ofNatLE 2 kind.toNat ++
        (data ++ (Bytes.zeros (padding data.length) ++ rest)).take k := by
  rw [attr_append, List.take_append, List.take_of_length_le (by simp)]
  simp

/-- An attribute that is cut off in its data cannot be read. -/
theorem attributes_take_attr (kind : UInt16) {data : Bytes} (h : Fits data) (rest : Bytes) {k : Nat}
    (hk : k < data.length) : attributes ((attr kind data ++ rest).take (4 + k)) =
      [.error (.attributeLength (unmarked kind) (4 + data.length))] := by
  have hl : (4 + data.length) % 0x10000 = 4 + data.length := Nat.mod_eq_of_lt h
  rw [take_attr_append, attributes_head, hl, if_pos]
  simp only [List.length_take]
  omega

/-- A length that wraps to nothing. -/
theorem attributes_of_length_wraps (kind : UInt16) {data : Bytes} (h : data.length = 0xfffc)
    (body : Bytes) : attributes (Bytes.ofNatLE 2 (4 + data.length) ++
      Bytes.ofNatLE 2 kind.toNat ++ body) = [.error (.attributeLength (unmarked kind) 0)] := by
  rw [attributes_head, h]
  rfl

/-- A length that wraps to that of an attribute without data. -/
theorem attributes_of_length_skips (kind : UInt16) {data : Bytes} (h : data.length = 0x10000)
    (body : Bytes) : attributes (Bytes.ofNatLE 2 (4 + data.length) ++
      Bytes.ofNatLE 2 kind.toNat ++ body) = .ok ⟨unmarked kind, []⟩ :: attributes body := by
  rw [attributes_head, h]
  rfl

/-! ## One after the other -/

/-- What every attribute that is taken in preserves. -/
theorem foldlM_invariant {σ : Type} {step : σ → Attribute → Except WireError σ} {P : σ → Prop}
    {items : List (Except WireError Attribute)}
    (hstep : ∀ s s' a, .ok a ∈ items → P s → step s a = .ok s' → P s') {s s' : σ} (hs : P s)
    (h : items.foldlM (fun s item => item.bind (step s)) s = .ok s') : P s' := by
  induction items generalizing s with
  | nil =>
    cases h
    exact hs
  | cons item items ih =>
    rw [List.foldlM_cons, bind_eq_ok_iff] at h
    obtain ⟨s₁, h₁, h₂⟩ := h
    cases item with
    | error e => cases h₁
    | ok a =>
      exact ih (fun s s' b hb => hstep s s' b (List.mem_cons_of_mem _ hb))
        (hstep s s₁ a List.mem_cons_self hs h₁) h₂

theorem absorb_invariant {σ : Type} {step : σ → Attribute → Except WireError σ} {P : σ → Prop}
    {buf : Bytes} (hstep : ∀ s s' a, .ok a ∈ attributes buf → P s → step s a = .ok s' → P s')
    {s s' : σ} (hs : P s) (h : absorb step s buf = .ok s') : P s' :=
  foldlM_invariant hstep hs h

section Absorb
variable {σ : Type} (step : σ → Attribute → Except WireError σ) (s : σ)

@[simp]
theorem absorb_nil : absorb step s [] = .ok s := by simp [absorb, pure, Except.pure]

theorem absorb_of_cons {buf rest : Bytes} {a : Attribute}
    (h : attributes buf = .ok a :: attributes rest) :
    absorb step s buf = (step s a).bind fun s => absorb step s rest := by
  rw [absorb, h, List.foldlM_cons]
  rfl

theorem absorb_of_error {buf : Bytes} {e : WireError} (h : attributes buf = [.error e]) :
    absorb step s buf = .error e := by
  rw [absorb, h]
  rfl

variable {kind : UInt16} (hk : kind < 0x4000) {data : Bytes} (h : Fits data) (rest : Bytes)
include hk h

theorem absorb_attr :
    absorb step s (attr kind data ++ rest) =
      (step s ⟨kind, data⟩).bind fun s => absorb step s rest :=
  absorb_of_cons step s (attributes_attr hk h rest)

theorem absorb_nested :
    absorb step s (nested kind data ++ rest) =
      (step s ⟨kind, data⟩).bind fun s => absorb step s rest :=
  absorb_of_cons step s (attributes_nested hk h rest)

end Absorb

/-! ## Numbers -/

theorem fits_ofNatBE_four (n : Nat) : Fits (Bytes.ofNatBE 4 n) := by simp [Fits]

theorem fits_ofNatBE_eight (n : Nat) : Fits (Bytes.ofNatBE 8 n) := by simp [Fits]

theorem attributes_nat32 {kind : UInt16} (hk : kind < 0x4000) (n : UInt32) (rest : Bytes) :
    attributes (nat32 kind n ++ rest) =
      .ok ⟨kind, Bytes.ofNatBE 4 n.toNat⟩ :: attributes rest :=
  attributes_attr hk (fits_ofNatBE_four _) rest

theorem attributes_nat64 {kind : UInt16} (hk : kind < 0x4000) (n : UInt64) (rest : Bytes) :
    attributes (nat64 kind n ++ rest) =
      .ok ⟨kind, Bytes.ofNatBE 8 n.toNat⟩ :: attributes rest :=
  attributes_attr hk (fits_ofNatBE_eight _) rest

@[simp]
theorem readNat32_ofNatBE (n : UInt32) : readNat32 (Bytes.ofNatBE 4 n.toNat) = .ok n := by
  have hn : n.toNat % Bytes.capacity 4 = n.toNat := Nat.mod_eq_of_lt n.toNat_lt
  simp [readNat32, readNat, Bytes.toNatBE_ofNatBE, hn, Except.map]

@[simp]
theorem readNat64_ofNatBE (n : UInt64) : readNat64 (Bytes.ofNatBE 8 n.toNat) = .ok n := by
  have hn : n.toNat % Bytes.capacity 8 = n.toNat := Nat.mod_eq_of_lt n.toNat_lt
  simp [readNat64, readNat, Bytes.toNatBE_ofNatBE, hn, Except.map]

/-! ## Names -/

/-- The data of an attribute that holds a string. -/
def terminated (s : String) : Bytes := Bytes.ofString s ++ [0]

@[simp]
theorem length_terminated (s : String) : (terminated s).length = s.utf8ByteSize + 1 := by
  simp [terminated]

theorem string_eq_ok_iff {kind : UInt16} {s : String} {bs : Bytes} :
    string kind s = .ok bs ↔ '\x00' ∉ s.toList ∧ bs = attr kind (terminated s) := by
  unfold string
  simp only [Bytes.zero_mem_ofString_iff]
  split
  · simp_all
  · simp_all [terminated, eq_comm]

theorem readString_eq_ok_iff {data : Bytes} {s : String} :
    readString data = .ok s ↔ Bytes.ofString s = Bytes.untilNul data := by
  unfold readString
  constructor
  · intro h
    cases hs : Bytes.toString? (Bytes.untilNul data) with
    | none => rw [hs] at h; cases h
    | some s' =>
      rw [hs] at h
      injection h with h
      exact h ▸ Bytes.ofString_of_toString? hs
  · intro h
    rw [← h, Bytes.toString?_ofString]

theorem readString_terminated {s : String} (h : '\x00' ∉ s.toList) :
    readString (terminated s) = .ok s := by
  rw [readString_eq_ok_iff, terminated, Bytes.untilNul_append (mt Bytes.zero_mem_ofString_iff.1 h)]

/-- A name may come without its terminator. -/
theorem readString_ofString {s : String} (h : '\x00' ∉ s.toList) :
    readString (Bytes.ofString s) = .ok s := by
  rw [readString_eq_ok_iff, Bytes.untilNul_eq_self (mt Bytes.zero_mem_ofString_iff.1 h)]

theorem readString_spec {data : Bytes} {s : String} (h : readString data = .ok s) :
    '\x00' ∉ s.toList ∧ s.utf8ByteSize ≤ data.length := by
  rw [readString_eq_ok_iff] at h
  constructor
  · rw [← Bytes.zero_mem_ofString_iff, h]
    exact Bytes.zero_not_mem_untilNul data
  · rw [← Bytes.length_ofString, h]
    exact Bytes.length_untilNul_le data

theorem fits_of_readString {data : Bytes} {s : String} (hf : Fits data)
    (h : readString data = .ok s) : Fits (Bytes.ofString s) :=
  hf.of_length_le (by rw [Bytes.length_ofString]; exact (readString_spec h).2)

/-- A name that fits, but not with its terminator, is written with no length at all. -/
theorem absorb_attr_of_not_fits {σ : Type} (step : σ → Attribute → Except WireError σ) (start : σ)
    {name : String} (hn : Fits (Bytes.ofString name)) (hf : ¬Fits (terminated name)) (kind : UInt16)
    (rest : Bytes) : absorb step start (attr kind (terminated name) ++ rest) =
      .error (.attributeLength (unmarked kind) 0) := by
  have hl : (terminated name).length = 0xfffc := by
    simp only [Fits, length_terminated, Bytes.length_ofString] at *
    omega
  rw [attr_append]
  exact absorb_of_error _ _ (attributes_of_length_wraps _ hl _)

end Wire

end FlowTally

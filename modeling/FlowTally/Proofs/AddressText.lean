import FlowTally.Address.Text
import Mathlib.Data.List.Basic
import Mathlib.Tactic.IntervalCases
/-!
# Reading addresses as they are written

Whatever address is written is read back: four octets in decimal, eight groups, eight groups of
which a run of zeros is left out, and octets behind the mapping mark.

A reader takes all it can, so each lemma about one says what may stand behind the text that it is
to take. `Ends` is that for a number and `Stops` for a list of groups: the text is over, or the two
colons of the run that is left out follow.
-/

namespace FlowTally.Address

/-! ## Numbers -/

/-- No digit of the base comes next. -/
def Ends (base : Nat) (s : List Char) : Prop := ∀ c ∈ s.head?, digit? base c = none

theorem ends_nil (base : Nat) : Ends base [] := by simp [Ends]

theorem ends_cons {base : Nat} {c : Char} {s : List Char} (h : digit? base c = none) :
    Ends base (c :: s) := by simpa [Ends] using h

theorem digit?_digitChar {base d : Nat} (hb : base ≤ 16) (h : d < base) :
    digit? base (Nat.digitChar d) = some d := by
  have : d < 16 := by omega
  interval_cases d <;> simp [digit?, Nat.digitChar] <;> omega

/-- The digits that are written have values, from which the number is made again. -/
theorem exists_digits {base : Nat} (h1 : 1 < base) (hb : base ≤ 16) (n : Nat) :
    ∃ ds : List Nat, (Nat.toDigits base n).map (digit? base) = ds.map some ∧
      ds.foldl (fun m d => m * base + d) 0 = n := by
  induction n using Nat.strongRecOn with
  | ind n ih =>
    by_cases h : n < base
    · exact ⟨[n], by simp [Nat.toDigits_of_lt_base h, digit?_digitChar hb h], by simp⟩
    · have hle : base ≤ n := by omega
      obtain ⟨ds, hds, hn⟩ := ih (n / base) (Nat.div_lt_self (by omega) h1)
      have hlast := digit?_digitChar hb (Nat.mod_lt n (by omega : 0 < base))
      refine ⟨ds ++ [n % base], ?_, ?_⟩
      · simp [Nat.toDigits_of_base_le h1 hle, hds, hlast]
      · simp only [List.foldl_append, hn, List.foldl_cons, List.foldl_nil]
        exact Nat.div_add_mod' n base

theorem isSome_digit?_of_mem_toDigits {base n : Nat} {c : Char} (h1 : 1 < base) (hb : base ≤ 16)
    (hc : c ∈ Nat.toDigits base n) : (digit? base c).isSome = true := by
  obtain ⟨ds, hds, -⟩ := exists_digits h1 hb n
  have hc' : digit? base c ∈ ds.map some := hds ▸ List.mem_map_of_mem hc
  obtain ⟨d, -, hd⟩ := List.mem_map.1 hc'
  simp [← hd]

theorem number?_toDigits {base n : Nat} {rest : List Char} (width : Nat) (h1 : 1 < base)
    (hb : base ≤ 16) (hw : 0 < width) (hn : n < base ^ width) (hr : Ends base rest) :
    number? base width (Nat.toDigits base n ++ rest) = some (n, rest) := by
  obtain ⟨ds, hds, hv⟩ := exists_digits h1 hb n
  have hlen : ds.length = (Nat.toDigits base n).length := by
    simpa using (congrArg List.length hds).symm
  have hall : ∀ c ∈ Nat.toDigits base n, (digit? base c).isSome = true :=
    fun c => isSome_digit?_of_mem_toDigits h1 hb
  have hrest : rest.takeWhile (fun c => (digit? base c).isSome) = [] := by
    cases rest with
    | nil => rfl
    | cons c rest => simp [hr c rfl]
  have htaken : (Nat.toDigits base n).filterMap (digit? base) = ds := by
    have h := congrArg (List.filterMap id) hds
    simpa [List.filterMap_map] using h
  have hwidth : ds.length ≤ width := hlen ▸ (Nat.length_toDigits_le_iff h1 hw).2 hn
  have hne : ds ≠ [] := by
    rintro rfl
    exact Nat.toDigits_ne_nil (List.length_eq_zero_iff.1 hlen.symm)
  simp only [number?]
  rw [List.takeWhile_append_of_pos hall, hrest, List.append_nil, htaken, hv, hlen, List.drop_left]
  simp [hne, ← hlen, hwidth]

/-- A text that a number cannot start with. -/
theorem number?_of_ends {base width : Nat} {s : List Char} (h : Ends base s) :
    number? base width s = none := by
  cases s with
  | nil => simp [number?]
  | cons c s => simp [number?, h c rfl]

theorem subset_of_number? {base width : Nat} {s rest : List Char} {n : Nat}
    (h : number? base width s = some (n, rest)) : rest ⊆ s := by
  simp only [number?] at h
  split at h
  · cases h
  · cases h
    exact List.drop_subset _ _

/-! ## Four octets -/

/-- A number other than zero is written without leading zeros. -/
theorem head?_toDigits_ne {n : Nat} (hn : 0 < n) : (Nat.toDigits 10 n).head? ≠ some '0' := by
  induction n using Nat.strongRecOn with
  | ind n ih =>
    by_cases h : n < 10
    · rw [Nat.toDigits_of_lt_base h]
      interval_cases n <;> decide
    · rw [Nat.toDigits_of_base_le (by decide) (by omega),
        List.head?_append_of_ne_nil _ Nat.toDigits_ne_nil]
      exact ih (n / 10) (by omega) (by omega)

theorem octet?_toDigits (b : UInt8) {rest : List Char} (hr : Ends 10 rest) :
    octet? (Nat.toDigits 10 b.toNat ++ rest) = some (b, rest) := by
  have hb := b.toNat_lt
  have hn : b.toNat < 10 ^ 3 := by omega
  have hzero : (Nat.toDigits 10 b.toNat ++ rest).head? ≠ some '0' ∨
      rest.length + 1 = (Nat.toDigits 10 b.toNat ++ rest).length := by
    by_cases h0 : b.toNat = 0
    · right
      simp [h0, Nat.toDigits_of_lt_base]
    · left
      rw [List.head?_append_of_ne_nil _ Nat.toDigits_ne_nil]
      exact head?_toDigits_ne (by omega)
  have hread := number?_toDigits 3 (by decide) (by decide) (by decide) hn hr
  simp only [octet?, hread, Option.bind_eq_bind, Option.bind_some]
  rw [if_pos ⟨hb, hzero⟩, UInt8.ofNat_toNat]

theorem subset_of_octet? {s rest : List Char} {b : UInt8} (h : octet? s = some (b, rest)) :
    rest ⊆ s := by
  simp only [octet?, Option.bind_eq_bind, Option.bind_eq_some_iff] at h
  obtain ⟨⟨n, rest'⟩, hn, h⟩ := h
  split at h
  · cases h
    exact subset_of_number? hn
  · cases h

theorem ends_ten_point (s : List Char) : Ends 10 ('.' :: s) := ends_cons (by decide)

theorem toList_dottedText (a b c d : UInt8) :
    (dottedText [a, b, c, d]).toList =
      Nat.toDigits 10 a.toNat ++ '.' :: (Nat.toDigits 10 b.toNat ++
        '.' :: (Nat.toDigits 10 c.toNat ++ '.' :: Nat.toDigits 10 d.toNat)) := by
  simp [dottedText]

theorem dotted?_dottedText {bs : Bytes} (h : bs.length = 4) :
    dotted? (dottedText bs).toList = some (bs, []) := by
  match bs, h with
  | [a, b, c, d], _ =>
    have hd := octet?_toDigits d (ends_nil 10)
    rw [List.append_nil] at hd
    simp [toList_dottedText, dotted?, octet?_toDigits, ends_ten_point, after?, hd]

/-- Octets are told from groups by the point behind the first of them. -/
theorem dotted?_eq_none {s : List Char} (h : '.' ∉ s) : dotted? s = none := by
  cases hs : octet? s with
  | none => simp [dotted?, hs]
  | some p =>
    obtain ⟨a, rest⟩ := p
    have hrest : '.' ∉ rest := fun hp => h (subset_of_octet? hs hp)
    have hafter : after? '.' rest = none := by
      cases rest with
      | nil => rfl
      | cons c rest =>
        simp only [List.mem_cons, not_or] at hrest
        simp [after?, Ne.symm hrest.1]
    simp [dotted?, hs, hafter]

theorem dotted?_of_ends {s : List Char} (h : Ends 10 s) : dotted? s = none := by
  simp [dotted?, octet?, number?_of_ends h]

/-! ## Groups -/

theorem ends_colon (base : Nat) (s : List Char) : Ends base (':' :: s) :=
  ends_cons (by simp [digit?])

/-- No group comes next: the text is over, or two colons follow. -/
def Stops (s : List Char) : Prop := s = [] ∨ ∃ t, s = ':' :: ':' :: t

theorem Stops.ends {s : List Char} (h : Stops s) (base : Nat) : Ends base s := by
  obtain rfl | ⟨t, rfl⟩ := h
  · exact ends_nil base
  · exact ends_colon base _

theorem groups_of_stops {s : List Char} (h : Stops s) (first : Bool) (limit : Nat) :
    groups first limit s = ⟨[], false, s⟩ := by
  cases limit with
  | zero => rfl
  | succ limit =>
    cases first with
    | true => simp [groups, dotted?_of_ends (h.ends 10), number?_of_ends (h.ends 16)]
    | false =>
      obtain rfl | ⟨t, rfl⟩ := h
      · simp [groups, after?]
      · simp [groups, after?, dotted?_of_ends (ends_colon 10 t), number?_of_ends (ends_colon 16 t)]

/-- What stands before a group. -/
def lead (first : Bool) : List Char := if first then [] else [':']

theorem groups_toDigits (first : Bool) (limit : Nat) {g : Nat} {rest : List Char} (hg : g < 65536)
    (hr : Ends 16 rest) (hd : dotted? (Nat.toDigits 16 g ++ rest) = none) :
    groups first (limit + 1) (lead first ++ (Nat.toDigits 16 g ++ rest)) =
      { groups false limit rest with
        octets := Bytes.ofNatBE 2 g ++ (groups false limit rest).octets } := by
  have hread := number?_toDigits 4 (by decide) (by decide) (by decide) hg hr
  cases first with
  | true => simp [groups, lead, hd, hread]
  | false => simp [groups, lead, after?, hd, hread]

/-- Groups with a colon before each. -/
def behind (gs : List Nat) : List Char := gs.flatMap fun g => ':' :: Nat.toDigits 16 g

@[simp]
theorem behind_nil : behind [] = [] := rfl

@[simp]
theorem behind_cons (g : Nat) (gs : List Nat) :
    behind (g :: gs) = ':' :: (Nat.toDigits 16 g ++ behind gs) := by simp [behind]

theorem toList_colonText_cons (g : Nat) (gs : List Nat) :
    (colonText (g :: gs)).toList = Nat.toDigits 16 g ++ behind gs := by
  induction gs generalizing g with
  | nil => simp [colonText, groupText]
  | cons g' gs ih =>
    have hrest := ih g'
    simp only [colonText, List.map_cons] at hrest ⊢
    simp only [String.intercalate_cons_cons, String.toList_append, hrest]
    simp [groupText]

theorem point_not_mem_toDigits (g : Nat) : '.' ∉ Nat.toDigits 16 g := by
  intro h
  have := isSome_digit?_of_mem_toDigits (by decide) (by decide) h
  simp [digit?] at this

theorem point_not_mem_behind (gs : List Nat) : '.' ∉ behind gs := by
  simp [behind, point_not_mem_toDigits]

theorem point_not_mem_colonText (gs : List Nat) : '.' ∉ (colonText gs).toList := by
  cases gs with
  | nil => simp [colonText]
  | cons g gs =>
    simp [toList_colonText_cons, point_not_mem_toDigits, point_not_mem_behind]

theorem ends_behind (gs : List Nat) {rest : List Char} (hs : Stops rest) :
    Ends 16 (behind gs ++ rest) := by
  cases gs with
  | nil => exact hs.ends 16
  | cons g gs => exact ends_colon 16 _

theorem dotted?_toDigits_behind (g : Nat) (gs : List Nat) {rest : List Char} (hp : '.' ∉ rest) :
    dotted? (Nat.toDigits 16 g ++ (behind gs ++ rest)) = none := by
  apply dotted?_eq_none
  simp [point_not_mem_toDigits, point_not_mem_behind, hp]

section
variable {gs : List Nat} (limit : Nat) {rest : List Char} (hlen : gs.length ≤ limit)
  (hg : ∀ g ∈ gs, g < 65536) (hs : Stops rest) (hp : '.' ∉ rest)
include hlen hg hs hp

theorem groups_behind :
    groups false limit (behind gs ++ rest) = ⟨gs.flatMap (Bytes.ofNatBE 2), false, rest⟩ := by
  induction gs generalizing limit with
  | nil => exact groups_of_stops hs false limit
  | cons g gs ih =>
    obtain ⟨limit, rfl⟩ : ∃ k, limit = k + 1 := ⟨limit - 1, by simp at hlen; omega⟩
    have hrest := ih limit (by simpa using hlen) fun g' h => hg g' (List.mem_cons_of_mem _ h)
    have hstep := groups_toDigits false limit (hg g List.mem_cons_self)
      (ends_behind gs hs) (dotted?_toDigits_behind g gs hp)
    simpa [lead, hrest] using hstep

theorem groups_colonText :
    groups true limit ((colonText gs).toList ++ rest) =
      ⟨gs.flatMap (Bytes.ofNatBE 2), false, rest⟩ := by
  cases gs with
  | nil => exact groups_of_stops hs true limit
  | cons g gs =>
    obtain ⟨limit, rfl⟩ : ∃ k, limit = k + 1 := ⟨limit - 1, by simp at hlen; omega⟩
    have hrest := groups_behind limit (by simpa using hlen)
      (fun g' h => hg g' (List.mem_cons_of_mem _ h)) hs hp
    have hstep := groups_toDigits true limit (hg g List.mem_cons_self)
      (ends_behind gs hs) (dotted?_toDigits_behind g gs hp)
    simpa [toList_colonText_cons, lead, hrest] using hstep

end

/-! ## Sixteen octets -/

theorem colons?_colonText {gs : List Nat} (hlen : gs.length = 8) (hg : ∀ g ∈ gs, g < 65536) :
    colons? (colonText gs).toList = some (gs.flatMap (Bytes.ofNatBE 2), []) := by
  have hfront := groups_colonText 8 (le_of_eq hlen) hg (.inl rfl) List.not_mem_nil
  rw [List.append_nil] at hfront
  simp [colons?, hfront, hlen]

/-- The octets on both sides of `::` and as many zeros between them as there is room for. -/
theorem colons?_gap {front back : List Nat} (hlen : front.length + back.length ≤ 7)
    (hf : ∀ g ∈ front, g < 65536) (hb : ∀ g ∈ back, g < 65536) :
    colons? (colonText front ++ "::" ++ colonText back).toList =
      some (front.flatMap (Bytes.ofNatBE 2) ++
        Bytes.zeros (16 - front.length * 2 - back.length * 2) ++
        back.flatMap (Bytes.ofNatBE 2), []) := by
  have hfront := groups_colonText 8 (by omega) hf (.inr ⟨(colonText back).toList, rfl⟩)
    (by simp [point_not_mem_colonText])
  have hback := groups_colonText (7 - front.length) (by omega) hb (.inl rfl)
    List.not_mem_nil
  rw [List.append_nil] at hback
  have hshort : front.length * 2 ≠ 16 := by omega
  simp [colons?, hfront, hback, after?, hshort]

theorem toDigits_ones : Nat.toDigits 16 0xffff = ['f', 'f', 'f', 'f'] := by decide

theorem toList_mapped (s : String) :
    ("::ffff:" ++ s).toList = ':' :: ':' :: (Nat.toDigits 16 0xffff ++ ':' :: s.toList) := by
  simp [toDigits_ones]

/-- The octets behind the mapping mark. -/
theorem colons?_mapped {bs : Bytes} (h : bs.length = 4) :
    colons? ("::ffff:" ++ dottedText bs).toList =
      some (Bytes.zeros 10 ++ [0xff, 0xff] ++ bs, []) := by
  rw [toList_mapped]
  generalize hs : Nat.toDigits 16 0xffff ++ ':' :: (dottedText bs).toList = s
  have hfront := groups_of_stops (.inr ⟨s, rfl⟩) true 8
  have hoctets : groups false 6 (':' :: (dottedText bs).toList) = ⟨bs, true, []⟩ := by
    simp [groups, after?, dotted?_dottedText h]
  have hno : dotted? (Nat.toDigits 16 0xffff ++ ':' :: (dottedText bs).toList) = none := by
    rw [toDigits_ones]
    exact dotted?_of_ends (ends_cons (by decide))
  have hback := groups_toDigits true 6 (by decide : 0xffff < 65536)
    (ends_colon 16 (dottedText bs).toList) hno
  have hones : Bytes.ofNatBE 2 0xffff = [0xff, 0xff] := by decide
  simp only [hoctets, lead, if_true, List.nil_append, hones, hs] at hback
  simp [colons?, hfront, after?, hback, h]

/-! ## The octets of a text -/

theorem ofNatBE_two (a b : UInt8) : Bytes.ofNatBE 2 (a.toNat * 256 + b.toNat) = [a, b] := by
  have h := Bytes.ofNatBE_toNatBE [a, b]
  simpa [Bytes.toNatBE, Bytes.toNatLE, Nat.mul_comm, Nat.add_comm] using h

theorem flatMap_groupsOf {bs : Bytes} (h : bs.length % 2 = 0) :
    (groupsOf bs).flatMap (Bytes.ofNatBE 2) = bs := by
  fun_induction groupsOf bs with
  | case1 a b rest ih =>
    have hrest : rest.length % 2 = 0 := by simp at h; omega
    rw [List.flatMap_cons, ofNatBE_two, ih hrest]
    rfl
  | case2 bs hbs =>
    rcases bs with _ | ⟨a, _ | ⟨b, rest⟩⟩
    · rfl
    · simp at h
    · exact (hbs a b rest rfl).elim

theorem length_groupsOf (bs : Bytes) : (groupsOf bs).length = bs.length / 2 := by
  fun_induction groupsOf bs with
  | case1 a b rest ih =>
    simp only [List.length_cons, ih]
    omega
  | case2 bs hbs =>
    rcases bs with _ | ⟨a, _ | ⟨b, rest⟩⟩
    · rfl
    · simp
    · exact (hbs a b rest rfl).elim

theorem lt_of_mem_groupsOf {bs : Bytes} {g : Nat} (h : g ∈ groupsOf bs) : g < 65536 := by
  fun_induction groupsOf bs with
  | case1 a b rest ih =>
    obtain rfl | h := List.mem_cons.1 h
    · have ha := a.toNat_lt
      have hb := b.toNat_lt
      omega
    · exact ih h
  | case2 bs hbs => simp at h

/-- A run of zero groups. -/
def IsRun (gs : List Nat) (r : Nat × Nat) : Prop := (gs.drop r.1).take r.2 = List.replicate r.2 0

theorem isRun_takeWhile (gs : List Nat) (i : Nat) :
    IsRun gs (i, ((gs.drop i).takeWhile (· == 0)).length) := by
  have htake := List.prefix_iff_eq_take.1 (List.takeWhile_prefix (· == 0) (l := gs.drop i))
  simp only [IsRun, ← htake]
  refine List.eq_replicate_iff.2 ⟨rfl, fun g hg => ?_⟩
  simpa using List.all_eq_true.1 List.all_takeWhile g hg

theorem isRun_longestZeros (gs : List Nat) : IsRun gs (longestZeros gs) := by
  have hkeeps (rs : List (Nat × Nat)) (hrs : ∀ r ∈ rs, IsRun gs r) (best : Nat × Nat)
      (hbest : IsRun gs best) :
      IsRun gs (rs.foldl (fun best r => if best.2 < r.2 then r else best) best) := by
    induction rs generalizing best with
    | nil => exact hbest
    | cons r rs ih =>
      refine ih (fun r hr => hrs r (List.mem_cons_of_mem _ hr)) _ ?_
      dsimp only
      split
      · exact hrs r List.mem_cons_self
      · exact hbest
  refine hkeeps _ (fun r hr => ?_) (0, 0) rfl
  obtain ⟨i, -, rfl⟩ := List.mem_map.1 hr
  exact isRun_takeWhile gs i

theorem IsRun.le {gs : List Nat} {start count : Nat} (h : IsRun gs (start, count))
    (hc : 0 < count) : start + count ≤ gs.length := by
  have hlen := congrArg List.length h
  simp at hlen
  omega

theorem IsRun.split {gs : List Nat} {start count : Nat} (h : IsRun gs (start, count)) :
    gs = gs.take start ++ List.replicate count 0 ++ gs.drop (start + count) := by
  have hzeros : (gs.drop start).take count = List.replicate count 0 := h
  rw [← hzeros, ← List.drop_drop, List.append_assoc, List.take_append_drop,
    List.take_append_drop]

theorem flatMap_replicate_zero (n : Nat) :
    (List.replicate n 0).flatMap (Bytes.ofNatBE 2) = Bytes.zeros (n * 2) := by
  induction n with
  | zero => rfl
  | succ n ih =>
    rw [List.replicate_succ, List.flatMap_cons, ih, Nat.succ_mul]
    rfl

/-! ## Whole addresses -/

theorem parse?_of_colons? {s : String} {a : Address} (hd : dotted? s.toList = none)
    (hc : colons? s.toList = some (a.octets, [])) : parse? s = some a := by
  simp [parse?, hd, hc]

/-- Whatever address is written is read back. -/
theorem parse?_text (a : Address) : parse? a.text = some a := by
  cases a with
  | v4 o =>
    have h : ofOctets? o.bytes = some (v4 o) := ofOctets?_octets (v4 o)
    simp [parse?, text, dotted?_dottedText o.length_eq, h]
  | v6 o =>
    have hgroups : (groupsOf o.bytes).flatMap (Bytes.ofNatBE 2) = o.bytes :=
      flatMap_groupsOf (by simp [o.length_eq])
    have hlen : (groupsOf o.bytes).length = 8 := by simp [length_groupsOf, o.length_eq]
    have hlt : ∀ g ∈ groupsOf o.bytes, g < 65536 := fun g => lt_of_mem_groupsOf
    simp only [text]
    split
    next hmark =>
      have hoctets : Bytes.zeros 10 ++ [0xff, 0xff] ++ o.bytes.drop 12 = o.bytes := by
        rw [← hmark, List.take_append_drop]
      refine parse?_of_colons? ?_ ?_
      · rw [toList_mapped]
        exact dotted?_of_ends (ends_colon 10 _)
      · rw [colons?_mapped (by simp [o.length_eq]), hoctets]
        rfl
    next =>
      have hrun := isRun_longestZeros (groupsOf o.bytes)
      generalize longestZeros (groupsOf o.bytes) = run at hrun ⊢
      obtain ⟨start, count⟩ := run
      dsimp only
      split
      next =>
        refine parse?_of_colons? (dotted?_eq_none (point_not_mem_colonText _)) ?_
        rw [colons?_colonText hlen hlt, hgroups]
        rfl
      next hcount =>
        have hle := hrun.le (by omega)
        refine parse?_of_colons? (dotted?_eq_none (by simp [point_not_mem_colonText])) ?_
        rw [colons?_gap (by simp; omega) (fun g hg => hlt g (List.mem_of_mem_take hg))
          (fun g hg => hlt g (List.mem_of_mem_drop hg))]
        have hgap : 16 - ((groupsOf o.bytes).take start).length * 2 -
            ((groupsOf o.bytes).drop (start + count)).length * 2 = count * 2 := by simp; omega
        rw [hgap, ← flatMap_replicate_zero, ← List.flatMap_append, ← List.flatMap_append,
          ← hrun.split, hgroups]
        rfl

end FlowTally.Address

import FlowTally.Proofs.Attributes
import FlowTally.Wire.Comment
/-!
# Comments in user data

One step over user data is over one entry: the comment is taken out of it, or reading goes on behind
it (`Wire.readComment_bytes_append`). All user data is entries up to the comment or up to a place
where no whole entry stands (`Wire.exists_reaches`), so that a written comment is found behind any
other entries and whatever follows it, and none is found exactly if none can be read
(`Wire.comment_found`). The same walk by positions never leaves the buffer
(`Wire.commentFrom?_eq_some`).
-/

namespace FlowTally

namespace Bytes

/-- The text is what stands in front of the first NUL byte, or everything if there is none. -/
def EndsAtNul (bs text : Bytes) : Prop := 0 ∉ text ∧ (bs = text ∨ ∃ rest, bs = text ++ 0 :: rest)

theorem endsAtNul_untilNul (bs : Bytes) : bs.EndsAtNul (untilNul bs) := by
  refine ⟨zero_not_mem_untilNul bs, ?_⟩
  have hsplit : untilNul bs ++ bs.dropWhile (· != 0) = bs := List.takeWhile_append_dropWhile
  cases hrest : bs.dropWhile (· != 0) with
  | nil => exact .inl (by rw [hrest, List.append_nil] at hsplit; exact hsplit.symm)
  | cons b rest =>
    have hb := List.head_dropWhile_not (· != 0) (l := bs) (by simp [hrest])
    obtain rfl : b = 0 := by simpa [hrest] using hb
    exact .inr ⟨rest, by rw [hrest] at hsplit; exact hsplit.symm⟩

theorem EndsAtNul.untilNul_eq {bs text : Bytes} (h : bs.EndsAtNul text) : untilNul bs = text := by
  obtain ⟨hz, rfl | ⟨rest, rfl⟩⟩ := h
  · exact untilNul_eq_self hz
  · exact untilNul_append hz rest

theorem untilNul_eq_take (bs : Bytes) : untilNul bs = bs.take (bs.idxOf 0) := by
  have hp : (fun b : UInt8 => !(b != 0)) = (· == 0) := by simp [bne]
  rw [untilNul, List.takeWhile_eq_take_findIdx_not, hp, List.idxOf]

theorem toString?_eq_none_iff {bs : Bytes} : toString? bs = none ↔ ∀ s, ofString s ≠ bs := by
  constructor
  · rintro h s rfl
    rw [toString?_ofString] at h
    cases h
  · intro h
    cases hs : toString? bs with
    | none => rfl
    | some s => exact absurd (ofString_of_toString? hs) (h s)

theorem slice?_eq_some {bs : Bytes} {start len : Nat} (h : start + len ≤ bs.length) :
    bs.slice? start len = some ((bs.drop start).take len) := if_pos h

end Bytes

namespace Wire

/-- An entry of user data. One byte has to do for its length. -/
structure Entry where
  kind : UInt8
  value : Bytes
  length_le : value.length ≤ 255

def Entry.bytes (e : Entry) : Bytes := e.kind :: UInt8.ofNat e.value.length :: e.value

/-- No whole entry stands in front: a kind and a length have no room, or the value has not. -/
inductive Exhausted : Bytes → Prop
  | short {tail : Bytes} (h : tail.length < 2) : Exhausted tail
  | truncated {kind length : UInt8} {tail : Bytes} (h : tail.length < length.toNat) :
    Exhausted (kind :: length :: tail)

/-- The rest is reached over entries that are no comments. -/
def Reaches (data rest : Bytes) : Prop :=
  ∃ es : List Entry, (∀ e ∈ es, e.kind ≠ 0) ∧ data = es.flatMap Entry.bytes ++ rest

/-! ## One entry -/

theorem readComment_bytes_append (e : Entry) (rest : Bytes) :
    readComment (e.bytes ++ rest) =
      if e.kind = 0 then Bytes.toString? (Bytes.untilNul e.value) else readComment rest := by
  have hlength : (UInt8.ofNat e.value.length).toNat = e.value.length := by
    have h := e.length_le
    rw [UInt8.toNat_ofNat']
    omega
  rw [Entry.bytes, List.cons_append, List.cons_append, readComment, hlength, List.take_left,
    List.drop_left, if_neg (Nat.lt_irrefl _)]

theorem readComment_of_exhausted {data : Bytes} (h : Exhausted data) : readComment data = none := by
  cases h with
  | short h =>
    unfold readComment
    split
    · simp only [List.length_cons] at h
      omega
    · rfl
  | truncated h =>
    rw [readComment, if_pos]
    rw [List.length_take]
    omega

theorem exhausted_or_entry (data : Bytes) :
    Exhausted data ∨ ∃ (e : Entry) (rest : Bytes), data = e.bytes ++ rest := by
  match data with
  | [] => exact .inl (.short (by decide))
  | [_] => exact .inl (.short (Nat.lt_succ_self 1))
  | kind :: length :: body =>
    by_cases h : body.length < length.toNat
    · exact .inl (.truncated h)
    · have hlt := length.toNat_lt
      have hvalue : (body.take length.toNat).length = length.toNat := by
        rw [List.length_take]
        omega
      refine .inr ⟨⟨kind, body.take length.toNat, by omega⟩, body.drop length.toNat, ?_⟩
      show _ = kind :: UInt8.ofNat (body.take length.toNat).length ::
        (body.take length.toNat ++ body.drop length.toNat)
      rw [hvalue, UInt8.ofNat_toNat, List.take_append_drop]

/-! ## A written comment -/

/-- User data that holds a comment. -/
def commentEntry (c : String) : Bytes := 0 :: UInt8.ofNat (c.utf8ByteSize + 1) :: terminated c

theorem userdata_eq_ok_iff {c : String} {bs : Bytes} : userdata c = .ok bs ↔
    c.utf8ByteSize ≤ maxCommentBytes ∧ '\x00' ∉ c.toList ∧ bs = commentEntry c := by
  unfold userdata
  simp only [Bytes.length_ofString, Bytes.zero_mem_ofString_iff]
  split_ifs with hl hz
  · simp; omega
  · simp [hz]
  · simp [hz, commentEntry, terminated, eq_comm]; omega

theorem readComment_commentEntry {c : String} (hl : c.utf8ByteSize ≤ maxCommentBytes)
    (hz : '\x00' ∉ c.toList) (rest : Bytes) : readComment (commentEntry c ++ rest) = some c := by
  have hlength : (terminated c).length ≤ 255 := by
    unfold maxCommentBytes at hl
    rw [length_terminated]
    omega
  have hbytes : commentEntry c = Entry.bytes ⟨0, terminated c, hlength⟩ := by
    show _ = 0 :: UInt8.ofNat (terminated c).length :: terminated c
    rw [length_terminated, commentEntry]
  rw [hbytes, readComment_bytes_append, if_pos rfl]
  show Bytes.toString? (Bytes.untilNul (Bytes.ofString c ++ [0])) = some c
  rw [Bytes.untilNul_append (mt Bytes.zero_mem_ofString_iff.1 hz), Bytes.toString?_ofString]

theorem fits_commentEntry {c : String} (hl : c.utf8ByteSize ≤ maxCommentBytes) :
    Fits (commentEntry c) := by
  unfold maxCommentBytes at hl
  simp [Fits, commentEntry]
  omega

/-! ## All entries up to the comment -/

theorem Reaches.refl (data : Bytes) : Reaches data data := ⟨[], by simp, rfl⟩

theorem Reaches.cons {e : Entry} (he : e.kind ≠ 0) {data rest : Bytes} (h : Reaches data rest) :
    Reaches (e.bytes ++ data) rest := by
  obtain ⟨es, hes, rfl⟩ := h
  exact ⟨e :: es, List.forall_mem_cons.2 ⟨he, hes⟩, by rw [List.flatMap_cons, List.append_assoc]⟩

/-- Entries that are no comments are passed over. -/
theorem readComment_of_reaches {data rest : Bytes} (h : Reaches data rest) :
    readComment data = readComment rest := by
  obtain ⟨es, hes, rfl⟩ := h
  induction es with
  | nil => rfl
  | cons e es ih =>
    obtain ⟨he, hes⟩ := List.forall_mem_cons.1 hes
    rw [List.flatMap_cons, List.append_assoc, readComment_bytes_append, if_neg he, ih hes]

theorem exists_reaches (data : Bytes) : ∃ rest, Reaches data rest ∧
    (Exhausted rest ∨ ∃ (e : Entry) (behind : Bytes), rest = e.bytes ++ behind ∧ e.kind = 0) := by
  -- an entry is as long as it says, so the induction is on all shorter bytes
  induction hn : data.length using Nat.strong_induction_on generalizing data with
  | _ n ih =>
    subst hn
    rcases exhausted_or_entry data with h | ⟨e, behind, rfl⟩
    · exact ⟨data, .refl data, .inl h⟩
    by_cases he : e.kind = 0
    · exact ⟨_, .refl _, .inr ⟨e, behind, rfl, he⟩⟩
    · have hshorter : behind.length < (e.bytes ++ behind).length := by
        simp only [Entry.bytes, List.length_append, List.length_cons]
        omega
      obtain ⟨rest, hrest, hend⟩ := ih _ hshorter behind rfl
      exact ⟨rest, hrest.cons he, hend⟩

theorem readComment_eq_none_iff {data : Bytes} : readComment data = none ↔
    ∃ rest, Reaches data rest ∧ (Exhausted rest ∨ ∃ (e : Entry) (behind text : Bytes),
      rest = e.bytes ++ behind ∧ e.kind = 0 ∧ e.value.EndsAtNul text ∧
        ∀ s, Bytes.ofString s ≠ text) := by
  constructor
  · intro h
    obtain ⟨rest, hrest, hend | ⟨e, behind, rfl, he⟩⟩ := exists_reaches data
    · exact ⟨rest, hrest, .inl hend⟩
    · rw [readComment_of_reaches hrest, readComment_bytes_append, if_pos he,
        Bytes.toString?_eq_none_iff] at h
      exact ⟨_, hrest, .inr ⟨e, behind, _, rfl, he, Bytes.endsAtNul_untilNul _, h⟩⟩
  · rintro ⟨rest, hrest, hend | ⟨e, behind, text, rfl, he, htext, hs⟩⟩
    · rw [readComment_of_reaches hrest, readComment_of_exhausted hend]
    · rw [readComment_of_reaches hrest, readComment_bytes_append, if_pos he, htext.untilNul_eq,
        Bytes.toString?_eq_none_iff]
      exact hs

/-! ## By positions -/

/-- The walk by positions in the buffer, in at most `turns` turns. There is no answer if a byte is
asked for that the buffer does not have, or if the turns are not enough. -/
def commentFrom? (data : Bytes) : Nat → Nat → Option (Option String)
  | 0, _ => none
  | turns + 1, start =>
    if data.length < start then none
    else if data.length < start + 2 then some none
    else do
      let kind ← data[start]?
      let length ← data[start + 1]?
      -- the length is not to be trusted before this test
      if data.length < start + 2 + length.toNat then some none
      else
        let value ← Bytes.slice? data (start + 2) length.toNat
        if kind = 0 then
          let text ← Bytes.slice? value 0 (value.idxOf 0)
          some (Bytes.toString? text)
        else commentFrom? data turns (start + 2 + length.toNat)

theorem commentFrom?_of_drop {data body : Bytes} {start : Nat} {kind length : UInt8}
    (h : data.drop start = kind :: length :: body) (turns : Nat) :
    commentFrom? data (turns + 1) start =
      if body.length < length.toNat then some none
      else if kind = 0 then some (Bytes.toString? (Bytes.untilNul (body.take length.toNat)))
      else commentFrom? data turns (start + 2 + length.toNat) := by
  have hkind : data[start]? = some kind := by
    rw [← Nat.add_zero start, ← List.getElem?_drop, h]
    rfl
  have hlength : data[start + 1]? = some length := by
    rw [← List.getElem?_drop, h]
    rfl
  have hbody : data.drop (start + 2) = body := by rw [← List.drop_drop, h]; rfl
  have hsize : data.length = start + 2 + body.length := by
    have hdrop := congrArg List.length h
    simp only [List.length_drop, List.length_cons] at hdrop
    omega
  have hvalue (hl : ¬ body.length < length.toNat) :
      Bytes.slice? data (start + 2) length.toNat = some (body.take length.toNat) := by
    rw [Bytes.slice?_eq_some (by omega), hbody]
  have htext (value : Bytes) :
      Bytes.slice? value 0 (value.idxOf 0) = some (Bytes.untilNul value) := by
    rw [Bytes.slice?_eq_some (by simpa using List.idxOf_le_length), List.drop_zero,
      Bytes.untilNul_eq_take]
  rw [commentFrom?, if_neg (by omega), if_neg (by omega), hkind, hlength]
  by_cases hl : body.length < length.toNat
  · rw [if_pos hl]
    exact if_pos (by omega)
  · rw [if_neg hl]
    refine (if_neg (by omega)).trans ?_
    rw [hvalue hl]
    show (if kind = 0 then _ else _) = _
    rw [htext]
    rfl

/-- Every turn but the last goes on by two bytes at least, and none leaves the buffer. -/
theorem commentFrom?_eq_some {data : Bytes} {turns start : Nat} (hs : start ≤ data.length)
    (ht : data.length < start + 2 * turns) :
    commentFrom? data turns start = some (readComment (data.drop start)) := by
  induction turns generalizing start with
  | zero => omega
  | succ turns ih =>
    have hlength : (data.drop start).length = data.length - start := List.length_drop
    match hdrop : data.drop start with
    | kind :: length :: body =>
      rw [hdrop, List.length_cons, List.length_cons] at hlength
      rw [commentFrom?_of_drop hdrop, readComment, List.length_take]
      by_cases hl : body.length < length.toNat
      · rw [if_pos hl, if_pos (by omega)]
      · have hl' : ¬ min length.toNat body.length < length.toNat := by omega
        have hnext : data.drop (start + 2 + length.toNat) = body.drop length.toNat := by
          rw [Nat.add_assoc, ← List.drop_drop, hdrop, Nat.add_comm, List.drop_succ_cons,
            List.drop_succ_cons]
        rw [if_neg hl, if_neg hl', ih (by omega) (by omega), hnext]
        split <;> rfl
    | [] | [_] =>
      rw [hdrop] at hlength
      simp only [List.length_nil, List.length_cons] at hlength
      rw [readComment_of_exhausted (.short (by simp)), commentFrom?, if_neg (by omega),
        if_pos (by omega)]

/-! ## Any user data -/

/-- A written comment is found behind any entries that are no comments, whatever follows it. In any
bytes, the walk comes to its end within them, and it finds nothing exactly if it comes to a place
where no whole entry stands, or to a comment that is not UTF-8. -/
theorem comment_found :
    (∀ label : String, label.utf8ByteSize ≤ 127 → '\x00' ∉ label.toList →
      ∃ entry, userdata label = .ok entry ∧
        ∀ es : List Entry, (∀ e ∈ es, e.kind ≠ 0) → ∀ behind : Bytes,
          readComment (es.flatMap Entry.bytes ++ entry ++ behind) = some label) ∧
      ∀ data : Bytes,
        commentFrom? data (data.length / 2 + 1) 0 = some (readComment data) ∧
        (readComment data = none ↔ ∃ rest, Reaches data rest ∧
          (Exhausted rest ∨ ∃ (e : Entry) (behind text : Bytes),
            rest = e.bytes ++ behind ∧ e.kind = 0 ∧ e.value.EndsAtNul text ∧
              ∀ s, Bytes.ofString s ≠ text)) := by
  constructor
  · intro label hl hz
    refine ⟨commentEntry label, userdata_eq_ok_iff.2 ⟨hl, hz, rfl⟩, fun es hes behind => ?_⟩
    rw [List.append_assoc, readComment_of_reaches ⟨es, hes, rfl⟩,
      readComment_commentEntry hl hz]
  · intro data
    exact ⟨commentFrom?_eq_some (Nat.zero_le _) (by omega), readComment_eq_none_iff⟩

def pairEntry : Entry := ⟨9, [0xaa, 0xbb], by decide⟩

def emptyEntry : Entry := ⟨7, [], by decide⟩

/-- A label of three characters in five bytes is found behind entries with a value and without one;
an entry that is cut short hides whatever was to come. -/
theorem comment_found_behind :
    "süß".utf8ByteSize ≤ 127 ∧ '\x00' ∉ "süß".toList ∧
      (∀ e ∈ [pairEntry, emptyEntry], e.kind ≠ 0) ∧
      (∃ entry, userdata "süß" = .ok entry ∧
        readComment ([9, 2, 0xaa, 0xbb, 7, 0] ++ entry ++ [0, 200, 1]) = some "süß") ∧
      readComment [7, 0, 9, 10, 1] = none := by
  have hl : "süß".utf8ByteSize ≤ 127 := by decide +kernel
  have hz : '\x00' ∉ "süß".toList := by decide
  have hes : ∀ e ∈ [pairEntry, emptyEntry], e.kind ≠ 0 := by decide
  obtain ⟨entry, hentry, hfound⟩ := comment_found.1 "süß" hl hz
  have hreach : Reaches [7, 0, 9, 10, 1] [9, 10, 1] := ⟨[emptyEntry], by decide, rfl⟩
  have hend : Exhausted [9, 10, 1] := .truncated (by decide)
  exact ⟨hl, hz, hes, ⟨entry, hentry, hfound _ hes [0, 200, 1]⟩,
    (comment_found.2 _).2.2 ⟨_, hreach, .inl hend⟩⟩

end Wire

end FlowTally

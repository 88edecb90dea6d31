import FlowTally.Proofs.Attribution
/-!
# Commits are acknowledged

A commit over a connection succeeds if every edit has been acknowledged and no message that was read
until then objects to a number of the batch (`Netlink.Connection.commit_answer`). Whether a message
does the one or the other is in the first four bytes of its payload (`Wire.Message.Reports`). What
is still to be acknowledged depends only on the messages that have been read (`Wire.outstanding`),
in whatever order and datagrams they came.
-/

namespace FlowTally

namespace Wire

/-! ## What messages say of a batch -/

namespace Message

/-- The payload starts with the negative of the error number in four bytes. -/
def Reports (m : Message) (code : Int32) : Prop :=
  m.payload.take 4 = Bytes.ofNatLE 4 (-code).toUInt32.toNat
  deriving Decidable

def Acknowledges (m : Message) (n : UInt32) : Prop :=
  m.kind = MessageKind.error ∧ m.seq = n ∧ m.Reports 0
  deriving Decidable

/-- An error message under one of the numbers that is no acknowledgement. -/
def Objects (m : Message) (issued : List UInt32) : Prop :=
  m.kind = MessageKind.error ∧ m.seq ∈ issued ∧ ¬ m.Reports 0
  deriving Decidable

section Codes
variable {m : Message} {code : Int32}

theorem reports_iff : m.Reports code ↔
    4 ≤ m.payload.length ∧ -Int32.ofNat (Bytes.toNatLE (m.payload.take 4)) = code := by
  constructor
  · intro h
    have hlength : min 4 m.payload.length = 4 := by
      rw [← List.length_take, h, Bytes.length_ofNatLE]
    have hfits : (-code).toUInt32.toNat < Bytes.capacity 4 := (-code).toUInt32.toNat_lt
    refine ⟨by omega, ?_⟩
    rw [h, Bytes.toNatLE_ofNatLE, Nat.mod_eq_of_lt hfits, ← UInt32.toInt32_ofNat',
      UInt32.ofNat_toNat, Int32.toInt32_toUInt32, Int32.neg_neg]
  · rintro ⟨hl, rfl⟩
    have hbytes := Bytes.ofNatLE_toNatLE (m.payload.take 4)
    rw [List.length_take_of_le hl] at hbytes
    rw [Reports, Int32.neg_neg, Int32.toUInt32_ofNat', UInt32.toNat_ofNat']
    exact hbytes.symm.trans (Bytes.ofNatLE_mod 4 _).symm

/-- A payload that is long enough reports one error number. -/
theorem existsUnique_reports (h : 4 ≤ m.payload.length) : ∃! code, m.Reports code :=
  ⟨_, reports_iff.2 ⟨h, rfl⟩, fun _ hc => (reports_iff.1 hc).2.symm⟩

theorem errorCode_eq_ok_iff : m.errorCode = .ok code.toInt ↔ m.Reports code := by
  rw [reports_iff, errorCode]
  by_cases hl : m.payload.length < 4
  · simp [hl, Nat.not_le_of_lt hl]
  · simp only [hl, if_false, Except.ok.injEq, Int32.toInt_inj, Nat.le_of_not_lt hl, true_and]

theorem errorCode_eq_ok_zero_iff : m.errorCode = .ok 0 ↔ m.Reports 0 :=
  @errorCode_eq_ok_iff m 0

end Codes

end Message

theorem exists_first_objection {issued : List UInt32} {ms : List Message}
    (h : ¬ ∀ m ∈ ms, ¬ m.Objects issued) :
    ∃ pre m post, ms = pre ++ m :: post ∧ (∀ m ∈ pre, ¬ m.Objects issued) ∧ m.Objects issued := by
  push Not at h
  obtain ⟨m, hfind⟩ : ∃ m, ms.find? (·.Objects issued) = some m :=
    Option.isSome_iff_exists.1 (List.find?_isSome.2 (by simpa using h))
  obtain ⟨hm, pre, post, rfl, hpre⟩ := List.find?_eq_some_iff_append.1 hfind
  exact ⟨pre, m, post, rfl, by simpa using hpre, by simpa using hm⟩

/-- Each of the numbers is acknowledged. -/
def Acknowledged (numbers : List UInt32) (ms : List Message) : Prop :=
  ∀ n ∈ numbers, ∃ m ∈ ms, m.Acknowledges n

/-- What is still to be acknowledged. -/
def outstanding (pending : List UInt32) (ms : List Message) : List UInt32 :=
  pending.filter fun n => ∀ m ∈ ms, ¬ m.Acknowledges n

section Outstanding
variable {pending : List UInt32} {ms ms' : List Message}

theorem outstanding_nil : outstanding pending [] = pending := by simp [outstanding]

theorem outstanding_append :
    outstanding pending (ms ++ ms') = outstanding (outstanding pending ms) ms' := by
  simp [outstanding, List.filter_filter, or_imp, forall_and, Bool.and_comm]

theorem outstanding_cons {m : Message} :
    outstanding pending (m :: ms) = outstanding (outstanding pending [m]) ms := by
  rw [← outstanding_append, List.singleton_append]

theorem outstanding_eq_nil_iff : outstanding pending ms = [] ↔ Acknowledged pending ms := by
  simp [outstanding, Acknowledged]

theorem acknowledged_append :
    Acknowledged pending (ms ++ ms') ↔ Acknowledged (outstanding pending ms) ms' := by
  rw [← outstanding_eq_nil_iff, outstanding_append, outstanding_eq_nil_iff]

theorem acknowledged_nil_iff : Acknowledged pending [] ↔ pending = [] := by
  rw [← outstanding_eq_nil_iff, outstanding_nil]

theorem Acknowledged.append (h : Acknowledged pending ms) : Acknowledged pending (ms ++ ms') := by
  rw [acknowledged_append, outstanding_eq_nil_iff.2 h]
  exact fun _ hn => nomatch hn

theorem outstanding_subset {numbers : List UInt32} (h : pending ⊆ numbers) :
    outstanding pending ms ⊆ numbers := fun _ hn => h (List.mem_of_mem_filter hn)

end Outstanding

end Wire

namespace Netlink

open Wire

/-- The messages of receipts that can all be read. -/
def readAll (rs : List Receipt) : Except TransportError (List Message) :=
  (rs.mapM Receipt.read).map List.flatten

theorem readAll_cons_eq_ok_iff {r : Receipt} {rs : List Receipt} {all : List Message} :
    readAll (r :: rs) = .ok all ↔
      ∃ ms seen, r.read = .ok ms ∧ readAll rs = .ok seen ∧ ms ++ seen = all := by
  simp only [readAll, List.mapM_cons, map_eq_ok_iff, bind_eq_ok_iff, pure_eq_ok_iff]
  constructor
  · rintro ⟨_, ⟨ms, hms, groups, hgroups, rfl⟩, rfl⟩
    exact ⟨ms, groups.flatten, hms, ⟨groups, hgroups, rfl⟩, rfl⟩
  · rintro ⟨ms, _, hms, ⟨groups, hgroups, rfl⟩, rfl⟩
    exact ⟨ms :: groups, ⟨ms, hms, groups, hgroups, rfl⟩, rfl⟩

/-- Up to the end of the datagram with the last acknowledgement, everything can be read and nothing
objects. -/
def Succeeds (edits issued : List UInt32) (inbox : List Receipt) : Prop :=
  ∃ before r behind seen ms, inbox = before ++ r :: behind ∧ readAll before = .ok seen ∧
    r.read = .ok ms ∧ ¬ Acknowledged edits seen ∧ Acknowledged edits (seen ++ ms) ∧
    ∀ m ∈ seen ++ ms, ¬ m.Objects issued

/-- A message objects before the end of the datagram with the last acknowledgement, and it is the
first one that does. -/
def Objected (edits issued : List UInt32) (inbox : List Receipt) (m : Message) : Prop :=
  ∃ before r behind seen pre post, inbox = before ++ r :: behind ∧ readAll before = .ok seen ∧
    r.read = .ok (pre ++ m :: post) ∧ ¬ Acknowledged edits seen ∧
    (∀ m ∈ seen ++ pre, ¬ m.Objects issued) ∧ m.Objects issued

namespace Connection

/-! ## What a commit hears -/

/-- What a request that the kernel refuses with an error number ends with. The numbers for what does
not exist and for what the caller may not do are told apart from the others. -/
def refusal (op : String) (code : Int32) (object : String) : TransportError :=
  if code = 2 then .notFound object
  else if code = 1 ∨ code = 13 then .permissionDenied
  else .refused op code.toInt

theorem ofErrno_toInt (op : String) (code : Int32) (object : String) :
    TransportError.ofErrno op code.toInt object = refusal op code object := by
  have heq (n : Int32) : code.toInt = n.toInt ↔ code = n := Int32.toInt_inj
  have hdenied : Errno.isDenial code.toInt = true ↔ code = 1 ∨ code = 13 := by
    rw [Errno.isDenial, Bool.or_eq_true, beq_iff_eq, beq_iff_eq]
    exact or_congr (heq 1) (heq 13)
  have hmissing : code.toInt = Errno.noEntry ↔ code = 2 := heq 2
  simp only [TransportError.ofErrno, refusal, hmissing, hdenied]

/-- The error that an objection leads to. -/
def objection (b : Batch) (messages : List Message) (m : Message) : TransportError :=
  match m.errorCode with
  | .error e => .protocol e
  | .ok code => .ofErrno "commit" code (editText b (acknowledged messages) m.seq)

theorem objection_of_reports {b : Batch} {messages : List Message} {m : Message} {code : Int32}
    (h : m.Reports code) : objection b messages m =
      refusal "commit" code (editText b (acknowledged messages) m.seq) := by
  rw [objection, Message.errorCode_eq_ok_iff.2 h]
  exact ofErrno_toInt "commit" code _

theorem objection_of_short {b : Batch} {messages : List Message} {m : Message}
    (h : m.payload.length < 4) : objection b messages m = .protocol .shortError := by
  rw [objection, Message.errorCode, if_pos h]

section Hearing
variable {b : Batch} {messages : List Message} {pending : List UInt32} {m : Message}
  {ms post : List Message}

theorem hear_of_objects (hm : m.Objects (messages.map Message.seq)) :
    (commitListener b messages).hear pending m = .ended (.error (objection b messages m)) := by
  obtain ⟨hkind, hseq, hcode⟩ := hm
  simp only [commitListener, objection, hkind, hseq]
  cases hc : m.errorCode with
  | error e => simp
  | ok code =>
    have hne : code ≠ 0 := fun h => hcode (Message.errorCode_eq_ok_zero_iff.1 (h ▸ hc))
    simp [hne]

variable (hp : pending ⊆ messages.map Message.seq)
include hp

theorem hear_of_not_objects (hm : ¬ m.Objects (messages.map Message.seq)) :
    (commitListener b messages).hear pending m = .waiting (outstanding pending [m]) := by
  simp only [commitListener]
  by_cases hown : m.kind ≠ MessageKind.error ∨ m.seq ∉ messages.map Message.seq
  -- what is not heard cannot acknowledge, since all that is pending has been issued
  · have hnone : ∀ n ∈ pending, ¬ m.Acknowledges n := by
      rintro n hn ⟨hkind, rfl, -⟩
      exact hown.elim (· hkind) (· (hp hn))
    rw [if_pos hown, outstanding, List.filter_eq_self.2 (by simpa using hnone)]
  · rw [not_or, not_not, not_not] at hown
    have hzero : m.Reports 0 := by
      by_contra hne
      exact hm ⟨hown.1, hown.2, hne⟩
    simp [hown.1, hown.2, Message.errorCode_eq_ok_zero_iff.2 hzero, hzero, outstanding,
      Message.Acknowledges, eq_comm]

/-- Messages that do not object. -/
theorem hearAll_append (hms : ∀ m ∈ ms, ¬ m.Objects (messages.map Message.seq)) :
    (commitListener b messages).hearAll pending (ms ++ post) =
      (commitListener b messages).hearAll (outstanding pending ms) post := by
  induction ms generalizing pending with
  | nil => rw [outstanding_nil, List.nil_append]
  | cons m ms ih =>
    rw [List.forall_mem_cons] at hms
    rw [outstanding_cons, List.cons_append, Listener.hearAll, hear_of_not_objects hp hms.1]
    exact ih (outstanding_subset hp) hms.2

theorem hearAll_acknowledged (hms : ∀ m ∈ ms, ¬ m.Objects (messages.map Message.seq))
    (h : Acknowledged pending ms) :
    (commitListener b messages).hearAll pending ms = .ended (.ok ()) := by
  rw [← List.append_nil ms, hearAll_append hp hms, outstanding_eq_nil_iff.2 h]
  rfl

theorem hearAll_outstanding (hms : ∀ m ∈ ms, ¬ m.Objects (messages.map Message.seq))
    (h : ¬ Acknowledged pending ms) :
    (commitListener b messages).hearAll pending ms = .waiting (outstanding pending ms) := by
  have hsettled : (commitListener b messages).settled (outstanding pending ms) = none :=
    settled_commitListener (mt outstanding_eq_nil_iff.1 h)
  rw [← Listener.hearAll_nil hsettled, ← hearAll_append hp hms, List.append_nil]

theorem hearAll_objects (hms : ∀ m ∈ ms, ¬ m.Objects (messages.map Message.seq))
    (hm : m.Objects (messages.map Message.seq)) :
    (commitListener b messages).hearAll pending (ms ++ m :: post) =
      .ended (.error (objection b messages m)) := by
  rw [hearAll_append hp hms, Listener.hearAll, hear_of_objects hm]

end Hearing

/-! ## What a commit receives -/

section Receiving
variable {b : Batch} {messages : List Message} {pending : List UInt32} {m : Message}
  {seen : List Message} {before inbox : List Receipt}
  (hp : pending ⊆ messages.map Message.seq)
include hp

/-- As long as something is outstanding and nothing objects, it goes on. -/
theorem listen_append (hb : readAll before = .ok seen) (hleft : ¬ Acknowledged pending seen)
    (hquiet : ∀ m ∈ seen, ¬ m.Objects (messages.map Message.seq)) :
    (commitListener b messages).listen pending (before ++ inbox) =
      (commitListener b messages).listen (outstanding pending seen) inbox := by
  induction before generalizing pending seen with
  | nil =>
    obtain rfl : [] = seen := Except.ok.inj hb
    rw [outstanding_nil, List.nil_append]
  | cons r before ih =>
    obtain ⟨ms, seen, hr, hb', rfl⟩ := readAll_cons_eq_ok_iff.1 hb
    rw [List.forall_mem_append] at hquiet
    have hms : ¬ Acknowledged pending ms := mt Acknowledged.append hleft
    have hs : (commitListener b messages).settled pending = none :=
      settled_commitListener fun h => hms (h ▸ fun _ hn => nomatch hn)
    rw [List.cons_append, outstanding_append, Listener.listen_of_waiting hs hr]
    · exact ih (outstanding_subset hp) hb' (mt acknowledged_append.2 hleft) hquiet.2
    · exact hearAll_outstanding hp hquiet.1 hms

theorem listen_of_objected (h : Objected pending (messages.map Message.seq) inbox m) :
    ((commitListener b messages).listen pending inbox).1 = .error (objection b messages m) := by
  obtain ⟨before, r, behind, seen, pre, post, rfl, hb, hr, hleft, hquiet, hm⟩ := h
  rw [List.forall_mem_append] at hquiet
  rw [listen_append hp hb hleft hquiet.1]
  exact congrArg Prod.fst (Listener.listen_of_ended
    (settled_commitListener (mt outstanding_eq_nil_iff.1 hleft)) hr
    (hearAll_objects (outstanding_subset hp) hquiet.2 hm))

theorem listen_eq_ok_iff (hne : pending ≠ []) :
    ((commitListener b messages).listen pending inbox).1 = .ok () ↔
      Succeeds pending (messages.map Message.seq) inbox := by
  constructor
  · intro h
    induction inbox generalizing pending with
    | nil => cases h
    | cons r inbox ih =>
      rw [Listener.listen_cons (settled_commitListener hne)] at h
      cases hr : r.read with
      | error e => rw [hr] at h; cases h
      | ok ms =>
        rw [hr] at h
        by_cases hquiet : ∀ m ∈ ms, ¬ m.Objects (messages.map Message.seq)
        · by_cases hms : Acknowledged pending ms
          · exact ⟨[], r, inbox, [], ms, rfl, rfl, hr, mt acknowledged_nil_iff.1 hne, hms, hquiet⟩
          -- this datagram comes before the one that settles it
          · simp only [hearAll_outstanding hp hquiet hms] at h
            obtain ⟨before, r', behind, seen, ms', rfl, hb, hr', hleft, hall, hq⟩ :=
              ih (outstanding_subset hp) (mt outstanding_eq_nil_iff.1 hms) h
            refine ⟨r :: before, r', behind, ms ++ seen, ms', rfl,
              readAll_cons_eq_ok_iff.2 ⟨ms, seen, hr, hb, rfl⟩, hr',
              mt acknowledged_append.1 hleft, ?_, ?_⟩
            · rw [List.append_assoc]
              exact acknowledged_append.2 hall
            · rw [List.append_assoc]
              exact List.forall_mem_append.2 ⟨hquiet, hq⟩
        · obtain ⟨pre, m, post, rfl, hpre, hm⟩ := exists_first_objection hquiet
          simp only [hearAll_objects hp hpre hm] at h
          cases h
  · rintro ⟨before, r, behind, seen, ms, rfl, hb, hr, hleft, hall, hquiet⟩
    rw [List.forall_mem_append] at hquiet
    rw [listen_append hp hb hleft hquiet.1]
    exact congrArg Prod.fst (Listener.listen_of_ended
      (settled_commitListener (mt outstanding_eq_nil_iff.1 hleft)) hr
      (hearAll_acknowledged (outstanding_subset hp) hquiet.2 (acknowledged_append.1 hall)))

end Receiving

end Connection

/-! ## Sending -/

namespace Link

variable {σ α : Type} (w : Listener σ α) (s : σ) (bytes : Bytes) (l : Link)

theorem sent_converse : (l.converse w s bytes).2.sent = l.sent ++ [bytes] := by
  unfold converse send
  cases l.outcomes with
  | nil => rfl
  | cons o outcomes =>
    cases o with
    | errno code => rfl
    | short n => by_cases hn : n = bytes.length <;> simp only [hn, if_true, if_false]

theorem converse_of_send (h : (l.send bytes).1 = .ok ()) :
    (l.converse w s bytes).1 = (w.listen s l.inbox).1 := by
  have hinbox : (l.send bytes).2.inbox = l.inbox := by
    unfold send
    cases l.outcomes with
    | nil => rfl
    | cons o outcomes => cases o <;> rfl
  rw [converse]
  generalize l.send bytes = sent at h hinbox ⊢
  obtain ⟨result, link⟩ := sent
  obtain rfl : result = .ok () := h
  simp only [← hinbox]

end Link

/-! ## Commits -/

/-- The description of the first edit with the number. -/
theorem editText_eq {b : Batch} {acks : List UInt32} (h : acks.length = b.length) (seq : UInt32) :
    Connection.editText b acks seq = b[acks.idxOf seq]?.elim "batch" Edit.text := by
  unfold Connection.editText
  induction acks generalizing b with
  | nil => rw [List.length_eq_zero_iff.1 h.symm]; rfl
  | cons n acks ih =>
    obtain ⟨e, b, rfl⟩ := List.exists_cons_of_length_eq_add_one h.symm
    by_cases hn : n = seq
    · simp [hn]
    · simpa [hn, List.idxOf_cons_ne] using ih (Nat.succ.inj h)

namespace Connection

variable {c : Connection}

/-- A commit empties the batch. -/
theorem batch_commit (c : Connection) : (commit c).2.batch = [] := by
  unfold commit
  by_cases hb : c.batch = []
  · simp [hb]
  · simp only [List.isEmpty_iff, if_neg hb]
    split <;> rfl

/-- A batch with an edit that cannot be encoded is not sent. Otherwise one datagram is sent, and
what is received decides: the commit succeeds if the edits are all acknowledged and nothing objects,
and the first objection, if it is long enough to report an error number, is about the first edit
with its number. -/
theorem commit_answer (hb : c.batch ≠ []) :
    (commit c).2.batch = [] ∧
      ((∃ e ∈ c.batch, ∀ m, writeEdit e ≠ .ok m) →
        (∃ e, (commit c).1 = .error (.encode e)) ∧ (commit c).2.link = c.link) ∧
      ((∀ e ∈ c.batch, ∃ m, writeEdit e = .ok m) →
        ∃ ms, batchMessages (following c.lastSeq) c.batch = .ok ms ∧
          ms.map Message.seq = c.batchNumbers ∧
          (commit c).2.link.sent = c.link.sent ++ [datagram ms] ∧
          ((c.link.send (datagram ms)).1 = .ok () →
            ((commit c).1 = .ok () ↔ Succeeds c.editNumbers c.batchNumbers c.link.inbox) ∧
            ∀ m, Objected c.editNumbers c.batchNumbers c.link.inbox m →
              (m.payload.length < 4 → (commit c).1 = .error (.protocol .shortError)) ∧
              ∀ code, m.Reports code →
                (∀ e, c.batch[c.editNumbers.idxOf m.seq]? = some e →
                  (commit c).1 = .error (refusal "commit" code e.text)) ∧
                (m.seq ∉ c.editNumbers →
                  (commit c).1 = .error (refusal "commit" code "batch")))) := by
  refine ⟨batch_commit c, ?_, ?_⟩
  · rintro ⟨e, he, hfails⟩
    cases hm : batchMessages (following c.lastSeq) c.batch with
    | ok ms =>
      obtain ⟨m, hm⟩ := exists_batchMessages_iff.1 ⟨ms, hm⟩ e he
      exact absurd hm (hfails m)
    | error e =>
      obtain ⟨hresult, hlink⟩ := commit_of_unencodable hb hm
      exact ⟨⟨e, hresult⟩, hlink⟩
  · intro hencode
    obtain ⟨ms, hm⟩ := exists_batchMessages_iff.2 hencode
    have hseq : ms.map Message.seq = c.batchNumbers := map_seq_batchMessages hm
    have hsub : c.editNumbers ⊆ ms.map Message.seq := hseq ▸ editNumbers_subset
    have hne : c.editNumbers ≠ [] := by simpa [editNumbers] using hb
    obtain ⟨hresult, hlink⟩ := commit_of_messages hb hm
    refine ⟨ms, hm, hseq, by rw [hlink, Link.sent_converse], fun hsend => ?_⟩
    rw [hresult, Link.converse_of_send _ _ _ _ hsend, ← hseq]
    refine ⟨listen_eq_ok_iff hsub hne, fun m hobj => ?_⟩
    rw [listen_of_objected hsub hobj]
    refine ⟨fun hshort => by rw [objection_of_short hshort], fun code hcode => ?_⟩
    have hacks : acknowledged ms = c.editNumbers := acknowledged_batchMessages hm
    have hlength : c.editNumbers.length = c.batch.length := by
      rw [editNumbers, List.length_map, List.length_range]
    rw [objection_of_reports hcode, hacks, editText_eq hlength]
    constructor
    · intro e he
      rw [he]
      rfl
    · intro hmarker
      rw [List.idxOf_of_notMem hmarker, hlength, List.getElem?_length]
      rfl

/-- Two edits are acknowledged in reverse, in datagrams of their own. Of two others, one is
acknowledged and one refused, since there is nothing to delete. -/
theorem commit_answer_bothWays :
    let ack (n : UInt32) : Message := ⟨MessageKind.error, 0, n, Bytes.zeros 4⟩
    let missing : Message :=
      ⟨MessageKind.error, 0, 3, [0xfe, 0xff, 0xff, 0xff] ++ Bytes.zeros 16⟩
    let c : Connection :=
      { link := { inbox := [.datagram (datagram [ack 3]), .datagram (datagram [ack 2])] }
        batch := [.addTable ⟨.ip, "t"⟩, .addTable ⟨.ip6, "t"⟩] }
    let d : Connection :=
      { link := { inbox := [.datagram (datagram [ack 2, missing])] }
        batch := [.addTable ⟨.ip, "t"⟩, .deleteTable ⟨.ip, "gone"⟩] }
    (c.batch ≠ [] ∧ (commit c).1 = .ok () ∧ (commit c).2.batch = []) ∧
      d.batch ≠ [] ∧ (commit d).1 = .error (.notFound "delete table ip gone") ∧
        (commit d).2.batch = [] := by
  intro ack missing c d
  have hb : c.batch ≠ [] := by simp [c]
  have hencode : ∀ e ∈ c.batch, ∃ m, writeEdit e = .ok m := by
    rw [List.forall_mem_cons, List.forall_mem_singleton]
    exact ⟨⟨_, rfl⟩, _, rfl⟩
  have hread (n : UInt32) : (Receipt.datagram (datagram [ack n])).read = .ok [ack n] :=
    Receipt.read_frames (Message.frames_datagram (by simp [ack, Message.Fits, Bytes.zeros]))
      (by simp [ack, datagram, Message.write, Bytes.zeros, receiveLimit, padding])
  obtain ⟨hbatch, -, hanswer⟩ := commit_answer hb
  obtain ⟨ms, -, -, -, hanswer⟩ := hanswer hencode
  have hbefore : readAll [.datagram (datagram [ack 3])] = .ok [ack 3] :=
    readAll_cons_eq_ok_iff.2 ⟨[ack 3], [], hread 3, rfl, rfl⟩
  have hleft : ¬ Acknowledged c.editNumbers [ack 3] :=
    mt outstanding_eq_nil_iff.2 (by decide +kernel)
  have hall : Acknowledged c.editNumbers ([ack 3] ++ [ack 2]) :=
    outstanding_eq_nil_iff.1 (by decide +kernel)
  have hquiet : ∀ m ∈ [ack 3] ++ [ack 2], ¬ m.Objects c.batchNumbers := by decide +kernel
  refine ⟨⟨hb, (hanswer rfl).1.2 ⟨_, _, [], [ack 3], [ack 2], rfl, hbefore, hread 2, hleft, hall,
    hquiet⟩, hbatch⟩, ?_⟩
  have hd : d.batch ≠ [] := by simp [d]
  have hencode : ∀ e ∈ d.batch, ∃ m, writeEdit e = .ok m := by
    rw [List.forall_mem_cons, List.forall_mem_singleton]
    exact ⟨⟨_, rfl⟩, _, rfl⟩
  have hread : (Receipt.datagram (datagram [ack 2, missing])).read = .ok ([ack 2] ++ [missing]) :=
    Receipt.read_frames
      (Message.frames_datagram (by simp [ack, missing, Message.Fits, Bytes.zeros]))
      (by simp [ack, missing, datagram, Message.write, Bytes.zeros, receiveLimit, padding])
  obtain ⟨hbatch, -, hanswer⟩ := commit_answer hd
  obtain ⟨ms, -, -, -, hanswer⟩ := hanswer hencode
  have hobjected : Objected d.editNumbers d.batchNumbers d.link.inbox missing :=
    ⟨[], _, [], [], [ack 2], [], rfl, rfl, hread, mt outstanding_eq_nil_iff.2 (by decide +kernel),
      by decide +kernel, by decide +kernel⟩
  have hreports : missing.Reports 2 := by decide +kernel
  have herror := (((hanswer rfl).2 missing hobjected).2 2 hreports).1 (.deleteTable ⟨.ip, "gone"⟩)
    (by decide +kernel)
  exact ⟨hd, herror, hbatch⟩

end Connection

end Netlink

end FlowTally

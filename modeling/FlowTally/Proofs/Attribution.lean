import FlowTally.Netlink.Connection
import FlowTally.Proofs.Listening
import FlowTally.Proofs.Numbering
import FlowTally.Proofs.Refinement
/-!
# Whose replies are whose

A call over a connection takes for an answer only what comes under the numbers that it has issued
itself, and calls one after the other issue different numbers until these wrap. So whatever is left
over from earlier calls, or comes from anyone else, does not change the answer to a call
(`Netlink.Exchange.apart_of_run`).
-/

namespace FlowTally.Netlink

open Wire

/-! ## Listeners of a connection -/

theorem Request.deaf_listener (r : Request) (seq : UInt32) : (r.listener seq).Deaf [seq] := by
  intro s m hm
  rw [List.mem_singleton] at hm
  exact if_pos hm

theorem Connection.deaf_commitListener (b : Batch) (messages : List Message) :
    (commitListener b messages).Deaf (messages.map Message.seq) := fun _ _ hm => if_pos (.inr hm)

theorem Connection.settled_commitListener {b : Batch} {messages : List Message}
    {pending : List UInt32} (h : pending ≠ []) :
    (commitListener b messages).settled pending = none := if_neg (by simpa using h)

/-- What is received matters only if the request could be sent. -/
theorem Link.converse_congr {σ α ε : Type} {w : Listener σ α} {s : σ} {g : TransportError → ε}
    {inbox inbox' : List Receipt}
    (h : (w.listen s inbox').1.mapError g = (w.listen s inbox).1.mapError g) (datagram : Bytes)
    (l : Link) : (({ l with inbox := inbox' } : Link).converse w s datagram).1.mapError g =
      (({ l with inbox } : Link).converse w s datagram).1.mapError g := by
  unfold Link.converse Link.send
  cases l.outcomes with
  | nil => exact h
  | cons o outcomes =>
    cases o with
    | errno code => rfl
    | short n =>
      by_cases hn : n = datagram.length
      · simpa only [if_pos hn] using h
      · simp only [if_neg hn]

/-! ## Commits of a connection -/

namespace Connection

/-- The numbers of the edits that are staged. -/
def editNumbers (c : Connection) : List UInt32 :=
  (List.range c.batch.length).map fun i => following c.lastSeq (i + 1)

/-- The numbers of the edits that are staged and of the markers around them. -/
def batchNumbers (c : Connection) : List UInt32 :=
  (List.range (c.batch.length + 2)).map (following c.lastSeq)

variable {c : Connection} {ms : List Message}

theorem editNumbers_subset : c.editNumbers ⊆ c.batchNumbers := by
  intro n hn
  obtain ⟨i, hi, rfl⟩ := List.mem_map.1 hn
  rw [List.mem_range] at hi
  exact List.mem_map.2 ⟨i + 1, List.mem_range.2 (by omega), rfl⟩

theorem commit_of_unencodable {e : EncodeError} (hb : c.batch ≠ [])
    (hm : batchMessages (following c.lastSeq) c.batch = .error e) :
    (commit c).1 = .error (.encode e) ∧ (commit c).2.link = c.link := by
  have hempty : c.batch.isEmpty = false := by simpa using hb
  simp only [commit, hempty, hm]
  exact ⟨rfl, rfl⟩

theorem commit_of_messages (hb : c.batch ≠ [])
    (hm : batchMessages (following c.lastSeq) c.batch = .ok ms) :
    (commit c).1 = (c.link.converse (commitListener c.batch ms) c.editNumbers (datagram ms)).1 ∧
      (commit c).2.link =
        (c.link.converse (commitListener c.batch ms) c.editNumbers (datagram ms)).2 := by
  have hempty : c.batch.isEmpty = false := by simpa using hb
  rw [editNumbers, ← acknowledged_batchMessages hm]
  simp only [commit, hempty, hm]
  exact ⟨rfl, rfl⟩

end Connection

/-! ## Calls -/

inductive Call where
  | lookupTable (family : Family) (name : String)
  | lookupChain (table : Table) (name : String)
  | drainRules (table : Table) (chain : Chain)
  | commit

namespace Call

def Result : Call → Type
  | lookupTable .. => Table
  | lookupChain .. => Chain
  | drainRules .. => List Rule
  | commit => Unit

def run : (x : Call) → Connection → Except TransportError x.Result × Connection
  | lookupTable family name, c => Transport.lookupTable family name c
  | lookupChain t name, c => Transport.lookupChain t name c
  | drainRules t chain, c => Transport.drainRules t chain c
  | commit, c => Transport.commit c

/-- The payload of the request that a lookup makes. -/
def payload : Call → Option (Except EncodeError Bytes)
  | lookupTable family name => some (writeTable ⟨family, name⟩)
  | lookupChain t name => some (writeChainName t name)
  | drainRules t chain => some (writeRuleScope t (some chain.name))
  | commit => none

/-- How many numbers a call uses up. -/
def used (x : Call) (c : Connection) : Nat :=
  match x.payload with
  | some payload => if payload.isOk then 1 else 0
  | none => if c.batch.isEmpty then 0 else numbersUsed c.batch

/-- The lookups all make one request. -/
theorem run_of_payload {x : Call} {payload : Except EncodeError Bytes}
    (h : x.payload = some payload) :
    ∃ (r : Bytes → Request) (read : List Message → Except TransportError x.Result),
      x.run = Connection.ask payload r read := by
  cases x with
  | lookupTable family name => cases h; exact ⟨_, _, rfl⟩
  | lookupChain t name => cases h; exact ⟨_, _, rfl⟩
  | drainRules t chain => cases h; exact ⟨_, _, rfl⟩
  | commit => cases h

theorem lastSeq_run (x : Call) (c : Connection) :
    (x.run c).2.lastSeq = c.lastSeq + UInt32.ofNat (x.used c) := by
  unfold used
  cases hx : x.payload with
  | some payload =>
    obtain ⟨r, read, hrun⟩ := run_of_payload hx
    rw [hrun]
    cases payload with
    | error e => exact (UInt32.add_zero _).symm
    | ok bytes => rfl
  | none =>
    obtain rfl : x = .commit := by cases x <;> first | rfl | cases hx
    show (Connection.commit c).2.lastSeq = _
    unfold Connection.commit
    split
    · exact (UInt32.add_zero _).symm
    · simp only
      split <;> rfl

end Call

/-! ## Exchanges -/

/-- A call over a connection as it is at the time of the call. -/
structure Exchange where
  call : Call
  connection : Connection

namespace Exchange

/-- The numbers that the call issues. -/
def issued (e : Exchange) : List UInt32 :=
  (List.range (e.call.used e.connection)).map (following e.connection.lastSeq)

/-- The answer if this is what is received. -/
def answer (e : Exchange) (inbox : List Receipt) : Except TransportError e.call.Result :=
  (e.call.run { e.connection with link := { e.connection.link with inbox } }).1

/-- Exchanges of a connection, by its last number. What is to be received and what is staged may
change between them. -/
def Step (last : UInt32) (e : Exchange) (last' : UInt32) : Prop :=
  e.connection.lastSeq = last ∧ (e.call.run e.connection).2.lastSeq = last'

/-- The numbers that are issued one after the other follow one another. -/
theorem issued_of_run {last last' : UInt32} {es : List Exchange} (h : Run Step last es last') :
    es.flatMap issued = (List.range (es.flatMap issued).length).map (following last) := by
  induction h with
  | nil last => rfl
  | @cons last next last' e es hs _ ih =>
    obtain ⟨rfl, rfl⟩ := hs
    rw [Call.lastSeq_run] at ih
    -- the rest is numbered from where the first call has stopped
    have he : e.issued.length = e.call.used e.connection := by simp [issued]
    rw [List.flatMap_cons, List.length_append, he, List.range_add, List.map_append, List.map_map]
    conv_lhs => rw [ih]
    congr 1
    exact List.map_congr_left fun i _ => following_add _ _ i

/-- Until they wrap, no number is issued twice. -/
theorem disjoint_of_run {last last' : UInt32} {es : List Exchange} (h : Run Step last es last')
    (hn : (es.flatMap issued).length < 2 ^ 32) :
    es.Pairwise fun e e' => e.issued.Disjoint e'.issued := by
  have hnodup := nodup_following last (Nat.le_of_lt hn)
  rw [← issued_of_run h] at hnodup
  exact (List.nodup_flatMap.1 hnodup).2

/-! ## Answers -/

section Answers
variable {e : Exchange} {inbox inbox' : List Receipt} {ε : Type} {g : TransportError → ε}

/-- The request of a lookup hears what comes under the number of the lookup. -/
theorem answer_congr_of_payload {payload : Except EncodeError Bytes}
    (hx : e.call.payload = some payload)
    (h : ∀ (r : Request) (seq : UInt32), e.issued = [seq] →
      ((r.listener seq).listen [] inbox').1.mapError g =
        ((r.listener seq).listen [] inbox).1.mapError g) :
    (e.answer inbox').mapError g = (e.answer inbox).mapError g := by
  obtain ⟨r, read, hrun⟩ := Call.run_of_payload hx
  rw [answer, answer, hrun]
  cases payload with
  | error err => rfl
  | ok bytes =>
    have hseq : e.issued = [e.connection.lastSeq + 1] := by
      rw [issued, Call.used, hx]
      rfl
    exact mapError_bind_congr (Link.converse_congr (h (r bytes) _ hseq) _ e.connection.link) read

/-- A commit hears what comes under the numbers of its messages. -/
theorem answer_congr_of_commit (hx : e.call = .commit)
    (h : ∀ (messages : List Message) (pending : List UInt32),
      e.issued = messages.map Message.seq → pending ≠ [] →
      ((Connection.commitListener e.connection.batch messages).listen pending inbox').1.mapError g =
        ((Connection.commitListener e.connection.batch messages).listen pending inbox).1.mapError
          g) :
    (e.answer inbox').mapError g = (e.answer inbox).mapError g := by
  obtain ⟨x, c⟩ := e
  obtain rfl : x = .commit := hx
  let receiving (inbox : List Receipt) : Connection := { c with link := { c.link with inbox } }
  show (receiving inbox').commit.1.mapError g = (receiving inbox).commit.1.mapError g
  by_cases hb : c.batch = []
  · simp [receiving, Connection.commit, hb]
  · cases hm : batchMessages (following c.lastSeq) c.batch with
    | error err =>
      have hfails (inbox) : (receiving inbox).commit.1 = .error (.encode err) :=
        (Connection.commit_of_unencodable (c := receiving inbox) hb hm).1
      rw [hfails, hfails]
    | ok messages =>
      have hsent (inbox) : (receiving inbox).commit.1 =
          ((receiving inbox).link.converse (Connection.commitListener c.batch messages)
            c.editNumbers (datagram messages)).1 :=
        (Connection.commit_of_messages (c := receiving inbox) hb hm).1
      rw [hsent, hsent]
      refine Link.converse_congr (h messages _ ?_ ?_) _ c.link
      · rw [map_seq_batchMessages hm, issued]
        show (List.range (if c.batch.isEmpty then 0 else numbersUsed c.batch)).map _ = _
        rw [if_neg (by simpa using hb), numbersUsed_of_batchMessages hm]
      · simpa [Connection.editNumbers] using hb

/-- What is added under other numbers does not change the answer, if it does not change how the rest
of a datagram is read. -/
theorem answer_padded {tails : Bytes → Prop}
    (hg : ∀ tail, tails tail → ∀ total offset total' offset',
      ((Message.readFrom total offset tail).mapError .protocol).mapError g =
        ((Message.readFrom total' offset' tail).mapError .protocol).mapError g)
    (h : Padded e.issued tails inbox inbox') :
    (e.answer inbox').mapError g = (e.answer inbox).mapError g := by
  cases hx : e.call.payload with
  | some payload =>
    refine answer_congr_of_payload hx fun r seq hseq => ?_
    exact Listener.listen_padded (r.deaf_listener seq) hg (hseq ▸ h) [] rfl
  | none =>
    have hcommit : e.call = .commit := by cases he : e.call <;> simp_all [Call.payload]
    refine answer_congr_of_commit hcommit fun messages pending hseq hp => ?_
    exact Listener.listen_padded (Connection.deaf_commitListener _ messages) hg (hseq ▸ h) pending
      (Connection.settled_commitListener hp)

/-- The answer to a lookup depends only on the messages under its number and on the receipts that
fail. -/
theorem answer_heard (hx : e.call ≠ .commit)
    (h : inbox'.flatMap (Receipt.heard e.issued) = inbox.flatMap (Receipt.heard e.issued)) :
    e.answer inbox' = e.answer inbox := by
  have hid {α : Type} (x : Except TransportError α) : x.mapError id = x := by cases x <;> rfl
  obtain ⟨payload, hpayload⟩ : ∃ payload, e.call.payload = some payload := by
    cases hcall : e.call with
    | commit => exact absurd hcall hx
    | _ => exact ⟨_, rfl⟩
  have hanswer : (e.answer inbox').mapError id = (e.answer inbox).mapError id :=
    answer_congr_of_payload hpayload fun r seq hseq => by
      rw [Listener.listen_eq_answerTo (r.deaf_listener seq) (fun _ => rfl),
        Listener.listen_eq_answerTo (r.deaf_listener seq) (fun _ => rfl), ← hseq, h]
  rwa [hid, hid] at hanswer

end Answers

/-- Until the numbers wrap, no two calls issue the same. An answer does not change with messages
under other numbers, except that the error about a datagram whose last message is cut off names the
place of that message. Nor does the answer to a lookup change with how the messages under its
number, and the receives that fail, are spread over what is received. -/
theorem apart_of_run {last last' : UInt32} {es : List Exchange} (h : Run Step last es last')
    (hn : (es.flatMap issued).length < 2 ^ 32) :
    (es.Pairwise fun e e' => e.issued.Disjoint e'.issued) ∧
      ∀ e ∈ es, ∀ inbox inbox' : List Receipt,
        (Padded e.issued (fun tail => ∃ ms, Message.read tail = .ok ms) inbox inbox' →
          e.answer inbox' = e.answer inbox) ∧
        (Padded e.issued (fun _ => True) inbox inbox' →
          (e.answer inbox').mapError TransportError.unplaced =
            (e.answer inbox).mapError TransportError.unplaced) ∧
        (e.call ≠ .commit →
          inbox'.flatMap (Receipt.heard e.issued) = inbox.flatMap (Receipt.heard e.issued) →
          e.answer inbox' = e.answer inbox) := by
  refine ⟨disjoint_of_run h hn, fun e _ inbox inbox' => ⟨fun hp => ?_, fun hp => ?_, answer_heard⟩⟩
  · have hid {α : Type} (x : Except TransportError α) : x.mapError id = x := by cases x <;> rfl
    have hanswer := answer_padded (g := id) (fun tail ⟨ms, hms⟩ total offset total' offset' => by
      rw [Message.readFrom_of_read hms, Message.readFrom_of_read hms]) hp
    rwa [hid, hid] at hanswer
  · refine answer_padded (fun tail _ total offset total' offset' => ?_) hp
    have hcomm (x : Except WireError (List Message)) :
        (x.mapError .protocol).mapError TransportError.unplaced =
          (x.mapError WireError.unplaced).mapError TransportError.protocol := by cases x <;> rfl
    rw [hcomm, hcomm, Message.readFrom_unplaced]

/-- A lookup does not take the acknowledgement of an earlier commit for its own. -/
theorem apart_of_run_leftover :
    let first : Exchange := ⟨.commit, { link := {}, batch := [.addTable ⟨.ip, "t"⟩] }⟩
    let second : Exchange := ⟨.lookupTable .ip "t", { link := {}, lastSeq := 3 }⟩
    let leftover := datagram [⟨MessageKind.error, 0, 2, Bytes.zeros 4⟩]
    Run Step 0 [first, second] 4 ∧ ([first, second].flatMap issued).length < 2 ^ 32 ∧
      ∀ inbox, second.answer (.datagram leftover :: inbox) = second.answer inbox := by
  intro first second leftover
  have hfirst : first.issued = [1, 2, 3] := by decide +kernel
  have hsecond : second.issued = [4] := by decide +kernel
  have hrun : Run Step 0 [first, second] 4 :=
    .cons ⟨rfl, by decide +kernel⟩ (.cons ⟨rfl, by decide +kernel⟩ (.nil 4))
  have hn : ([first, second].flatMap issued).length < 2 ^ 32 := by simp [hfirst, hsecond]
  refine ⟨hrun, hn, fun inbox => ?_⟩
  have hread : (Receipt.datagram leftover).read =
      .ok [⟨MessageKind.error, 0, 2, Bytes.zeros 4⟩] :=
    Receipt.read_frames (Message.frames_datagram (by simp [Message.Fits, Bytes.zeros]))
      (by decide)
  exact ((apart_of_run hrun hn).2 second (by simp) inbox _).1
    (.extra hread (by simp [hsecond]) (.refl _))

/-- The place of a message that is cut off can be told from an answer, and so can how a receive has
failed. -/
theorem answer_placed :
    let lookup : Exchange := ⟨.lookupTable .ip "t", { link := {} }⟩
    let cut := Bytes.ofNatLE 4 100 ++ Bytes.zeros 12
    let other := datagram [⟨MessageKind.error, 0, 9, Bytes.zeros 4⟩]
    Padded lookup.issued (fun _ => True) [.datagram cut] [.datagram (other ++ cut)] ∧
      lookup.answer [.datagram cut] = .error (.protocol (.messageLength 100 0 16)) ∧
      lookup.answer [.datagram (other ++ cut)] = .error (.protocol (.messageLength 100 20 36)) ∧
      lookup.answer [] = .error (.socket (.errno Errno.again)) ∧
      lookup.answer [.errno 105] = .error (.socket (.errno 105)) := by
  intro lookup cut other
  have hissued : lookup.issued = [1] := by decide +kernel
  have hother : Message.Frames other [⟨MessageKind.error, 0, 9, Bytes.zeros 4⟩] :=
    Message.frames_datagram (by simp [Message.Fits, Bytes.zeros])
  have hcut (total offset : Nat) :
      Message.readFrom total offset cut = .error (.messageLength 100 offset total) := by
    rw [Message.readFrom, if_neg (by decide)]
    rfl
  have hread {bytes : Bytes} {ms : List Message} (hb : Message.Frames bytes ms)
      (hl : (bytes ++ cut).length ≤ receiveLimit) : (Receipt.datagram (bytes ++ cut)).read =
        .error (.protocol (.messageLength 100 bytes.length (bytes ++ cut).length)) := by
    rw [Receipt.read_append hb hl, hcut]
    rfl
  have hfails {r : Receipt} {e : TransportError} (hr : r.read = .error e) :
      lookup.answer [r] = .error e := by
    change ((Request.listener _ _).listen [] [r]).1.bind _ = _
    rw [Listener.listen_of_error rfl hr]
    rfl
  exact ⟨.added .nil hother (by rw [hissued]; rfl) trivial (by decide) (by decide) .nil,
    hfails (hread .nil (by decide)), hfails (hread hother (by decide)), rfl, hfails rfl⟩

end Exchange

end FlowTally.Netlink

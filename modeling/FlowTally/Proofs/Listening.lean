import FlowTally.Proofs.Framing
/-!
# Listening for an answer

What a listener makes of what it receives, receipt by receipt (`Netlink.Listener.listen_cons`). One
that is deaf to all but some numbers gives the same answer whatever messages under other numbers are
added to what it receives (`Netlink.Listener.listen_padded`). One that settles for nothing at the
end of a datagram does not even mind how its messages are spread over datagrams
(`Netlink.Listener.listen_eq_answerTo`, `Netlink.Listener.listen_of_carries`).
-/

namespace FlowTally

/-- The error without the place in a datagram that it names. -/
def TransportError.unplaced : TransportError → TransportError
  | .protocol e => .protocol e.unplaced
  | e => e

/-- The messages under some numbers. -/
def Wire.among (own : List UInt32) (ms : List Wire.Message) : List Wire.Message :=
  ms.filter (·.seq ∈ own)

namespace Netlink

open Wire

/-! ## What is received -/

namespace Receipt

/-- The messages of a receipt. An interruption has none. -/
def read : Receipt → Except TransportError (List Message)
  | .datagram bytes => (Message.read (bytes.take receiveLimit)).mapError .protocol
  | .errno code => if code = Errno.interrupted then .ok [] else .error (.socket (.errno code))

/-- What can be heard of a receipt that can be read, or how it fails. -/
def heard (own : List UInt32) (r : Receipt) : List (Except TransportError Message) :=
  match r.read with
  | .error e => [.error e]
  | .ok ms => (among own ms).map .ok

theorem read_append {bytes tail : Bytes} {ms : List Message} (hb : Message.Frames bytes ms)
    (hl : (bytes ++ tail).length ≤ receiveLimit) :
    (Receipt.datagram (bytes ++ tail)).read =
      ((Message.readFrom (bytes ++ tail).length bytes.length tail).map (ms ++ ·)).mapError
        .protocol := by
  rw [read, List.take_of_length_le hl, Message.read, Message.readFrom_frames_append hb,
    Nat.zero_add]

theorem read_frames {bytes : Bytes} {ms : List Message} (hb : Message.Frames bytes ms)
    (hl : bytes.length ≤ receiveLimit) : (Receipt.datagram bytes).read = .ok ms := by
  rw [← List.append_nil bytes] at hl ⊢
  rw [read_append hb hl, Message.readFrom_nil, Except.map, List.append_nil]
  rfl

theorem read_interrupted : (Receipt.errno Errno.interrupted).read = .ok [] := by
  rw [read, if_pos rfl]

end Receipt

/-! ## Receipt by receipt -/

namespace Listener

variable {σ α : Type} {w : Listener σ α} {s s' : σ} {ms : List Message}

theorem settled_of_hearAll (h : w.hearAll s ms = .waiting s') : w.settled s' = none := by
  induction ms generalizing s with
  | nil =>
    rw [hearAll] at h
    split at h
    · cases h
    · cases h
      assumption
  | cons m ms ih =>
    rw [hearAll] at h
    split at h
    · cases h
    · exact ih h

theorem hearAll_nil (hs : w.settled s = none) : w.hearAll s [] = .waiting s := by
  rw [hearAll, hs]

/-- As long as nothing is settled, an interruption is like a datagram without messages. -/
theorem listen_cons (hs : w.settled s = none) (r : Receipt) (rest : List Receipt) :
    w.listen s (r :: rest) =
      match r.read with
      | .error e => (.error e, rest)
      | .ok ms =>
        match w.hearAll s ms with
        | .ended x => (x, rest)
        | .waiting s => w.listen s rest := by
  cases r with
  | errno code =>
    rw [listen, Receipt.read]
    by_cases hc : code = Errno.interrupted
    · rw [if_pos hc, if_pos hc]
      simp only [hearAll_nil hs]
    · rw [if_neg hc, if_neg hc]
  | datagram bytes =>
    rw [listen, Receipt.read]
    cases Message.read (bytes.take receiveLimit) <;> rfl

section Unheard
variable {r : Receipt} {rest : List Receipt} {e : TransportError}

theorem listen_of_error (hs : w.settled s = none) (hr : r.read = .error e) :
    w.listen s (r :: rest) = (.error e, rest) := by
  rw [listen_cons hs, hr]

theorem listen_of_ended {x : Except TransportError α} (hs : w.settled s = none)
    (hr : r.read = .ok ms) (hm : w.hearAll s ms = .ended x) :
    w.listen s (r :: rest) = (x, rest) := by
  rw [listen_cons hs, hr]
  simp only [hm]

theorem listen_of_waiting (hs : w.settled s = none) (hr : r.read = .ok ms)
    (hm : w.hearAll s ms = .waiting s') : w.listen s (r :: rest) = w.listen s' rest := by
  rw [listen_cons hs, hr]
  simp only [hm]

end Unheard

/-! ## Messages under other numbers -/

/-- Does not hear messages under other numbers. -/
def Deaf (w : Listener σ α) (own : List UInt32) : Prop :=
  ∀ s m, m.seq ∉ own → w.hear s m = .waiting s

variable {own : List UInt32}

theorem hearAll_among (h : w.Deaf own) (ms : List Message) :
    ∀ s, w.hearAll s (among own ms) = w.hearAll s ms := by
  induction ms with
  | nil => exact fun s => rfl
  | cons m ms ih =>
    intro s
    unfold among at ih ⊢
    by_cases hm : m.seq ∈ own
    · rw [List.filter_cons_of_pos (by simpa using hm), hearAll, hearAll]
      cases w.hear s m with
      | ended r => rfl
      | waiting s' => exact ih s'
    · rw [List.filter_cons_of_neg (by simpa using hm), ih, hearAll, h s m hm]

theorem hearAll_congr (h : w.Deaf own) {ms ms' : List Message} (hm : among own ms = among own ms') :
    w.hearAll s ms = w.hearAll s ms' := by
  rw [← hearAll_among h, hm, hearAll_among h]

end Listener

/-- To what is received, messages under other numbers have been added, in datagrams of their own or
to those that are there, in front of what these hold besides messages; and receives have been
interrupted. -/
inductive Padded (own : List UInt32) (tails : Bytes → Prop) :
    List Receipt → List Receipt → Prop where
  | nil : Padded own tails [] []
  | same (r : Receipt) {inbox inbox' : List Receipt} (h : Padded own tails inbox inbox') :
    Padded own tails (r :: inbox) (r :: inbox')
  | added {bytes bytes' tail : Bytes} {ms ms' : List Message} {inbox inbox' : List Receipt}
    (hb : Message.Frames bytes ms) (hb' : Message.Frames bytes' ms')
    (hm : among own ms' = among own ms) (ht : tails tail)
    (hl : (bytes ++ tail).length ≤ receiveLimit) (hl' : (bytes' ++ tail).length ≤ receiveLimit)
    (h : Padded own tails inbox inbox') :
    Padded own tails (.datagram (bytes ++ tail) :: inbox) (.datagram (bytes' ++ tail) :: inbox')
  | extra {bytes : Bytes} {ms : List Message} {inbox inbox' : List Receipt}
    (hr : (Receipt.datagram bytes).read = .ok ms) (hm : ∀ m ∈ ms, m.seq ∉ own)
    (h : Padded own tails inbox inbox') : Padded own tails inbox (.datagram bytes :: inbox')
  | interrupted {inbox inbox' : List Receipt} (h : Padded own tails inbox inbox') :
    Padded own tails inbox (.errno Errno.interrupted :: inbox')

theorem Padded.refl {own : List UInt32} {tails : Bytes → Prop} :
    ∀ inbox, Padded own tails inbox inbox
  | [] => .nil
  | r :: inbox => .same r (.refl inbox)

/-- The receipts have these messages, spread over datagrams in any way, and receives are interrupted
between them. -/
inductive Carries : List Receipt → List Message → Prop where
  | nil : Carries [] []
  | datagram {bytes : Bytes} {ms ms' : List Message} {block : List Receipt}
    (hb : Message.Frames bytes ms) (hl : bytes.length ≤ receiveLimit) (h : Carries block ms') :
    Carries (.datagram bytes :: block) (ms ++ ms')
  | interrupted {ms : List Message} {block : List Receipt} (h : Carries block ms) :
    Carries (.errno Errno.interrupted :: block) ms

theorem Carries.append {block block' : List Receipt} {ms ms' : List Message}
    (h : Carries block ms) (h' : Carries block' ms') : Carries (block ++ block') (ms ++ ms') := by
  induction h with
  | nil => exact h'
  | datagram hb hl _ ih =>
    rw [List.append_assoc]
    exact .datagram hb hl ih
  | interrupted _ ih => exact .interrupted ih

/-- Messages are received as they are written, however they are divided between datagrams. -/
theorem carries_datagrams {groups : List (List Message)}
    (h : ∀ ms ∈ groups, (∀ m ∈ ms, m.Fits) ∧ (datagram ms).length ≤ receiveLimit) :
    Carries (groups.map (.datagram ∘ datagram)) groups.flatten := by
  induction groups with
  | nil => exact .nil
  | cons ms groups ih =>
    rw [List.forall_mem_cons] at h
    exact .datagram (Message.frames_datagram h.1.1) h.1.2 (ih h.2)

namespace Listener

variable {σ α ε : Type} {w : Listener σ α} {own : List UInt32} {inbox inbox' : List Receipt}

/-- Receipts that cannot be told apart, but for their errors, lead to the same answer if what comes
behind them does. -/
theorem listen_cons_congr {g : TransportError → ε} {r r' : Receipt} {s : σ} (hd : w.Deaf own)
    (hs : w.settled s = none)
    (hr : (r'.read.map (among own)).mapError g = (r.read.map (among own)).mapError g)
    (h : ∀ s, w.settled s = none →
      (w.listen s inbox').1.mapError g = (w.listen s inbox).1.mapError g) :
    (w.listen s (r' :: inbox')).1.mapError g = (w.listen s (r :: inbox)).1.mapError g := by
  rw [listen_cons hs, listen_cons hs]
  cases hx : r'.read with
  | error e' =>
    cases hy : r.read with
    | error e => rw [hx, hy] at hr; exact congrArg Except.error (Except.error.inj hr)
    | ok ms => rw [hx, hy] at hr; cases hr
  | ok ms' =>
    cases hy : r.read with
    | error e => rw [hx, hy] at hr; cases hr
    | ok ms =>
      rw [hx, hy] at hr
      simp only [hearAll_congr hd (Except.ok.inj hr)]
      cases hm : w.hearAll s ms with
      | ended x => rfl
      | waiting s' => exact h s' (settled_of_hearAll hm)

/-- A receipt without messages that are heard does not change the answer. -/
theorem listen_cons_unheard {r : Receipt} {ms : List Message} {s : σ} (hd : w.Deaf own)
    (hs : w.settled s = none) (hr : r.read = .ok ms) (hm : ∀ m ∈ ms, m.seq ∉ own) :
    w.listen s (r :: inbox) = w.listen s inbox := by
  refine listen_of_waiting hs hr ?_
  have hnone : among own ms = among own [] := by
    rw [among, List.filter_eq_nil_iff.2 (by simpa using hm)]
    rfl
  rw [hearAll_congr hd hnone, hearAll_nil hs]

/-- What is added does not change the answer, if it does not change how the rest of a datagram is
read. -/
theorem listen_padded {tails : Bytes → Prop} {g : TransportError → ε} (hd : w.Deaf own)
    (hg : ∀ tail, tails tail → ∀ total offset total' offset',
      ((Message.readFrom total offset tail).mapError .protocol).mapError g =
        ((Message.readFrom total' offset' tail).mapError .protocol).mapError g)
    (h : Padded own tails inbox inbox') : ∀ s, w.settled s = none →
      (w.listen s inbox').1.mapError g = (w.listen s inbox).1.mapError g := by
  induction h with
  | nil => exact fun s _ => rfl
  | same r _ ih => exact fun s hs => listen_cons_congr hd hs rfl ih
  | extra hr hm _ ih =>
    intro s hs
    rw [listen_cons_unheard hd hs hr hm]
    exact ih s hs
  | interrupted _ ih =>
    intro s hs
    rw [listen_cons_unheard hd hs Receipt.read_interrupted (by simp)]
    exact ih s hs
  | @added bytes bytes' tail ms ms' inbox inbox' hb hb' hm ht hl hl' _ ih =>
    refine fun s hs => listen_cons_congr hd hs ?_ ih
    -- both datagrams are read up to the tail, and there alike
    have htail := hg tail ht (bytes' ++ tail).length bytes'.length (bytes ++ tail).length
      bytes.length
    rw [Receipt.read_append hb' hl', Receipt.read_append hb hl]
    generalize Message.readFrom _ bytes'.length tail = x at htail ⊢
    generalize Message.readFrom _ bytes.length tail = y at htail ⊢
    cases x with
    | error e =>
      cases y with
      | error e' => exact congrArg Except.error (Except.error.inj htail)
      | ok ts => cases htail
    | ok ts =>
      cases y with
      | error e' => cases htail
      | ok ts' =>
        cases htail
        simp only [Except.map, Except.mapError]
        unfold among at hm ⊢
        rw [List.filter_append, List.filter_append, hm]

/-! ## Listeners that never settle -/

theorem hearAll_append (hq : ∀ s, w.settled s = none) (ms ms' : List Message) : ∀ s,
    w.hearAll s (ms ++ ms') = match w.hearAll s ms with
      | .ended x => .ended x
      | .waiting s => w.hearAll s ms' := by
  induction ms with
  | nil =>
    intro s
    rw [hearAll_nil (hq s)]
    rfl
  | cons m ms ih =>
    intro s
    rw [List.cons_append, hearAll, hearAll]
    cases w.hear s m with
    | ended x => rfl
    | waiting s' => exact ih s'

/-- Messages up to one that ends the conversation are heard in whatever datagrams they come. Nothing
is left of these but receipts without messages. -/
theorem listen_of_carries {all : List Message} {m : Message} {s' : σ}
    {x : Except TransportError α} {block : List Receipt} (hq : ∀ s, w.settled s = none)
    (hc : Carries block all) (hm : w.hear s' m = .ended x) (rest : List Receipt) :
    ∀ {s : σ} {ms : List Message}, all = ms ++ [m] → w.hearAll s ms = .waiting s' →
      ∃ stale, Carries stale [] ∧ w.listen s (block ++ rest) = (x, stale ++ rest) := by
  induction hc with
  | nil => exact fun h => absurd h (by simp)
  | interrupted _ ih =>
    intro s ms hall hms
    obtain ⟨stale, hstale, hlisten⟩ := ih hall hms
    refine ⟨stale, hstale, ?_⟩
    rw [List.cons_append, listen_of_waiting (hq s) Receipt.read_interrupted (hearAll_nil (hq s)),
      hlisten]
  | @datagram bytes now later block hb hl h ih =>
    intro s ms hall hms
    -- the last message is in this datagram if nothing comes later
    rcases later.eq_nil_or_concat with rfl | ⟨later, m', rfl⟩
    · obtain rfl : now = ms ++ [m] := by rw [← hall, List.append_nil]
      have hend : w.hearAll s (ms ++ [m]) = .ended x := by
        rw [hearAll_append hq, hms]
        simp only [hearAll, hm]
      exact ⟨block, h, listen_of_ended (hq s) (Receipt.read_frames hb hl) hend⟩
    · rw [List.concat_eq_append, ← List.append_assoc] at hall
      obtain ⟨rfl, hlast⟩ := List.append_inj' hall rfl
      obtain rfl : m' = m := List.singleton_inj.1 hlast
      rw [hearAll_append hq] at hms
      cases hnow : w.hearAll s now with
      | ended y => rw [hnow] at hms; cases hms
      | waiting s₁ =>
        rw [hnow] at hms
        obtain ⟨stale, hstale, hlisten⟩ := ih (List.concat_eq_append ..) hms
        refine ⟨stale, hstale, ?_⟩
        rw [List.cons_append, listen_of_waiting (hq s) (Receipt.read_frames hb hl) hnow, hlisten]

/-- The answer to messages as they come, until one of the receipts fails. -/
def answerTo (w : Listener σ α) (s : σ) :
    List (Except TransportError Message) → Except TransportError α
  | [] => .error (.socket (.errno Errno.again))
  | .error e :: _ => .error e
  | .ok m :: rest =>
    match w.hear s m with
    | .ended r => r
    | .waiting s => w.answerTo s rest

theorem answerTo_append (hq : ∀ s, w.settled s = none) (rest : List (Except TransportError Message))
    (ms : List Message) : ∀ s, w.answerTo s (ms.map .ok ++ rest) =
      match w.hearAll s ms with
      | .ended r => r
      | .waiting s => w.answerTo s rest := by
  induction ms with
  | nil =>
    intro s
    rw [hearAll_nil (hq s)]
    rfl
  | cons m ms ih =>
    intro s
    rw [List.map_cons, List.cons_append, answerTo, hearAll]
    cases w.hear s m with
    | ended r => rfl
    | waiting s' => exact ih s'

/-- Such an answer depends only on the messages that are heard and on the receipts that fail. -/
theorem listen_eq_answerTo (hd : w.Deaf own) (hq : ∀ s, w.settled s = none) :
    ∀ (inbox : List Receipt) (s : σ),
      (w.listen s inbox).1 = w.answerTo s (inbox.flatMap (Receipt.heard own)) := by
  intro inbox
  induction inbox with
  | nil => exact fun s => rfl
  | cons r inbox ih =>
    intro s
    rw [listen_cons (hq s), List.flatMap_cons, Receipt.heard]
    cases r.read with
    | error e => rfl
    | ok ms =>
      simp only [answerTo_append hq, hearAll_among hd]
      cases w.hearAll s ms with
      | ended x => rfl
      | waiting s' => exact ih s'

end Listener

end Netlink

end FlowTally

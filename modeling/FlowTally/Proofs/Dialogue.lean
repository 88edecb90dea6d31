import FlowTally.Proofs.Acknowledging
import FlowTally.Proofs.Configured
import FlowTally.Proofs.Ledger
/-!
# Listing counters over a connection

A kernel that has the entries of a ledger answers the five requests of a listing with messages about
them (`Netlink.Answers`), rules of other chains among them, in whatever datagrams. What is listed is
then what the ledger says (`Netlink.listCounters_answered`).
-/

namespace FlowTally

open Wire

/-! ## Rules as they are sent -/

/-- The rule in a message, as it is written, with its handle behind the names or behind it all. -/
inductive Rule.Sent (r : Rule) (handle : UInt64) : Bytes → Prop where
  | between {names rest : Bytes} (hn : writeRuleScope r.table (some r.chain) = .ok names)
    (h : writeRule r = .ok (names ++ rest)) :
    Sent r handle (names ++ (nat64 RuleAttr.handle handle ++ rest))
  | behind {p : Bytes} (h : writeRule r = .ok p) : Sent r handle (p ++ nat64 RuleAttr.handle handle)

theorem Rule.Sent.readRule {r : Rule} {handle : UInt64} {p : Bytes} (h : r.Sent handle p)
    (hr : (Edit.addRule r).Expressible) : readRule p = .ok { r with handle := some handle } := by
  obtain ⟨hexprs, ht, hf⟩ := hr
  have hc : ∀ e ∈ r.exprs, e.Canonical := fun e he => (hexprs e he).2
  cases h with
  | behind h =>
    obtain ⟨-, list, hl, rfl⟩ := writeRule_eq_ok_iff.1 h
    rw [List.append_assoc]
    exact readRule_ruleBody hc ht hf hl (some handle)
  | between hn h =>
    obtain ⟨-, list, hl, hp⟩ := writeRule_eq_ok_iff.1 h
    obtain ⟨-, -, rfl⟩ := writeRuleScope_eq_ok_iff.1 hn
    -- what stands behind the names is the expressions and the comment
    simp only [ruleBody, List.append_assoc, List.append_cancel_left_eq] at hp ⊢
    subst hp
    exact readRule_handle_between hc ht hf hl handle

namespace Netlink

/-! ## What a kernel answers -/

/-- The object that was looked up, and the acknowledgement. -/
inductive Found (kind : UInt16) (payload : Except EncodeError Bytes) (n : UInt32) :
    List Message → Prop where
  | mk (flags : UInt16) {p : Bytes} {ack : Message} (hp : payload = .ok p)
    (ha : ack.Acknowledges n) : Found kind payload n [⟨kind, flags, n, p⟩, ack]

/-- The rules of the entries in their order, rules of other chains between them, and the end. -/
inductive Dumped (l : Layout) (d : Direction) (n : UInt32) : List Entry → List Message → Prop where
  | done (flags : UInt16) (p : Bytes) : Dumped l d n [] [⟨MessageKind.done, flags, n, p⟩]
  | entry {flags : UInt16} {handle : UInt64} {p : Bytes} {e : Entry} {es : List Entry}
    {ms : List Message} (hf : flags &&& Flag.multi ≠ 0)
    (hp : (Rule.installed (l.chain d) e.counter (some handle) e.packets e.bytes).Sent handle p)
    (h : Dumped l d n es ms) : Dumped l d n (e :: es) (⟨MessageKind.newRule, flags, n, p⟩ :: ms)
  | other {flags : UInt16} {p : Bytes} {r : Rule} {es : List Entry} {ms : List Message}
    (hf : flags &&& Flag.multi ≠ 0) (hr : readRule p = .ok r)
    (hn : r.table.name ≠ l.tableName ∨ r.chain ≠ l.chainName d) (h : Dumped l d n es ms) :
    Dumped l d n es (⟨MessageKind.newRule, flags, n, p⟩ :: ms)

/-- The answers to the requests of a listing, under a number each. -/
def Answers (l : Layout) (es : Direction → List Entry) (number : Nat → UInt32) :
    List (List Message) → Prop
  | [table, inputChain, inputRules, outputChain, outputRules] =>
    Found MessageKind.newTable (writeTable l.table) (number 0) table ∧
      Found MessageKind.newChain (writeChain (l.chain .input)) (number 1) inputChain ∧
      Dumped l .input (number 2) (es .input) inputRules ∧
      Found MessageKind.newChain (writeChain (l.chain .output)) (number 3) outputChain ∧
      Dumped l .output (number 4) (es .output) outputRules
  | _ => False

/-! ## One request after the other -/

/-- A reply that a request gathers. -/
def Request.Gathers (r : Request) (n : UInt32) (m : Message) : Prop :=
  m.seq = n ∧ m.kind ≠ MessageKind.error ∧ m.kind ≠ MessageKind.done ∧
    (m.flags &&& Flag.multi ≠ 0 ∨ r.flags &&& Flag.ack ≠ 0)

/-- The reply behind all that a request gathers. -/
def Closes (n : UInt32) (m : Message) : Prop :=
  m.Acknowledges n ∨ m.kind = MessageKind.done ∧ m.seq = n

namespace Request

variable {r : Request} {n : UInt32} {m : Message} {replies : List Message}

theorem hear_of_gathers (h : r.Gathers n m) (before : List Message) :
    (r.listener n).hear before m = .waiting (before ++ [m]) := by
  obtain ⟨hseq, herror, hdone, hflags⟩ := h
  simp only [listener]
  rw [if_neg (not_not.2 hseq), if_neg herror, if_neg hdone, if_neg]
  rintro ⟨hmulti, hack⟩
  exact hflags.elim (· hmulti) (· hack)

theorem hearAll_of_gathers (h : ∀ m ∈ replies, r.Gathers n m) : ∀ before,
    (r.listener n).hearAll before replies = .waiting (before ++ replies) := by
  induction replies with
  | nil =>
    intro before
    rw [Listener.hearAll_nil rfl, List.append_nil]
  | cons m replies ih =>
    intro before
    rw [List.forall_mem_cons] at h
    rw [Listener.hearAll, hear_of_gathers h.1]
    simp only [ih h.2, List.append_assoc, List.singleton_append]

theorem hear_of_closes (h : Closes n m) (before : List Message) :
    (r.listener n).hear before m = .ended (.ok before) := by
  rcases h with ⟨hkind, hseq, hcode⟩ | ⟨hkind, hseq⟩
  · simp [listener, hkind, hseq, Message.errorCode_eq_ok_zero_iff.2 hcode]
  · have hne : MessageKind.done ≠ MessageKind.error := by decide
    simp [listener, hkind, hseq, hne]

end Request

/-- After so many requests, the connection can send and is still to receive the rest. -/
structure Ready (last : UInt32) (i : Nat) (rest : List Receipt) (c : Connection) : Prop where
  lastSeq : c.lastSeq = last + UInt32.ofNat i
  outcomes : c.link.outcomes = []
  inbox : ∃ stale, Carries stale [] ∧ c.link.inbox = stale ++ rest

namespace Ready

variable {last : UInt32} {i : Nat} {block rest : List Receipt} {c : Connection}

theorem request {r : Request} {replies : List Message} {m : Message}
    (hc : Ready last i (block ++ rest) c) (hb : Carries block (replies ++ [m]))
    (h : ∀ m ∈ replies, r.Gathers (following last i) m) (hm : Closes (following last i) m) :
    ∃ c', c.request r = (.ok replies, c') ∧ Ready last (i + 1) rest c' := by
  obtain ⟨hseq, hsend, stale, hstale, hinbox⟩ := hc
  have hnext : c.lastSeq + 1 = following last i := by
    rw [hseq, following, UInt32.ofNat_add, UInt32.add_assoc]
    rfl
  -- what the request before has left behind is received in front of the block
  obtain ⟨left, hleft, hlisten⟩ := Listener.listen_of_carries (w := r.listener (following last i))
    (fun _ => rfl) (hstale.append hb) (Request.hear_of_closes hm _) rest rfl
    (Request.hearAll_of_gathers h [])
  rw [List.append_assoc, ← hinbox] at hlisten
  unfold Connection.request Link.converse Link.send
  simp only [hnext, hsend, hlisten]
  exact ⟨_, rfl, by rw [following], rfl, left, hleft, rfl⟩

theorem ask {α : Type} {payload : Except EncodeError Bytes} {p : Bytes} {r : Bytes → Request}
    {replies : List Message} {m : Message} (hc : Ready last i (block ++ rest) c)
    (hb : Carries block (replies ++ [m])) (hp : payload = .ok p)
    (h : ∀ m ∈ replies, (r p).Gathers (following last i) m) (hm : Closes (following last i) m)
    (read : List Message → Except TransportError α) :
    ∃ c', c.ask payload r read = (read replies, c') ∧ Ready last (i + 1) rest c' := by
  obtain ⟨c', hrequest, hready⟩ := hc.request hb h hm
  refine ⟨c', ?_, hready⟩
  rw [hp, Connection.ask, hrequest]
  rfl

end Ready

/-! ## Lookups -/

section Lookups
variable {last : UInt32} {i : Nat} {block rest : List Receipt} {c : Connection} {ms : List Message}

/-- What was found is read from the first reply. -/
theorem Found.ask {α : Type} {kind : UInt16} {payload object : Except EncodeError Bytes}
    {r : Bytes → Request} {read : Bytes → Except WireError α} {a : α} {what : String}
    (h : Found kind object (following last i) ms) (hc : Ready last i (block ++ rest) c)
    (hb : Carries block ms) (hp : ∃ p, payload = .ok p) (hr : ∀ p, (r p).flags = Flag.ack)
    (hk : kind ≠ MessageKind.error ∧ kind ≠ MessageKind.done)
    (hread : ∃ p, object = .ok p ∧ read p = .ok a) :
    ∃ c', c.ask payload r (Connection.firstReply kind read what) = (.ok a, c') ∧
      Ready last (i + 1) rest c' := by
  cases h with
  | @mk flags q ack hobject hack =>
    obtain ⟨p, hp⟩ := hp
    obtain ⟨p', hobject', hread⟩ := hread
    obtain rfl : q = p' := Except.ok.inj (hobject.symm.trans hobject')
    have hgathers : ∀ m ∈ [⟨kind, flags, following last i, q⟩],
        (r p).Gathers (following last i) m := by
      rw [List.forall_mem_singleton]
      refine ⟨rfl, hk.1, hk.2, .inr ?_⟩
      rw [hr]
      decide
    obtain ⟨c', hask, hready⟩ := hc.ask hb hp hgathers (.inl hack)
      (Connection.firstReply kind read what)
    refine ⟨c', hask.trans ?_, hready⟩
    simp [Connection.firstReply, hread, Except.mapError]

end Lookups

/-! ## Dumps -/

theorem rulesOf_cons {t : Table} {chain : String} {m : Message} {r : Rule} {rs : List Rule}
    {ms : List Message} (hk : m.kind = MessageKind.newRule) (hr : readRule m.payload = .ok r)
    (h : Connection.rulesOf t chain ms = .ok rs) :
    Connection.rulesOf t chain (m :: ms) =
      .ok (if r.table.name = t.name ∧ r.chain = chain then r :: rs else rs) := by
  simp only [Connection.rulesOf, bind_eq_ok_iff, pure_eq_ok_iff] at h ⊢
  obtain ⟨rules, hrules, rfl⟩ := h
  refine ⟨r :: rules, ?_, by simp [List.filter_cons]⟩
  rw [List.filter_cons_of_pos (by simpa using hk), List.mapM_cons, hr, hrules]
  rfl

/-- Of what a dump answers, the rules of the chain are those of the entries. -/
theorem Dumped.rulesOf {l : Layout} (hl : l.NamesFit) {d : Direction} {n : UInt32} {es : List Entry}
    {ms : List Message} (h : Dumped l d n es ms) (hw : ∀ e ∈ es, e.counter.WellFormed l.family) :
    ∃ replies m rules, ms = replies ++ [m] ∧ Closes n m ∧
      (∀ r : Request, ∀ m ∈ replies, r.Gathers n m) ∧
      Connection.rulesOf l.table (l.chainName d) replies = .ok rules ∧
      List.Forall₂ (Entry.Held (l.chain d)) rules es := by
  have hgathers {flags : UInt16} {p : Bytes} (hf : flags &&& Flag.multi ≠ 0) (r : Request) :
      r.Gathers n ⟨MessageKind.newRule, flags, n, p⟩ := by
    have hkind : MessageKind.newRule ≠ MessageKind.error ∧
        MessageKind.newRule ≠ MessageKind.done := by decide
    exact ⟨rfl, hkind.1, hkind.2, .inl hf⟩
  induction h with
  | done flags p => exact ⟨[], _, [], rfl, .inr ⟨rfl, rfl⟩, by simp, rfl, .nil⟩
  | entry hf hp _ ih =>
    rw [List.forall_mem_cons] at hw
    obtain ⟨replies, m, rules, rfl, hm, hall, hrules, hheld⟩ := ih hw.2
    have hread := hp.readRule (Rule.expressible_installed _ _ _ _ hl.table (hl.chain d) hw.1)
    refine ⟨_ :: replies, m, _, rfl, hm, fun r => List.forall_mem_cons.2 ⟨hgathers hf r, hall r⟩,
      rulesOf_cons rfl hread hrules, ?_⟩
    rw [if_pos ⟨rfl, rfl⟩]
    exact .cons ⟨_, rfl⟩ hheld
  | other hf hr hn _ ih =>
    obtain ⟨replies, m, rules, rfl, hm, hall, hrules, hheld⟩ := ih hw
    refine ⟨_ :: replies, m, _, rfl, hm, fun r => List.forall_mem_cons.2 ⟨hgathers hf r, hall r⟩,
      rulesOf_cons rfl hr hrules, ?_⟩
    rw [if_neg]
    · exact hheld
    · rintro ⟨ht, hc⟩
      exact hn.elim (· ht) (· hc)

/-! ## Listing -/

section Listing
variable {l : Layout} (hl : l.NamesFit) {last : UInt32} {i : Nat} {block rest : List Receipt}
  {c : Connection} {ms : List Message}
include hl

theorem lookupTable_answered
    (h : Found MessageKind.newTable (writeTable l.table) (following last i) ms)
    (hc : Ready last i (block ++ rest) c) (hb : Carries block ms) :
    ∃ c', Connection.lookupTable l.family l.tableName c = (.ok l.table, c') ∧
      Ready last (i + 1) rest c' := by
  obtain ⟨p, hp, hread⟩ := exists_writeTable (t := l.table) hl.table
  exact h.ask hc hb ⟨p, hp⟩ (fun _ => rfl) (by decide) ⟨p, hp, hread⟩

theorem lookupChain_answered {d : Direction}
    (h : Found MessageKind.newChain (writeChain (l.chain d)) (following last i) ms)
    (hc : Ready last i (block ++ rest) c) (hb : Carries block ms) :
    ∃ c', Connection.lookupChain l.table (l.chainName d) c = (.ok (l.chain d), c') ∧
      Ready last (i + 1) rest c' := by
  obtain ⟨p, hp, -⟩ := exists_writeChainName (t := l.table) hl.table (hl.chain d)
  exact h.ask hc hb ⟨p, hp⟩ (fun _ => rfl) (by decide)
    (exists_writeChain (t := l.table) hl.table (hl.chain d) _)

theorem drainRules_answered {d : Direction} {es : List Entry}
    (h : Dumped l d (following last i) es ms) (hw : ∀ e ∈ es, e.counter.WellFormed l.family)
    (hc : Ready last i (block ++ rest) c) (hb : Carries block ms) :
    ∃ rules c', Connection.drainRules l.table (l.chain d) c = (.ok rules, c') ∧
      List.Forall₂ (Entry.Held (l.chain d)) rules es ∧ Ready last (i + 1) rest c' := by
  obtain ⟨p, hp, -⟩ := exists_writeRuleScope (t := l.table) hl.table (hl.chain d)
  obtain ⟨replies, m, rules, rfl, hm, hall, hrules, hheld⟩ := h.rulesOf hl hw
  obtain ⟨c', hask, hready⟩ := hc.ask hb hp (hall _) hm
    (Connection.rulesOf l.table (l.chainName d))
  exact ⟨rules, c', hask.trans (by rw [hrules]), hheld, hready⟩

theorem listDirection_answered {d : Direction} {es : List Entry} {block' : List Receipt}
    {ms' : List Message}
    (h : Found MessageKind.newChain (writeChain (l.chain d)) (following last i) ms)
    (h' : Dumped l d (following last (i + 1)) es ms')
    (hw : ∀ e ∈ es, e.counter.WellFormed l.family)
    (hc : Ready last i (block ++ (block' ++ rest)) c) (hb : Carries block ms)
    (hb' : Carries block' ms') :
    ∃ c', (l.listDirection l.table d).run.run c = (.ok (es.map (Entry.reading d)), c') ∧
      Ready last (i + 2) rest c' := by
  obtain ⟨c₁, hlookup, hc₁⟩ := lookupChain_answered hl h hc hb
  obtain ⟨rules, c₂, hdrain, hheld, hc₂⟩ := drainRules_answered hl h' hw hc₁ hb'
  refine ⟨c₂, ?_, hc₂⟩
  have hlookup' : Transport.lookupChain l.table (l.chainName d) c = (.ok (l.chain d), c₁) := hlookup
  have hdrain' : Transport.drainRules l.table (l.chain d) c₁ = (.ok rules, c₂) := hdrain
  change Session.run (Session.lookupChain _ _ _) c = _
  simp only [Session.run, hlookup', hdrain']
  rw [Entry.readCounters_of_held hheld hw]

end Listing

/-- If a kernel has the rules of accepted counters, under names that can be written and read, then a
listing gives these counters in order, each with its direction and with what it has counted. -/
theorem listCounters_answered {l : Layout} (hl : l.NamesFit) {set : CounterSet}
    (hs : ∀ d, (Config.checkCounters l.family d [] 0 (set.get d)).value = .ok ())
    {es : Direction → List Entry} (hes : ∀ d, (es d).map Entry.counter = set.get d)
    {c : Connection} (hsend : c.link.outcomes = []) {blocks : List (List Receipt)}
    {rest : List Receipt} (hinbox : c.link.inbox = blocks.flatten ++ rest)
    {answers : List (List Message)} (hblocks : List.Forall₂ Carries blocks answers)
    (h : Answers l es (following c.lastSeq) answers) :
    (l.listCounters.run.run c).1 = .ok (Ledger.report es) := by
  have hw : ∀ d, ∀ e ∈ es d, e.counter.WellFormed l.family := by
    intro d e he
    obtain ⟨hset, -⟩ := (Config.checkCounters_value_eq_ok_iff ..).1 (hs d)
    exact (hset e.counter (hes d ▸ List.mem_map_of_mem he)).1
  match answers, h with
  | [table, inputChain, inputRules, outputChain, outputRules], ⟨ht, hic, hir, hoc, hor⟩ =>
    obtain _ | ⟨hb₁, _ | ⟨hb₂, _ | ⟨hb₃, _ | ⟨hb₄, _ | ⟨hb₅, _ | _⟩⟩⟩⟩⟩ := hblocks
    have hc : Ready c.lastSeq 0 c.link.inbox c :=
      ⟨(UInt32.add_zero _).symm, hsend, [], .nil, rfl⟩
    simp only [hinbox, List.flatten_cons, List.flatten_nil, List.append_nil,
      List.append_assoc] at hc
    obtain ⟨c₁, htable, hc₁⟩ := lookupTable_answered hl ht hc hb₁
    obtain ⟨c₂, hinput, hc₂⟩ := listDirection_answered hl hic hir (hw _) hc₁ hb₂ hb₃
    obtain ⟨c₃, houtput, -⟩ := listDirection_answered hl hoc hor (hw _) hc₂ hb₄ hb₅
    have hfind : l.findTable.run.run c = (.ok l.table, c₁) := by
      have hlookup : Transport.lookupTable l.family l.tableName c = (.ok l.table, c₁) := htable
      change Session.run (Session.lookupTable _ _ _) c = _
      simp only [Session.run, hlookup]
    rw [Layout.listCounters, Operation.run_bind, hfind]
    simp only
    rw [Operation.run_bind, hinput]
    simp only
    rw [Operation.run_bind, houtput]
    rfl

/-- One counter is listed, although a rule of another chain comes in front of its own and the end of
the rules in a datagram of its own. -/
theorem listCounters_answered_filtered :
    let l : Layout := {}
    let payload (x : Except EncodeError Bytes) : Bytes := x.toOption.getD []
    let ack (n : UInt32) : Message := ⟨MessageKind.error, 0, n, Bytes.zeros 4⟩
    let done (n : UInt32) : Message := ⟨MessageKind.done, Flag.multi, n, []⟩
    let table : Message := ⟨MessageKind.newTable, 0, 1, payload (writeTable l.table)⟩
    let chain (n : UInt32) (d : Direction) : Message :=
      ⟨MessageKind.newChain, 0, n, payload (writeChain (l.chain d))⟩
    let other : Message :=
      ⟨MessageKind.newRule, Flag.multi, 3, payload (writeRuleScope l.table (some "other"))⟩
    let rule := Rule.installed (l.chain .input) { label := "all" } (some 1) 3 180
    let own : Message :=
      ⟨MessageKind.newRule, Flag.multi, 3, payload (writeRule rule) ++ nat64 RuleAttr.handle 1⟩
    let answers := [[table, ack 1], [chain 2 .input, ack 2], [other, own, done 3],
      [chain 4 .output, ack 4], [done 5]]
    let blocks := [[[table, ack 1]], [[chain 2 .input, ack 2]], [[other, own], [done 3]],
      [[chain 4 .output, ack 4]], [[done 5]]].map (List.map (Receipt.datagram ∘ datagram))
    let es : Direction → List Entry := fun
      | .input => [⟨{ label := "all" }, 3, 180⟩]
      | .output => []
    l.NamesFit ∧ List.Forall₂ Carries blocks answers ∧ Answers l es (following 0) answers ∧
      (l.listCounters.run.run ({ link := { inbox := blocks.flatten } } : Connection)).1 =
        .ok ⟨[{ label := "all", direction := some .input, packets := 3, bytes := 180 }], []⟩ := by
  intro l payload ack done table chain other rule own answers blocks es
  have hl : l.NamesFit :=
    ⟨⟨by decide, by decide⟩, fun d => by cases d <;> exact ⟨by decide, by decide⟩⟩
  have hpayload {x : Except EncodeError Bytes} (h : ∃ p, x = .ok p) : x = .ok (payload x) := by
    obtain ⟨p, rfl⟩ := h
    rfl
  have hack (n : UInt32) : (ack n).Acknowledges n := ⟨rfl, rfl, rfl⟩
  have hrules : Dumped l .input 3 (es .input) [other, own, done 3] := by
    obtain ⟨p, hp, hread⟩ := exists_writeRuleScope (t := l.table) hl.table
      (⟨by decide, by decide⟩ : Nameable "other")
    have hother : readRule (payload (writeRuleScope l.table (some "other"))) =
        .ok { table := l.table, chain := "other" } := by
      rw [hp]
      exact hread
    exact .other (by decide) hother (.inr (by decide))
      (.entry (by decide) (.behind (hpayload ⟨_, rfl⟩)) (.done ..))
  have hanswers : Answers l es (following 0) answers :=
    ⟨.mk 0 (hpayload ⟨_, rfl⟩) (hack 1), .mk 0 (hpayload ⟨_, rfl⟩) (hack 2), hrules,
      .mk 0 (hpayload ⟨_, rfl⟩) (hack 4), .done ..⟩
  have hblocks : List.Forall₂ Carries blocks answers :=
    .cons (carries_datagrams (by decide +kernel)) <|
    .cons (carries_datagrams (by decide +kernel)) <|
    .cons (carries_datagrams (by decide +kernel)) <|
    .cons (carries_datagrams (by decide +kernel)) <|
    .cons (carries_datagrams (by decide +kernel)) .nil
  let set : CounterSet := ⟨[{ label := "all" }], []⟩
  have hs : ∀ d, (Config.checkCounters l.family d [] 0 (set.get d)).value = .ok () := by
    intro d
    cases d <;> rfl
  have hes : ∀ d, (es d).map Entry.counter = set.get d := by
    intro d
    cases d <;> rfl
  exact ⟨hl, hblocks, hanswers,
    listCounters_answered hl hs hes rfl (List.append_nil _).symm hblocks hanswers⟩

end Netlink

end FlowTally

import FlowTally.Proofs.Dialogue
/-!
# Dumps of rules

A dump asks for the rules of one chain of one table, and may be answered with the rules of others
(`Netlink.Dump`, `Netlink.Connection.Dumps`). Of these, `drainRules_dumped` says, all are given back
that have the name of the table and the name of the chain. The family of the table is not looked at:
only if no table of the name in another family has such a chain are these the rules that were asked
for.
-/

namespace FlowTally.Netlink

open Wire

/-! ## Answers to a dump -/

/-- What is heard in answer to a dump under the number, and the replies that it has. It is over with
a message that closes it, or with a reply that is not one of several. What is heard behind does not
matter. -/
inductive Dump (n : UInt32) : List (Except TransportError Message) → List Message → Prop where
  | closed {m : Message} {rest : List (Except TransportError Message)} (h : Closes n m) :
    Dump n (.ok m :: rest) []
  | single {m : Message} {rest : List (Except TransportError Message)} (hn : m.seq = n)
    (hk : m.kind ≠ MessageKind.error ∧ m.kind ≠ MessageKind.done)
    (hf : m.flags &&& Flag.multi = 0) : Dump n (.ok m :: rest) [m]
  | several {m : Message} {rest : List (Except TransportError Message)} {replies : List Message}
    (hn : m.seq = n) (hk : m.kind ≠ MessageKind.error ∧ m.kind ≠ MessageKind.done)
    (hf : m.flags &&& Flag.multi ≠ 0) (h : Dump n rest replies) :
    Dump n (.ok m :: rest) (m :: replies)
  | other {m : Message} {rest : List (Except TransportError Message)} {replies : List Message}
    (hn : m.seq ≠ n) (h : Dump n rest replies) : Dump n (.ok m :: rest) replies

section Answers
variable {r : Request} {n : UInt32} {heard : List (Except TransportError Message)}
  {replies : List Message}

/-- An error under the number that is no acknowledgement is no answer. -/
theorem answerTo_of_error {m : Message} (hn : m.seq = n) (hk : m.kind = MessageKind.error)
    (hack : ¬ m.Acknowledges n) (before all : List Message) :
    (r.listener n).answerTo before (.ok m :: heard) ≠ .ok all := by
  have hcode : m.errorCode ≠ .ok 0 := fun h =>
    hack ⟨hk, hn, Message.errorCode_eq_ok_zero_iff.1 h⟩
  rw [Listener.answerTo]
  simp only [Request.listener, hn, hk]
  cases hm : m.errorCode with
  | error e => simp
  | ok code =>
    have hne : code ≠ 0 := fun h => hcode (h ▸ hm)
    simp [hne]

variable (hr : r.flags &&& Flag.ack = 0)
include hr

theorem Dump.answerTo (h : Dump n heard replies) :
    ∀ before, (r.listener n).answerTo before heard = .ok (before ++ replies) := by
  induction h with
  | closed h =>
    intro before
    rw [Listener.answerTo, Request.hear_of_closes h, List.append_nil]
  | single hn hk hf =>
    intro before
    rw [Listener.answerTo]
    simp [Request.listener, hn, hk, hf, hr]
  | several hn hk hf _ ih =>
    intro before
    rw [Listener.answerTo, Request.hear_of_gathers ⟨hn, hk.1, hk.2, .inl hf⟩]
    simp only [ih, List.append_assoc, List.singleton_append]
  | other hn _ ih =>
    intro before
    rw [Listener.answerTo, r.deaf_listener n before _ (by simpa using hn)]
    exact ih before

/-- An answer has the replies of a dump. -/
theorem exists_dump : ∀ {before all : List Message},
    (r.listener n).answerTo before heard = .ok all →
      ∃ replies, Dump n heard replies ∧ all = before ++ replies := by
  induction heard with
  | nil => exact fun h => nomatch h
  | cons x heard ih =>
    intro before all h
    cases x with
    | error e => cases h
    | ok m =>
      by_cases hn : m.seq = n
      · by_cases hclose : Closes n m
        · rw [Listener.answerTo, Request.hear_of_closes hclose] at h
          cases h
          exact ⟨[], .closed hclose, (List.append_nil _).symm⟩
        · obtain ⟨hack, hdone⟩ := not_or.1 hclose
          have hk : m.kind ≠ MessageKind.error ∧ m.kind ≠ MessageKind.done :=
            ⟨fun hk => answerTo_of_error hn hk hack before all h, fun hk => hdone ⟨hk, hn⟩⟩
          by_cases hf : m.flags &&& Flag.multi = 0
          · rw [(Dump.single hn hk hf).answerTo hr] at h
            cases h
            exact ⟨[m], .single hn hk hf, rfl⟩
          · rw [Listener.answerTo, Request.hear_of_gathers ⟨hn, hk.1, hk.2, .inl hf⟩] at h
            obtain ⟨replies, hdump, rfl⟩ := ih h
            exact ⟨m :: replies, .several hn hk hf hdump, by simp⟩
      · rw [Listener.answerTo, r.deaf_listener n before _ (by simpa using hn)] at h
        obtain ⟨replies, hdump, hall⟩ := ih h
        exact ⟨replies, .other hn hdump, hall⟩

theorem answerTo_eq_ok_iff : (r.listener n).answerTo [] heard = .ok replies ↔
    Dump n heard replies := by
  constructor
  · intro h
    obtain ⟨replies, hdump, rfl⟩ := exists_dump hr h
    exact hdump
  · exact fun h => h.answerTo hr []

end Answers

/-- A conversation gives what was heard if the datagram could be sent. -/
theorem Link.converse_eq_ok_iff {σ α : Type} {w : Listener σ α} {s : σ} {datagram : Bytes}
    {l : Link} {a : α} : (l.converse w s datagram).1 = .ok a ↔
      (l.send datagram).1 = .ok () ∧ (w.listen s l.inbox).1 = .ok a := by
  cases hsend : (l.send datagram).1 with
  | ok _ =>
    rw [converse_of_send _ _ _ _ hsend]
    simp
  | error e =>
    rw [converse]
    generalize l.send datagram = sent at hsend
    obtain ⟨result, link⟩ := sent
    obtain rfl : result = .error e := hsend
    simp

namespace Connection

/-! ## The rules in a dump -/

/-- The rules of a chain can be asked for, and these are the rules in the answer. -/
inductive Dumps (c : Connection) (t : Table) (chain : String) (rules : List Rule) : Prop where
  | mk {payload : Bytes} {replies : List Message}
    (hpayload : writeRuleScope t (some chain) = .ok payload)
    (hsend : (c.link.send (Message.write ⟨MessageKind.resetRules, Flag.request ||| Flag.dump,
      c.lastSeq + 1, payload⟩)).1 = .ok ())
    (hdump : Dump (c.lastSeq + 1) (c.link.inbox.flatMap (Receipt.heard [c.lastSeq + 1])) replies)
    (hrules : List.Forall₂ (fun m r => readRule m.payload = .ok r)
      (replies.filter (·.kind = MessageKind.newRule)) rules)

variable {c : Connection} {t : Table} {chain : Chain}

theorem rulesOf_eq_ok_iff {chain : String} {replies : List Message} {rs : List Rule} :
    rulesOf t chain replies = .ok rs ↔
      ∃ rules, List.Forall₂ (fun m r => readRule m.payload = .ok r)
        (replies.filter (·.kind = MessageKind.newRule)) rules ∧
        (rules.filter fun r => r.table.name = t.name ∧ r.chain = chain) = rs := by
  have hread (m : Message) (r : Rule) :
      (readRule m.payload).mapError TransportError.protocol = .ok r ↔ readRule m.payload = .ok r := by
    cases readRule m.payload <;> simp [Except.mapError]
  simp only [rulesOf, bind_eq_ok_iff, pure_eq_ok_iff, mapM_eq_ok_iff, hread]

/-- Rules are given back exactly if the dump is answered and the rules in the answer can be read. -/
theorem drainRules_eq_ok_iff {rs : List Rule} : (drainRules t chain c).1 = .ok rs ↔
    ∃ rules, c.Dumps t chain.name rules ∧
      (rules.filter fun r => r.table.name = t.name ∧ r.chain = chain.name) = rs := by
  unfold drainRules ask
  cases hpayload : writeRuleScope t (some chain.name) with
  | error e =>
    simp only [reduceCtorEq, false_iff]
    rintro ⟨rules, ⟨hpayload', -⟩, -⟩
    cases hpayload.symm.trans hpayload'
  | ok payload =>
    have hflags : Flag.dump &&& Flag.ack = 0 := by decide
    have hbind (x : Except TransportError (List Message)) :
        x.bind (rulesOf t chain.name) = .ok rs ↔
          ∃ replies, x = .ok replies ∧ rulesOf t chain.name replies = .ok rs := bind_eq_ok_iff
    simp only [request, hbind, Link.converse_eq_ok_iff, rulesOf_eq_ok_iff,
      Listener.listen_eq_answerTo (Request.deaf_listener _ _) (fun _ => rfl)]
    constructor
    · rintro ⟨replies, ⟨hsend, hanswer⟩, rules, hrules, hrs⟩
      exact ⟨rules, .mk hpayload hsend ((answerTo_eq_ok_iff hflags).1 hanswer) hrules, hrs⟩
    · rintro ⟨rules, ⟨hpayload', hsend, hdump, hrules⟩, hrs⟩
      cases hpayload.symm.trans hpayload'
      exact ⟨_, ⟨hsend, (answerTo_eq_ok_iff hflags).2 hdump⟩, rules, hrules, hrs⟩

/-- From a dump that is answered, the rules are given back that have the name of the table and the
name of the chain. These are the rules that were asked for exactly if none of them is from a table
of another family. -/
theorem drainRules_dumped {rules : List Rule} (h : c.Dumps t chain.name rules) :
    (drainRules t chain c).1 =
        .ok (rules.filter fun r => r.table.name = t.name ∧ r.chain = chain.name) ∧
      ((drainRules t chain c).1 = .ok (rules.filter fun r => r.table = t ∧ r.chain = chain.name) ↔
        ∀ r ∈ rules, r.table.name = t.name → r.chain = chain.name →
          r.table.family = t.family) := by
  have hdrained := drainRules_eq_ok_iff.2 ⟨rules, h, rfl⟩
  have htable (r : Rule) : r.table = t ↔ r.table.name = t.name ∧ r.table.family = t.family := by
    cases r.table
    cases t
    simp [and_comm]
  refine ⟨hdrained, ?_⟩
  rw [hdrained, Except.ok.injEq]
  constructor
  · intro heq r hr hname hchain
    have hmem : r ∈ rules.filter fun r => r.table.name = t.name ∧ r.chain = chain.name :=
      List.mem_filter.2 ⟨hr, by simp [hname, hchain]⟩
    rw [heq, List.mem_filter, decide_eq_true_iff, htable] at hmem
    exact hmem.2.1.2
  · intro hfamily
    refine List.filter_congr fun r hr => decide_eq_decide.2 ?_
    rw [htable]
    exact ⟨fun h => ⟨⟨h.1, hfamily r hr h.1 h.2⟩, h.2⟩, fun h => ⟨h.1.1, h.2⟩⟩

/-! ## Tables of one name -/

def bareRule (family : Family) (chain : String) : Rule := { table := ⟨family, "flowmon"⟩, chain }

def ruleMessage (seq : UInt32) (r : Rule) : Message :=
  ⟨MessageKind.newRule, Flag.multi, seq, (writeRule r).toOption.getD []⟩

/-- A rule that is left over from another dump, then rules of two chains and of the chain of another
table with the same name, and the end. -/
def twoTables : List Message :=
  [ruleMessage 9 (bareRule .ip "input"), ruleMessage 1 (bareRule .ip "input"),
    ruleMessage 1 (bareRule .ip "output"), ruleMessage 1 (bareRule .ip6 "input"),
    ⟨MessageKind.done, Flag.multi, 1, []⟩]

def answering (ms : List Message) : Connection := { link := { inbox := [.datagram (datagram ms)] } }

theorem dumps_twoTables : (answering twoTables).Dumps ⟨.ip, "flowmon"⟩ "input"
    [bareRule .ip "input", bareRule .ip "output", bareRule .ip6 "input"] := by
  have hread : (Receipt.datagram (datagram twoTables)).read = .ok twoTables := by decide +kernel
  have hdump : Dump 1 ((answering twoTables).link.inbox.flatMap (Receipt.heard [1]))
      ((twoTables.drop 1).take 3) := by
    rw [answering, List.flatMap_singleton, Receipt.heard, hread]
    exact .several rfl (by decide) (by decide) <| .several rfl (by decide) (by decide) <|
      .several rfl (by decide) (by decide) <| .closed (.inr ⟨rfl, rfl⟩)
  obtain ⟨payload, hpayload, -⟩ := exists_writeRuleScope (t := ⟨.ip, "flowmon"⟩)
    (⟨by decide, by decide⟩ : Nameable "flowmon") (⟨by decide, by decide⟩ : Nameable "input")
  exact .mk hpayload rfl hdump
    (.cons (by decide +kernel) (.cons (by decide +kernel) (.cons (by decide +kernel) .nil)))

theorem drainRules_dumped_twoTables :
    let t : Table := ⟨.ip, "flowmon"⟩
    let chain : Chain := ⟨t, "input", none⟩
    let drained := (drainRules t chain (answering twoTables)).1
    (answering twoTables).Dumps t chain.name
        [bareRule .ip "input", bareRule .ip "output", bareRule .ip6 "input"] ∧
      drained = .ok [bareRule .ip "input", bareRule .ip6 "input"] ∧
      drained ≠ .ok [bareRule .ip "input"] := by
  intro t chain drained
  have hdumps : (answering twoTables).Dumps t chain.name
      [bareRule .ip "input", bareRule .ip "output", bareRule .ip6 "input"] := dumps_twoTables
  obtain ⟨hdrained, hasked⟩ := drainRules_dumped hdumps
  refine ⟨hdumps, hdrained, fun h => ?_⟩
  cases hasked.1 h (bareRule .ip6 "input") (by decide) rfl rfl

/-- The rule of the other table is given back as one of this table. -/
theorem foreign_drained :
    let t : Table := ⟨.ip, "flowmon"⟩
    let rules := [bareRule .ip "input", bareRule .ip "output", bareRule .ip6 "input"]
    (answering twoTables).Dumps t "input" rules ∧
      (drainRules t ⟨t, "input", none⟩ (answering twoTables)).1 =
        .ok [bareRule .ip "input", bareRule .ip6 "input"] ∧
      (rules.filter fun r => r.table = t ∧ r.chain = "input") = [bareRule .ip "input"] :=
  ⟨dumps_twoTables, by decide +kernel, by decide⟩

end Connection

end FlowTally.Netlink

import FlowTally.Transport
/-!
# Sessions

A session is an operation on a transport as data: which call it makes next, and how it goes on for
each answer. The same session can be run over any transport, and two sessions can be interleaved
call by call.
-/

namespace FlowTally

inductive Session (α : Type) where
  | done (result : α)
  | lookupTable (family : Family) (name : String)
      (next : Except TransportError Table → Session α)
  | lookupChain (table : Table) (name : String)
      (next : Except TransportError Chain → Session α)
  | drainRules (table : Table) (chain : Chain)
      (next : Except TransportError (List Rule) → Session α)
  | stage (edits : List Edit) (next : Session α)
  | discard (next : Session α)
  | commit (next : Except TransportError Unit → Session α)

namespace Session

variable {α β : Type}

def bind : Session α → (α → Session β) → Session β
  | done a, f => f a
  | lookupTable family name next, f => lookupTable family name fun r => (next r).bind f
  | lookupChain table name next, f => lookupChain table name fun r => (next r).bind f
  | drainRules table chain next, f => drainRules table chain fun r => (next r).bind f
  | stage edits next, f => stage edits (next.bind f)
  | discard next, f => discard (next.bind f)
  | commit next, f => commit fun r => (next r).bind f

instance : Monad Session where
  pure := done
  bind := bind

/-- Runs the session over a transport. -/
def run {σ : Type} [Transport σ] : Session α → σ → α × σ
  | done a, s => (a, s)
  | lookupTable family name next, s =>
    let (r, s) := Transport.lookupTable family name s
    (next r).run s
  | lookupChain table name next, s =>
    let (r, s) := Transport.lookupChain table name s
    (next r).run s
  | drainRules table chain next, s =>
    let (r, s) := Transport.drainRules table chain s
    (next r).run s
  | stage edits next, s => next.run (Transport.stage edits s)
  | discard next, s => next.run (Transport.discard s)
  | commit next, s =>
    let (r, s) := Transport.commit s
    (next r).run s

theorem run_bind {σ : Type} [Transport σ] (m : Session α) (f : α → Session β) (s : σ) :
    (m.bind f).run s = (f (m.run s).1).run (m.run s).2 := by
  induction m generalizing s with
  | done a => rfl
  | lookupTable family name next ih => exact ih _ _
  | lookupChain table name next ih => exact ih _ _
  | drainRules table chain next ih => exact ih _ _
  | stage edits next ih => exact ih _
  | discard next ih => exact ih _
  | commit next ih => exact ih _ _

end Session

end FlowTally

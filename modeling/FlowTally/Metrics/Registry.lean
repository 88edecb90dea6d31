import FlowTally.Counter
import FlowTally.Metrics
/-!
# Metric registries

A registry maps series to figures, a series being a metric with its labels. `get?_set` and
`get?_add` say what the two operations do to the map.
-/

namespace FlowTally

structure Series where
  metric : Metric
  labels : List (String × String) := []
  deriving DecidableEq, Repr

/-- The figures by series, and whether the metrics have been described. -/
structure Registry where
  samples : List (Series × UInt64) := []
  described : Bool := false
  deriving Repr

namespace Registry

def get? (r : Registry) (s : Series) : Option UInt64 := r.samples.lookup s

/-- Gives a key the value that comes from the one it has. -/
def upsert (s : Series) (f : Option UInt64 → UInt64) :
    List (Series × UInt64) → List (Series × UInt64)
  | [] => [(s, f none)]
  | (s', n) :: rest => if s' = s then (s, f (some n)) :: rest else (s', n) :: upsert s f rest

def set (s : Series) (n : UInt64) (r : Registry) : Registry :=
  { r with samples := upsert s (fun _ => n) r.samples }

def add (s : Series) (n : UInt64) (r : Registry) : Registry :=
  { r with samples := upsert s (fun old => old.getD 0 + n) r.samples }

theorem lookup_cons_eq_ite (t u : Series) (n : UInt64) (l : List (Series × UInt64)) :
    ((u, n) :: l).lookup t = if t = u then some n else l.lookup t := by
  by_cases h : t = u
  · simp [h]
  · simp [List.lookup_cons, beq_eq_false_iff_ne.2 h, h]

theorem lookup_upsert (s t : Series) (f : Option UInt64 → UInt64) (l : List (Series × UInt64)) :
    (upsert s f l).lookup t = if t = s then some (f (l.lookup s)) else l.lookup t := by
  induction l with
  | nil => simp [upsert, lookup_cons_eq_ite]
  | cons e rest ih =>
    obtain ⟨u, n⟩ := e
    by_cases hu : u = s
    · subst hu
      by_cases ht : t = u <;> simp [upsert, lookup_cons_eq_ite, ht]
    · by_cases ht : t = s
      · subst ht
        simp [upsert, hu, lookup_cons_eq_ite, Ne.symm hu, ih]
      · simp [upsert, hu, lookup_cons_eq_ite, ht, ih]

@[simp]
theorem get?_set (s t : Series) (n : UInt64) (r : Registry) :
    (r.set s n).get? t = if t = s then some n else r.get? t :=
  lookup_upsert s t _ r.samples

@[simp]
theorem get?_add (s t : Series) (n : UInt64) (r : Registry) :
    (r.add s n).get? t = if t = s then some ((r.get? s).getD 0 + n) else r.get? t :=
  lookup_upsert s t _ r.samples

/-! ## What is recorded -/

/-- Records what a reading gave for one counter. -/
def recordCounter (c : Counter) (r : Registry) : Registry :=
  r |>.set ⟨.flowPackets, c.attributes⟩ c.packets
    |>.set ⟨.flowBytes, c.attributes⟩ c.bytes
    |>.add ⟨.flowPacketsTotal, c.attributes⟩ c.packets
    |>.add ⟨.flowBytesTotal, c.attributes⟩ c.bytes

def recordReading (s : CounterSet) (r : Registry) : Registry :=
  s.toList.foldl (fun r (_, c) => r.recordCounter c) r

/-- Records how many rules each direction has. -/
def recordInstalled (s : CounterSet) (r : Registry) : Registry :=
  Direction.all.foldl
    (fun r d => r.set ⟨.rulesInstalled, [("direction", d.name)]⟩ (UInt64.ofNat (s.get d).length)) r

/-- Records which version runs. -/
def recordVersion (version : String) (r : Registry) : Registry :=
  r.set ⟨.buildInfo, [("version", version)]⟩ 1

def describe (r : Registry) : Registry := { r with described := true }

end Registry

end FlowTally

import FlowTally.Metrics.Registry
import FlowTally.Text.Double
/-!
# Exposition

The text in which figures are published: a metric that has a figure is introduced by its kind, and
by its description if it has one, and each figure stands on a line with its series. Gauges are held
in double precision.
-/

namespace FlowTally

namespace Exposition

/-- Escapes a label value. Backslashes are taken in pairs, line ends aside; one that is left over
counts as a pair, but is dropped before a quote. `pending` says that one was read and not yet
written. -/
def escape (pending : Bool) : List Char → List Char
  | [] => if pending then ['\\', '\\'] else []
  | '\n' :: rest => '\\' :: 'n' :: escape pending rest
  | '"' :: rest => '\\' :: '"' :: escape false rest
  | '\\' :: rest => if pending then '\\' :: '\\' :: escape false rest else escape true rest
  | c :: rest =>
    if pending then '\\' :: '\\' :: c :: escape false rest else c :: escape false rest

def labelText (label : String × String) : String :=
  label.1 ++ "=\"" ++ String.ofList (escape false label.2.toList) ++ "\""

end Exposition

def Series.text (s : Series) : String :=
  if s.labels.isEmpty then s.metric.name
  else s.metric.name ++ "\x7b" ++ ",".intercalate (s.labels.map Exposition.labelText) ++ "\x7d"

def MetricKind.valueText : MetricKind → UInt64 → String
  | gauge, n => Double.text n.toNat
  | total, n => toString n.toNat

namespace Registry

/-- The lines about one metric. -/
def metricLines (r : Registry) (m : Metric) : List String :=
  let samples := r.samples.filter (·.1.metric = m)
  if samples.isEmpty then []
  else
    (if r.described then [s!"# HELP {m.name} {m.help}"] else [])
      ++ s!"# TYPE {m.name} {m.kind.name}"
      :: samples.map fun (s, n) => s!"{s.text} {m.kind.valueText n}"

/-- All lines, in the order of their characters. -/
def lines (r : Registry) : List String :=
  (Metric.all.flatMap r.metricLines).mergeSort fun a b => a ≤ b

end Registry

end FlowTally

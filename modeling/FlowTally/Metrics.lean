/-!
# Metrics

The names under which figures are published, what kind of figure each is, and what it says. How long
polls take is published too (`flowmon_poll_duration_seconds`, a histogram), but is a matter of the
clock and left out here.
-/

namespace FlowTally

inductive Metric where
  | flowPackets
  | flowBytes
  | flowPacketsTotal
  | flowBytesTotal
  | pollsTotal
  | pollFailuresTotal
  | rulesInstalled
  | buildInfo
  deriving DecidableEq, Repr

/-- A gauge is set, a total only grows. -/
inductive MetricKind where
  | gauge
  | total
  deriving DecidableEq, Repr

def MetricKind.name : MetricKind → String
  | gauge => "gauge"
  | total => "counter"

namespace Metric

def all : List Metric :=
  [flowPackets, flowBytes, flowPacketsTotal, flowBytesTotal, pollsTotal, pollFailuresTotal,
    rulesInstalled, buildInfo]

def name : Metric → String
  | flowPackets => "flowmon_flow_packets"
  | flowBytes => "flowmon_flow_bytes"
  | flowPacketsTotal => "flowmon_flow_packets_total"
  | flowBytesTotal => "flowmon_flow_bytes_total"
  | pollsTotal => "flowmon_polls_total"
  | pollFailuresTotal => "flowmon_poll_failures_total"
  | rulesInstalled => "flowmon_rules_installed"
  | buildInfo => "flowmon_build_info"

def kind : Metric → MetricKind
  | flowPackets | flowBytes | rulesInstalled | buildInfo => .gauge
  | flowPacketsTotal | flowBytesTotal | pollsTotal | pollFailuresTotal => .total

def help : Metric → String
  | flowPackets => "Packets matched by a counter rule since the previous poll"
  | flowBytes => "Bytes matched by a counter rule since the previous poll"
  | flowPacketsTotal => "Packets matched by a counter rule since the exporter started"
  | flowBytesTotal => "Bytes matched by a counter rule since the exporter started"
  | pollsTotal => "Number of completed counter polls"
  | pollFailuresTotal => "Number of failed counter polls"
  | rulesInstalled => "Number of counter rules installed per chain"
  | buildInfo => "Build information (always 1, with version label)"

theorem mem_all (m : Metric) : m ∈ all := by cases m <;> decide

end Metric

end FlowTally

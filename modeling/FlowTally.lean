import FlowTally.Address
import FlowTally.Address.Text
import FlowTally.Bytes
import FlowTally.Client
import FlowTally.CommandLine.Client
import FlowTally.CommandLine.Grammar
import FlowTally.CommandLine.Service
import FlowTally.Config
import FlowTally.Config.Environment
import FlowTally.Config.Listen
import FlowTally.Config.Load
import FlowTally.Config.Read
import FlowTally.Config.Validate
import FlowTally.Config.Write
import FlowTally.Counter
import FlowTally.Daemon
import FlowTally.Data
import FlowTally.Data.Json
import FlowTally.Direction
import FlowTally.Edit
import FlowTally.Errno
import FlowTally.Expr
import FlowTally.Family
import FlowTally.Kernel
import FlowTally.Layout
import FlowTally.Logging
import FlowTally.Main
import FlowTally.Metrics
import FlowTally.Metrics.Exposition
import FlowTally.Metrics.Registry
import FlowTally.Monitor
import FlowTally.Netlink.Connection
import FlowTally.Netlink.Link
import FlowTally.Packet
import FlowTally.Packet.Evaluate
import FlowTally.Proofs.Acceptance
import FlowTally.Proofs.Installed
import FlowTally.Protocol
import FlowTally.Reconcile
import FlowTally.Report
import FlowTally.Report.Counting
import FlowTally.Report.Settings
import FlowTally.Rule
import FlowTally.Rule.Field
import FlowTally.Rule.OfCounter
import FlowTally.Rule.ToCounter
import FlowTally.Ruleset
import FlowTally.Session
import FlowTally.TcpFlags
import FlowTally.Terminal
import FlowTally.Text.Double
import FlowTally.Text.Escape
import FlowTally.Text.Hex
import FlowTally.Text.Number
import FlowTally.Text.Printable
import FlowTally.Toml.Document
import FlowTally.Toml.Lexical
import FlowTally.Toml.Print
import FlowTally.Toml.Quoted
import FlowTally.Toml.Scalar
import FlowTally.Toml.Tree
import FlowTally.Transport
import FlowTally.Transport.Error
import FlowTally.Warning
import FlowTally.Wire.Attribute
import FlowTally.Wire.Batch
import FlowTally.Wire.Comment
import FlowTally.Wire.Error
import FlowTally.Wire.Expr
import FlowTally.Wire.Kind
import FlowTally.Wire.Message
import FlowTally.Wire.Object
import FlowTally.Proofs.ReadBack
import FlowTally.Proofs.Matching
import FlowTally.Proofs.Traffic
import FlowTally.Proofs.Editing
import FlowTally.Proofs.Interference
import FlowTally.Proofs.Reconciling
import FlowTally.Proofs.Draining
import FlowTally.Proofs.Listing
import FlowTally.Proofs.Ledger
import FlowTally.Proofs.Refinement
import FlowTally.Proofs.Attributes
import FlowTally.Proofs.RuleMessages
import FlowTally.Proofs.Rereading
import FlowTally.Proofs.Requests
import FlowTally.Proofs.Configured
import FlowTally.Proofs.Reachable
import FlowTally.Proofs.Replacement
import FlowTally.Proofs.Hosting
import FlowTally.Proofs.Metering
import FlowTally.Proofs.Framing
import FlowTally.Proofs.Listening
import FlowTally.Proofs.Numbering
import FlowTally.Proofs.Attribution
import FlowTally.Proofs.Acknowledging
import FlowTally.Proofs.Dialogue
import FlowTally.Proofs.Batches
import FlowTally.Proofs.Demands
import FlowTally.Proofs.Alike
import FlowTally.Proofs.Describing
import FlowTally.Proofs.Placement
import FlowTally.Proofs.Effects
import FlowTally.Proofs.Sharing
import FlowTally.Proofs.Overtaking
import FlowTally.Proofs.Racing
import FlowTally.Proofs.Grammar
import FlowTally.Proofs.HeaderBytes
import FlowTally.Proofs.Staging
import FlowTally.Proofs.Lifetime
import FlowTally.Proofs.Overriding
import FlowTally.Proofs.Blaming
import FlowTally.Proofs.Matchable
import FlowTally.Proofs.Dumping
import FlowTally.Proofs.Truncation
import FlowTally.Proofs.Scanning
import FlowTally.Proofs.Extending
import FlowTally.Proofs.AddressText
import FlowTally.Proofs.Reloading
import FlowTally.Proofs.Userdata

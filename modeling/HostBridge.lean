import HostBridge.CommandLine.Run
import HostBridge.Config.File
import HostBridge.Event.Answer
import HostBridge.Link
import HostBridge.Main
import HostBridge.Proofs.Instances.Consistency
import HostBridge.Proofs.Instances.Freshness
import HostBridge.Proofs.Term.Induction
import HostBridge.Proofs.Term.RoundTrip
import HostBridge.Proofs.Value.Normal
import HostBridge.Proofs.Codec.Traversal
import HostBridge.Proofs.Codec.RoundTrip
import HostBridge.Proofs.Codec.Reencode
import HostBridge.Proofs.Json.Depth
import HostBridge.Proofs.Term.Grammar
import HostBridge.Proofs.Term.Acceptance
import HostBridge.Proofs.Double.Exact
import HostBridge.Proofs.Value.Leaves
import HostBridge.Proofs.Value.Equivalence
import HostBridge.Proofs.Codec.Parts
import HostBridge.Proofs.Host.Session
import HostBridge.Proofs.Host.Equality
import HostBridge.Proofs.Link.Registration
import HostBridge.Proofs.Link.Recorded
import HostBridge.Proofs.Link.InStep
import HostBridge.Proofs.Host.Events
import HostBridge.Proofs.Classes.History
import HostBridge.Proofs.Link.Rejection
import HostBridge.Proofs.Value.Places
import HostBridge.Proofs.Codec.Places
import HostBridge.Proofs.Host.Nil
import HostBridge.Proofs.Host.Later
import HostBridge.Proofs.Host.Membership
import HostBridge.Proofs.Term.Similar
import HostBridge.Proofs.Codec.Similar
import HostBridge.Proofs.Host.Similar
import HostBridge.Proofs.Decimal.Numeral
import HostBridge.Proofs.Double.Shortest
import HostBridge.Proofs.Json.Scalars
import HostBridge.Proofs.Json.RoundTrip
import HostBridge.Proofs.Fields
import HostBridge.Proofs.Json.Canonical
import HostBridge.Proofs.Term.Ordered
import HostBridge.Proofs.Term.Text
import HostBridge.Proofs.Codec.Refusal
import HostBridge.Proofs.CommandLine.Check
import HostBridge.Proofs.Event.RoundTrip
import HostBridge.Proofs.Silent
import HostBridge.Proofs.Codec.Resolution
import HostBridge.Proofs.Codec.Visits
import HostBridge.Proofs.Codec.Enrolment
import HostBridge.Proofs.Codec.Faults
import HostBridge.Proofs.Codec.Repeat
import HostBridge.Proofs.Host.Gate
import HostBridge.Proofs.Host.Specificity
import HostBridge.Proofs.Host.Advertised
import HostBridge.Proofs.Classes.Construction
import HostBridge.Proofs.Host.Construction
import HostBridge.Proofs.Instances.Order
import HostBridge.Proofs.Codec.Entries
import HostBridge.Proofs.Double.Value
import HostBridge.Proofs.Host.Relaxation
import HostBridge.Proofs.Link.Messages
import HostBridge.Proofs.Json.Exact

import InfraGraph.Collection.OrderedMap
import InfraGraph.Collection.OrderedSet
import InfraGraph.Name
import InfraGraph.UriPath
import InfraGraph.Decimal.Layout
import InfraGraph.Json.Printer
import InfraGraph.Json.Reader
import InfraGraph.Access.Declaration
import InfraGraph.Access.Policy
import InfraGraph.Schema.Violation
import InfraGraph.Digest
import InfraGraph.Resource.Fingerprint
import InfraGraph.Entity
import InfraGraph.Generation.Pass
import InfraGraph.Resource.Plan
import InfraGraph.Schema.Encode
import InfraGraph.Access.Format
import InfraGraph.Graph.Basic
import InfraGraph.Json.Format
import InfraGraph.Schema.Decode
import InfraGraph.Graph.Decode
import InfraGraph.Command.Run
import InfraGraph.Storage.Tree
import InfraGraph.Main
import InfraGraph.Proofs.Aws.Collision
import InfraGraph.Proofs.Aws.Emission
import InfraGraph.Proofs.Generation.Closed
import InfraGraph.Proofs.Generation.Stall
import InfraGraph.Proofs.Generation.Footprint
import InfraGraph.Proofs.Azure.Readiness
import InfraGraph.Proofs.Generation.Coverage
import InfraGraph.Proofs.Generation.Calls
import InfraGraph.Proofs.Generation.Order
import InfraGraph.Proofs.Digest
import InfraGraph.Proofs.Azure.Names
import InfraGraph.Proofs.Azure.Completion
import InfraGraph.Proofs.Access.Policy
import InfraGraph.Proofs.Aws.MethodSlots
import InfraGraph.Proofs.Resource.Plan
import InfraGraph.Proofs.Aws.PathTree
import InfraGraph.Proofs.Generation.Evolution
import InfraGraph.Proofs.Generation.Isolation
import InfraGraph.Proofs.Generation.Replan
import InfraGraph.Proofs.Access.Assignment
import InfraGraph.Proofs.Aws.Objects
import InfraGraph.Proofs.Aws.Statements
import InfraGraph.Proofs.Schema.RoundTrip
import InfraGraph.Proofs.Generation.Retention
import InfraGraph.Proofs.Generation.Accounting
import InfraGraph.Proofs.Generation.Levels
import InfraGraph.Proofs.Aws.Turns
import InfraGraph.Proofs.Resource.Diff
import InfraGraph.Proofs.Access.Aggregation
import InfraGraph.Proofs.Schema.Validity
import InfraGraph.Proofs.Command.Writes
import InfraGraph.Proofs.Generation.Manifest
import InfraGraph.Proofs.Aws.Agreement
import InfraGraph.Proofs.Azure.Pointers
import InfraGraph.Proofs.Name.Cloud
import InfraGraph.Proofs.Calendar.Text
import InfraGraph.Proofs.Graph.Digest

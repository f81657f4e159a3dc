import StepFlow.History.Column
import StepFlow.Main
import StepFlow.Proofs.Runner.Coherence
import StepFlow.Proofs.Runner.Threading
import StepFlow.Proofs.Runner.Walk
import StepFlow.Proofs.Runner.Delegation
import StepFlow.Proofs.Runner.Operable
import StepFlow.Proofs.Rule.Grammar
import StepFlow.Proofs.Text.Digits
import StepFlow.Proofs.Time.Calendar
import StepFlow.Proofs.Time.Instant
import StepFlow.Proofs.Text.Bytes
import StepFlow.Proofs.Time.Sorting
import StepFlow.Proofs.Binary64.Decimal
import StepFlow.Proofs.Json.Number
import StepFlow.Proofs.Json.Nesting
import StepFlow.Proofs.Json.Text
import StepFlow.Proofs.Decode
import StepFlow.Proofs.History.Record
import StepFlow.Proofs.History.Row
import StepFlow.Proofs.History.Eviction
import StepFlow.Proofs.Handler.Growth
import StepFlow.Proofs.Run.Nesting
import StepFlow.Proofs.Runner.Growth
import StepFlow.Proofs.Command.Execute
import StepFlow.Proofs.Command.Readable
import StepFlow.Proofs.Runner.Requests
import StepFlow.Proofs.Runner.Browsing
import StepFlow.Proofs.Runner.Containment
import StepFlow.Proofs.Runner.Merging
import StepFlow.Proofs.Runner.Inputs
import StepFlow.Proofs.Runner.Seeding
import StepFlow.Proofs.Decode.Arrangement
import StepFlow.Proofs.Graph.Node
import StepFlow.Proofs.Graph.Workflow
import StepFlow.Proofs.Runner.Messages
import StepFlow.Proofs.History.Listing
import StepFlow.Proofs.Runner.Restart
import StepFlow.Proofs.Runner.Presentation
import StepFlow.Proofs.Interchange
import StepFlow.Proofs.History.Clearing
import StepFlow.Proofs.History.Identity
import StepFlow.Proofs.Rule.Composition
import StepFlow.Proofs.Json.Equality
import StepFlow.Proofs.Rule.Comparison
import StepFlow.Proofs.Rule.Wrapping
import StepFlow.Proofs.Rule.Variables
import StepFlow.Proofs.Rule.Chains
import StepFlow.Proofs.Runner.Budget
import StepFlow.Proofs.Command.Budget
import StepFlow.Proofs.Graph.Validation
import StepFlow.Proofs.Graph.Configuration
import StepFlow.Proofs.Command.Report
import StepFlow.Proofs.Rule.Trimming

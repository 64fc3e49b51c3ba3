import Provision.Build.Clock
import Provision.Build.Error
import Provision.Build.Executor
import Provision.Build.Graph
import Provision.Build.Order
import Provision.Build.Plan
import Provision.Build.Registry
import Provision.Build.Report
import Provision.Build.Run
import Provision.Build.Saved
import Provision.Command.Arguments
import Provision.Command.Course
import Provision.Command.Error
import Provision.Command.Listing
import Provision.Command.Options
import Provision.Command.Workspace
import Provision.Document
import Provision.Entries
import Provision.Files
import Provision.Json.Decoder
import Provision.Json.Draft
import Provision.Json.Fault
import Provision.Json.Numeral
import Provision.Json.Printer
import Provision.Json.Reader
import Provision.Main
import Provision.Number.Double
import Provision.Number.Layout
import Provision.Number.Power
import Provision.Number.Rounding
import Provision.Number.Shortest
import Provision.Proofs.Build.Cancellation
import Provision.Proofs.Build.Determinism
import Provision.Proofs.Build.Ledger
import Provision.Proofs.Build.Report
import Provision.Proofs.Build.Safety
import Provision.Proofs.Build.Step
import Provision.Proofs.Build.Supply
import Provision.Proofs.Chain
import Provision.Proofs.Graph.Acceptance
import Provision.Proofs.Graph.Order
import Provision.Proofs.Graph.Placement
import Provision.Proofs.Graph.Reachability
import Provision.Proofs.Plan.Acceptance
import Provision.Resource
import Provision.Shape.Basic
import Provision.Shape.Fault
import Provision.Shape.Keys
import Provision.Shape.Read
import Provision.Shape.Write
import Provision.Sorted
import Provision.Stack.Addons
import Provision.Stack.Cluster
import Provision.Stack.DryRun
import Provision.Stack.Manifest
import Provision.Stack.Naming
import Provision.Stack.Network
import Provision.Stack.Observability
import Provision.Stack.Platform
import Provision.Stack.Queue
import Provision.Stack.Source
import Provision.Template.Context
import Provision.Template.Error
import Provision.Template.Placeholder
import Provision.Template.Request
import Provision.Template.Scope
import Provision.Template.Store
import Provision.Template.Variables
import Provision.Text.Blank
import Provision.Text.Hidden
import Provision.Text.Lower
import Provision.Text.Name
import Provision.Text.Path
import Provision.Text.Quoted
import Provision.Text.Split
import Provision.Time.Calendar
import Provision.Time.Instant
import Provision.Tree
import Provision.Yaml.Cursor
import Provision.Yaml.Event
import Provision.Yaml.Plain
import Provision.Yaml.Printer
import Provision.Yaml.Property
import Provision.Yaml.Reader
import Provision.Yaml.Scalar
import Provision.Yaml.Scanner
import Provision.Yaml.Token
import Provision.Proofs.Graph.Refusal
import Provision.Proofs.Lists
import Provision.Proofs.Entries
import Provision.Proofs.Plan.Ceiling
import Provision.Proofs.Plan.Cut
import Provision.Proofs.Shape.Keys
import Provision.Proofs.Shape.Folding
import Provision.Proofs.Shape.Reading
import Provision.Proofs.Shape.Respelling
import Provision.Proofs.Shape.Delivery
import Provision.Proofs.Stack.Configuration
import Provision.Proofs.Json.Numeral
import Provision.Proofs.Tree.Nulls
import Provision.Proofs.Tree.Depth
import Provision.Proofs.Json.Text
import Provision.Proofs.Json.Integer
import Provision.Proofs.Json.Draft
import Provision.Proofs.Json.RoundTrip
import Provision.Proofs.Document
import Provision.Proofs.Shape.Stripping
import Provision.Proofs.Shape.Admission
import Provision.Proofs.Shape.RoundTrip
import Provision.Proofs.Template.Placeholder
import Provision.Proofs.Template.Rendering
import Provision.Proofs.Plan.Single
import Provision.Proofs.Build.Refusal
import Provision.Proofs.Files
import Provision.Proofs.Template.Places
import Provision.Proofs.Stack.Isolation
import Provision.Proofs.Stack.Naming
import Provision.Proofs.Template.Listing
import Provision.Proofs.Template.Overlay
import Provision.Proofs.Command.Layers
import Provision.Proofs.Graph.Declared
import Provision.Proofs.Stack.Wiring
import Provision.Proofs.Stack.Foundation
import Provision.Proofs.Stack.Manifest
import Provision.Proofs.Stack.Refusal
import Provision.Proofs.Stack.DryRun
import Provision.Proofs.Command.Agreement
import Provision.Proofs.Graph.Cycle
import Provision.Proofs.Graph.Neighbours
import Provision.Proofs.Build.Blame
import Provision.Proofs.Plan.Verdict
import Provision.Proofs.Build.Diligence
import Provision.Proofs.Graph.Stability
import Provision.Proofs.Shape.Places
import Provision.Proofs.Shape.Faults
import Provision.Proofs.Shape.Omission
import Provision.Proofs.Stack.Conventions
import Provision.Proofs.Template.Unresolved
import Provision.Proofs.Template.Refusal
import Provision.Proofs.Template.Unordered
import Provision.Proofs.Build.Registry
import Provision.Proofs.Time.Calendar
import Provision.Proofs.Time.Instant
import Provision.Proofs.Json.Decoder
import Provision.Proofs.Build.Saved
import Provision.Proofs.Text.Letters
import Provision.Proofs.Template.Lookup
import Provision.Proofs.Template.Labels
import Provision.Proofs.Tree.Paths

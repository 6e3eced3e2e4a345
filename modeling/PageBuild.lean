import PageBuild.Build.Bundler
import PageBuild.Build.Compile
import PageBuild.Build.Host
import PageBuild.Build.Job
import PageBuild.Build.Request
import PageBuild.Build.Result
import PageBuild.Build.Run
import PageBuild.Build.Scaffold
import PageBuild.Build.Settings
import PageBuild.Build.Staging
import PageBuild.Build.Time
import PageBuild.CommandLine.Arguments
import PageBuild.CommandLine.Builds
import PageBuild.CommandLine.Request
import PageBuild.CommandLine.Run
import PageBuild.CommandLine.Terminal
import PageBuild.Component.Import
import PageBuild.Component.Index
import PageBuild.Distinct
import PageBuild.Failure
import PageBuild.Files.Access
import PageBuild.Files.Cause
import PageBuild.Files.Path
import PageBuild.Files.Tree
import PageBuild.Frame.Cell
import PageBuild.Frame.Message
import PageBuild.Frame.Stream
import PageBuild.Frame.Word
import PageBuild.Json.Binary64
import PageBuild.Json.Fault
import PageBuild.Json.Read
import PageBuild.Json.Record
import PageBuild.Json.Scan
import PageBuild.Json.Shortest
import PageBuild.Json.Skim
import PageBuild.Json.Value
import PageBuild.Json.Write
import PageBuild.Main
import PageBuild.Page.Context
import PageBuild.Page.Markup
import PageBuild.Page.Plan
import PageBuild.Page.Source
import PageBuild.Page.ValidCheck
import PageBuild.Pool.Basic
import PageBuild.Pool.Rest
import PageBuild.Pool.Service
import PageBuild.Pool.Step
import PageBuild.Proofs.Action
import PageBuild.Proofs.Build.Atomic
import PageBuild.Proofs.Build.Bundlers
import PageBuild.Proofs.Build.Compile
import PageBuild.Proofs.Build.Confined
import PageBuild.Proofs.Build.Delivery
import PageBuild.Proofs.Build.Host
import PageBuild.Proofs.Build.Isolation
import PageBuild.Proofs.Build.Ledger
import PageBuild.Proofs.Build.Outcome
import PageBuild.Proofs.Build.Overlook
import PageBuild.Proofs.Build.Request
import PageBuild.Proofs.Build.Scaffold
import PageBuild.Proofs.Build.Stage
import PageBuild.Proofs.Build.Staging
import PageBuild.Proofs.Component.Index
import PageBuild.Proofs.Distinct
import PageBuild.Proofs.Files.Apart
import PageBuild.Proofs.Files.Causes
import PageBuild.Proofs.Files.Copy
import PageBuild.Proofs.Files.Edit
import PageBuild.Proofs.Files.Extension
import PageBuild.Proofs.Files.Frame
import PageBuild.Proofs.Files.Lasting
import PageBuild.Proofs.Files.Locate
import PageBuild.Proofs.Files.Path
import PageBuild.Proofs.Files.Result
import PageBuild.Proofs.Files.Tree
import PageBuild.Proofs.Files.Walk
import PageBuild.Proofs.Files.Way
import PageBuild.Proofs.Frame.Message
import PageBuild.Proofs.Frame.Record
import PageBuild.Proofs.Frame.Stream
import PageBuild.Proofs.Frame.Text
import PageBuild.Proofs.Json.Accepts
import PageBuild.Proofs.Json.Characters
import PageBuild.Proofs.Json.Number
import PageBuild.Proofs.Json.Reads
import PageBuild.Proofs.Json.Record
import PageBuild.Proofs.Json.Value
import PageBuild.Proofs.Listing
import PageBuild.Proofs.Page.Attributes
import PageBuild.Proofs.Page.Imports
import PageBuild.Proofs.Page.Modes
import PageBuild.Proofs.Page.Outline
import PageBuild.Proofs.Page.Plan
import PageBuild.Proofs.Page.Uses
import PageBuild.Proofs.Pool.Accounts
import PageBuild.Proofs.Pool.Admission
import PageBuild.Proofs.Pool.Capacity
import PageBuild.Proofs.Pool.Change
import PageBuild.Proofs.Pool.Flow
import PageBuild.Proofs.Pool.Order
import PageBuild.Proofs.Pool.Settlement
import PageBuild.Proofs.Pool.WakeUp
import PageBuild.Proofs.Publish.Answers
import PageBuild.Proofs.Publish.Calls
import PageBuild.Proofs.Publish.Distribution
import PageBuild.Proofs.Publish.Entry
import PageBuild.Proofs.Publish.Listed
import PageBuild.Proofs.Publish.LocalStore
import PageBuild.Proofs.Publish.Puts
import PageBuild.Proofs.Publish.Recorded
import PageBuild.Proofs.Publish.Rivals
import PageBuild.Proofs.Publish.Stocked
import PageBuild.Proofs.Publish.Template
import PageBuild.Proofs.Publish.Uploads
import PageBuild.Proofs.Schema.Forest
import PageBuild.Proofs.Schema.Node
import PageBuild.Proofs.Schema.RoundTrip
import PageBuild.Proofs.Text.Kebab
import PageBuild.Proofs.Text.Split
import PageBuild.Proofs.Worker.Attended
import PageBuild.Proofs.Worker.Course
import PageBuild.Proofs.Worker.Errand
import PageBuild.Proofs.Worker.Expiry
import PageBuild.Proofs.Worker.Isolated
import PageBuild.Proofs.Worker.KillSwitch
import PageBuild.Proofs.Worker.Limit
import PageBuild.Proofs.Worker.Phase
import PageBuild.Proofs.Worker.Reading
import PageBuild.Proofs.Worker.Report
import PageBuild.Proofs.Worker.Session
import PageBuild.Proofs.Worker.SharedSwitch
import PageBuild.Proofs.Worker.Thread
import PageBuild.Publish.Publish
import PageBuild.Publish.Publisher
import PageBuild.Publish.Store
import PageBuild.Publish.Uploads
import PageBuild.Schema.Basic
import PageBuild.Schema.Read
import PageBuild.Schema.Write
import PageBuild.Shell.Builtin
import PageBuild.Shell.Filter
import PageBuild.Shell.Machine
import PageBuild.Shell.Pattern
import PageBuild.Shell.Run
import PageBuild.Shell.Script
import PageBuild.Shell.Utility
import PageBuild.Shell.Word
import PageBuild.Template.Element
import PageBuild.Template.Expression
import PageBuild.Template.Fill
import PageBuild.Template.Reference
import PageBuild.Template.Tag
import PageBuild.Text.Basic
import PageBuild.Text.Shown
import PageBuild.Worker.Conversation
import PageBuild.Worker.Course
import PageBuild.Worker.Handle
import PageBuild.Worker.KillSwitch
import PageBuild.Worker.Launch
import PageBuild.Worker.Location
import PageBuild.Worker.Message
import PageBuild.Worker.Outcome
import PageBuild.Worker.Process
import PageBuild.Worker.Program
import PageBuild.Worker.Session

import BuildStepper.Main
import BuildStepper.Proofs.Breakpoints
import BuildStepper.Proofs.CommandLine.Override
import BuildStepper.Proofs.CommandLine.Port
import BuildStepper.Proofs.Json.Nesting
import BuildStepper.Proofs.Json.Written
import BuildStepper.Proofs.Lists
import BuildStepper.Proofs.Log.Filter
import BuildStepper.Proofs.Properties.Definition
import BuildStepper.Proofs.Properties.Report
import BuildStepper.Proofs.Properties.Succession
import BuildStepper.Proofs.Replay.Progress
import BuildStepper.Proofs.Replay.Properties
import BuildStepper.Proofs.Replay.StepInto
import BuildStepper.Proofs.Replay.StepOver
import BuildStepper.Proofs.Replay.Traversal
import BuildStepper.Proofs.Replay.Unattended
import BuildStepper.Proofs.Results
import BuildStepper.Proofs.Session.ClientView
import BuildStepper.Proofs.Session.Coherence
import BuildStepper.Proofs.Session.Execution
import BuildStepper.Proofs.Session.History
import BuildStepper.Proofs.Session.Invariant
import BuildStepper.Proofs.Session.Leftover
import BuildStepper.Proofs.Session.Lifecycle
import BuildStepper.Proofs.Session.Output
import BuildStepper.Proofs.Session.Parties
import BuildStepper.Proofs.Session.Reported
import BuildStepper.Proofs.Session.SharedProperties
import BuildStepper.Proofs.Session.StepOver
import BuildStepper.Proofs.Session.Suspension
import BuildStepper.Proofs.Session.Transitions
import BuildStepper.Proofs.Session.Transparency
import BuildStepper.Proofs.Settings.Fallback
import BuildStepper.Proofs.Settings.Files
import BuildStepper.Proofs.Settings.Independence
import BuildStepper.Proofs.Settings.Port
import BuildStepper.Proofs.Settings.Records
import BuildStepper.Proofs.Settings.UnknownKeys
import BuildStepper.Proofs.Text.Basic
import BuildStepper.Proofs.Toml.Entrywise
import BuildStepper.Proofs.Toml.KeyTree
import BuildStepper.Proofs.Toml.Tables
import BuildStepper.Proofs.Trace.Document
import BuildStepper.Proofs.Trace.Nodes
import BuildStepper.Proofs.Trace.Visits
import BuildStepper.Proofs.Wire.Arrival
import BuildStepper.Proofs.Wire.Command
import BuildStepper.Proofs.Wire.CommandStream
import BuildStepper.Proofs.Wire.Completion
import BuildStepper.Proofs.Wire.Cut
import BuildStepper.Proofs.Wire.Field
import BuildStepper.Proofs.Wire.Grammar
import BuildStepper.Proofs.Wire.Incoming
import BuildStepper.Proofs.Wire.Items
import BuildStepper.Proofs.Wire.Limit
import BuildStepper.Proofs.Wire.Line
import BuildStepper.Proofs.Wire.Notification
import BuildStepper.Proofs.Wire.Stretch
import BuildStepper.Settings.Plain
import BuildStepper.Trace.Writer

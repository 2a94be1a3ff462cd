import ActionEngine.Action.Basic
import ActionEngine.Action.Builtin
import ActionEngine.Action.Category
import ActionEngine.Action.Suggestion
import ActionEngine.Action.Template
import ActionEngine.Bus.Basic
import ActionEngine.Bus.World
import ActionEngine.Chat.Client
import ActionEngine.Chat.Failure
import ActionEngine.Chat.Provider
import ActionEngine.Chat.Request
import ActionEngine.Chat.Retry
import ActionEngine.Citation.Manager
import ActionEngine.Citation.Url
import ActionEngine.CommandLine.Arguments
import ActionEngine.CommandLine.Grammar
import ActionEngine.CommandLine.Program
import ActionEngine.CommandLine.Reach
import ActionEngine.CommandLine.Terminal
import ActionEngine.Config.Parser
import ActionEngine.Config.Printer
import ActionEngine.Config.Remark
import ActionEngine.Config.Source
import ActionEngine.Config.Token
import ActionEngine.Coordinator.Desk
import ActionEngine.Coordinator.Floor
import ActionEngine.Coordinator.Hooks
import ActionEngine.Coordinator.Session
import ActionEngine.Disk.Path
import ActionEngine.Disk.Tree
import ActionEngine.Environment
import ActionEngine.Event
import ActionEngine.Fault
import ActionEngine.Journal.Basic
import ActionEngine.Journal.File
import ActionEngine.Journal.Level
import ActionEngine.Json.Printer
import ActionEngine.Json.Reader
import ActionEngine.Lifecycle.Machine
import ActionEngine.Lifecycle.State
import ActionEngine.Log
import ActionEngine.Main
import ActionEngine.Number.Binary64
import ActionEngine.Number.Coercion
import ActionEngine.Number.Decimal
import ActionEngine.Number.Reading
import ActionEngine.Proofs.Action.Dependence
import ActionEngine.Proofs.Action.Substitution
import ActionEngine.Proofs.Bus.Deed
import ActionEngine.Proofs.Bus.Delivery
import ActionEngine.Proofs.Bus.Depth
import ActionEngine.Proofs.Bus.History
import ActionEngine.Proofs.Bus.Liveness
import ActionEngine.Proofs.Bus.Order
import ActionEngine.Proofs.Bus.Pruning
import ActionEngine.Proofs.Chat.Attempts
import ActionEngine.Proofs.Chat.Replies
import ActionEngine.Proofs.Citation.Url
import ActionEngine.Proofs.CommandLine.Citations
import ActionEngine.Proofs.CommandLine.Listing
import ActionEngine.Proofs.CommandLine.Printing
import ActionEngine.Proofs.CommandLine.Secrecy
import ActionEngine.Proofs.CommandLine.SharedFile
import ActionEngine.Proofs.Config.Accounting
import ActionEngine.Proofs.Config.Block
import ActionEngine.Proofs.Config.Boundary
import ActionEngine.Proofs.Config.Classification
import ActionEngine.Proofs.Config.Documents
import ActionEngine.Proofs.Config.Grouping
import ActionEngine.Proofs.Config.Indentation
import ActionEngine.Proofs.Config.Insertion
import ActionEngine.Proofs.Config.Phases
import ActionEngine.Proofs.Config.Prompt
import ActionEngine.Proofs.Config.Reading
import ActionEngine.Proofs.Config.Reload
import ActionEngine.Proofs.Config.RoundTrip
import ActionEngine.Proofs.Config.Token
import ActionEngine.Proofs.Coordinator.Acceptance
import ActionEngine.Proofs.Coordinator.Advance
import ActionEngine.Proofs.Coordinator.Alike
import ActionEngine.Proofs.Coordinator.Answers
import ActionEngine.Proofs.Coordinator.Cancellation
import ActionEngine.Proofs.Coordinator.Consistency
import ActionEngine.Proofs.Coordinator.Consultation
import ActionEngine.Proofs.Coordinator.Consumer
import ActionEngine.Proofs.Coordinator.Course
import ActionEngine.Proofs.Coordinator.Failure
import ActionEngine.Proofs.Coordinator.Flag
import ActionEngine.Proofs.Coordinator.Moves
import ActionEngine.Proofs.Coordinator.Offer
import ActionEngine.Proofs.Coordinator.Omission
import ActionEngine.Proofs.Coordinator.Order
import ActionEngine.Proofs.Coordinator.Publication
import ActionEngine.Proofs.Coordinator.Record
import ActionEngine.Proofs.Coordinator.Refusal
import ActionEngine.Proofs.Coordinator.Release
import ActionEngine.Proofs.Coordinator.Retirement
import ActionEngine.Proofs.Coordinator.Snapshots
import ActionEngine.Proofs.Coordinator.Step
import ActionEngine.Proofs.Coordinator.Turn
import ActionEngine.Proofs.Coordinator.Uninterrupted
import ActionEngine.Proofs.Coordinator.View
import ActionEngine.Proofs.Disk.Faults
import ActionEngine.Proofs.Disk.Files
import ActionEngine.Proofs.Disk.Twins
import ActionEngine.Proofs.Fields
import ActionEngine.Proofs.Journal.Twins
import ActionEngine.Proofs.Json.Document
import ActionEngine.Proofs.Json.RoundTrip
import ActionEngine.Proofs.Json.Scalar
import ActionEngine.Proofs.KeyOrder
import ActionEngine.Proofs.Lifecycle.Calls
import ActionEngine.Proofs.Number.Decimal
import ActionEngine.Proofs.Number.Rounding
import ActionEngine.Proofs.Registry.Categories
import ActionEngine.Proofs.Registry.History
import ActionEngine.Proofs.Registry.Merging
import ActionEngine.Proofs.Secret.Aes
import ActionEngine.Proofs.Secret.Fernet
import ActionEngine.Proofs.Secret.KeyFile
import ActionEngine.Proofs.Secret.Site
import ActionEngine.Proofs.Secret.Vault
import ActionEngine.Proofs.Settings.Fallback
import ActionEngine.Proofs.Settings.KeyEntries
import ActionEngine.Proofs.Settings.Load
import ActionEngine.Proofs.Settings.Migration
import ActionEngine.Proofs.Settings.Override
import ActionEngine.Proofs.Settings.Placement
import ActionEngine.Proofs.Settings.Saved
import ActionEngine.Proofs.Settings.Secrecy
import ActionEngine.Proofs.Settings.Twins
import ActionEngine.Proofs.Settings.Veiled
import ActionEngine.Proofs.Steps
import ActionEngine.Proofs.Text.Blank
import ActionEngine.Proofs.Text.Lines
import ActionEngine.Proofs.Text.Loose
import ActionEngine.Proofs.Text.Utf8
import ActionEngine.Proofs.TextRange
import ActionEngine.Proofs.TextRange.Offsets
import ActionEngine.Proofs.Value
import ActionEngine.Registry.Snapshot
import ActionEngine.Registry.Store
import ActionEngine.Secret.Aes
import ActionEngine.Secret.Base64
import ActionEngine.Secret.Entropy
import ActionEngine.Secret.Fernet
import ActionEngine.Secret.Sha256
import ActionEngine.Secret.Vault
import ActionEngine.Settings.Field
import ActionEngine.Settings.Override
import ActionEngine.Settings.Report
import ActionEngine.Settings.Store
import ActionEngine.Text.Blank
import ActionEngine.Text.DecimalDigit
import ActionEngine.Text.Encoding
import ActionEngine.Text.Letters
import ActionEngine.Text.Lines
import ActionEngine.Text.Loose
import ActionEngine.Text.Printable
import ActionEngine.Text.Quoted
import ActionEngine.Text.Utf8
import ActionEngine.TextRange
import ActionEngine.Value

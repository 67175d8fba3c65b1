import Payroll.Database.Basic
import Payroll.Database.Catalog
import Payroll.Database.Fault
import Payroll.Database.Limits
import Payroll.Database.Migration
import Payroll.Database.Query
import Payroll.Database.Relation
import Payroll.Database.Row
import Payroll.Database.Schema
import Payroll.Database.Statics
import Payroll.Database.Versions
import Payroll.Decimal.Binary
import Payroll.Decimal.Extended
import Payroll.Decimal.Layout
import Payroll.Decimal.Plain
import Payroll.Decimal.Scaled
import Payroll.Decimal.Shortest
import Payroll.Http.Call
import Payroll.Http.Fault
import Payroll.Http.Health
import Payroll.Http.Interface
import Payroll.Http.Media
import Payroll.Http.Route
import Payroll.Http.Target
import Payroll.Json.Basic
import Payroll.Json.Flat
import Payroll.Json.Form
import Payroll.Json.Merge
import Payroll.Json.Numeral
import Payroll.Json.Printer
import Payroll.Json.Token
import Payroll.Json.Tree
import Payroll.Log.Control
import Payroll.Log.Directive
import Payroll.Log.Event
import Payroll.Log.Filter
import Payroll.Log.Level
import Payroll.Main
import Payroll.Program.Arguments
import Payroll.Program.Exchange
import Payroll.Program.Files
import Payroll.Program.Locator
import Payroll.Program.Notice
import Payroll.Program.Opening
import Payroll.Program.Page
import Payroll.Program.Run
import Payroll.Record.Data
import Payroll.Record.Form
import Payroll.Record.Meta
import Payroll.Server.Address
import Payroll.Server.Config
import Payroll.Server.Listener
import Payroll.Server.Shutdown
import Payroll.Service.Fault
import Payroll.Service.Invalid
import Payroll.Service.Operations
import Payroll.Service.Reference
import Payroll.Service.Request
import Payroll.Settings.Basic
import Payroll.Settings.Fault
import Payroll.Settings.Form
import Payroll.Settings.Load
import Payroll.Settings.Override
import Payroll.Settings.Variable
import Payroll.Settings.Watcher
import Payroll.Sql.Filter
import Payroll.Sql.Name
import Payroll.Sql.Numeral
import Payroll.Sql.Refinement
import Payroll.Sql.Statement
import Payroll.Sql.Value
import Payroll.Store.Call
import Payroll.Store.Cluster
import Payroll.Store.Connection
import Payroll.Store.Fault
import Payroll.Store.Ledger
import Payroll.Store.Period
import Payroll.Store.Static
import Payroll.Store.Step
import Payroll.Store.Versioned
import Payroll.Text.Blank
import Payroll.Text.CaseTable
import Payroll.Text.Email
import Payroll.Text.Integer
import Payroll.Text.Lowercase
import Payroll.Text.Pattern
import Payroll.Text.Percent
import Payroll.Text.Source
import Payroll.Text.Split
import Payroll.Text.WordTable
import Payroll.Width
import Payroll.Proofs.Kind
import Payroll.Proofs.Operation
import Payroll.Proofs.History
import Payroll.Proofs.Statement
import Payroll.Proofs.Write
import Payroll.Proofs.Run
import Payroll.Proofs.Chain
import Payroll.Proofs.Real
import Payroll.Proofs.Durable
import Payroll.Proofs.Filter
import Payroll.Proofs.Session
import Payroll.Proofs.Accepted
import Payroll.Proofs.Integrity
import Payroll.Proofs.Agreement
import Payroll.Proofs.Effect
import Payroll.Proofs.Answer
import Payroll.Proofs.Alike
import Payroll.Proofs.Replicas
import Payroll.Proofs.Refined
import Payroll.Proofs.Period
import Payroll.Proofs.Served
import Payroll.Proofs.Endpoints
import Payroll.Proofs.Migration
import Payroll.Proofs.Deed
import Payroll.Proofs.Register
import Payroll.Proofs.Token
import Payroll.Proofs.Spelling
import Payroll.Proofs.Printed
import Payroll.Proofs.Merge
import Payroll.Proofs.Layers
import Payroll.Proofs.Invariant
import Payroll.Proofs.Body
import Payroll.Proofs.Successor
import Payroll.Proofs.Resubmit
import Payroll.Proofs.Rotation
import Payroll.Proofs.Watch
import Payroll.Proofs.Legible
import Payroll.Proofs.Refusal
import Payroll.Proofs.Interrupt
import Payroll.Proofs.Appending
import Payroll.Proofs.Contractor
import Payroll.Proofs.Upgrade
import Payroll.Proofs.Batch
import Payroll.Proofs.Selection
import Payroll.Proofs.Condition
import Payroll.Proofs.Filtered
import Payroll.Proofs.Order
import Payroll.Proofs.Sorted
import Payroll.Proofs.Recheck
import Payroll.Proofs.Window
import Payroll.Proofs.Email
import Payroll.Proofs.Finite
import Payroll.Proofs.Layout
import Payroll.Proofs.Entries
import Payroll.Proofs.Roundtrip
import Payroll.Proofs.Overlay
import Payroll.Proofs.Kept
import Payroll.Proofs.Override
import Payroll.Proofs.Grammar
import Payroll.Proofs.Fields
import Payroll.Proofs.Arrangement
import Payroll.Proofs.Reworded
import Payroll.Proofs.Quoting
import Payroll.Proofs.Placeholder
import Payroll.Proofs.Rendered
import Payroll.Proofs.Variable

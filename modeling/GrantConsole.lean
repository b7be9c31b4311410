import GrantConsole.Api.Client
import GrantConsole.Api.Endpoint
import GrantConsole.Api.Failure
import GrantConsole.Api.Operation
import GrantConsole.Api.Request
import GrantConsole.Api.Script
import GrantConsole.Console.Chrome
import GrantConsole.Console.Page
import GrantConsole.Console.Place
import GrantConsole.Console.Server
import GrantConsole.Console.Shot
import GrantConsole.Console.Step
import GrantConsole.Console.Tab
import GrantConsole.Domain.Account
import GrantConsole.Domain.Choice
import GrantConsole.Domain.Grant
import GrantConsole.Domain.Resource
import GrantConsole.Domain.Rule
import GrantConsole.Draft.Basic
import GrantConsole.Draft.Indexed
import GrantConsole.Form.Basic
import GrantConsole.Host.Client
import GrantConsole.Host.Config
import GrantConsole.Host.Relay
import GrantConsole.Host.Router
import GrantConsole.Json.Basic
import GrantConsole.Json.Digits
import GrantConsole.Json.Free
import GrantConsole.Json.Kind
import GrantConsole.Json.Message
import GrantConsole.Json.Printer
import GrantConsole.Json.Quoted
import GrantConsole.Json.Reader
import GrantConsole.Json.Skip
import GrantConsole.Listing.Basic
import GrantConsole.Markup.Find
import GrantConsole.Markup.Node
import GrantConsole.Markup.Render
import GrantConsole.Markup.Stray
import GrantConsole.Number.Binary64
import GrantConsole.Number.Decimal
import GrantConsole.Number.Layout
import GrantConsole.Number.Power
import GrantConsole.Number.Rounding
import GrantConsole.Number.Shortest
import GrantConsole.Proofs.Api.Addresses
import GrantConsole.Proofs.Api.Call
import GrantConsole.Proofs.Api.ItemPaths
import GrantConsole.Proofs.Console.Access
import GrantConsole.Proofs.Console.Changes
import GrantConsole.Proofs.Console.Chrome
import GrantConsole.Proofs.Console.Controls
import GrantConsole.Proofs.Console.Cost
import GrantConsole.Proofs.Console.Deletion
import GrantConsole.Proofs.Console.EditedRule
import GrantConsole.Proofs.Console.EditsWithheld
import GrantConsole.Proofs.Console.Events
import GrantConsole.Proofs.Console.Existing
import GrantConsole.Proofs.Console.Failing
import GrantConsole.Proofs.Console.Failures
import GrantConsole.Proofs.Console.FormClicks
import GrantConsole.Proofs.Console.FormHeard
import GrantConsole.Proofs.Console.FormWithheld
import GrantConsole.Proofs.Console.GrantSaved
import GrantConsole.Proofs.Console.HeaderGrant
import GrantConsole.Proofs.Console.OpenDialog
import GrantConsole.Proofs.Console.Refusals
import GrantConsole.Proofs.Console.Repeats
import GrantConsole.Proofs.Console.Requests
import GrantConsole.Proofs.Console.Sending
import GrantConsole.Proofs.Console.SignedOut
import GrantConsole.Proofs.Console.Strays
import GrantConsole.Proofs.Console.Submits
import GrantConsole.Proofs.Console.Timers
import GrantConsole.Proofs.Console.Untold
import GrantConsole.Proofs.Domain.Enlarged
import GrantConsole.Proofs.Domain.RoundTrip
import GrantConsole.Proofs.Domain.RuleKept
import GrantConsole.Proofs.Domain.Toggles
import GrantConsole.Proofs.Draft.Clauses
import GrantConsole.Proofs.Draft.Flight
import GrantConsole.Proofs.Draft.Fresh
import GrantConsole.Proofs.Draft.Interleaved
import GrantConsole.Proofs.Draft.Order
import GrantConsole.Proofs.Draft.Retry
import GrantConsole.Proofs.Draft.Submit
import GrantConsole.Proofs.Draft.Target
import GrantConsole.Proofs.Form.Money
import GrantConsole.Proofs.Form.Parameters
import GrantConsole.Proofs.Host.Address
import GrantConsole.Proofs.Host.Relayed
import GrantConsole.Proofs.Host.Transparent
import GrantConsole.Proofs.Json.Decided
import GrantConsole.Proofs.Json.Free
import GrantConsole.Proofs.Json.Grammar
import GrantConsole.Proofs.Json.Literal
import GrantConsole.Proofs.Json.Numeral
import GrantConsole.Proofs.Json.Passing
import GrantConsole.Proofs.Json.Quoted
import GrantConsole.Proofs.Json.Taken
import GrantConsole.Proofs.Json.Written
import GrantConsole.Proofs.Listing.Crossing
import GrantConsole.Proofs.Listing.Keyed
import GrantConsole.Proofs.Listing.Loads
import GrantConsole.Proofs.Listing.Rows
import GrantConsole.Proofs.Listing.Total
import GrantConsole.Proofs.Markup.Handles
import GrantConsole.Proofs.Markup.Shell
import GrantConsole.Proofs.Number.Cents
import GrantConsole.Proofs.Number.Exact
import GrantConsole.Proofs.Number.Nearest
import GrantConsole.Proofs.Number.Reread
import GrantConsole.Proofs.Record.Agreement
import GrantConsole.Proofs.Record.Coerced
import GrantConsole.Proofs.Record.Kept
import GrantConsole.Proofs.Record.Lossless
import GrantConsole.Proofs.Record.Passing
import GrantConsole.Proofs.Record.Rearranged
import GrantConsole.Proofs.Record.Written
import GrantConsole.Proofs.Screen.FormButtons
import GrantConsole.Proofs.Screen.FormControls
import GrantConsole.Proofs.Screen.Repeats
import GrantConsole.Proofs.Screen.Sessions
import GrantConsole.Proofs.Session.Entries
import GrantConsole.Proofs.Toast.Queue
import GrantConsole.Proofs.Url.Decoded
import GrantConsole.Proofs.Url.Plain
import GrantConsole.Proofs.Url.Segments
import GrantConsole.Proofs.Url.Target
import GrantConsole.Proofs.Widget.Table
import GrantConsole.Record.Reader
import GrantConsole.Record.Shape
import GrantConsole.Record.Value
import GrantConsole.Record.Writer
import GrantConsole.Screen.Approvals
import GrantConsole.Screen.Basic
import GrantConsole.Screen.Categories
import GrantConsole.Screen.Expenses
import GrantConsole.Screen.Frame
import GrantConsole.Screen.Grants
import GrantConsole.Screen.Overview
import GrantConsole.Screen.Roles
import GrantConsole.Screen.Rows
import GrantConsole.Screen.RuleEditor
import GrantConsole.Screen.Rules
import GrantConsole.Screen.SignIn
import GrantConsole.Screen.Users
import GrantConsole.Session.Access
import GrantConsole.Session.Basic
import GrantConsole.Session.Watch
import GrantConsole.Text.Blank
import GrantConsole.Text.Joining
import GrantConsole.Text.Ranges
import GrantConsole.Text.Shown
import GrantConsole.Text.Unprinted
import GrantConsole.Text.Whole
import GrantConsole.Toast.Basic
import GrantConsole.Url.Absolute
import GrantConsole.Url.Domain
import GrantConsole.Url.Host
import GrantConsole.Url.Label
import GrantConsole.Url.Location
import GrantConsole.Url.Path
import GrantConsole.Url.Percent
import GrantConsole.Url.Query
import GrantConsole.Url.Scheme
import GrantConsole.Url.Target
import GrantConsole.Widget.Clause
import GrantConsole.Widget.Dialog
import GrantConsole.Widget.Field
import GrantConsole.Widget.Table
import GrantConsole.Widget.ToastHost

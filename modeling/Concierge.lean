import Concierge.Account
import Concierge.Api.MediaType
import Concierge.Api.Problem
import Concierge.Api.Request
import Concierge.Api.Router
import Concierge.Bridge
import Concierge.Channel
import Concierge.Client
import Concierge.CommandLine.Arguments
import Concierge.CommandLine.Help
import Concierge.CommandLine.LogFilter
import Concierge.CommandLine.Program
import Concierge.Credential
import Concierge.Delivery
import Concierge.Directory.Google
import Concierge.Directory.HipChat
import Concierge.Directory.Hub
import Concierge.Directory.Slack
import Concierge.Eligibility
import Concierge.Error
import Concierge.Event
import Concierge.Http.Network
import Concierge.Http.Providers
import Concierge.Http.Request
import Concierge.Json.Basic
import Concierge.Json.Printer
import Concierge.Json.Reader
import Concierge.Json.Records
import Concierge.Json.Text
import Concierge.Json.Tree
import Concierge.Main
import Concierge.Message
import Concierge.Net.Ip
import Concierge.Net.SocketAddress
import Concierge.Notifier.Chat
import Concierge.Notifier.Email
import Concierge.Notifier.ShortMessage
import Concierge.Outside
import Concierge.Person
import Concierge.Proofs.Api.Hosts
import Concierge.Proofs.Api.Labels
import Concierge.Proofs.Api.Parity
import Concierge.Proofs.Api.SyncAnswers
import Concierge.Proofs.CommandLine.Checked
import Concierge.Proofs.CommandLine.Shown
import Concierge.Proofs.Credentials
import Concierge.Proofs.Delivery.Candidates
import Concierge.Proofs.Delivery.FirstSuccess
import Concierge.Proofs.Delivery.Notes
import Concierge.Proofs.Delivery.Orderly
import Concierge.Proofs.Delivery.Promised
import Concierge.Proofs.Delivery.Shift
import Concierge.Proofs.Delivery.Tasks
import Concierge.Proofs.Directory.AllOrNothing
import Concierge.Proofs.Directory.Coverage
import Concierge.Proofs.Directory.Entries
import Concierge.Proofs.Directory.Identifiers
import Concierge.Proofs.Directory.Paging
import Concierge.Proofs.Directory.Users
import Concierge.Proofs.Fallible
import Concierge.Proofs.History
import Concierge.Proofs.Http.Addresses
import Concierge.Proofs.Http.BaseAddresses
import Concierge.Proofs.Http.Conversation
import Concierge.Proofs.Http.Questions
import Concierge.Proofs.Http.Requests
import Concierge.Proofs.Isolation.Confinement
import Concierge.Proofs.Isolation.Operations
import Concierge.Proofs.Isolation.Rows
import Concierge.Proofs.Isolation.Tenants
import Concierge.Proofs.Json.Forms
import Concierge.Proofs.Json.Layout
import Concierge.Proofs.Json.Objects
import Concierge.Proofs.Json.Patch
import Concierge.Proofs.Json.Printed
import Concierge.Proofs.Json.Rearranged
import Concierge.Proofs.Json.Records
import Concierge.Proofs.Json.RoundTrips
import Concierge.Proofs.Lookups
import Concierge.Proofs.Notifier.Acceptance
import Concierge.Proofs.Notifier.Recipient
import Concierge.Proofs.Notifier.SentPairs
import Concierge.Proofs.Outside
import Concierge.Proofs.Settings.Layouts
import Concierge.Proofs.Settings.Precedence
import Concierge.Proofs.Settings.Printing
import Concierge.Proofs.Settings.Strictness
import Concierge.Proofs.Settings.Variables
import Concierge.Proofs.Store.Agreement
import Concierge.Proofs.Store.Calls
import Concierge.Proofs.Store.Growth
import Concierge.Proofs.Store.Keys
import Concierge.Proofs.Store.ReadBack
import Concierge.Proofs.Sync.Dependence
import Concierge.Proofs.Sync.ExternalIds
import Concierge.Proofs.Sync.Fetch
import Concierge.Proofs.Sync.Idempotence
import Concierge.Proofs.Sync.Interleaving
import Concierge.Proofs.Sync.LastWriteWins
import Concierge.Proofs.Sync.Origins
import Concierge.Proofs.Sync.Outcome
import Concierge.Proofs.Sync.Plan
import Concierge.Proofs.Sync.Reachability
import Concierge.Proofs.Sync.Resolution
import Concierge.Proofs.Sync.Rollback
import Concierge.Proofs.Sync.Skipping
import Concierge.Proofs.Sync.Splitting
import Concierge.Proofs.Template.FromLeft
import Concierge.Proofs.Template.Segments
import Concierge.Proofs.Text.Utf8
import Concierge.Proofs.Url.Authority
import Concierge.Proofs.Url.Endpoint
import Concierge.Proofs.Url.Form
import Concierge.Proofs.Url.Joining
import Concierge.Proofs.Url.Path
import Concierge.Proofs.Url.Percent
import Concierge.Proofs.Uuid
import Concierge.Report
import Concierge.Service
import Concierge.Settings.Environment
import Concierge.Settings.Layers
import Concierge.Settings.Program
import Concierge.Settings.Provider
import Concierge.Settings.Range
import Concierge.Settings.Service
import Concierge.Store.Basic
import Concierge.Store.Queries
import Concierge.Store.Rows
import Concierge.Sync
import Concierge.Template
import Concierge.Tenant
import Concierge.Text.Base64
import Concierge.Text.Blank
import Concierge.Text.Decimal
import Concierge.Text.Digit
import Concierge.Text.Utf8
import Concierge.Url.Basic
import Concierge.Url.Form
import Concierge.Url.Host
import Concierge.Url.Percent
import Concierge.Url.Punycode
import Concierge.Uuid
import Concierge.Width
import Concierge.World
import Concierge.Yaml.Document
import Concierge.Yaml.Scalar
import Concierge.Yaml.Token
import Concierge.Yaml.Token.Lexer

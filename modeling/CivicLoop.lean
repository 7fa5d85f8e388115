import CivicLoop.Foundation.Transition
import CivicLoop.Foundation.Table
import CivicLoop.Foundation.Checked
import CivicLoop.Foundation.Calendar
import CivicLoop.Budget.Ledger
import CivicLoop.Budget.Conservation
import CivicLoop.Budget.Outcome
import CivicLoop.Foundation.Json
import CivicLoop.Foundation.PyText
import CivicLoop.Foundation.DateTime
import CivicLoop.Foundation.FreeHash
import CivicLoop.Agents.Schema
import CivicLoop.Agents.Db
import CivicLoop.Agents.Broker
import CivicLoop.Agents.Calls
import CivicLoop.Agents.Lane
import CivicLoop.Agents.System
import CivicLoop.Agents.LaneView
import CivicLoop.Agents.LaneRefinement
import CivicLoop.Agents.LaneInvariant
import CivicLoop.Agents.Frames
import CivicLoop.Agents.Sample
import CivicLoop.Agents.StartReceipts
import CivicLoop.Agents.Invocations
import CivicLoop.Agents.Scope
import CivicLoop.Agents.Operations
import CivicLoop.Agents.AcceptedOperations
import CivicLoop.Agents.HonestRun
import CivicLoop.Drafts.Payload
import CivicLoop.Drafts.Model
import CivicLoop.Drafts.Review
import CivicLoop.Drafts.Service
import CivicLoop.Drafts.System
import CivicLoop.Drafts.Steps
import CivicLoop.Drafts.Digests
import CivicLoop.Drafts.Invariant
import CivicLoop.Drafts.AtMostOnce
import CivicLoop.Drafts.Sample
import CivicLoop.Drafts.Lifecycle
import CivicLoop.Drafts.Approved
import CivicLoop.Foundation.Base64
import CivicLoop.Foundation.JsonText
import CivicLoop.Gateway.Assertion
import CivicLoop.Gateway.Ledger
import CivicLoop.Gateway.Ceiling
import CivicLoop.Gateway.Replay
import CivicLoop.Transport.Contracts
import CivicLoop.Transport.Registry
import CivicLoop.Transport.Authority
import CivicLoop.Foundation.Gate
import CivicLoop.Transport.Forward
import CivicLoop.Transport.Server
import CivicLoop.Transport.Revocation
import CivicLoop.Gateway.Agreement
import CivicLoop.Foundation.Versioned
import CivicLoop.Integrations.SecretStore
import CivicLoop.Integrations.VersionedSecrets
import CivicLoop.Integrations.Connection
import CivicLoop.Identity.FullSession
import CivicLoop.Hermes.RunRequest
import CivicLoop.Hermes.ControllerRecords
import CivicLoop.Foundation.Log
import CivicLoop.Hermes.AdapterScope
import CivicLoop.Hermes.RunBridge
import CivicLoop.Hermes.ProcessController
import CivicLoop.LaunchLoop.Package
import CivicLoop.LaunchLoop.Services
import CivicLoop.LaunchLoop.FourEyes
import CivicLoop.LaunchLoop.DemoState
import CivicLoop.LaunchLoop.DemoIsolation
import CivicLoop.Foundation.LocalTime
import CivicLoop.LaunchLoop.EventbriteImport
import CivicLoop.LaunchLoop.BrowserDemo
import CivicLoop.Foundation.InstantText
import CivicLoop.Foundation.Keyset
import CivicLoop.Identity.SecurityEvents
import CivicLoop.Identity.TotpDevice
import CivicLoop.Identity.SessionLifetime
import CivicLoop.Identity.RecoveryCodes
import CivicLoop.Gateway.Messages
import CivicLoop.Hermes.Client
import CivicLoop.Hermes.Billing
import CivicLoop.Hermes.UuidText
import CivicLoop.Hermes.ResultChain
import CivicLoop.LaunchLoop.JudgeRuns
import CivicLoop.Budget.Usage
import CivicLoop.Agents.Judge
import CivicLoop.Agents.RunUsage
import CivicLoop.Operations.SqlTokens
import CivicLoop.Operations.LiteralArrays
import CivicLoop.Operations.CatalogDefinition
import CivicLoop.LaunchLoop.PackageStatus
import CivicLoop.Foundation.ZoneRules
import CivicLoop.LaunchLoop.OwnerFacts
import CivicLoop.LaunchLoop.OwnerReadiness
import CivicLoop.LaunchLoop.OwnerTitles
import CivicLoop.LaunchLoop.DemoReset
import CivicLoop.Agents.EventLog
import CivicLoop.Foundation.PrefixCode
import CivicLoop.Drafts.TemplateHtml
import CivicLoop.Foundation.PyValue
import CivicLoop.Foundation.PyDumps
import CivicLoop.Agents.BoundedJson
import CivicLoop.LaunchLoop.EventbritePages
import CivicLoop.Drafts.EventbriteAdapter
import CivicLoop.Drafts.IterableAdapters
import CivicLoop.Drafts.Receipts
import CivicLoop.Drafts.Driven
import CivicLoop.Drafts.Dispatches
import CivicLoop.LaunchLoop.DemoProtocol

import MailHub.Interleaving.Safety
import MailHub.Interleaving.Roles
import MailHub.Interleaving.Tracking
import MailHub.Interleaving.Transaction
import MailHub.Interleaving.Sessions
import MailHub.Relational.Table
import MailHub.Relational.Like
import MailHub.Schema
import MailHub.Recovery.Status
import MailHub.Text
import MailHub.Compose.Validation
import MailHub.Ports
import MailHub.Compose.Reply
import MailHub.Compose.Service
import MailHub.Compose.Edits
import MailHub.Compose.Sessions
import MailHub.Compose.Concurrency
import MailHub.Compose.Addressing
import MailHub.Compose.RecipientText
import MailHub.Ingestion.ThreadJobs
import MailHub.Ingestion.Originals
import MailHub.Ingestion.Service
import MailHub.Sync.Bodies
import MailHub.Ingestion.System
import MailHub.Ingestion.Durability
import MailHub.Sync.Cycle
import MailHub.Sync.Starvation
import MailHub.Send.Snapshot
import MailHub.Send.Execution
import MailHub.Send.SentCopy
import MailHub.Send.Consistency
import MailHub.Send.Transactions
import MailHub.Send.System
import MailHub.Send.Guarantee
import MailHub.Send.Operations
import MailHub.Send.Runs
import MailHub.Send.Replay
import MailHub.Send.Fencing
import MailHub.Send.Trail
import MailHub.Actions.System
import MailHub.Actions.Effects
import MailHub.Actions.Runs
import MailHub.Actions.Dispositions
import MailHub.Actions.Reconciliation
import MailHub.Actions.Requests
import MailHub.Actions.TwoWay
import MailHub.Auth.Schema
import MailHub.Auth.State
import MailHub.Auth.Service
import MailHub.Auth.Ceremonies
import MailHub.Auth.Console
import MailHub.Auth.System
import MailHub.Auth.Steps
import MailHub.Auth.Commits
import MailHub.Auth.Guarantee
import MailHub.Auth.Keeping
import MailHub.Auth.Operations
import MailHub.Auth.Runs
import MailHub.Send.Sweeps
import MailHub.Send.Uncertain
import MailHub.Offline.Records
import MailHub.Offline.Autosave
import MailHub.Offline.Store
import MailHub.Offline.Port
import MailHub.Offline.SavePaths
import MailHub.Offline.Sync
import MailHub.Offline.Editor
import MailHub.Offline.System
import MailHub.Offline.Statements
import MailHub.Offline.Passes
import MailHub.Offline.Replay
import MailHub.Offline.Runs
import MailHub.Offline.Drafts
import MailHub.Offline.Generation
import MailHub.Offline.Order
import MailHub.Offline.Contents
import MailHub.Offline.Sends
import MailHub.Offline.Reviews
import MailHub.Offline.Marks
import MailHub.Offline.Autosaving
import MailHub.Home.Sections
import MailHub.Home.Service
import MailHub.Home.Visits
import MailHub.Classification.Rules
import MailHub.Classification.Service
import MailHub.Classification.Corrections
import MailHub.Classification.Precedence
import MailHub.Search.Text
import MailHub.Search.Query
import MailHub.Search.Tokens
import MailHub.Search.Service
import MailHub.Search.Addresses
import MailHub.Search.Domains
import MailHub.Home.Cursors
import MailHub.Home.Paging
import MailHub.Home.Returns
import MailHub.Accounts.Folders
import MailHub.Accounts.Imports
import MailHub.Classification.Breakout
import MailHub.Classification.Circuit
import MailHub.Classification.CostCap
import MailHub.Ordering.Merging
import MailHub.Search.Results
import MailHub.Search.UnifiedInbox
import MailHub.Reading.Attachments
import MailHub.Reading.Downloads
import MailHub.Storage.Files
import MailHub.Storage.Puts
import MailHub.Home.Anchors
import MailHub.Home.WorkRuns
import MailHub.Interleaving.Fairness
import MailHub.Offline.PassSlot
import MailHub.Offline.Attaching
import MailHub.Offline.MailActions
import MailHub.Sync.Threads
import MailHub.Ordering.Parents
import MailHub.Sync.Acyclic
import MailHub.Sync.Filing
import MailHub.Sync.Rest
import MailHub.Ordering.Labels
import MailHub.Ordering.Numbered
import MailHub.Ordering.Slices
import MailHub.Sync.Advances
import MailHub.Sync.Generations
import MailHub.Sync.Membership
import MailHub.Sync.Neighbours
import MailHub.Sync.Orders

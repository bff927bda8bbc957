import DiagramShare.Access.Failure
import DiagramShare.Access.PageQuery
import DiagramShare.Access.Paging
import DiagramShare.Access.Policy
import DiagramShare.Access.Rules
import DiagramShare.Codec.Base64Url
import DiagramShare.Codec.Form
import DiagramShare.Codec.Sha256
import DiagramShare.Codec.Utf8
import DiagramShare.Http.Cors
import DiagramShare.Http.Endpoint
import DiagramShare.Http.FileType
import DiagramShare.Http.Files
import DiagramShare.Http.Headers
import DiagramShare.Http.MediaType
import DiagramShare.Http.Message
import DiagramShare.Http.Route
import DiagramShare.Http.Server
import DiagramShare.Http.Target
import DiagramShare.Identity.Bearer
import DiagramShare.Identity.Caller
import DiagramShare.Json.Decimal
import DiagramShare.Json.Decode
import DiagramShare.Json.Fault
import DiagramShare.Json.Number
import DiagramShare.Json.Reading
import DiagramShare.Json.Value
import DiagramShare.Log
import DiagramShare.Main
import DiagramShare.Records.Basic
import DiagramShare.Records.Changes
import DiagramShare.Records.Json
import DiagramShare.Records.Request
import DiagramShare.Repository.Call
import DiagramShare.Repository.Failure
import DiagramShare.Repository.Memory
import DiagramShare.Repository.Migration
import DiagramShare.Repository.Relational
import DiagramShare.Repository.Tables
import DiagramShare.Service.Assets
import DiagramShare.Service.Documents
import DiagramShare.Service.Json
import DiagramShare.Service.Program
import DiagramShare.Service.Shares
import DiagramShare.Service.Target
import DiagramShare.Service.Versions
import DiagramShare.Service.Workspaces
import DiagramShare.Settings.Basic
import DiagramShare.Settings.Check
import DiagramShare.Settings.DatabaseUrl
import DiagramShare.Settings.DotEnv
import DiagramShare.Settings.Environment
import DiagramShare.Settings.Json
import DiagramShare.Settings.Load
import DiagramShare.Settings.Show
import DiagramShare.Settings.Toml
import DiagramShare.Slug
import DiagramShare.Startup
import DiagramShare.Storage.Address
import DiagramShare.Storage.Backend
import DiagramShare.Storage.Call
import DiagramShare.Storage.Disk
import DiagramShare.Storage.Failure
import DiagramShare.Storage.Key
import DiagramShare.Storage.Local
import DiagramShare.Storage.Remote
import DiagramShare.Storage.Transfer
import DiagramShare.Text.Blank
import DiagramShare.Text.Hex
import DiagramShare.Text.Integer
import DiagramShare.Text.Quoted
import DiagramShare.Text.Split
import DiagramShare.Text.Unprintable
import DiagramShare.Time.Calendar
import DiagramShare.Time.Instant
import DiagramShare.Time.Rfc3339
import DiagramShare.Service.Operation
import DiagramShare.Proofs.Calls
import DiagramShare.Proofs.Run
import DiagramShare.Proofs.Admission
import DiagramShare.Proofs.Decision
import DiagramShare.Proofs.Shape
import DiagramShare.Proofs.Atomicity
import DiagramShare.Proofs.Effect
import DiagramShare.Proofs.Cascade
import DiagramShare.Proofs.Containment
import DiagramShare.Proofs.Listing
import DiagramShare.Proofs.History
import DiagramShare.Proofs.Lifetime
import DiagramShare.Proofs.Texts
import DiagramShare.Proofs.Acceptance
import DiagramShare.Proofs.Served
import DiagramShare.Proofs.Availability
import DiagramShare.Proofs.Joint
import DiagramShare.Proofs.Rising
import DiagramShare.Proofs.Unique
import DiagramShare.Proofs.Twin
import DiagramShare.Proofs.Coupled
import DiagramShare.Proofs.Keys
import DiagramShare.Proofs.Attachments
import DiagramShare.Proofs.InStep
import DiagramShare.Proofs.StandIn
import DiagramShare.Proofs.Renumbered
import DiagramShare.Proofs.Together
import DiagramShare.Proofs.Distinct
import DiagramShare.Proofs.Pages
import DiagramShare.Proofs.Veil
import DiagramShare.Proofs.Blind
import DiagramShare.Proofs.Unseen
import DiagramShare.Proofs.Tenants
import DiagramShare.Proofs.Tokens
import DiagramShare.Proofs.Conflicts
import DiagramShare.Proofs.Tombstones
import DiagramShare.Proofs.Spellings
import DiagramShare.Proofs.Tree
import DiagramShare.Proofs.Uploads
import DiagramShare.Proofs.FileMap
import DiagramShare.Proofs.Residue
import DiagramShare.Proofs.Existence
import DiagramShare.Proofs.Folders
import DiagramShare.Proofs.Filing
import DiagramShare.Proofs.Isolation
import DiagramShare.Proofs.Room
import DiagramShare.Proofs.Addresses
import DiagramShare.Proofs.WellFormed
import DiagramShare.Proofs.Credentials
import DiagramShare.Proofs.Deletions
import DiagramShare.Proofs.Printed
import DiagramShare.Proofs.Rows
import DiagramShare.Proofs.Grants
import DiagramShare.Proofs.Grammar
import DiagramShare.Proofs.Allocation
import DiagramShare.Proofs.Bodies
import DiagramShare.Proofs.Columns
import DiagramShare.Proofs.Updates
import DiagramShare.Proofs.FileNames
import DiagramShare.Proofs.Drafts
import DiagramShare.Proofs.Titles
import DiagramShare.Proofs.BaseDirectory
import DiagramShare.Proofs.Redaction

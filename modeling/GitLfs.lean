import GitLfs.Access.Gate
import GitLfs.Access.Principal
import GitLfs.Access.Roster
import GitLfs.Check.Checked
import GitLfs.Check.Decode
import GitLfs.Check.Fault
import GitLfs.Config.Basic
import GitLfs.Config.EnvFile
import GitLfs.Config.Source
import GitLfs.Deployment
import GitLfs.Failure
import GitLfs.Git.Object
import GitLfs.Git.Path
import GitLfs.Git.Revision
import GitLfs.Http.Body
import GitLfs.Http.Context
import GitLfs.Http.Gateway
import GitLfs.Http.Pattern
import GitLfs.Http.Request
import GitLfs.Http.Response
import GitLfs.Http.Route
import GitLfs.Json.Dialect
import GitLfs.Json.Reader
import GitLfs.Json.Token
import GitLfs.Json.Value
import GitLfs.Json.Writer
import GitLfs.Lock.Keeper
import GitLfs.Lock.Locking
import GitLfs.Lock.Page
import GitLfs.Lock.Registry
import GitLfs.Lock.Request
import GitLfs.Lock.Table
import GitLfs.Log
import GitLfs.Log.Argument
import GitLfs.Log.Handler
import GitLfs.Log.Template
import GitLfs.Message.Batch
import GitLfs.Message.Lock
import GitLfs.Message.Locking
import GitLfs.Number.Binary
import GitLfs.Number.Decimal
import GitLfs.Number.Digits
import GitLfs.Number.Floating
import GitLfs.OrderedMap
import GitLfs.Proofs.Access.Credentials
import GitLfs.Proofs.Access.Dialogue
import GitLfs.Proofs.Access.Gate
import GitLfs.Proofs.Access.Principal
import GitLfs.Proofs.Access.Roster
import GitLfs.Proofs.Alike.Dialogue
import GitLfs.Proofs.Alike.Service
import GitLfs.Proofs.Check.Decode
import GitLfs.Proofs.Check.Yields
import GitLfs.Proofs.Deployment
import GitLfs.Proofs.Dialogue
import GitLfs.Proofs.Effect
import GitLfs.Proofs.Git.Descent
import GitLfs.Proofs.Git.Entry
import GitLfs.Proofs.Git.Exact
import GitLfs.Proofs.Git.Presence
import GitLfs.Proofs.Git.Revision
import GitLfs.Proofs.History
import GitLfs.Proofs.Http.Absence
import GitLfs.Proofs.Http.Address
import GitLfs.Proofs.Http.Admission
import GitLfs.Proofs.Http.Answer
import GitLfs.Proofs.Http.Body
import GitLfs.Proofs.Http.Discretion
import GitLfs.Proofs.Http.FirstFault
import GitLfs.Proofs.Http.Fitting
import GitLfs.Proofs.Http.Identity
import GitLfs.Proofs.Http.Journal
import GitLfs.Proofs.Http.Label
import GitLfs.Proofs.Http.Limit
import GitLfs.Proofs.Http.Mounting
import GitLfs.Proofs.Http.Parsing
import GitLfs.Proofs.Http.Pattern
import GitLfs.Proofs.Http.Route
import GitLfs.Proofs.Http.Shape
import GitLfs.Proofs.Http.Telling
import GitLfs.Proofs.Http.Truth
import GitLfs.Proofs.Http.Undo
import GitLfs.Proofs.Http.Unlocking
import GitLfs.Proofs.Http.Vetting
import GitLfs.Proofs.Json.Reader
import GitLfs.Proofs.Json.Short
import GitLfs.Proofs.Json.Token
import GitLfs.Proofs.Json.Value
import GitLfs.Proofs.Lock.Browse
import GitLfs.Proofs.Lock.Custody
import GitLfs.Proofs.Lock.Dealing
import GitLfs.Proofs.Lock.Dialogue
import GitLfs.Proofs.Lock.Ending
import GitLfs.Proofs.Lock.Errand
import GitLfs.Proofs.Lock.Force
import GitLfs.Proofs.Lock.Ledger
import GitLfs.Proofs.Lock.Limit
import GitLfs.Proofs.Lock.Locking
import GitLfs.Proofs.Lock.Naming
import GitLfs.Proofs.Lock.Page
import GitLfs.Proofs.Lock.Query
import GitLfs.Proofs.Lock.Registry
import GitLfs.Proofs.Lock.Reissue
import GitLfs.Proofs.Lock.Spelling
import GitLfs.Proofs.Lock.Table
import GitLfs.Proofs.Lock.Undo
import GitLfs.Proofs.Lock.Verify
import GitLfs.Proofs.Lock.Walk
import GitLfs.Proofs.Log.Collaborators
import GitLfs.Proofs.Log.Entries
import GitLfs.Proofs.Log.Service
import GitLfs.Proofs.Message.Batch
import GitLfs.Proofs.Message.Faults
import GitLfs.Proofs.Message.Lock
import GitLfs.Proofs.Message.Request
import GitLfs.Proofs.Number.Decimal
import GitLfs.Proofs.Storage.Agreement
import GitLfs.Proofs.Storage.Dialogue
import GitLfs.Proofs.Storage.Exchange
import GitLfs.Proofs.Storage.Facts
import GitLfs.Proofs.Text.Base64
import GitLfs.Proofs.Text.Blank
import GitLfs.Proofs.Text.Form
import GitLfs.Proofs.Text.Lower
import GitLfs.Proofs.Text.Pieces
import GitLfs.Proofs.Text.Utf8
import GitLfs.Proofs.Time.Format
import GitLfs.Scripted
import GitLfs.Service
import GitLfs.Storage.Exchange
import GitLfs.Storage.Memory
import GitLfs.Storage.Store
import GitLfs.Text.Base64
import GitLfs.Text.Blank
import GitLfs.Text.Form
import GitLfs.Text.Lower
import GitLfs.Text.Percent
import GitLfs.Text.Pieces
import GitLfs.Text.Printable
import GitLfs.Text.Quoted
import GitLfs.Text.Upper
import GitLfs.Text.Utf8
import GitLfs.Time.DateTime
import GitLfs.Time.Format

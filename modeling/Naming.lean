import Naming.Action
import Naming.Activation
import Naming.Binding
import Naming.Binding.Cursor
import Naming.Binding.Set
import Naming.Bytes
import Naming.Bytes.Text
import Naming.Call
import Naming.Command
import Naming.Command.Line
import Naming.Context
import Naming.Creation
import Naming.Decimal
import Naming.Disk
import Naming.Disk.Counter
import Naming.Disk.Tree
import Naming.Disk.Written
import Naming.Environment
import Naming.Failure
import Naming.Files
import Naming.Job
import Naming.Json
import Naming.Json.Decoding
import Naming.Key
import Naming.Listing
import Naming.Listing.Frame
import Naming.Lock
import Naming.Log.Directive
import Naming.Log.Event
import Naming.Log.Filter
import Naming.Log.Logger
import Naming.Log.Written
import Naming.Main
import Naming.Name
import Naming.Name.Written
import Naming.Operation
import Naming.Pattern
import Naming.Pattern.Set
import Naming.Pattern.Sound
import Naming.Program
import Naming.Record
import Naming.Resident
import Naming.Server
import Naming.Service
import Naming.Settings
import Naming.Settings.Json
import Naming.Settings.Layer
import Naming.Settings.Path
import Naming.Settings.Reading
import Naming.Settings.Sources
import Naming.Settings.Toml
import Naming.Settings.Value
import Naming.Store
import Naming.Sweep
import Naming.Text.Alphanumeric
import Naming.Text.Blank
import Naming.Text.Cased
import Naming.Text.Columns
import Naming.Text.Escaped
import Naming.Text.Invisible
import Naming.Text.Ligature
import Naming.Text.Lower
import Naming.Text.Picture
import Naming.Text.Ranges
import Naming.Text.Width
import Naming.Toml.Document
import Naming.Toml.Moment
import Naming.Toml.Quoted
import Naming.Toml.Scalar
import Naming.Toml.Table
import Naming.Toml.Value
import Naming.Toml.Written
import Naming.Wire
import Naming.Proofs.RecordBytes
import Naming.Proofs.Runs
import Naming.Proofs.Trees
import Naming.Proofs.BindingSets
import Naming.Proofs.Disks
import Naming.Proofs.Activations
import Naming.Proofs.Stores
import Naming.Proofs.Coherence
import Naming.Proofs.Steps
import Naming.Proofs.Orderly
import Naming.Proofs.Operations
import Naming.Proofs.Walks
import Naming.Proofs.Sweeps
import Naming.Proofs.Tasks
import Naming.Proofs.Numbering
import Naming.Proofs.UnboundMarks
import Naming.Proofs.Histories
import Naming.Proofs.Garbage
import Naming.Proofs.Resolution
import Naming.Proofs.Edits
import Naming.Proofs.DamagedRecords
import Naming.Proofs.RequestEffects
import Naming.Proofs.Keys
import Naming.Proofs.Creations
import Naming.Proofs.RecordChanges
import Naming.Proofs.CallOutcomes
import Naming.Proofs.KeysFresh
import Naming.Proofs.UnknownContexts
import Naming.Proofs.NumberGaps
import Naming.Proofs.DisksAcrossGaps
import Naming.Proofs.AnswersAcrossGaps
import Naming.Proofs.FailuresUntraced
import Naming.Proofs.LockVisits
import Naming.Proofs.LockTakenOnce
import Naming.Proofs.GateDiscipline
import Naming.Proofs.Locks
import Naming.Proofs.CallsSerialised
import Naming.Proofs.UpdatesLossless
import Naming.Proofs.RootKept
import Naming.Proofs.RootStable
import Naming.Proofs.Restarts
import Naming.Proofs.ClientStandings
import Naming.Proofs.PermittedSteps
import Naming.Proofs.ClientsFinish
import Naming.Proofs.SweepSpares
import Naming.Proofs.SweepCollisions
import Naming.Proofs.Encodings
import Naming.Proofs.Delegations
import Naming.Proofs.EditsFramed
import Naming.Proofs.ActivatorsCoherent
import Naming.Proofs.Allocators
import Naming.Proofs.Recycling
import Naming.Proofs.Rollbacks
import Naming.Proofs.FailedCommands
import Naming.Proofs.Spellings
import Naming.Proofs.Segments
import Naming.Proofs.Namesakes
import Naming.Proofs.Associations
import Naming.Proofs.ReachedAtRest
import Naming.Proofs.PagesAccounted
import Naming.Proofs.LocksReturned
import Naming.Proofs.Rebindings
import Naming.Proofs.TableRows
import Naming.Proofs.ListingAccounts
import Naming.Proofs.Destinations
import Naming.Proofs.Messages
import Naming.Proofs.Queues

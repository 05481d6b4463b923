import Gamer.Lib.Table
import Gamer.Lib.Machine
import Gamer.Core.Models
import Gamer.RunManager.Model
import Gamer.RunManager.Effects
import Gamer.RunManager.Life
import Gamer.RunManager.Invariant
import Gamer.RunManager.Cancel
import Gamer.Lib.Window
import Gamer.RunManager.Slots
import Gamer.RunManager.Observe
import Gamer.RunManager.Drain
import Gamer.Timer.Task
import Gamer.Timer.Inputs
import Gamer.Timer.Store
import Gamer.Timer.Core
import Gamer.Timer.Cancelled
import Gamer.Updater.Journal
import Gamer.Ipc.Frames
import Gamer.Ipc.Dispatch
import Gamer.Ipc.Idempotency
import Gamer.Lib.Crash
import Gamer.Updater.World
import Gamer.Updater.Snapshot
import Gamer.Updater.Engine
import Gamer.Updater.Install
import Gamer.Updater.Recovery
import Gamer.Updater.Transaction
import Gamer.Updater.Refinement.Rules
import Gamer.Updater.Refinement.Rollback
import Gamer.Updater.Refinement.Snapshot
import Gamer.Updater.Refinement.Install
import Gamer.Updater.Refinement.Recovery
import Gamer.Updater.CrashAtomicity
import Gamer.Updater.JournalLaw
import Gamer.Updater.AcceptedWork
import Gamer.Timer.Scheduler
import Gamer.Timer.Moves
import Gamer.Timer.Occurrences
import Gamer.Timer.Stopped
import Gamer.Timer.Resumed
import Gamer.Timer.Recovered
import Gamer.Lib.Token
import Gamer.Control.Registry
import Gamer.Control.Barrier
import Gamer.Control.Finality
import Gamer.Lib.Chain
import Gamer.Webrtc.Frames
import Gamer.Webrtc.Pusher
import Gamer.Webrtc.Seam
import Gamer.Webrtc.ReferenceChain
import Gamer.Webrtc.Viewer
import Gamer.Webrtc.Takeover
import Gamer.Lib.Presses
import Gamer.Browser.Keys
import Gamer.Browser.Session
import Gamer.Browser.Released
import Gamer.Auth.Accounts
import Gamer.Auth.Logins
import Gamer.Auth.Final
import Gamer.Lib.Levels
import Gamer.Storage.Sql
import Gamer.Storage.Schema
import Gamer.Storage.History
import Gamer.Storage.Open
import Gamer.Storage.Survives
import Gamer.Storage.Versions
import Gamer.Keymap.Controller
import Gamer.Keymap.Released
import Gamer.Keymap.Routed
import Gamer.Lib.Bytes
import Gamer.Lib.Boxes
import Gamer.Recording.Writer
import Gamer.Recording.Reader
import Gamer.Recording.Records
import Gamer.Recording.Lossless
import Gamer.Packages.Paths
import Gamer.Packages.Resources
import Gamer.Packages.Versioned
import Gamer.Packages.Media
import Gamer.Packages.Import
import Gamer.Packages.Library
import Gamer.Packages.Atomic
import Gamer.Packages.Ledger
import Gamer.Packages.Manifest
import Gamer.Packages.Store
import Gamer.Packages.CrashSafe
import Gamer.Lib.Decimal
import Gamer.Lib.Lines
import Gamer.Recording.Observed
import Gamer.Recording.Ending
import Gamer.Recording.Evidence
import Gamer.Recording.Complete
import Gamer.Lib.SemVer
import Gamer.Updater.Semver
import Gamer.Updater.SemverGate
import Gamer.Updater.PointerBack
import Gamer.Lib.Watch
import Gamer.Updater.Honest
import Gamer.Timer.ActiveRuns
import Gamer.Lib.Served
import Gamer.Updater.PathSafe
import Gamer.Updater.Restore
import Gamer.Updater.Reentrant
import Gamer.Lib.FileTree
import Gamer.Updater.Files
import Gamer.Updater.Archive
import Gamer.Updater.Extracted
import Gamer.Updater.Unpacked
import Gamer.Updater.Repair
import Gamer.Updater.Places
import Gamer.Updater.Undone
import Gamer.Updater.Transfer
import Gamer.Updater.Resumed
import Gamer.Timer.Finisher
import Gamer.Lib.Search
import Gamer.Storage.Messages
import Gamer.Recording.Rejected
import Gamer.Updater.Policy
import Gamer.Updater.Effective
import Gamer.Packages.Retried
import Gamer.Core.Reading
import Gamer.Timer.Stored
import Gamer.Storage.RunEvents
import Gamer.Packages.Renamed
import Gamer.Packages.RoundTrip
import Gamer.Device.Ppm
import Gamer.Device.Frames
import Gamer.Device.InFlight
import Gamer.Device.Screens
import Gamer.Lib.Graph
import Gamer.Extensions.Dependencies
import Gamer.Lib.Text
import Gamer.Media.FrameTable
import Gamer.Lib.Weights
import Gamer.Matcher.TemplateCache
import Gamer.Device.Controls
import Gamer.Device.CopyText
import Gamer.Browser.Transport
import Gamer.Browser.ReloadDialogs
import Gamer.Auth.Attempts
import Gamer.Extensions.InstanceCalls
import Gamer.Recording.AnnexB
import Gamer.Storage.LogBatch
import Gamer.Updater.Components
import Gamer.Extensions.Archive
import Gamer.Extensions.Scanned
import Gamer.Extensions.Extracted
import Gamer.Device.HeldInputs
import Gamer.Mcp.TokenWork
import Gamer.Update.Exclusive
import Gamer.Update.Reserved
import Gamer.Lib.FirstBest
import Gamer.Lib.Moments
import Gamer.Matcher.Region
import Gamer.Matcher.Exact
import Gamer.Mcp.Receipts
import Gamer.Webrtc.FrameQueue
import Gamer.Mcp.AtMostOnce
import Gamer.Browser.Idle
import Gamer.Browser.Reclaimed
import Gamer.Media.Output
import Gamer.Media.Switched
import Gamer.Lib.Ebml
import Gamer.Media.StreamMux
import Gamer.Server.Shutdown

import Cordon.Address
import Cordon.Address.Numeric
import Cordon.AddressBook
import Cordon.Attempt
import Cordon.Bridge
import Cordon.Bridge.Exported
import Cordon.CallStack
import Cordon.CallStack.Backtrace
import Cordon.Check
import Cordon.Counter
import Cordon.Destination
import Cordon.Document
import Cordon.Engine
import Cordon.Error
import Cordon.Exemption
import Cordon.Files
import Cordon.Global
import Cordon.Hook.Managed
import Cordon.Hook.Native
import Cordon.Hook.Offline
import Cordon.Hook.Preload
import Cordon.Json
import Cordon.Json.Document
import Cordon.Json.Record
import Cordon.Json.Render
import Cordon.Lifecycle
import Cordon.LogFilter
import Cordon.Main
import Cordon.NativeTable
import Cordon.Number.Binary64
import Cordon.Pattern
import Cordon.Policy
import Cordon.PreloadLibrary
import Cordon.Proofs.Act
import Cordon.Proofs.Address.Book
import Cordon.Proofs.Address.Endpoint
import Cordon.Proofs.Address.History
import Cordon.Proofs.Address.Literal
import Cordon.Proofs.Address.Size
import Cordon.Proofs.Address.Spelling
import Cordon.Proofs.Address.Text
import Cordon.Proofs.Bridge.Answers
import Cordon.Proofs.Bridge.Foreign
import Cordon.Proofs.Bridge.Reported
import Cordon.Proofs.CallStack.Rendering
import Cordon.Proofs.CallStack.Stripping
import Cordon.Proofs.Check.Destination
import Cordon.Proofs.Check.Report
import Cordon.Proofs.Engine.Capture
import Cordon.Proofs.Engine.Connection
import Cordon.Proofs.Engine.Exemption
import Cordon.Proofs.Engine.Judgement
import Cordon.Proofs.Hook.Asked
import Cordon.Proofs.Hook.BindOrder
import Cordon.Proofs.Hook.Counters
import Cordon.Proofs.Hook.Decided
import Cordon.Proofs.Hook.Effects
import Cordon.Proofs.Hook.Interposed
import Cordon.Proofs.Hook.Recorded
import Cordon.Proofs.Hook.Registration
import Cordon.Proofs.Hook.SocketAddress
import Cordon.Proofs.Hook.Spelling
import Cordon.Proofs.Lifecycle.Activation
import Cordon.Proofs.Lifecycle.Play
import Cordon.Proofs.Lifecycle.Run
import Cordon.Proofs.Lifecycle.Verdict
import Cordon.Proofs.Pattern.Matching
import Cordon.Proofs.Pattern.Parsing
import Cordon.Proofs.Policy.Equality
import Cordon.Proofs.Policy.Merge
import Cordon.Proofs.Policy.Rejection
import Cordon.Proofs.Policy.Union
import Cordon.Proofs.Settings.Validity
import Cordon.Proofs.Store.Attachment
import Cordon.Proofs.Store.ConcurrentReads
import Cordon.Proofs.Store.Freshness
import Cordon.Proofs.Store.Log
import Cordon.Proofs.Store.Pruning
import Cordon.Proofs.Store.Reads
import Cordon.Proofs.Store.Run
import Cordon.Proofs.Store.Separation
import Cordon.Proofs.Store.Slots
import Cordon.Proofs.SymbolCache
import Cordon.Proofs.Text.CaseFold
import Cordon.Proofs.Text.Digits
import Cordon.Proofs.Text.Distinct
import Cordon.Proofs.Text.Space
import Cordon.Proofs.Text.Split
import Cordon.Proofs.Text.Strip
import Cordon.Proofs.Text.Utf8
import Cordon.Settings
import Cordon.Settings.Environment
import Cordon.Settings.Layer
import Cordon.Settings.Load
import Cordon.Store
import Cordon.SymbolCache
import Cordon.Text.Ascii
import Cordon.Text.CaseFold
import Cordon.Text.CaseFold.Table
import Cordon.Text.Invisible
import Cordon.Text.Quoted
import Cordon.Text.Space
import Cordon.Text.Split
import Cordon.Text.Utf8
import Cordon.Thread
import Cordon.Toml
import Cordon.Toml.Scalar
import Cordon.Toml.Table
import Cordon.World
import Cordon.Proofs.Bridge.Truncation
import Cordon.Proofs.Json.Accepted
import Cordon.Proofs.Json.Layout
import Cordon.Proofs.Settings.Environment
import Cordon.Proofs.Settings.Layers
import Cordon.Proofs.Settings.Lists

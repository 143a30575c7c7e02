import ScriptBridge.Bridge.Basic
import ScriptBridge.Bridge.Decode
import ScriptBridge.Bridge.Encode
import ScriptBridge.Bridge.Entry
import ScriptBridge.Calendar.Instant
import ScriptBridge.Calendar.LongText
import ScriptBridge.Crossing
import ScriptBridge.Engine.Arrival
import ScriptBridge.Engine.Call
import ScriptBridge.Engine.Conversion
import ScriptBridge.Engine.Convert
import ScriptBridge.Engine.Describe
import ScriptBridge.Engine.Encode
import ScriptBridge.Engine.Evaluate
import ScriptBridge.Engine.Pending
import ScriptBridge.Engine.Property
import ScriptBridge.Engine.State
import ScriptBridge.Engine.Step
import ScriptBridge.Host.Action
import ScriptBridge.Host.Description
import ScriptBridge.Host.Error
import ScriptBridge.Host.Parameter
import ScriptBridge.Host.Value
import ScriptBridge.Number.Binary64
import ScriptBridge.Number.Layout
import ScriptBridge.Number.Shortest
import ScriptBridge.Proofs.Bridge.Acceptance
import ScriptBridge.Proofs.Bridge.Contents
import ScriptBridge.Proofs.Bridge.Delivery
import ScriptBridge.Proofs.Bridge.Leases
import ScriptBridge.Proofs.Bridge.Mints
import ScriptBridge.Proofs.Bridge.Obstacles
import ScriptBridge.Proofs.Bridge.RoundTrip
import ScriptBridge.Proofs.Bridge.Skew
import ScriptBridge.Proofs.Bridge.Tracking
import ScriptBridge.Proofs.Engine.Access
import ScriptBridge.Proofs.Engine.Advance
import ScriptBridge.Proofs.Engine.Alone
import ScriptBridge.Proofs.Engine.Arrival
import ScriptBridge.Proofs.Engine.Assign
import ScriptBridge.Proofs.Engine.Calls
import ScriptBridge.Proofs.Engine.Collect
import ScriptBridge.Proofs.Engine.Copying
import ScriptBridge.Proofs.Engine.Custody
import ScriptBridge.Proofs.Engine.DateClass
import ScriptBridge.Proofs.Engine.Dates
import ScriptBridge.Proofs.Engine.Departure
import ScriptBridge.Proofs.Engine.Echo
import ScriptBridge.Proofs.Engine.Exceptions
import ScriptBridge.Proofs.Engine.HandBack
import ScriptBridge.Proofs.Engine.Holding
import ScriptBridge.Proofs.Engine.Honest
import ScriptBridge.Proofs.Engine.HostProperty
import ScriptBridge.Proofs.Engine.Landing
import ScriptBridge.Proofs.Engine.Mirror
import ScriptBridge.Proofs.Engine.Outbound
import ScriptBridge.Proofs.Engine.Proper
import ScriptBridge.Proofs.Engine.RenamedCalls
import ScriptBridge.Proofs.Engine.RenamedSteps
import ScriptBridge.Proofs.Engine.RenamedWork
import ScriptBridge.Proofs.Engine.Renaming
import ScriptBridge.Proofs.Engine.Rest
import ScriptBridge.Proofs.Engine.Returns
import ScriptBridge.Proofs.Engine.Shape
import ScriptBridge.Proofs.Engine.Speaking
import ScriptBridge.Proofs.Engine.Telling
import ScriptBridge.Proofs.Engine.Unfolding
import ScriptBridge.Proofs.Engine.Work
import ScriptBridge.Proofs.Host.Overloads
import ScriptBridge.Proofs.Number.Whole
import ScriptBridge.Proofs.Script.Growth
import ScriptBridge.Proofs.Script.Heap
import ScriptBridge.Proofs.Script.Reach
import ScriptBridge.Proofs.Script.Renaming
import ScriptBridge.Proofs.Script.StandIns
import ScriptBridge.Proofs.Session.Accounts
import ScriptBridge.Proofs.Session.Agreement
import ScriptBridge.Proofs.Session.Alike
import ScriptBridge.Proofs.Session.AlikeBridges
import ScriptBridge.Proofs.Session.AlikeCommands
import ScriptBridge.Proofs.Session.AlikeSteps
import ScriptBridge.Proofs.Session.Assignment
import ScriptBridge.Proofs.Session.AtWork
import ScriptBridge.Proofs.Session.Attended
import ScriptBridge.Proofs.Session.Borrowing
import ScriptBridge.Proofs.Session.Causes
import ScriptBridge.Proofs.Session.Copies
import ScriptBridge.Proofs.Session.Dates
import ScriptBridge.Proofs.Session.Decoding
import ScriptBridge.Proofs.Session.Deferred
import ScriptBridge.Proofs.Session.Disposal
import ScriptBridge.Proofs.Session.Encoding
import ScriptBridge.Proofs.Session.Entries
import ScriptBridge.Proofs.Session.Failures
import ScriptBridge.Proofs.Session.Faithful
import ScriptBridge.Proofs.Session.Frames
import ScriptBridge.Proofs.Session.History
import ScriptBridge.Proofs.Session.Hooks
import ScriptBridge.Proofs.Session.Host
import ScriptBridge.Proofs.Session.Identity
import ScriptBridge.Proofs.Session.Inversion
import ScriptBridge.Proofs.Session.Kept
import ScriptBridge.Proofs.Session.Leaks
import ScriptBridge.Proofs.Session.Members
import ScriptBridge.Proofs.Session.Mentions
import ScriptBridge.Proofs.Session.Nesting
import ScriptBridge.Proofs.Session.Origins
import ScriptBridge.Proofs.Session.Ownership
import ScriptBridge.Proofs.Session.Passage
import ScriptBridge.Proofs.Session.Projection
import ScriptBridge.Proofs.Session.Refusal
import ScriptBridge.Proofs.Session.Releases
import ScriptBridge.Proofs.Session.Resolution
import ScriptBridge.Proofs.Session.Retired
import ScriptBridge.Proofs.Session.Returning
import ScriptBridge.Proofs.Session.Side
import ScriptBridge.Proofs.Session.Speaking
import ScriptBridge.Proofs.Session.Stage
import ScriptBridge.Proofs.Session.Storage
import ScriptBridge.Proofs.Session.Strategy
import ScriptBridge.Proofs.Session.Stride
import ScriptBridge.Proofs.Session.Terms
import ScriptBridge.Proofs.Session.Throws
import ScriptBridge.Proofs.Session.Twins
import ScriptBridge.Proofs.Session.Verdicts
import ScriptBridge.Proofs.Settings.Printing
import ScriptBridge.Proofs.Table.Allocation
import ScriptBridge.Proofs.Table.Arena
import ScriptBridge.Proofs.Table.FreeList
import ScriptBridge.Proofs.Table.HandleMap
import ScriptBridge.Proofs.Table.Handles
import ScriptBridge.Proofs.Table.Refinement
import ScriptBridge.Proofs.Table.Stranded
import ScriptBridge.Proofs.Table.Tracking
import ScriptBridge.Proofs.Text.Utf16
import ScriptBridge.Proofs.Text.Utf8
import ScriptBridge.Proofs.Wire.Building
import ScriptBridge.Proofs.Wire.Leaves
import ScriptBridge.Proofs.Wire.Proper
import ScriptBridge.Proofs.Wire.Reading
import ScriptBridge.Proofs.Wire.Renaming
import ScriptBridge.Script.Expr
import ScriptBridge.Script.Heap
import ScriptBridge.Script.Intrinsic
import ScriptBridge.Script.Numeral
import ScriptBridge.Script.Value
import ScriptBridge.Session.Act
import ScriptBridge.Session.Command
import ScriptBridge.Session.Operate
import ScriptBridge.Session.Serve
import ScriptBridge.Session.Slots
import ScriptBridge.Session.State
import ScriptBridge.Session.Step
import ScriptBridge.Settings.Basic
import ScriptBridge.Settings.Printer
import ScriptBridge.Settings.Reader
import ScriptBridge.Settings.Scan
import ScriptBridge.Table.Arena
import ScriptBridge.Table.Handles
import ScriptBridge.TableHost
import ScriptBridge.Text.Quoted
import ScriptBridge.Text.Utf16
import ScriptBridge.Wire.Build
import ScriptBridge.Wire.Date
import ScriptBridge.Wire.Inspect
import ScriptBridge.Wire.Kind
import ScriptBridge.Wire.Leaves
import ScriptBridge.Wire.Record
import ScriptBridge.Wire.Reference

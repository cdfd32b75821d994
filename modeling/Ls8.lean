import Ls8.Action
import Ls8.Alu
import Ls8.CommandLine.Arguments
import Ls8.CommandLine.Emulator
import Ls8.CommandLine.Service
import Ls8.Config
import Ls8.Console
import Ls8.Control
import Ls8.Dump
import Ls8.Execution
import Ls8.Fault
import Ls8.Http.Cors
import Ls8.Http.MediaType
import Ls8.Http.Message
import Ls8.Http.Query
import Ls8.Http.Rejection
import Ls8.Image
import Ls8.Json.Basic
import Ls8.Json.Reader
import Ls8.Json.Writer
import Ls8.Log
import Ls8.Lookup
import Ls8.Machine
import Ls8.Main
import Ls8.Memory
import Ls8.Metrics.Counts
import Ls8.Metrics.Exposition
import Ls8.Metrics.Usage
import Ls8.Net.SocketAddress
import Ls8.Opcode
import Ls8.Proofs.Action
import Ls8.Proofs.Arguments
import Ls8.Proofs.Attempts
import Ls8.Proofs.Calls
import Ls8.Proofs.Caps
import Ls8.Proofs.Comparison
import Ls8.Proofs.Concatenation
import Ls8.Proofs.Conservation
import Ls8.Proofs.Consistency
import Ls8.Proofs.Console
import Ls8.Proofs.Control
import Ls8.Proofs.Dispatch
import Ls8.Proofs.Document
import Ls8.Proofs.Dump
import Ls8.Proofs.DumpLength
import Ls8.Proofs.DumpReading
import Ls8.Proofs.Effects
import Ls8.Proofs.Exchanges
import Ls8.Proofs.Executions
import Ls8.Proofs.FrontEnds
import Ls8.Proofs.Grouping
import Ls8.Proofs.Handling
import Ls8.Proofs.History
import Ls8.Proofs.Image
import Ls8.Proofs.Isolation
import Ls8.Proofs.JsonRecord
import Ls8.Proofs.JsonText
import Ls8.Proofs.LastInFirstOut
import Ls8.Proofs.Lifecycle
import Ls8.Proofs.Loading
import Ls8.Proofs.Logging
import Ls8.Proofs.MemoryWindow
import Ls8.Proofs.Modes
import Ls8.Proofs.Observation
import Ls8.Proofs.Operations
import Ls8.Proofs.Output
import Ls8.Proofs.Programs
import Ls8.Proofs.Query
import Ls8.Proofs.Registers
import Ls8.Proofs.Registry
import Ls8.Proofs.RequestCounts
import Ls8.Proofs.RestorePoints
import Ls8.Proofs.Resumption
import Ls8.Proofs.Rig
import Ls8.Proofs.Run
import Ls8.Proofs.Session
import Ls8.Proofs.Snapshot
import Ls8.Proofs.Stack
import Ls8.Proofs.Step
import Ls8.Proofs.Stepping
import Ls8.Proofs.Text
import Ls8.Proofs.TraceLine
import Ls8.Proofs.Trim
import Ls8.Proofs.Truncation
import Ls8.Proofs.WellFormed
import Ls8.Proofs.Words
import Ls8.Registers
import Ls8.Rig
import Ls8.Service.Answer
import Ls8.Service.Basic
import Ls8.Service.Metrics
import Ls8.Service.Registry
import Ls8.Service.Requests
import Ls8.Service.Route
import Ls8.Service.Settings
import Ls8.Session
import Ls8.Snapshot
import Ls8.Snapshot.Document
import Ls8.Text.Blank
import Ls8.Text.Radix
import Ls8.Text.Unsigned
import Ls8.Timestamp

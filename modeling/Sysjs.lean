import Sysjs.Foundation.Block
import Sysjs.Foundation.Access
import Sysjs.Foundation.Custody
import Sysjs.Foundation.Feed
import Sysjs.Foundation.Format
import Sysjs.Foundation.Runs
import Sysjs.Foundation.Slots
import Sysjs.Foundation.Updates
import Sysjs.Foundation.Interleaving
import Sysjs.Foundation.Serial
import Sysjs.Foundation.Chunks
import Sysjs.Foundation.Worklist
import Sysjs.Foundation.Delimited
import Sysjs.Foundation.Columns
import Sysjs.Words
import Sysjs.Kernel
import Sysjs.Socket.Object
import Sysjs.Socket.Sizes
import Sysjs.Socket.ReadLine
import Sysjs.Socket.ReadBytes
import Sysjs.Socket.Packets
import Sysjs.Socket.Lifecycle
import Sysjs.Socket.Methods
import Sysjs.Socket.Bytes
import Sysjs.Socket.LineStream
import Sysjs.Socket.Unfinished
import Sysjs.Socket.PacketStream
import Sysjs.Socket.EatonStream
import Sysjs.Socket.EatonBuffer
import Sysjs.Socket.Conservation
import Sysjs.Socket.Lines
import Sysjs.Socket.Paths
import Sysjs.Socket.Stale
import Sysjs.Socket.Framing
import Sysjs.Socket.Frames
import Sysjs.Socket.PacketWrites
import Sysjs.Socket.Capacity
import Sysjs.Socket.Provenance
import Sysjs.Socket.Requests
import Sysjs.Socket.World
import Sysjs.Socket.Agreement
import Sysjs.Socket.Accounting
import Sysjs.Socket.Poll
import Sysjs.Socket.Readiness
import Sysjs.Socket.Channel
import Sysjs.Socket.Delivery
import Sysjs.Dso.Handles
import Sysjs.Dso.Search
import Sysjs.Dso.Nesting
import Sysjs.Formatted
import Sysjs.SysUtil.Files
import Sysjs.Millis
import Sysjs.Shell.Arguments
import Sysjs.Shell.Write
import Sysjs.Shell.Output
import Sysjs.Shell.Scatter
import Sysjs.Shell.ScatterLayout
import Sysjs.Shell.ScatterCrew
import Sysjs.Shell.ScatterRuns
import Sysjs.Shell.ScatterProgress
import Sysjs.Shell.Watchdog
import Sysjs.Shell.Timeouts
import Sysjs.Shell.Input
import Sysjs.Shell.Prompt
import Sysjs.Shell.Sessions
import Sysjs.Shell.ReadLine
import Sysjs.Shell.CountHeap
import Sysjs.Shell.Reports
import Sysjs.Shell.Options
import Sysjs.Shell.Listing
import Sysjs.Shell.Disassembly
import Sysjs.Ape.Handshake
import Sysjs.Ape.Proto
import Sysjs.Ape.Handlers
import Sysjs.Ape.Batch
import Sysjs.Ape.Names
import Sysjs.Ape.Session
import Sysjs.Http.Get

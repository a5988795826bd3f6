import GalvoCtrl.Lib.EventRun
import GalvoCtrl.Lib.SyncSerial
import GalvoCtrl.Lib.Bits
import GalvoCtrl.Lib.TruncSteps
import GalvoCtrl.Slave.GalvoXy2
import GalvoCtrl.Slave.Reach
import GalvoCtrl.Slave.SscDevice
import GalvoCtrl.Slave.Observable
import GalvoCtrl.Slave.WireFrames
import GalvoCtrl.Slave.EcatApp
import GalvoCtrl.Slave.Segment
import GalvoCtrl.Slave.Slew
import GalvoCtrl.Slave.Retransmit
import GalvoCtrl.Core.Xy2100
import GalvoCtrl.Lib.Rounding
import GalvoCtrl.Lib.Streak
import GalvoCtrl.Master.SendLoop
import GalvoCtrl.Master.LostFrames
import GalvoCtrl.System.Delivery
import GalvoCtrl.System.Cycle
import GalvoCtrl.Lib.Delimited
import GalvoCtrl.Lib.Decimal
import GalvoCtrl.Split.SampleTable
import GalvoCtrl.Master.LoadSamples
import GalvoCtrl.System.Handover
import GalvoCtrl.Lib.Scan
import GalvoCtrl.Lib.Hypot
import GalvoCtrl.Lib.Quadratic
import GalvoCtrl.Split.Config
import GalvoCtrl.Nc.Text
import GalvoCtrl.Nc.Parser
import GalvoCtrl.Nc.Words
import GalvoCtrl.Nc.Grammar
import GalvoCtrl.Nc.Reference
import GalvoCtrl.Nc.Spelling
import GalvoCtrl.Nc.Trace
import GalvoCtrl.Nc.RoundTrip
import GalvoCtrl.Nc.Insertion
import GalvoCtrl.Lib.Blocks
import GalvoCtrl.Split.Interpolate
import GalvoCtrl.Split.Simulate
import GalvoCtrl.Split.AxisLimits
import GalvoCtrl.Split.LaserGate
import GalvoCtrl.Split.Arrays
import GalvoCtrl.Split.Path
import GalvoCtrl.Split.TargetVelocity
import GalvoCtrl.Split.Mpc
import GalvoCtrl.Split.Plant
import GalvoCtrl.Split.Loop
import GalvoCtrl.Split.Symmetry
import GalvoCtrl.Split.Stream
import GalvoCtrl.Split.Lookahead
import GalvoCtrl.Job.Program
import GalvoCtrl.Job.Interpreter
import GalvoCtrl.Job.Controller
import GalvoCtrl.Job.Lines
import GalvoCtrl.Job.CutPath
import GalvoCtrl.Job.FailedJob
import GalvoCtrl.Lib.SortedSearch
import GalvoCtrl.Coe.ObjectDictionary
import GalvoCtrl.Coe.GalvoOd
import GalvoCtrl.Coe.ReadValue
import GalvoCtrl.Lib.ByteWords
import GalvoCtrl.Lib.BitFields
import GalvoCtrl.Coe.Objects
import GalvoCtrl.Coe.Lookup
import GalvoCtrl.Coe.BitSlice
import GalvoCtrl.Coe.PdoSize
import GalvoCtrl.Coe.PdoData
import GalvoCtrl.Coe.GalvoPdo
import GalvoCtrl.Coe.ProcessImage
import GalvoCtrl.Coe.Defaults
import GalvoCtrl.Coe.Mailbox
import GalvoCtrl.Coe.SdoServer
import GalvoCtrl.Coe.CompleteAccess
import GalvoCtrl.Coe.CoeProcess
import GalvoCtrl.Coe.Serving
import GalvoCtrl.Coe.MailboxRuns
import GalvoCtrl.Coe.Access
import GalvoCtrl.Coe.Blocked
import GalvoCtrl.Stack.AlState
import GalvoCtrl.Stack.Cycle
import GalvoCtrl.Stack.AlMachine
import GalvoCtrl.Stack.Safety
import GalvoCtrl.Stack.Frame
import GalvoCtrl.Stack.Responses
import GalvoCtrl.Stack.Watchdog
import GalvoCtrl.Stack.ProcessData

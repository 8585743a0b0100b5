import ServeInfer.Lib.StableSort
import ServeInfer.Scheduler.Moves
import ServeInfer.Scheduler.Shape
import ServeInfer.Scheduler.History
import ServeInfer.Scheduler.Overtaking
import ServeInfer.Scheduler.SlotCap
import ServeInfer.Scheduler.LiveIds
import ServeInfer.Scheduler.Course
import ServeInfer.Scheduler.JobPhase
import ServeInfer.Scheduler.PhaseMoves
import ServeInfer.Scheduler.NoJobLost
import ServeInfer.Scheduler.LifeCycle
import ServeInfer.Scheduler.LateSettlement
import ServeInfer.Device.Ladder
import ServeInfer.Device.Narrowing
import ServeInfer.Lib.Text
import ServeInfer.Supervisor.Liveness
import ServeInfer.Supervisor.CrashLog
import ServeInfer.Supervisor.Operations
import ServeInfer.Supervisor.Loop
import ServeInfer.Supervisor.Books
import ServeInfer.Supervisor.Moves
import ServeInfer.Supervisor.Steps
import ServeInfer.Supervisor.Incarnations
import ServeInfer.ModelCache.Segments
import ServeInfer.ModelCache.World
import ServeInfer.ModelCache.Integrity
import ServeInfer.ModelCache.Loading
import ServeInfer.Supervisor.Survivors
import ServeInfer.ModelCache.Restart
import ServeInfer.Lib.Utf8
import ServeInfer.Lib.Json
import ServeInfer.ApiServer.Types
import ServeInfer.ApiServer.WorkerPool
import ServeInfer.ApiServer.PoolLoop
import ServeInfer.ApiServer.PoolMoves
import ServeInfer.ApiServer.Occupancy
import ServeInfer.ApiServer.CrashOrder
import ServeInfer.ApiServer.Idempotency
import ServeInfer.ApiServer.FailedExecution
import ServeInfer.Hardware.CapacityPlan
import ServeInfer.Hardware.Oversubscription
import ServeInfer.Device.LadderRuns
import ServeInfer.Device.Fallback
import ServeInfer.Device.HealthGate
import ServeInfer.Device.Router
import ServeInfer.Device.RouterRuns
import ServeInfer.Device.StreamContract
import ServeInfer.Device.BroughtUp
import ServeInfer.Device.RemoteConsent
import ServeInfer.ApiServer.InferRoutes
import ServeInfer.ApiServer.Isolation
import ServeInfer.ApiServer.WorkerProcesses
import ServeInfer.ApiServer.OneFrame
import ServeInfer.InferenceWorker.Frames
import ServeInfer.Lib.JsonText
import ServeInfer.Lib.Utf8Chunks
import ServeInfer.InferenceWorker.FrameText
import ServeInfer.ApiServer.LineReading
import ServeInfer.ApiServer.ReplyReading
import ServeInfer.ApiServer.ReplyFrames
import ServeInfer.ApiServer.Chunking
import ServeInfer.ApiServer.Recovery
import ServeInfer.ApiServer.RecoveryChain
import ServeInfer.Lib.Regex
import ServeInfer.Lib.JsonQuote
import ServeInfer.InferenceWorker.JobParsing
import ServeInfer.ApiServer.RequestFrames
import ServeInfer.Lib.Memory
import ServeInfer.ModelCache.HeaderBytes
import ServeInfer.ModelCache.Handshake
import ServeInfer.Supervisor.Roster
import ServeInfer.Supervisor.RosterSteps
import ServeInfer.Supervisor.OneProcess
import ServeInfer.Supervisor.OpenBreaker
import ServeInfer.Supervisor.Coverage
import ServeInfer.Device.KnownTiers
import ServeInfer.InferenceWorker.Answers
import ServeInfer.ApiServer.TokenSum
import ServeInfer.ApiServer.ErrorLadders
import ServeInfer.ApiServer.InflightFile
import ServeInfer.ApiServer.FreshEvidence
import ServeInfer.Device.DegradedReason
import ServeInfer.Device.TierChanges
import ServeInfer.InferenceWorker.Engine
import ServeInfer.InferenceWorker.WorkerProcess
import ServeInfer.InferenceWorker.Standings
import ServeInfer.InferenceWorker.DeviceHonesty
import ServeInfer.InferenceWorker.CpuOnly
import ServeInfer.InferenceWorker.ForceCpu
import ServeInfer.Hardware.ReportJson
import ServeInfer.Hardware.ReportRoundTrip
import ServeInfer.Hardware.PlanThroughPipe
import ServeInfer.Lib.JsonStringify
import ServeInfer.Lib.TextDecoder
import ServeInfer.ShellApp.StreamFromApi
import ServeInfer.ShellApp.SseRoundTrip
import ServeInfer.ShellApp.CutStream
import ServeInfer.Scheduler.CancelFrame
import ServeInfer.Scheduler.WorkConservation
import ServeInfer.ApiServer.TwoPaths
import ServeInfer.Device.Attribution
import ServeInfer.ApiServer.CutRequests
import ServeInfer.Supervisor.NoticeDiscipline
import ServeInfer.ApiServer.FirstCause
import ServeInfer.InferenceWorker.RemoteTransport
import ServeInfer.InferenceWorker.RemoteCodec
import ServeInfer.Lib.JsonControls
import ServeInfer.Lib.Charset
import ServeInfer.Lib.JsonNumber
import ServeInfer.Supervisor.ModelConfig
import ServeInfer.ApiServer.WorkerCountSource
import ServeInfer.Supervisor.ConfigText
import ServeInfer.ApiServer.PoolAgreement
import ServeInfer.InferenceWorker.Generation
import ServeInfer.InferenceWorker.DecodeLoop
import ServeInfer.InferenceWorker.RequestCourse
import ServeInfer.InferenceWorker.EntryPoints
import ServeInfer.InferenceWorker.SwallowedFaults
import ServeInfer.InferenceWorker.EngineCalls
import ServeInfer.InferenceWorker.CarryOver
import ServeInfer.InferenceWorker.BatchBound
import ServeInfer.Device.WalkDown
import ServeInfer.Supervisor.BreakerIsolation
import ServeInfer.ModelCache.CopyLoop
import ServeInfer.ApiServer.CrashNotice
import ServeInfer.ApiServer.NoticeOrder
import ServeInfer.Hardware.MoreRoom
import ServeInfer.Lib.SlidingWindow
import ServeInfer.Supervisor.CrashWindow
import ServeInfer.Scheduler.DoneMap
import ServeInfer.Supervisor.HeartbeatDecoding
import ServeInfer.InferenceWorker.DecodeBudget
import ServeInfer.Hardware.Truncation
import ServeInfer.ApiServer.PresentedFaults
import ServeInfer.Scheduler.Queries
import ServeInfer.ShellApp.StreamRoute
import ServeInfer.ShellApp.FrameOrder
import ServeInfer.Clients.ChatStream
import ServeInfer.Clients.FromShell
import ServeInfer.Clients.ChatClient
import ServeInfer.Clients.ClientMoves
import ServeInfer.Clients.ClientRuns
import ServeInfer.Clients.Transcript
import ServeInfer.ApiServer.NoticeLink
import ServeInfer.Config.Env
import ServeInfer.Config.Precedence
import ServeInfer.Config.WrittenEntries
import ServeInfer.Remote.SarvamTransport
import ServeInfer.Remote.PromptToService
import ServeInfer.Supervisor.Shutdown
import ServeInfer.Supervisor.Discovery
import ServeInfer.ShellApp.OwnTokens
import ServeInfer.Scheduler.Causes

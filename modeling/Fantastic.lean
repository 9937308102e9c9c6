import Fantastic.Bridge.Handshake
import Fantastic.Bridge.PostureRuns
import Fantastic.Parity.AiStatus
import Fantastic.Parity.BoundedInbox
import Fantastic.Parity.DeleteLock
import Fantastic.Parity.FileEdge
import Fantastic.Parity.HistoryRing
import Fantastic.Parity.IngressAgreement
import Fantastic.Parity.KeyedStoreRuns
import Fantastic.Parity.PidLock
import Fantastic.Parity.Projection
import Fantastic.Parity.ReadLoops
import Fantastic.Parity.RecallPages
import Fantastic.Parity.Scrollback
import Fantastic.Parity.StoreAddresses
import Fantastic.Parity.StreamCursor
import Fantastic.Parity.WatcherOrder
import Fantastic.Python.AliasRuns
import Fantastic.Python.AnthropicMessages
import Fantastic.Python.BackendChains
import Fantastic.Python.BackendEvents
import Fantastic.Python.BridgeBootRuns
import Fantastic.Python.BridgeProgress
import Fantastic.Python.CascadeRuns
import Fantastic.Python.ClampBounds
import Fantastic.Python.ColdBootLoad
import Fantastic.Python.ForwardHygiene
import Fantastic.Python.PtySessions
import Fantastic.Python.RelaySockets
import Fantastic.Python.SessionLoader
import Fantastic.Python.SocketHygiene
import Fantastic.Python.StoredConversation
import Fantastic.Python.VerbContract
import Fantastic.Rust.AiTranscript
import Fantastic.Rust.BinaryCall
import Fantastic.Rust.BridgeCorrelation
import Fantastic.Rust.BridgeLoops
import Fantastic.Rust.FileClamp
import Fantastic.Rust.NimStream
import Fantastic.Rust.RoutePaths
import Fantastic.Rust.SchedulerRuns
import Fantastic.Rust.SnapshotRuns
import Fantastic.Rust.TerminalOutput
import Fantastic.Rust.UploadRuns
import Fantastic.Swift.AgentIsolation
import Fantastic.Swift.BridgeReplies
import Fantastic.Swift.ClientInbox
import Fantastic.Swift.ColdBoot
import Fantastic.Swift.FileClamp
import Fantastic.Swift.JsonWriter
import Fantastic.Swift.RegistryRuns
import Fantastic.Swift.RelaySockets
import Fantastic.Swift.WebLegs
import Fantastic.Swift.WebSocketSeal
import Fantastic.Swift.WorkdirLock
import Fantastic.Ts.ConnectionRuns
import Fantastic.Ts.FederationRuns
import Fantastic.Ts.FrameCodec
import Fantastic.Ts.ViewTree

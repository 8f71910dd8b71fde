import GhostlySession.Protocol.Io
import GhostlySession.Protocol.Frame
import GhostlySession.Server.State
import GhostlySession.Server.Loop
import GhostlySession.Server.Signals
import GhostlySession.Server.Table
import GhostlySession.Server.Scan
import GhostlySession.Server.Lifetime
import GhostlySession.Server.Shutdown
import GhostlySession.Server.ExitCode
import GhostlySession.Server.Sends
import GhostlySession.Server.Monitor
import GhostlySession.Server.Fanout
import GhostlySession.Server.Fanin
import GhostlySession.Server.Broadcast
import GhostlySession.Client.Attach
import GhostlySession.Client.Detach
import GhostlySession.Client.Output
import GhostlySession.Wire
import GhostlySession.Terminal
import GhostlySession.Registry
import GhostlySession.Registry.Runs
import GhostlySession.Registry.Kill
import GhostlySession.Registry.Bytes
import GhostlySession.Registry.Names
import GhostlySession.Registry.Json
import GhostlySession.Registry.InfoText
import GhostlySession.Registry.ListJson
import GhostlySession.Registry.Enumerate
import GhostlySession.Registry.ListText
import GhostlySession.Registry.Directory
import GhostlySession.SystemInfo

import ShadowsocksLocal.Basic
import ShadowsocksLocal.Endpoints
import ShadowsocksLocal.Callbacks
import ShadowsocksLocal.Reactor
import ShadowsocksLocal.Invariant
import ShadowsocksLocal.Teardown
import ShadowsocksLocal.Growth
import ShadowsocksLocal.ReturnPath
import ShadowsocksLocal.Relay
import ShadowsocksLocal.Structure
import ShadowsocksLocal.Handshake
import ShadowsocksLocal.Upstream
import ShadowsocksLocal.Request
import ShadowsocksLocal.Bounds
import ShadowsocksLocal.Shutdown
import ShadowsocksLocal.Startup
import ShadowsocksLocal.Stages
import ShadowsocksLocal.Safety
import ShadowsocksLocal.ForwardPath
import ShadowsocksLocal.Backpressure
import ShadowsocksLocal.Faults
import ShadowsocksLocal.Descriptors
import ShadowsocksLocal.Streams
import ShadowsocksLocal.Sessions

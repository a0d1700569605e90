import Fluxheim.Admin.LockoutLength
import Fluxheim.Acme.RevocationRuns
import Fluxheim.Acme.InstallRuns
import Fluxheim.Server.RateLimitRuns
import Fluxheim.Cache.DiskObjectRoundTrip
import Fluxheim.Cache.CacheKeyInjective
import Fluxheim.Cache.DiskTierRuns
import Fluxheim.Cache.MemoryRuns
import Fluxheim.Server.ForwardPath
import Fluxheim.Server.ClientIp
import Fluxheim.Server.RouteAccess
import Fluxheim.Server.PhpDecoding
import Fluxheim.Server.PhpResponse
import Fluxheim.Server.PeerFillAuth
import Fluxheim.Server.ProxyProtocolRoundTrip
import Fluxheim.Http1.ChunkedBounds
import Fluxheim.Server.OriginTarget
import Fluxheim.Server.HostIdentity
import Fluxheim.Server.ResponsePooling
import Fluxheim.Server.LoadBalancedRetry
import Fluxheim.Server.UdpSessions
import Fluxheim.Snapshot.GenerationHistory
import Fluxheim.Snapshot.MacDomains
import Fluxheim.Balancer.BoundedLoad
import Fluxheim.Balancer.HealthyFloor
import Fluxheim.Balancer.KetamaRing
import Fluxheim.Balancer.MaglevBuild
import Fluxheim.Balancer.RuntimeStateRestore
import Fluxheim.Balancer.PersistenceRuns
import Fluxheim.Balancer.RuntimeBackends
import Fluxheim.Observability.EventLane

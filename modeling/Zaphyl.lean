import Zaphyl.Text
import Zaphyl.Utf8
import Zaphyl.UnixPath
import Zaphyl.FileTree
import Zaphyl.Little
import Zaphyl.Time
import Zaphyl.Http
import Zaphyl.CachePolicy
import Zaphyl.CacheCodec
import Zaphyl.CacheStore
import Zaphyl.CacheView
import Zaphyl.CacheKey
import Zaphyl.EntityTags
import Zaphyl.CacheRace
import Zaphyl.ContentCoding
import Zaphyl.Authority
import Zaphyl.Checks
import Zaphyl.Config
import Zaphyl.Sites
import Zaphyl.SiteRouting
import Zaphyl.CertReload
import Zaphyl.Proxy
import Zaphyl.RequestBody
import Zaphyl.StoragePolicy
import Zaphyl.HeaderLists
import Zaphyl.RepeatedLines
import Zaphyl.CacheDecode
import Zaphyl.HostileFile
import Zaphyl.Freshness
import Zaphyl.DirectiveCase
import Zaphyl.TargetRace
import Zaphyl.EarlyData
import Zaphyl.RevalidationRace
import Zaphyl.Access
import Zaphyl.AccessParse
import Zaphyl.MappedClients
import Zaphyl.RateLimiter
import Zaphyl.Pipelines
import Zaphyl.AppSites
import Zaphyl.AdmissionParity
import Zaphyl.ReplayRule
import Zaphyl.VisitRuns
import Zaphyl.RateWindows
import Zaphyl.BodyFilter
import Zaphyl.PluginStage
import Zaphyl.BodyBound
import Zaphyl.Multimap
import Zaphyl.HeaderLines
import Zaphyl.ForwardStage
import Zaphyl.RevalidationResource
import Zaphyl.OriginHost
import Zaphyl.RequestHeaders
import Zaphyl.RelayedHead
import Zaphyl.StoreParity
import Zaphyl.Acme
import Zaphyl.AcmeStart
import Zaphyl.Toml
import Zaphyl.SiteFiles
import Zaphyl.StaticFiles
import Zaphyl.DiskRace
import Zaphyl.PluginChain
import Zaphyl.PluginRoutes
import Zaphyl.PluginFraming
import Zaphyl.UpstreamFailure
import Zaphyl.ResponseHeaders
import Zaphyl.CodingNames
import Zaphyl.PathSegments
import Zaphyl.Rotation
import Zaphyl.RoundRobin
import Zaphyl.BoundedMap
import Zaphyl.MemoryTier
import Zaphyl.DiskCapacity
import Zaphyl.HeadParity
import Zaphyl.BodylessResponses
import Zaphyl.ConnectionFields
import Zaphyl.CachedBody
import Zaphyl.RenewalFailure
import Zaphyl.ChallengeLife
import Zaphyl.UpstreamAddress
import Zaphyl.FileStore
import Zaphyl.SiteCommands
import Zaphyl.Mpsc
import Zaphyl.Duplex
import Zaphyl.DuplexRelay
import Zaphyl.DuplexEnds
import Zaphyl.DuplexExchange
import Zaphyl.DuplexStore
import Zaphyl.HeldFiles
import Zaphyl.SiteRegistry
import Zaphyl.SiteListing
import Zaphyl.CacheThreads
import Zaphyl.ServedAge
import Zaphyl.ServedResource
import Zaphyl.Http3Streams
import Zaphyl.Http3Upload
import Zaphyl.Http3Relay
import Zaphyl.HealthProbes
import Zaphyl.HttpFront

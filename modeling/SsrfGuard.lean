import SsrfGuard.Address
import SsrfGuard.DefaultDenied
import SsrfGuard.Policy.Host
import SsrfGuard.Policy.Config
import SsrfGuard.Library.Effect
import SsrfGuard.Python.Url
import SsrfGuard.Library.Raises
import SsrfGuard.Observer
import SsrfGuard.Policy.CheckUrl
import SsrfGuard.Policy.Redaction
import SsrfGuard.Dns.Name
import SsrfGuard.Library.Reach
import SsrfGuard.Dns.AnswerSection
import SsrfGuard.Dns.Network
import SsrfGuard.Dns.UdpResolver
import SsrfGuard.Dns.Outcome
import SsrfGuard.Resolve
import SsrfGuard.Connect
import SsrfGuard.Redirect.Chain
import SsrfGuard.Redirect.Crossing
import SsrfGuard.Dns.WireName
import SsrfGuard.Dns.NameRoundTrip
import SsrfGuard.Dns.Question
import SsrfGuard.Dns.ParseBounds
import SsrfGuard.Dns.Replies
import SsrfGuard.Dns.Deadline
import SsrfGuard.Library.Recency
import SsrfGuard.RebindingWatch
import SsrfGuard.Httpx.Backend
import SsrfGuard.Httpx.PeerCheck
import SsrfGuard.Httpx.Resolution
import SsrfGuard.Library.Follow
import SsrfGuard.Httpx.ConnectFailover
import SsrfGuard.Httpx.FailoverParity
import SsrfGuard.RebindingMemory
import SsrfGuard.Httpx.OriginParity
import SsrfGuard.Policy.HostList
import SsrfGuard.Requests.Origin
import SsrfGuard.Requests.Seam
import SsrfGuard.Dns.AcceptedName
import SsrfGuard.Policy.Translated
import SsrfGuard.Dns.AliasBounds
import SsrfGuard.Unobserved
import SsrfGuard.Library.Cost
import SsrfGuard.SocketCost
import SsrfGuard.Redirect.Call
import SsrfGuard.Dns.Truncated
import SsrfGuard.Dns.OffPath
import SsrfGuard.Dns.AttemptTime
import SsrfGuard.Dns.Records
import SsrfGuard.ConnectLedger
import SsrfGuard.Policy.HostRebuild
import SsrfGuard.TableRows
import SsrfGuard.DecisionTrace
import SsrfGuard.RebindingSpelling
import SsrfGuard.Dns.NameTurns
import SsrfGuard.Dns.EncodableName
import SsrfGuard.Python.AddressText
import SsrfGuard.Dns.CallRows
import SsrfGuard.RegistryGenerator
import SsrfGuard.Httpx.OptionRouting
import SsrfGuard.Egress
import SsrfGuard.Httpx.StreamEgress
import SsrfGuard.Redirect.CallEgress
import SsrfGuard.Redirect.CallMoves
import SsrfGuard.Dns.CallAddresses
import SsrfGuard.Library.Transducer
import SsrfGuard.Python.SourceText
import SsrfGuard.Python.TextWrap
import SsrfGuard.RegistrySource
import SsrfGuard.Redirect.CallUnobserved
import SsrfGuard.Dns.Failure
import SsrfGuard.Dns.ResolvConf
import SsrfGuard.Tightening
import SsrfGuard.Policy.Authority
import SsrfGuard.Requests.Adapter
import SsrfGuard.Library.Stays
import SsrfGuard.Redirect.CallReturns
import SsrfGuard.Library.Pool
import SsrfGuard.RebindingThreads

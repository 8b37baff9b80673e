import Axp.Lts
import Axp.LittleEndian
import Axp.PrefixCode
import Axp.FileFormat
import Axp.FileLog
import Axp.LogRefinement
import Axp.Job
import Axp.Attach
import Axp.Delivery
import Axp.Cancel
import Axp.Output
import Axp.Sse
import Axp.Capability
import Axp.CapabilityGrammar
import Axp.Sandbox
import Axp.Directory
import Axp.Provider
import Axp.Segments
import Axp.Registry
import Axp.Session
import Axp.Engine
import Axp.Attenuation
import Axp.Authority
import Axp.Discovery
import Axp.Lifecycle
import Axp.Isolation
import Axp.Server
import Axp.Effects
import Axp.Gate
import Axp.JobLife
import Axp.Signals
import Axp.CancelAnswers
import Axp.AuditTrail
import Axp.AuditAnswers
import Axp.Records
import Axp.SseDecoder
import Axp.SseStream
import Axp.AttachedJob
import Axp.Invisible
import Axp.FileGrammar
import Axp.StartTrace
import Axp.PolicyGrants
import Axp.HostCall
import Axp.Interrupt
import Axp.Descriptions
import Axp.JsonRpc
import Axp.Router
import Axp.SecondaryIndex
import Axp.JobIndex
import Axp.Codec
import Axp.Serde
import Axp.Wire
import Axp.Token
import Axp.AppState
import Axp.HandlerRuns
import Axp.RpcClient
import Axp.AttachEndpoint
import Axp.Hierarchy
import Axp.Confinement
import Axp.ConfinedRuns
import Axp.Crash
import Axp.TokenRuns
import Axp.Potential
import Axp.JobEnds
import Axp.McpConfig
import Axp.Offers
import Axp.Mounting
import Axp.Demo

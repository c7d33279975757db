import KixDns.Basic
import KixDns.Config
import KixDns.Matcher
import KixDns.Decision
import KixDns.AdvancedRule
import KixDns.Engine.ApplyRules
import KixDns.Engine.RuleWalk
import KixDns.Engine.Reload
import KixDns.Engine.RuleCache
import KixDns.ProtoUtils
import KixDns.Engine.ResponseActions
import KixDns.Engine.State
import KixDns.Engine.HandlePacket
import KixDns.Engine.DuplicatedPaths
import KixDns.Wire.QuestionName
import KixDns.Wire.ResponseLayout
import KixDns.Engine.SingleFlight
import KixDns.Engine.ResponseReuse
import KixDns.Transport.TcpMux
import KixDns.Transport.UdpPool
import KixDns.Transport.IdReuse
import KixDns.Engine.Candidates
import KixDns.Wire.CheckedQuery
import KixDns.Wire.CheckedResponse
import KixDns.Engine.IndexRefinement
import KixDns.Transport.TcpFraming
import KixDns.Engine.RuleCacheRefinement
import KixDns.Transport.Forward

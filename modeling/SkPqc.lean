import SkPqc.DmSession.Schedule
import SkPqc.DmSession.Opening
import SkPqc.DmSession.ActiveNetwork
import SkPqc.DmSession.TwoWay
import SkPqc.DmSession.Token
import SkPqc.DmSession.Epochs
import SkPqc.DmSession.FailedSeal
import SkPqc.DmSession.Counters
import SkPqc.CanonicalJson
import SkPqc.Pqdm
import SkPqc.CanonicalAad
import SkPqc.DowngradeLock
import SkPqc.Malleability
import SkPqc.KeySchedule
import SkPqc.GroupEpoch
import SkPqc.HybridSecret
import SkPqc.RouteSafety
import SkPqc.AnonQueue
import SkPqc.ReportText
import SkPqc.Narrative
import SkPqc.CanonicalFaithful
import SkPqc.Listing
import SkPqc.HonestClaim
import SkPqc.DmSession.Conversation
import SkPqc.Relay
import SkPqc.DmSession.Wire
import SkPqc.ReportReading
import SkPqc.SuiteQueries
import SkPqc.FrbGenerated
import SkPqc.GroupHistory
import SkPqc.SuiteNegotiation
import SkPqc.DmSession.Readers
import SkPqc.GroupSenders
import SkPqc.DmSession.Forks

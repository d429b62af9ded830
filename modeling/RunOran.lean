import RunOran.Varint
import RunOran.WireFormat
import RunOran.Concatenation
import RunOran.Mealy
import RunOran.History
import RunOran.StableSort
import RunOran.Cells
import RunOran.Pilots
import RunOran.IqSample
import RunOran.Saturation
import RunOran.SrsMessages
import RunOran.Collector
import RunOran.Freshness
import RunOran.Cleanup
import RunOran.Occasion
import RunOran.Recovery
import RunOran.Serializer
import RunOran.ReportService
import RunOran.Batching
import RunOran.Xapp
import RunOran.Delivery
import RunOran.Subscriptions
import RunOran.Reporting
import RunOran.Backlog
import RunOran.Pairing
import RunOran.EndToEnd
import RunOran.Decoders
import RunOran.TimingAdvance
import RunOran.MessageHandler
import RunOran.FailedAppend
import RunOran.Isolation
import RunOran.Assembly
import RunOran.Estimator
import RunOran.ChannelEstimate
import RunOran.EstimateTerms
import RunOran.ExactEstimate
import RunOran.PowerBalance
import RunOran.Agent
import RunOran.GnbConfig
import RunOran.Sizes
import RunOran.Announcement
import RunOran.Budget
import RunOran.Sharing
import RunOran.Observations
import RunOran.System
import RunOran.Merging
import RunOran.Versions
import RunOran.Misrouting
import RunOran.Estimates
import RunOran.Mismatch
import RunOran.Losses

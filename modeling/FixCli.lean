import FixCli.Lib.Prog
import FixCli.CodecRoundTrip
import FixCli.Store
import FixCli.Lib.Trace
import FixCli.Rejection
import FixCli.SessionRules
import FixCli.LogoutFinal
import FixCli.AdminEpochs
import FixCli.AdminRecords
import FixCli.AppendOnly
import FixCli.CounterBooks
import FixCli.CounterSync
import FixCli.Credentials
import FixCli.EpochRuns
import FixCli.FramedMessages
import FixCli.InboundTable
import FixCli.LogonGate
import FixCli.OutboundTable
import FixCli.Realignment
import FixCli.ArrivalOrder
import FixCli.OrderWire
import FixCli.ApplicationWire
import FixCli.CopiesVerify
import FixCli.Lib.Rational
import FixCli.Lib.Span
import FixCli.PlannedAccepted
import FixCli.PolicyLimits
import FixCli.ReplayCover
import FixCli.Retries
import FixCli.ValidatedInbound
import FixCli.Admissions
import FixCli.OrdersOnce
import FixCli.RateWindow
import FixCli.Uncertified
import FixCli.MockRuns
import FixCli.InitiatorHears
import FixCli.Channels
import FixCli.Fingerprint
import FixCli.ExtraTags
import FixCli.FrameGrammar
import FixCli.BodyFields
import FixCli.Deadlines
import FixCli.ResetFlag
import FixCli.Canonical
import FixCli.Lib.Overlay
import FixCli.QuickfixCfg
import FixCli.SectionMerge
import FixCli.CfgNumbers
import FixCli.CounterSums
import FixCli.SafeHalts
import FixCli.SequenceRoom
import FixCli.ResponseRoom
import FixCli.GapBuffer
import FixCli.JournalFirst
import FixCli.GapRecovery
import FixCli.Confirmations
import FixCli.PlannedExchange
import FixCli.StoreLives
import FixCli.Conversations

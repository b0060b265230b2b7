import Ns3Rmcat.Lib.Checked
import Ns3Rmcat.Lib.SerialNumber
import Ns3Rmcat.Lib.Octets
import Ns3Rmcat.Lib.RunLengths
import Ns3Rmcat.Controller.SenderBasedRun
import Ns3Rmcat.Controller.SenderBasedSafety
import Ns3Rmcat.Controller.SenderBasedLoss
import Ns3Rmcat.Controller.SenderBasedMatching
import Ns3Rmcat.Controller.Nada
import Ns3Rmcat.Controller.NadaBatch
import Ns3Rmcat.Header.Rfb
import Ns3Rmcat.Header.RfbSteps
import Ns3Rmcat.Header.RfbSize
import Ns3Rmcat.Header.RfbBlocks
import Ns3Rmcat.Header.RfbMisaligned
import Ns3Rmcat.Header.RfbRoundTrip
import Ns3Rmcat.Receiver.Ccfs
import Ns3Rmcat.Receiver.CcfsReports
import Ns3Rmcat.Header.CCFeedback
import Ns3Rmcat.Header.CCFeedbackAdd
import Ns3Rmcat.Header.CCFeedbackSize
import Ns3Rmcat.Header.CCFeedbackRead
import Ns3Rmcat.Header.CCFeedbackRoundTrip
import Ns3Rmcat.Header.CCFeedbackParse
import Ns3Rmcat.Controller.CcfsRun
import Ns3Rmcat.Lib.SlidingWindow
import Ns3Rmcat.Lib.Extremes
import Ns3Rmcat.Lib.CircularInterval
import Ns3Rmcat.Lib.Reader
import Ns3Rmcat.Controller.CcfsStatus
import Ns3Rmcat.Controller.CcfsEvents
import Ns3Rmcat.Controller.CcfsIncrease
import Ns3Rmcat.Controller.CcfsBandwidth
import Ns3Rmcat.Controller.CcfsPeriod
import Ns3Rmcat.Controller.CcfsWindow
import Ns3Rmcat.Controller.CcfsVirtualQueue
import Ns3Rmcat.Controller.InterLoss
import Ns3Rmcat.Controller.SenderBasedRate
import Ns3Rmcat.Controller.SenderBasedDelay
import Ns3Rmcat.Controller.CcfsStore
import Ns3Rmcat.Controller.CcfsTotals
import Ns3Rmcat.Controller.NadaApi
import Ns3Rmcat.Controller.Bounds
import Ns3Rmcat.Controller.Reset
import Ns3Rmcat.Controller.Dummy
import Ns3Rmcat.Controller.InTransit
import Ns3Rmcat.Header.Reuse
import Ns3Rmcat.Controller.NadaNumeric
import Ns3Rmcat.Header.RfbNumbers
import Ns3Rmcat.Flow.Ccfs
import Ns3Rmcat.Flow.InFlight
import Ns3Rmcat.Receiver.Rmcat
import Ns3Rmcat.Receiver.RmcatReports
import Ns3Rmcat.Lib.Scheduler
import Ns3Rmcat.Lib.QueueHistory
import Ns3Rmcat.Sender.Rmcat
import Ns3Rmcat.Sender.RmcatSteps
import Ns3Rmcat.Sender.RmcatSilence
import Ns3Rmcat.Sender.RmcatShaping
import Ns3Rmcat.Controller.CcfsAccounting
import Ns3Rmcat.Header.RfbReading
import Ns3Rmcat.Controller.CcfsDelay
import Ns3Rmcat.Header.CCFeedbackLayout
import Ns3Rmcat.Header.CCFeedbackQuery
import Ns3Rmcat.Header.RfbLayout
import Ns3Rmcat.Header.RfbParse
import Ns3Rmcat.Controller.NadaWarping
import Ns3Rmcat.Receiver.NQMonitor
import Ns3Rmcat.Controller.CcfsFifo
import Ns3Rmcat.Header.CCFeedbackOrder
import Ns3Rmcat.Header.CCFeedbackReencode
import Ns3Rmcat.Header.RtpRoundTrip
import Ns3Rmcat.Controller.CcfsCompeting
import Ns3Rmcat.Controller.RateHistory
import Ns3Rmcat.Flow.RmcatMeasures
import Ns3Rmcat.Flow.RmcatCcfsTruth
import Ns3Rmcat.Sender.RmcatRates

import EmacZero.AsyncFifoOrder
import EmacZero.MiiIfRxEnvelopes
import EmacZero.GmiiCdcRxDelivery
import EmacZero.CsumCalcReference
import EmacZero.EthMacRxAlone
import EmacZero.EthStats
import EmacZero.MacLoopback
import EmacZero.AxilArb2
import EmacZero.EthPauseSend
import EmacZero.EthMacSysEvents
import EmacZero.EthPauseCrossing
import EmacZero.NibbleReceivers
import EmacZero.EmzTxCsum
import EmacZero.MiiTxSafPending
import EmacZero.SyncFifoQueue
import EmacZero.CrcResidue
import EmacZero.EmzMcast
import EmacZero.EthPauseHold
import EmacZero.EthMacTxBursts
import EmacZero.ArtyTxArbiter
import EmacZero.RgmiiTxc
import EmacZero.EmzTxRingWake
import EmacZero.NetRxRuns
import EmacZero.UdpIperfSink
import EmacZero.ArpResponder
import EmacZero.FrameSender
import EmacZero.NetFrames
import EmacZero.IcmpEcho
import EmacZero.IcmpEchoRx
import EmacZero.IcmpEchoReply
import EmacZero.IcmpEchoSend
import EmacZero.IcmpEchoRun
import EmacZero.UdpEcho
import EmacZero.UdpEchoRx
import EmacZero.UdpEchoSend
import EmacZero.FrameReplier
import EmacZero.UdpEchoRun
import EmacZero.RingTurns
import EmacZero.EmzRxRing
import EmacZero.EmzRxRingBench
import EmacZero.EmzRxRingOwned
import EmacZero.EmzRxRingSteps
import EmacZero.EmzRxRingDma
import EmacZero.EmzRxRingRun
import EmacZero.UdpStatsReply
import EmacZero.UdpStatsReplyRx
import EmacZero.UdpStatsReplySend
import EmacZero.UdpStatsReplyRun
import EmacZero.UdpBlast
import EmacZero.UdpBlastSend
import EmacZero.UdpBlastRun
import EmacZero.UdpBlastTrigger
import EmacZero.BlastDemo
import EmacZero.BlastDemoRun
import EmacZero.BlastDemoProgress
import EmacZero.GrayPointers
import EmacZero.FoldedCounter
import EmacZero.MacCounters
import EmacZero.EmzStats
import EmacZero.EmzStatsRun
import EmacZero.MdioMaster
import EmacZero.MdioWave
import EmacZero.MdioSys
import EmacZero.MdioWire
import EmacZero.MdioRun
import EmacZero.MiiTxSafWire
import EmacZero.MiiTxSafDrain
import EmacZero.GmiiCdcTx
import EmacZero.PacketLog
import EmacZero.GmiiCdcTxRead
import EmacZero.GmiiCdcTxBench
import EmacZero.GmiiCdcTxHolds
import EmacZero.HeldBeats
import EmacZero.GmiiCdcTxWire
import EmacZero.GmiiCdcTxOffers
import EmacZero.GmiiCdcTxRun
import EmacZero.GmiiCdcTxDrain
import EmacZero.GmiiCdcTxPriority
import EmacZero.EthMacTxLength
import EmacZero.EthMacSysTx
import EmacZero.PeriodicLook
import EmacZero.RgmiiIfTx
import EmacZero.RgmiiTxLine
import EmacZero.RgmiiTxRun
import EmacZero.GmiiRgmiiTx
import EmacZero.DeliveredFrames
import EmacZero.EthGmiiLink
import EmacZero.EthGmiiLinkRun

import RtpLib.Runs
import RtpLib.Fifo
import RtpLib.Blocks
import RtpLib.Handoff
import RtpLib.WordMachine
import RtpLib.ResetHandler
import RtpLib.Sbrk
import RtpLib.RingBuffer
import RtpLib.RingQueue
import RtpLib.RingBounds
import RtpLib.RingClear
import RtpLib.UartPort
import RtpLib.TxTask
import RtpLib.TxRing
import RtpLib.TxDelivery
import RtpLib.TxProgress
import RtpLib.TxRest
import RtpLib.RxArmed
import RtpLib.RxReader
import RtpLib.RxAnnounce
import RtpLib.RxCallback
import RtpLib.UartCalls
import RtpLib.ReadData
import RtpLib.ReadString
import RtpLib.LineReader
import RtpLib.WriteString
import RtpLib.UartQueues
import RtpLib.UartApart
import RtpLib.InterruptMask
import RtpLib.TxCalls
import RtpLib.Printf
import RtpLib.AddressLog
import RtpLib.AddressWire
import RtpLib.Ethernetif
import RtpLib.LinkSupervision
import RtpLib.AutoNegotiation
import RtpLib.LinkWait
import RtpLib.LinkHistory
import RtpLib.EthDma
import RtpLib.EthOutput
import RtpLib.EthSent
import RtpLib.EthInput
import RtpLib.EthThread
import RtpLib.EthRing
import RtpLib.EthReceiver
import RtpLib.EthReceived
import RtpLib.EthWake
import RtpLib.EthTurn
import RtpLib.EthTransmitter
import RtpLib.EthTransmitted
import RtpLib.EthCall
import RtpLib.UdpEcho
import RtpLib.TcpEcho
import RtpLib.TcpEchoed

import SensorHub.AccelerationHistory
import SensorHub.AccelerationPeriods
import SensorHub.Acquisition
import SensorHub.AngleReconstruction
import SensorHub.AngularStatistics
import SensorHub.Calendar
import SensorHub.Clock
import SensorHub.CommandChains
import SensorHub.Configuration
import SensorHub.DecimalText
import SensorHub.DeviceReport
import SensorHub.Dialogues
import SensorHub.EventRuns
import SensorHub.FloatText
import SensorHub.Framing
import SensorHub.HttpGrammar
import SensorHub.HttpHandler
import SensorHub.HttpParser
import SensorHub.HttpReply
import SensorHub.HttpServer
import SensorHub.HttpVersion
import SensorHub.IeeeDouble
import SensorHub.JsonEvents
import SensorHub.ListRuns
import SensorHub.ModbusHandler
import SensorHub.PacketParser
import SensorHub.Polling
import SensorHub.PortAnswers
import SensorHub.PortCommand
import SensorHub.ProcessorOutput
import SensorHub.ProcessorParams
import SensorHub.Quantities
import SensorHub.Recognizers
import SensorHub.RegexChunks
import SensorHub.RegexDrain
import SensorHub.RegexFailure
import SensorHub.RegexLines
import SensorHub.RegexParser
import SensorHub.RegexSyntax
import SensorHub.RegexTermination
import SensorHub.Rounding
import SensorHub.Runwell
import SensorHub.RunwellRequests
import SensorHub.RunwellSetup
import SensorHub.SampleCache
import SensorHub.ScaleConfig
import SensorHub.Scaling
import SensorHub.SearchRounds
import SensorHub.SerialDevice
import SensorHub.ServiceLoop
import SensorHub.ServiceUptime
import SensorHub.SignalK
import SensorHub.StatisticFields
import SensorHub.Statistics
import SensorHub.TimerChains
import SensorHub.Tools
import SensorHub.TransferQueue
import SensorHub.UbloxChecksum
import SensorHub.UbloxFields
import SensorHub.UbloxIdentity
import SensorHub.UbloxMotion
import SensorHub.UbloxNavigation
import SensorHub.UbloxPacket
import SensorHub.UbloxParser
import SensorHub.UbloxPayload
import SensorHub.UbloxPolling
import SensorHub.UbloxRoundTrip
import SensorHub.UbloxSetup
import SensorHub.UbloxStream
import SensorHub.UrlDecode
import SensorHub.UsbConnection
import SensorHub.UsbOpen
import SensorHub.UsbReads
import SensorHub.UsbTransfers
import SensorHub.WeightedMoments
import SensorHub.Wiring
import SensorHub.Wrapping
import SensorHub.X3
import SensorHub.XsensAttitude
import SensorHub.XsensCommand
import SensorHub.XsensData
import SensorHub.XsensFailure
import SensorHub.XsensIdentity
import SensorHub.XsensItems
import SensorHub.XsensParser
import SensorHub.XsensRotation
import SensorHub.XsensSetup
import SensorHub.XsensStream
import SensorHub.XsensTermination

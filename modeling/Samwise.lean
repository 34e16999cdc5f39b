import Samwise.Lib.LittleEndian
import Samwise.Lib.Memory
import Samwise.Lib.Buffer
import Samwise.Lib.Run
import Samwise.Lib.BoundedQueue
import Samwise.Lib.Collect
import Samwise.Lib.RingBuffer
import Samwise.Lib.RingMemory
import Samwise.Lib.SerialLine
import Samwise.Lib.Interaction
import Samwise.Lib.Fallible
import Samwise.Lib.Utf8
import Samwise.Lib.ReflectedCrc
import Samwise.Lib.BinaryFloat
import Samwise.Lib.IteratedHash
import Samwise.Lib.Sha256
import Samwise.Lib.CountedLoop
import Samwise.Lib.Interrupts
import Samwise.Lib.Service
import Samwise.Lib.KeyEquation
import Samwise.Lib.ErrorLocator
import Samwise.Lib.BlockDevice
import Samwise.Utils.BitSupport
import Samwise.Packet.Packet
import Samwise.Packet.PacketCodec
import Samwise.Packet.Authentication
import Samwise.Tinycrypt.Sha256
import Samwise.Tinycrypt.Hmac
import Samwise.Packet.PacketTag
import Samwise.Flash.Flash
import Samwise.Flash.PowerLoss
import Samwise.Flash.OtaUpdate
import Samwise.Flight.Slate
import Samwise.Flight.Beacon
import Samwise.Flight.Flight
import Samwise.Flight.Steps
import Samwise.Flight.Watchdog
import Samwise.Flight.WatchdogWaveform
import Samwise.Command.CommandParser
import Samwise.Radio.RadioTask
import Samwise.Radio.Transmission
import Samwise.BurnWire.BurnWire
import Samwise.Scheduler.Scheduler
import Samwise.Command.PingCount
import Samwise.Scheduler.DispatchTrace
import Samwise.Scheduler.BurnBudget
import Samwise.Scheduler.QueueUse
import Samwise.Scheduler.Routine
import Samwise.Scheduler.SchedulerSafety
import Samwise.Scheduler.TaskEnumeration
import Samwise.BurnWire.BurnPins
import Samwise.Scheduler.MainLoop
import Samwise.BurnWire.Deployment
import Samwise.Scheduler.WatchdogCoverage
import Samwise.Ground.State
import Samwise.Ground.Beacon
import Samwise.Ground.Protocol
import Samwise.Ground.RadioCommands
import Samwise.Link.Uplink
import Samwise.Link.Commands
import Samwise.Link.PayloadCommands
import Samwise.Radio.ReceiveAccounting
import Samwise.Link.MessageIds
import Samwise.Link.Reception
import Samwise.Link.CommandLink
import Samwise.Link.CommandDelivery
import Samwise.Link.Downlink
import Samwise.Link.BeaconPacket
import Samwise.Utils.Crc32
import Samwise.Utils.BurstErrors
import Samwise.Communications.Cobs
import Samwise.Communications.CobsBuffers
import Samwise.Communications.Protocol
import Samwise.Communications.UartCommunications
import Samwise.Communications.UartRxRing
import Samwise.Communications.UartFraming
import Samwise.Communications.UartTransmit
import Samwise.Adcs.AdcsLink
import Samwise.Drivers.Mppt
import Samwise.Drivers.Rfm9x
import Samwise.Drivers.Rfm9xConfiguration
import Samwise.Drivers.Rfm9xInterrupts
import Samwise.Drivers.Rfm9xFrames
import Samwise.Drivers.Rfm9xReception
import Samwise.Drivers.Rfm9xTransmission
import Samwise.Drivers.Mram
import Samwise.Drivers.MramMock
import Samwise.Payload.SerialFileTransfer
import Samwise.Payload.ReceivedFile
import Samwise.Payload.SendFile
import Samwise.Payload.LosslessTransfer
import Samwise.Payload.PayloadUart
import Samwise.Payload.SerialPacketHandler
import Samwise.Payload.Interoperability
import Samwise.Payload.LinkSoundness
import Samwise.Payload.ReadBounds
import Samwise.Payload.PacketReader
import Samwise.Payload.LoraDownlink
import Samwise.Payload.LoraReassembly
import Samwise.Filesys.Littlefs
import Samwise.Filesys.Filesys
import Samwise.Filesys.Operation
import Samwise.Filesys.Paths
import Samwise.Filesys.WriteSession
import Samwise.Filesys.HandleLeaks
import Samwise.Filesys.FileStore
import Samwise.Filesys.ContentLaw
import Samwise.Filesys.Reading
import Samwise.Filesys.FileCrc
import Samwise.Filesys.ReadBack
import Samwise.Filesys.FileCache
import Samwise.Filesys.CacheRecords
import Samwise.Filesys.CacheReads
import Samwise.Filesys.ReadIsolation
import Samwise.Filesys.MountDiscipline
import Samwise.Filesys.InfoPaths
import Samwise.Filesys.ErrorReports
import Samwise.Filesys.Listing
import Samwise.Filesys.StartWrite
import Samwise.Filesys.BufferBounds
import Samwise.Filesys.MramWrapper
import Samwise.Ssdv.Rs8
import Samwise.Ssdv.Symbol
import Samwise.Ssdv.Rs8Encoder
import Samwise.Ssdv.Rs8Locator
import Samwise.Ssdv.Rs8Decoder
import Samwise.Ssdv.Packet

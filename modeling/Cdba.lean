import Cdba.RingWindow
import Cdba.FrameStream
import Cdba.Program
import Cdba.IntrusiveList
import Cdba.Message
import Cdba.CircBuf
import Cdba.Libc
import Cdba.Timeval
import Cdba.Receive
import Cdba.Watch
import Cdba.FastbootTransfer
import Cdba.Hardware
import Cdba.Device
import Cdba.Server
import Cdba.Frame
import Cdba.Session
import Cdba.FirstSelection
import Cdba.PowerSequence
import Cdba.BootOverlap
import Cdba.PowerOff
import Cdba.ImageBoot
import Cdba.Selection
import Cdba.BoardLock
import Cdba.Client
import Cdba.ClientLoop
import Cdba.ClientFrame
import Cdba.Framing
import Cdba.WorkQueue
import Cdba.Requests
import Cdba.ImageUpload
import Cdba.UploadMerge
import Cdba.Deadlines
import Cdba.Operations
import Cdba.Supervision
import Cdba.PowerDown
import Cdba.AccessControl
import Cdba.Status
import Cdba.MessageLengths
import Cdba.EndOfStream
import Cdba.Boot
import Cdba.BootSending
import Cdba.BootDispatch
import Cdba.PowerCycles
import Cdba.Listing
import Cdba.Lookups
import Cdba.LineStream
import Cdba.Outgoing
import Cdba.StatusLines
import Cdba.Presence
import Cdba.Yaml
import Cdba.DriverOptions
import Cdba.DeviceParser
import Cdba.Configuration
import Cdba.Transducer
import Cdba.QcomltDbg
import Cdba.ShadowLines
import Cdba.FtdiGpio
import Cdba.Background
import Cdba.Reassembly
import Cdba.TimerMemory
import Cdba.WatchMemory
import Cdba.KeyMessages
import Cdba.HeldKeys
import Cdba.LengthPrefixed
import Cdba.UsbDescriptors
import Cdba.UsbWalk
import Cdba.UsbBounds
import Cdba.UsbEndpoints
import Cdba.UsbLayout
import Cdba.UsbSearch
import Cdba.CdbAssist
import Cdba.CdbKeys
import Cdba.CdbReports
import Cdba.FastbootPayload
import Cdba.Conmux
import Cdba.ConmuxReplies
import Cdba.ConmuxBounds
import Cdba.ConmuxOpen
import Cdba.FtdiLegacy
import Cdba.FtdiOptionLines
import Cdba.Unpowered
import Cdba.CdbaPower
import Cdba.PowerProgress
import Cdba.PowerOnCalls
import Cdba.FastbootAnswers
import Cdba.StatusBuffer
import Cdba.CircFifo
import Cdba.TrailingRun
import Cdba.TildeRuns
import Cdba.WithoutImage
import Cdba.RotatingQueue
import Cdba.PassLength
import Cdba.YamlTree
import Cdba.NodeReading
import Cdba.DriverTrees
import Cdba.BoardTree
import Cdba.ConfigurationTree
import Cdba.BoardDevice
import Cdba.KeyOrder
import Cdba.JsonSchema
import Cdba.SchemaYaml
import Cdba.SchemaSections
import Cdba.SchemaBoards
import Cdba.SchemaAgreement
import Cdba.Exchange
import Cdba.Keyboard
import Cdba.ClientTurns
import Cdba.Conversation
import Cdba.LogViews
import Cdba.SessionMachine
import Cdba.RequestReply
import Cdba.RemoteConsole
import Cdba.ServerNews
import Cdba.ListingSession
import Cdba.RemoteScreen
import Cdba.FileLock
import Cdba.Mirroring
import Cdba.Tenancy
import Cdba.Fleet
import Cdba.Farewell
import Cdba.PrefixCode
import Cdba.ControlTty
import Cdba.OutputPins
import Cdba.LocalGpioLines
import Cdba.ControllerOff

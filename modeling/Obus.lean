import Obus.Lib.Prog
import Obus.Buffer
import Obus.BufferLemmas
import Obus.Desc
import Obus.Struct
import Obus.StructCodec
import Obus.Bus
import Obus.Packet
import Obus.PacketCodec
import Obus.Decoder
import Obus.DecoderLemmas
import Obus.Framing
import Obus.RoundTrip
import Obus.Progress
import Obus.Streams
import Obus.Isolation
import Obus.Server
import Obus.ServerSteps
import Obus.Handshake
import Obus.Acks
import Obus.Alive
import Obus.Atomic
import Obus.Admission
import Obus.BusLemmas
import Obus.Calls
import Obus.Replica
import Obus.ServerBus
import Obus.BusEvents
import Obus.Broadcast
import Obus.Counter
import Obus.Agreement
import Obus.Resend
import Obus.Io
import Obus.IoAlive
import Obus.IoRefs
import Obus.IoStreams
import Obus.Reentry
import Obus.Link
import Obus.World
import Obus.Lib.Circle
import Obus.Registry
import Obus.RegistryLemmas
import Obus.RegistryClient
import Obus.RegistryEvents
import Obus.RegistryServer
import Obus.Unlinking
import Obus.Disconnection
import Obus.Projection
import Obus.BusEventCheck
import Obus.StrayRemoval
import Obus.RemoveOnce
import Obus.EventCommit
import Obus.Lib.BitWords
import Obus.Lib.Cells
import Obus.Memory
import Obus.MemoryLemmas
import Obus.MemoryMerge
import Obus.AliasedMerge
import Obus.MergeLaws
import Obus.ArrayDecode
import Obus.ArrayFields
import Obus.PendingCalls
import Obus.SizeT
import Obus.WireSizes
import Obus.Hash
import Obus.BusApi
import Obus.BusInit
import Obus.HandleDraw
import Obus.SocketAddr
import Obus.IdlNames
import Obus.Lib.Fallible
import Obus.Java.Buffer
import Obus.Java.Descriptor
import Obus.Java.Struct
import Obus.Java.BufferLemmas
import Obus.Java.StructRoundTrip
import Obus.Java.Protocol
import Obus.Java.PayloadDecoding
import Obus.ArrayText
import Obus.IdlUids
import Obus.SocketClient
import Obus.FdLoop
import Obus.Lib.Framer
import Obus.StreamDecoders
import Obus.StreamFramers
import Obus.ScanFraming
import Obus.StreamAgreement
import Obus.JavaRegistries
import Obus.RegistriesView
import Obus.WireStrings
import Obus.Java.WireFields
import Obus.Java.Arrival
import Obus.JavaReplica
import Obus.Lib.Cursor
import Obus.Python.Buffer
import Obus.Python.Struct
import Obus.Python.Protocol
import Obus.Python.Arrival
import Obus.Python.Client
import Obus.Python.Mirror
import Obus.Python.World
import Obus.Python.Departure
import Obus.Python.Calls
import Obus.SocketServer
import Obus.FrameLayout
import Obus.FrameReading
import Obus.FrameElements
import Obus.FrameCompletion
import Obus.FrameLocality
import Obus.FieldArrival

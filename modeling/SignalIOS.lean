import SignalIOS.Audio.AudioLine
import SignalIOS.Audio.AudioProcessor
import SignalIOS.Audio.AudioSocket
import SignalIOS.Audio.BufferDepth
import SignalIOS.Audio.JitterInvariant
import SignalIOS.Audio.JitterRecovery
import SignalIOS.Audio.JitterRefinement
import SignalIOS.Audio.PlaybackAccounting
import SignalIOS.Audio.Recording
import SignalIOS.Audio.SecuredCall
import SignalIOS.Audio.SpeexBits
import SignalIOS.Audio.SpeexCodec
import SignalIOS.Audio.SpeexFrames
import SignalIOS.Audio.SpeexStreams
import SignalIOS.Call.AdapteeCalls
import SignalIOS.Call.Answering
import SignalIOS.Call.CallKit
import SignalIOS.Call.CallKitBookkeeping
import SignalIOS.Call.CallLog
import SignalIOS.Call.ClientIsolation
import SignalIOS.Call.ConnectTimeout
import SignalIOS.Call.Continuations
import SignalIOS.Call.Core
import SignalIOS.Call.Frame
import SignalIOS.Call.IceUpdates
import SignalIOS.Call.Interference
import SignalIOS.Call.Media
import SignalIOS.Call.NegotiationPromises
import SignalIOS.Call.Occurrences
import SignalIOS.Call.PeerConnectionClient
import SignalIOS.Call.Quiescence
import SignalIOS.Call.Records
import SignalIOS.Call.Refinement
import SignalIOS.Call.Session
import SignalIOS.Call.SessionDescription
import SignalIOS.Call.SignalingQueue
import SignalIOS.Call.Transition
import SignalIOS.Call.Traps
import SignalIOS.Call.Turns
import SignalIOS.Call.WellFormed
import SignalIOS.Crypto.EvpSymetricUtil
import SignalIOS.Http.ExtractionSafety
import SignalIOS.Http.HttpManager
import SignalIOS.Http.HttpMessages
import SignalIOS.Http.HttpParser
import SignalIOS.Http.HttpSocket
import SignalIOS.Http.ManagerLifecycle
import SignalIOS.Http.MessageStream
import SignalIOS.Http.OneTimeCounter
import SignalIOS.Http.RequestRoundTrip
import SignalIOS.Http.ResponsePairing
import SignalIOS.Http.ResponseRoundTrip
import SignalIOS.Http.SendFailure
import SignalIOS.Jobs.MessageDelivery
import SignalIOS.Jobs.MessageFetcherJob
import SignalIOS.Lib.Binary64
import SignalIOS.Lib.BinaryHeap
import SignalIOS.Lib.BitStrings
import SignalIOS.Lib.Heap
import SignalIOS.Lib.Methods
import SignalIOS.Lib.Patterns
import SignalIOS.Lib.ReorderBuffer
import SignalIOS.Lib.ReorderNumbers
import SignalIOS.Lib.RingBuffer
import SignalIOS.Lib.Runs
import SignalIOS.Lib.ShiftRegister
import SignalIOS.Lib.StreamReassembly
import SignalIOS.Lib.Substrings
import SignalIOS.Migrations.OWSDatabaseMigrationRunner
import SignalIOS.Network.DatagramRobustness
import SignalIOS.Network.NotificationTracker
import SignalIOS.Network.ReceiveStack
import SignalIOS.Network.SecureEndPoint
import SignalIOS.Network.WritePath
import SignalIOS.Phone.CallController
import SignalIOS.Phone.CallEnding
import SignalIOS.Phone.CallOutcomes
import SignalIOS.Phone.CallProgressOrder
import SignalIOS.Phone.CallReasons
import SignalIOS.Phone.ConnectingCall
import SignalIOS.Phone.ConnectingCallLog
import SignalIOS.Phone.DuplicateNotifications
import SignalIOS.Phone.PhoneManager
import SignalIOS.Phone.RecentCalls
import SignalIOS.Profiling.EventWindow
import SignalIOS.Rtp.LegacyInterop
import SignalIOS.Rtp.ParserSafety
import SignalIOS.Rtp.RoundTrip
import SignalIOS.Rtp.RtpPacket
import SignalIOS.Rtp.RtpPacketParser
import SignalIOS.Rtp.WellFormedPackets
import SignalIOS.Signaling.InitiatorSessionDescriptor
import SignalIOS.Signaling.ResponderSessionDescriptor
import SignalIOS.Signaling.SignalUtil
import SignalIOS.Srtp.SecureStream
import SignalIOS.Srtp.SecuredPackets
import SignalIOS.Srtp.SequenceCounting
import SignalIOS.Srtp.SrtpStream
import SignalIOS.Util.Base64
import SignalIOS.Util.Base64Decoding
import SignalIOS.Util.BitwiseCrc32
import SignalIOS.Util.CodeUnits
import SignalIOS.Util.Crc32
import SignalIOS.Util.CryptoTools
import SignalIOS.Util.CyclicalQueue
import SignalIOS.Util.FlatJson
import SignalIOS.Util.FutureRetry
import SignalIOS.Util.HexString
import SignalIOS.Util.JSONSerialization
import SignalIOS.Util.LongLongValue
import SignalIOS.Util.NSString
import SignalIOS.Util.OWSScrubbingLogFormatter
import SignalIOS.Util.ObservableOrder
import SignalIOS.Util.ObservableRaising
import SignalIOS.Util.ObservableValue
import SignalIOS.Util.ObservableWatchers
import SignalIOS.Util.PriorityQueue
import SignalIOS.Util.PriorityQueueRuns
import SignalIOS.Zrtp.Authentication
import SignalIOS.Zrtp.ConfirmPacket
import SignalIOS.Zrtp.DhPacket
import SignalIOS.Zrtp.DroppedPackets
import SignalIOS.Zrtp.EvpKeyAgreement
import SignalIOS.Zrtp.FramingRoundTrip
import SignalIOS.Zrtp.HandshakeAgreement
import SignalIOS.Zrtp.HandshakeFraming
import SignalIOS.Zrtp.HandshakeNetwork
import SignalIOS.Zrtp.HandshakePacket
import SignalIOS.Zrtp.HandshakeProgress
import SignalIOS.Zrtp.HelloCodec
import SignalIOS.Zrtp.HelloPacket
import SignalIOS.Zrtp.InitiatorChecks
import SignalIOS.Zrtp.InitiatorProgress
import SignalIOS.Zrtp.KeyAgreementNegotiation
import SignalIOS.Zrtp.PacketCodecs
import SignalIOS.Zrtp.PacketRoundTrip
import SignalIOS.Zrtp.ResponderChecks
import SignalIOS.Zrtp.ResponderProgress
import SignalIOS.Zrtp.Retransmission
import SignalIOS.Zrtp.ShortAuthenticationString
import SignalIOS.Zrtp.ZrtpInitiator
import SignalIOS.Zrtp.ZrtpManager
import SignalIOS.Zrtp.ZrtpResponder
import SignalIOS.Zrtp.ZrtpRole

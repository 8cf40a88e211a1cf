import Ros2Serial.Lib.Bytes
import Ros2Serial.Lib.LittleEndian
import Ros2Serial.Lib.Interchange
import Ros2Serial.Lib.PlainCdr
import Ros2Serial.Lib.PyText
import Ros2Serial.Lib.Requests
import Ros2Serial.Lib.Runs
import Ros2Serial.Lib.Transducer
import Ros2Serial.Lib.Checked
import Ros2Serial.Lib.Slots
import Ros2Serial.Lib.Subsequence
import Ros2Serial.Lib.Ring
import Ros2Serial.Ucdr.Layout
import Ros2Serial.Generator.Inverse
import Ros2Serial.Generator.Soundness
import Ros2Serial.Generator.Malformed
import Ros2Serial.Generator.ParserExact
import Ros2Serial.Generator.Headers
import Ros2Serial.Generator.Reuse
import Ros2Serial.Device.DdsCdr
import Ros2Serial.Device.ReceiveSafety
import Ros2Serial.Device.ServiceClient
import Ros2Serial.Device.Delivery
import Ros2Serial.Device.Negotiation
import Ros2Serial.Device.Checksum
import Ros2Serial.Device.MessageTimeout
import Ros2Serial.Device.TimeArithmetic
import Ros2Serial.Device.TransmitRing
import Ros2Serial.Device.ReceiveRing
import Ros2Serial.Device.Subscription
import Ros2Serial.Device.Demotion
import Ros2Serial.Device.NamedPort
import Ros2Serial.Device.ServiceServer
import Ros2Serial.Host.ReadStream
import Ros2Serial.Host.Oversize
import Ros2Serial.Host.WriteQueue
import Ros2Serial.Host.ServiceWiring
import Ros2Serial.Host.SetupOrder
import Ros2Serial.Host.Sending
import Ros2Serial.Host.ServiceRequest
import Ros2Serial.Host.WriteMessage
import Ros2Serial.Host.Builtin
import Ros2Serial.Host.Isolation
import Ros2Serial.Host.Watchdog
import Ros2Serial.Host.FreshPort
import Ros2Serial.Host.Rejection
import Ros2Serial.Host.Hearing
import Ros2Serial.Client.WriteThread
import Ros2Serial.Client.ReadLoop
import Ros2Serial.Link.DeviceToHost
import Ros2Serial.Link.HostToDevice
import Ros2Serial.Link.Decoders
import Ros2Serial.Link.Delivery
import Ros2Serial.Link.Corruption
import Ros2Serial.Link.TimeSync
import Ros2Serial.Link.Registration
import Ros2Serial.Link.ServiceHashes
import Ros2Serial.Link.Subscription
import Ros2Serial.Link.Clients
import Ros2Serial.Link.FrameReads
import Ros2Serial.Link.Routing
import Ros2Serial.Link.Downlink
import Ros2Serial.Link.Conversation
import Ros2Serial.Link.Services
import Ros2Serial.Link.Convergence

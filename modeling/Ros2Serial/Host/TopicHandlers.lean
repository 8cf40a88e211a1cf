import Ros2Serial.Host.SimpleCdr

/-!
# The endpoints of a session

The objects behind the entries of a session's tables (`topic_handlers.h`), and
the converters that advertise the services (`services.h`).

* `Subscriber`, `ServiceClient` and `ServiceServer` hand payloads to
  `write_message`, under the topic id that they carry.  That of a service is
  `-1` until a setup frame sets it.
* `ServiceServer::service_callback` waits in a loop for `response_handle`.  It
  is split where another thread can come in between: at its start, and at the
  two ends of the sleep in the loop.
* A `Converter` is shared by all services of its type.  It has one
  `service_server_` and one `callback_`.

Objects are named by their index among all that were made, and a callback bound
to an object by that index.  What comes from ROS (whether a service or a topic
can be created, the answer of a service, the time) is an argument.
-/

namespace Ros2Serial.Host

open Bytes

/-- `rosserial_msgs::msg::TopicInfo`, without the MD5 sum, which is compared for
a warning only. -/
structure TopicInfo where
  topic_id : UInt16
  topic_name : String
  message_type : String
  buffer_size : Int32
  deriving DecidableEq, Repr

/-! ## Topics -/

/-- `Subscriber`: a ROS subscription, and `write_message` bound to the topic id. -/
structure Subscriber where
  topic_name : String
  message_type : String
  topic_id : UInt16
  deriving DecidableEq, Repr

/-- The constructor. -/
def Subscriber.new (topic_info : TopicInfo) : Subscriber where
  topic_name := topic_info.topic_name
  message_type := topic_info.message_type
  topic_id := topic_info.topic_id

/-- `Subscriber::handle`: what is handed to `write_message`. -/
def Subscriber.handle (serialized_msg : List UInt8) (sub : Subscriber) : List UInt8 × UInt16 :=
  (serialized_msg, sub.topic_id)

/-! ## Service clients -/

/-- `ServiceClient`. -/
structure ServiceClient where
  /-- The name of the ROS service that `service_client_` calls. -/
  service_name : String
  service_type : String
  topic_id : UInt16
  valid : Bool
  deriving DecidableEq, Repr

/-- The constructor, and whether the type has a converter. -/
def ServiceClient.new (topic_info : TopicInfo) (found : Bool) : ServiceClient where
  service_name := topic_info.topic_name
  service_type := topic_info.message_type
  topic_id := -1
  valid := found

def ServiceClient.setTopicId (topic_id : UInt16) (srv : ServiceClient) : ServiceClient :=
  { srv with topic_id := topic_id }

/-- `ServiceClient::handle`, with the serialized response that arrives in time,
if one does: what is handed to `write_message`. -/
def ServiceClient.handle (answer : Option (List UInt8)) (srv : ServiceClient) :
    Option (List UInt8 × UInt16) :=
  if !srv.valid then none else answer.map fun response => (response, srv.topic_id)

/-! ## Service servers -/

/-- `ServiceServer`. -/
structure ServiceServer where
  service_name : String
  service_type : String
  response_buffer : List UInt8
  buffer_len : Nat
  topic_id : UInt16
  capacity : Nat
  get_response : Bool
  timeout_no_response_ms : Int
  deriving DecidableEq, Repr

/-- The constructor, up to the converter.  It leaves `buffer_len_` as it is, and
nothing reads it before it is set. -/
def ServiceServer.new (topic_info : TopicInfo) (capacity : Nat) (timeout_no_response_ms : Int) :
    ServiceServer where
  service_name := topic_info.topic_name
  service_type := topic_info.message_type
  response_buffer := List.replicate capacity 0
  buffer_len := 0
  topic_id := -1
  capacity := capacity
  get_response := false
  timeout_no_response_ms := timeout_no_response_ms

namespace ServiceServer

def setTopicId (topic_id : UInt16) (srv : ServiceServer) : ServiceServer :=
  { srv with topic_id := topic_id }

/-- `response_handle`. -/
def responseHandle (stream : List UInt8) (srv : ServiceServer) : ServiceServer :=
  if stream.length > srv.capacity then { srv with get_response := false }
  else
    let srv := { srv with buffer_len := stream.length }
    if srv.buffer_len = 0 then { srv with get_response := false }
    else
      { srv with
        response_buffer := overwrite srv.response_buffer 0 stream
        get_response := true }

/-- Where `service_callback` is, when it does not hold the processor. -/
inductive Waiting
  /-- In front of the loop's test of `get_response_`. -/
  | test (cnt_ms : Nat)
  /-- In `sleep_for`. -/
  | sleep (cnt_ms : Nat)
  deriving DecidableEq, Repr

/-- `service_callback` up to its loop: the object, and what is handed to
`write_message`. -/
def startRequest (serialized_request : List UInt8) (srv : ServiceServer) :
    ServiceServer × (List UInt8 × UInt16) :=
  ({ srv with get_response := false }, (serialized_request, srv.topic_id))

/-- `service_callback` behind its loop.  It is `none` where `false` is returned. -/
def takeResponse (srv : ServiceServer) : Option (List UInt8) :=
  if srv.buffer_len > srv.capacity then none else some (srv.response_buffer.take srv.buffer_len)

/-- The loop of `service_callback`, up to the next point where it can be
interrupted, or to the end of the function. -/
def wait (srv : ServiceServer) : Waiting → Waiting ⊕ Option (List UInt8)
  | .test cnt_ms => if srv.get_response then .inr srv.takeResponse else .inl (.sleep cnt_ms)
  | .sleep cnt_ms =>
    if (cnt_ms : Int) > srv.timeout_no_response_ms then .inr none else .inl (.test (cnt_ms + 1))

end ServiceServer

/-! ## Converters -/

/-- `Converter`. -/
structure Converter where
  /-- The name of the service that `service_server_` advertises. -/
  service_server : Option String
  /-- The server whose `service_callback` is bound to `callback_`. -/
  callback : Option Nat
  deriving DecidableEq, Repr

/-- A new converter. -/
def Converter.new : Converter where
  service_server := none
  callback := none

/-- `start_server`, and whether `create_service` succeeds.  The service that was
advertised before ends when `service_server_` is assigned. -/
def Converter.startServer (created : Bool) (service_name : String) (server : Nat)
    (converter : Converter) : Converter :=
  let converter := { converter with callback := some server }
  if created then { converter with service_server := some service_name } else converter

end Ros2Serial.Host

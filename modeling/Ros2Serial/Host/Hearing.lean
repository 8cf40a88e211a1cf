import Ros2Serial.Host.Tables

/-!
# What a session hears

The frames of the device that are no setup end outside of the session.  `Publisher::handle`
publishes a message, `handle_log` logs a text, `ServiceClient::handle` has a request for a service
of ROS, and `response_handle` a response for one of its callers.

`hears` is what becomes of a frame, by the entry of `callbacks_` for its topic id.  How a `Log` is
deserialized is a parameter.
-/

namespace Ros2Serial.Host

/-! ## The log -/

/-- The macros of `rclcpp` that `handle_log` uses. -/
inductive Severity
  | debug
  | info
  | warn
  | error
  | fatal
  deriving DecidableEq, Repr

/-- `rosserial_msgs::msg::Log`. -/
structure Log where
  level : UInt8
  msg : String
  deriving DecidableEq, Repr

namespace Log

def ROSDEBUG : UInt8 := 0
def INFO : UInt8 := 1
def WARN : UInt8 := 2
def ERROR : UInt8 := 3
def FATAL : UInt8 := 4

end Log

/-- What `handle_log` does with a level.  Nothing is logged for others than these. -/
def severity (level : UInt8) : Option Severity :=
  if level = Log.ROSDEBUG then some .debug
  else if level = Log.INFO then some .info
  else if level = Log.WARN then some .warn
  else if level = Log.ERROR then some .error
  else if level = Log.FATAL then some .fatal
  else none

/-- `handle_log`: what is logged.  Where `deserialize_message` throws, nothing is. -/
def handleLog (deserialize : List UInt8 → Option Log) (stream : List UInt8) :
    Option (Severity × String) :=
  (deserialize stream).bind fun l => (severity l.level).map (·, l.msg)

/-! ## Frames of the device -/

/-- What becomes of a frame outside of the session. -/
inductive Hearing
  /-- A message is published. -/
  | published (publisher : Publisher) (message : List UInt8)
  /-- A text is logged. -/
  | logged (severity : Severity) (text : String)
  /-- `ServiceClient::handle` has a request, or `response_handle` a response. -/
  | service (kind : ServiceKind) (service_name : String) (payload : List UInt8)
  deriving DecidableEq, Repr

/-- What becomes of a frame, where a handler is called for it. -/
def TableSession.hears (deserialize : List UInt8 → Option Log) (t : TableSession) (topic_id : Nat)
    (payload : List UInt8) : Option Hearing :=
  match t.registry.callbacks.lookup (UInt16.ofNat topic_id) with
  | some .publisher =>
    (t.publishers.lookup (UInt16.ofNat topic_id)).map fun publisher =>
      .published publisher payload
  | some .handleLog => (handleLog deserialize payload).map fun entry => .logged entry.1 entry.2
  | some (.serviceClient srv) =>
    t.registry.clients[srv]?.map fun client => .service .client client.service_name payload
  | some (.serviceServer srv) =>
    t.registry.servers[srv]?.map fun server => .service .server server.service_name payload
  | _ => none

/-- The responses for the callers of a service. -/
def responsesOf (service_name : String) (heard : List Hearing) : List (List UInt8) :=
  heard.filterMap fun
    | .service .server name payload => if name = service_name then some payload else none
    | _ => none

end Ros2Serial.Host

import Ros2Serial.Device.Utterance
import Ros2Serial.Host.Hearing
import Ros2Serial.Lib.Subsequence
import Ros2Serial.Link.Downlink

/-!
# What a program says, and what the host hears

A `Conversation` is a `Duplex` with records of what the program has done that can be heard, of what
has become of its frames outside of the session, and of the requests that ROS has made.

* A step is `Proper` if the program calls what it may, and if `publish` cuts no message off.  Any
  bytes may arrive at the node, and frames may be lost.
* `Reaches` is what a frame of the node may become at the host, and `Heard` is what a message of
  the program may.
* `Sound` is the invariant: the frames are those of the messages (`Transcript`), and what was
  heard stands in the frames that have arrived.

`heard_said` leads from what was heard back to what was said.
-/

namespace Ros2Serial.Link

open Bytes Generator Device Host Runs

/-! ## The machine -/

/-- A node and its session, with a record of what is said. -/
structure Conversation where
  duplex : Duplex
  /-- What the program has done. -/
  uttered : List Utterance
  /-- What has become of the frames of the node. -/
  heard : List Hearing
  /-- What `service_callback` was called with, and the name of its service. -/
  asked : List (String × List UInt8)

namespace Conversation

section Steps

variable (cfg : NodeConfig) (callbacks : Callbacks cfg)
  (deserialize : List UInt8 → Option Host.TopicInfo)
  (deserializeLog : List UInt8 → Option Host.Log)

def utterancesOf (b : Bridge) : Duplex.Step → List Utterance
  | .bridge (.call c) => c.utterances cfg callbacks b.node
  | _ => []

def heardBy (b : Bridge) : Duplex.Step → List Hearing
  | .bridge (.deliver _ _) =>
    match b.node.hardware.tx[b.taken]? with
    | none => []
    | some frame =>
      if listens b.session && (Wire.payloadOf frame).length < buffer_max then
        (b.session.hears deserializeLog (Wire.topicOf frame) (Wire.payloadOf frame)).toList
      else []
  | _ => []

/-- The server that gets the requests of a type, if it is still there. -/
def requested (t : TableSession) (service_type : String) : Option Host.ServiceServer :=
  if t.io_stopped || !t.registry.runs .ros then none
  else
    match t.registry.converters.lookup service_type with
    | some { service_server := some _, callback := some srv } =>
      if t.registry.isAlive srv then t.registry.servers[srv]? else none
    | _ => none

def askedBy (b : Bridge) : Duplex.Step → List (String × List UInt8)
  | .bridge (.rosRequest service_type request) =>
    ((requested b.session service_type).map fun server => (server.service_name, request)).toList
  | _ => []

def step (c : Conversation) (st : Duplex.Step) : Conversation where
  duplex := c.duplex.step cfg callbacks deserialize st
  uttered := c.uttered ++ utterancesOf cfg callbacks c.duplex.bridge st
  heard := c.heard ++ heardBy deserializeLog c.duplex.bridge st
  asked := c.asked ++ askedBy c.duplex.bridge st

end Steps

/-- A node, and a session that was not started. -/
def new (nh : NodeHandle) (t : TableSession) : Conversation where
  duplex := .new nh t
  uttered := []
  heard := []
  asked := []

/-- The program calls what it may, and `publish` cuts no message off. -/
def Proper {cfg : NodeConfig} (callbacks : Callbacks cfg) (c : Conversation) : Duplex.Step → Prop
  | .bridge st => st.Proper callbacks c.duplex.bridge ∧ ∀ call, st = .call call → call.Whole cfg
  | .carry _ => True

/-! ## What is heard -/

/-- The topic id is that of a publisher of this kind in the table. -/
def Belongs (nh : NodeHandle) (kind : Int) (topic_id : Nat) (e : Endpoint) : Prop :=
  (∃ i, Slots.Holds nh.publishers i e) ∧ e.endpoint = kind ∧ topic_id = topicField e.id

/-- `deserialize_message` gives back what a complete `Log` says. -/
def DeserializesLog (text : CString → String) (deserializeLog : List UInt8 → Option Host.Log) :
    Prop :=
  ∀ (level : Fin 256) (t : CString) (payload : List UInt8), (logMsg level t).Encodes payload →
    deserializeLog payload = some ⟨UInt8.ofNat level.val, text t⟩

section Heard

variable (cfg : NodeConfig) (text : CString → String)
  (deserializeLog : List UInt8 → Option Host.Log) (nh : NodeHandle)

/-- What a frame of the node may become. -/
inductive Reaches : Hearing → Nat × List UInt8 → Prop
  | published {e : Endpoint} {frame : Nat × List UInt8}
      (he : Belongs nh Device.TopicInfo.ID_PUBLISHER frame.1 e) :
      Reaches (.published ⟨text e.topic, text e.type⟩ frame.2) frame
  | logged {severity : Severity} {entry : String} {frame : Nat × List UInt8}
      (htopic : frame.1 = Host.TopicInfo.ID_LOG)
      (hentry : handleLog deserializeLog frame.2 = some (severity, entry)) :
      Reaches (.logged severity entry) frame
  | service {kind : ServiceKind} {e : Endpoint} {frame : Nat × List UInt8}
      (he : Belongs nh (publisherKind kind) frame.1 e) :
      Reaches (.service kind (text e.topic) frame.2) frame

/-- What a message may become: it is heard under the name of its publisher, and complete.  A text
that the program logs has its level, and for a message that is too long an error is logged. -/
inductive Heard : Hearing → Int × Msg → Prop
  | published {e : Endpoint} {message : List UInt8} {m : Int × Msg}
      (he : Belongs nh Device.TopicInfo.ID_PUBLISHER (topicField m.1) e)
      (hencodes : m.2.Encodes message) :
      Heard (.published ⟨text e.topic, text e.type⟩ message) m
  | logged {severity : Severity} {entry : String} {m : Int × Msg}
      (hid : topicField m.1 = topicField Device.TopicInfo.ID_LOG)
      (hlog : ∀ level t, m.2 = logMsg level t →
        Host.severity (UInt8.ofNat level.val) = some severity ∧ entry = text t) :
      Heard (.logged severity entry) m
  | tooLong {m : Int × Msg} (hlong : cfg.OUTPUT_SIZE < m.2.encodedLength + 8) :
      Heard (.logged .error (text droppedText)) m
  | service {kind : ServiceKind} {e : Endpoint} {payload : List UInt8} {m : Int × Msg}
      (he : Belongs nh (publisherKind kind) (topicField m.1) e)
      (hencodes : m.2.Encodes payload) :
      Heard (.service kind (text e.topic) payload) m

end Heard

section Frames

variable {cfg : NodeConfig} {text : CString → String}
  {deserializeLog : List UInt8 → Option Host.Log} {nh nh' : NodeHandle} {t : TableSession}

theorem Belongs.mono {kind : Int} {topic_id : Nat} {e : Endpoint} (h : Belongs nh kind topic_id e)
    (hgrows : Grows nh nh') : Belongs nh' kind topic_id e := by
  obtain ⟨⟨i, hi⟩, hkind, hid⟩ := h
  exact ⟨⟨i, hgrows.publishers i e hi⟩, hkind, hid⟩

theorem Reaches.mono {hearing : Hearing} {frame : Nat × List UInt8}
    (h : Reaches text deserializeLog nh hearing frame) (hgrows : Grows nh nh') :
    Reaches text deserializeLog nh' hearing frame := by
  cases h with
  | published he => exact .published (he.mono hgrows)
  | logged htopic hentry => exact .logged htopic hentry
  | service he => exact .service (he.mono hgrows)

theorem Belongs.hundred_le (hids : IdsFit cfg) (henrolled : Enrolled cfg nh) {kind : Int}
    {topic_id : Nat} {e : Endpoint} (h : Belongs nh kind topic_id e) : 100 ≤ topic_id := by
  obtain ⟨⟨i, hi⟩, -, hid⟩ := h
  have hfield := (topicField_publisher hids henrolled hi).1
  omega

/-- What is heard for a service. -/
theorem service_reaches (hids : IdsFit cfg) (henrolled : Enrolled cfg nh)
    (h : Mirrors text nh t.registry) {frame : Nat × List UInt8} (hown : Own cfg nh frame)
    {kind : ServiceKind} {srv : Nat} {name : String} {id : UInt16}
    (hentry : t.registry.callbacks.lookup (UInt16.ofNat frame.1) =
      some (Host.Registry.serviceHandler kind srv))
    (hinfo : serviceInfo t.registry kind srv = some (name, id)) :
    Reaches text deserializeLog nh (.service kind name frame.2) frame := by
  obtain ⟨i, e, id', he, hkind, htopic, hinfo'⟩ :=
    (h.entries _ _ hentry).service_frame hids henrolled hown
  rw [hinfo, Option.some.injEq] at hinfo'
  obtain ⟨rfl, -⟩ := Prod.mk.inj hinfo'
  exact .service ⟨⟨i, he⟩, hkind, htopic⟩

/-- What is heard of a frame of the node. -/
theorem hears_reaches (hids : IdsFit cfg) (henrolled : Enrolled cfg nh) (h : Reflects text nh t)
    {frame : Nat × List UInt8} (hown : Own cfg nh frame) {hearing : Hearing}
    (hhears : t.hears deserializeLog frame.1 frame.2 = some hearing) :
    Reaches text deserializeLog nh hearing frame := by
  unfold TableSession.hears at hhears
  split at hhears
  · rename_i hentry
    obtain ⟨publisher, hpublisher, rfl⟩ := Option.map_eq_some_iff.mp hhears
    obtain ⟨e, ⟨⟨i, he⟩, hkind, hid⟩, hpublished⟩ := h.published _ hentry
    rw [hpublished, Option.some.injEq] at hpublisher
    rw [UInt16.toNat_ofNat_of_lt' (own_topic_lt henrolled hown)] at hid
    rw [← hpublisher]
    exact .published ⟨⟨i, he⟩, hkind, hid⟩
  · rename_i hentry
    obtain ⟨⟨severity, entry⟩, hlog, rfl⟩ := Option.map_eq_some_iff.mp hhears
    exact .logged ((h.mirrors.entries _ _ hentry).log_frame hids henrolled hown) hlog
  · rename_i srv hentry
    obtain ⟨client, hclient, rfl⟩ := Option.map_eq_some_iff.mp hhears
    have hinfo : serviceInfo t.registry .client srv =
        some (client.service_name, client.topic_id) := by rw [serviceInfo, hclient]; rfl
    exact service_reaches hids henrolled h.mirrors hown hentry hinfo
  · rename_i srv hentry
    obtain ⟨server, hserver, rfl⟩ := Option.map_eq_some_iff.mp hhears
    have hinfo : serviceInfo t.registry .server srv =
        some (server.service_name, server.topic_id) := by rw [serviceInfo, hserver]; rfl
    exact service_reaches hids henrolled h.mirrors hown hentry hinfo
  · cases hhears

theorem handleLog_logMsg (hlogs : DeserializesLog text deserializeLog) {level : Fin 256}
    {t : CString} {payload : List UInt8} (hencodes : (logMsg level t).Encodes payload)
    {severity : Severity} {entry : String}
    (hentry : handleLog deserializeLog payload = some (severity, entry)) :
    Host.severity (UInt8.ofNat level.val) = some severity ∧ entry = text t := by
  rw [handleLog, hlogs level t payload hencodes, Option.bind_some] at hentry
  obtain ⟨s, hs, heq⟩ := Option.map_eq_some_iff.mp hentry
  obtain ⟨rfl, rfl⟩ := Prod.mk.inj heq
  exact ⟨hs, rfl⟩

/-- What a frame becomes is what its message does. -/
theorem Reaches.heard (hids : IdsFit cfg) (henrolled : Enrolled cfg nh)
    (hlogs : DeserializesLog text deserializeLog) {hearing : Hearing} {frame : Nat × List UInt8}
    {m : Int × Msg} (h : Reaches text deserializeLog nh hearing frame)
    (hcarries : Carries cfg frame m) : Heard cfg text nh hearing m := by
  have hlog : topicField Device.TopicInfo.ID_LOG < 100 := by decide
  rcases hcarries with ⟨htopic, hencodes⟩ | ⟨htopic, hencodes, hlong⟩
  · cases h with
    | published he => exact .published (htopic ▸ he) hencodes
    | logged hid hentry =>
      refine .logged (htopic.symm.trans hid) fun level t hm => ?_
      exact handleLog_logMsg hlogs (hm ▸ hencodes) hentry
    | service he => exact .service (htopic ▸ he) hencodes
  · cases h with
    | published he =>
      have hle := he.hundred_le hids henrolled
      omega
    | logged hid hentry =>
      obtain ⟨hseverity, rfl⟩ := handleLog_logMsg hlogs hencodes hentry
      obtain rfl : Severity.error = _ := Option.some.inj hseverity
      exact .tooLong hlong
    | service he =>
      have hle := he.hundred_le hids henrolled
      omega

theorem Reaches.not_byItself (hids : IdsFit cfg) (henrolled : Enrolled cfg nh) {hearing : Hearing}
    {frame : Nat × List UInt8} (h : Reaches text deserializeLog nh hearing frame) :
    ¬ ByItself frame := by
  rintro ⟨hlt, hlog⟩
  cases h with
  | published he =>
    have hle := he.hundred_le hids henrolled
    omega
  | logged hid hentry => exact hlog hid
  | service he =>
    have hle := he.hundred_le hids henrolled
    omega

end Frames

/-! ## The invariant -/

/-- What every proper step keeps. -/
structure Sound (cfg : NodeConfig) (text : CString → String)
    (deserializeLog : List UInt8 → Option Host.Log) (speech : Speech) (c : Conversation) :
    Prop where
  bridge : c.duplex.bridge.Sound cfg text
  said : ∃ ms, Says speech c.uttered ms ∧
    Transcript cfg (c.duplex.bridge.node.hardware.tx.map partsOf) ms
  heard : List.SublistForall₂ (Reaches text deserializeLog c.duplex.bridge.node) c.heard
    ((c.duplex.bridge.node.hardware.tx.take c.duplex.bridge.taken).map partsOf)

section Invariant

variable {cfg : NodeConfig} {callbacks : Callbacks cfg} {text : CString → String}
  {deserialize : List UInt8 → Option Host.TopicInfo}
  {deserializeLog : List UInt8 → Option Host.Log} {speech : Speech} {c : Conversation}

theorem partsOf_frameOf {frame : Nat × List UInt8} (h : frame.1 < 65536) :
    partsOf (frameOf frame) = frame := by
  rw [partsOf, frameOf, Wire.topicOf_encode h, Wire.payloadOf_encode]

theorem transcript_topic {frames : List (Nat × List UInt8)} {ms : List (Int × Msg)}
    (h : Transcript cfg frames ms) : ∀ frame ∈ frames, frame.1 < 65536 := by
  induction h with
  | nil => exact List.forall_mem_nil _
  | @said frames ms frame m hcarries _ ih =>
    refine List.forall_mem_cons.mpr ⟨?_, ih⟩
    rcases hcarries with ⟨htopic, -⟩ | ⟨htopic, -⟩
    · exact htopic ▸ topicField_lt m.1
    · exact htopic ▸ topicField_lt _
  | unsent m _ ih => exact ih
  | byItself hframe _ ih =>
    refine List.forall_mem_cons.mpr ⟨?_, ih⟩
    have hlt := hframe.1
    omega

/-- What the node writes is added to the transcript. -/
theorem transcript_conveys {nh nh' : NodeHandle} {ms more : List (Int × Msg)}
    (h : Transcript cfg (nh.hardware.tx.map partsOf) ms) (hconveys : Conveys cfg nh more nh') :
    Transcript cfg (nh'.hardware.tx.map partsOf) (ms ++ more) := by
  obtain ⟨sent, htx, htranscript⟩ := hconveys
  have hsame : (sent.map frameOf).map partsOf = sent := by
    rw [List.map_map]
    exact (List.map_congr_left fun frame hframe =>
      partsOf_frameOf (transcript_topic htranscript frame hframe)).trans (List.map_id sent)
  rw [htx, List.map_append, hsame]
  exact h.append htranscript

/-! ### One step -/

/-- The frames that have arrived stay the same when the node writes. -/
theorem take_emits {nh nh' : NodeHandle} (h : Emits cfg nh nh') {taken : Nat}
    (htaken : taken ≤ nh.hardware.tx.length) :
    nh'.hardware.tx.take taken = nh.hardware.tx.take taken := by
  obtain ⟨sent, htx, -⟩ := h.tx
  rw [htx, List.take_append_of_le_length htaken]

/-- A call of the node. -/
theorem call_sound (hcallbacks : callbacks.Proper) (hspeak : callbacks.Speak speech)
    (h : c.Sound cfg text deserializeLog speech) {call : Call}
    (hproper : call.Proper callbacks c.duplex.bridge.node) (hwhole : call.Whole cfg) {c' : Conversation}
    (hbridge : c'.duplex.bridge =
      { c.duplex.bridge with node := callStep cfg callbacks c.duplex.bridge.node call })
    (huttered : c'.uttered = c.uttered ++ call.utterances cfg callbacks c.duplex.bridge.node)
    (hheard : c'.heard = c.heard) (hsound : c'.duplex.bridge.Sound cfg text) :
    c'.Sound cfg text deserializeLog speech := by
  have hspeaks := Call.run_speaks hcallbacks hspeak h.bridge.enrolled hproper hwhole
  obtain ⟨ms, hspoken, htranscript⟩ := h.said
  obtain ⟨more, hmore, hconveys⟩ := hspeaks.spoken
  refine ⟨hsound, ⟨ms ++ more, ?_, ?_⟩, ?_⟩
  · rw [huttered]
    exact hspoken.append hmore
  · rw [hbridge]
    exact transcript_conveys htranscript hconveys
  · rw [hheard, hbridge]
    dsimp only
    rw [take_emits hspeaks.emits h.bridge.taken_le]
    exact Subsequence.mono (fun _ _ h => h.mono hspeaks.emits.grows) h.heard

/-- A step of the session alone. -/
theorem idle_sound (h : c.Sound cfg text deserializeLog speech) {c' : Conversation}
    (hsound : c'.duplex.bridge.Sound cfg text)
    (hnode : c'.duplex.bridge.node = c.duplex.bridge.node)
    (htaken : c'.duplex.bridge.taken = c.duplex.bridge.taken)
    (huttered : c'.uttered = c.uttered ++ []) (hheard : c'.heard = c.heard ++ []) :
    c'.Sound cfg text deserializeLog speech := by
  rw [List.append_nil] at huttered hheard
  refine ⟨hsound, ?_, ?_⟩
  · rw [huttered, hnode]
    exact h.said
  · rw [hheard, hnode, htaken]
    exact h.heard

/-- A frame of the node arrives, or is lost. -/
theorem taken_sound (h : c.Sound cfg text deserializeLog speech) {c' : Conversation}
    (hsound : c'.duplex.bridge.Sound cfg text)
    (hnode : c'.duplex.bridge.node = c.duplex.bridge.node) {frame : List UInt8}
    (hframe : c.duplex.bridge.node.hardware.tx[c.duplex.bridge.taken]? = some frame)
    (htaken : c'.duplex.bridge.taken = c.duplex.bridge.taken + 1)
    (huttered : c'.uttered = c.uttered ++ []) {more : List Hearing}
    (hheard : c'.heard = c.heard ++ more)
    (hmore : List.SublistForall₂ (Reaches text deserializeLog c.duplex.bridge.node) more
      [partsOf frame]) : c'.Sound cfg text deserializeLog speech := by
  rw [List.append_nil] at huttered
  refine ⟨hsound, ?_, ?_⟩
  · rw [huttered, hnode]
    exact h.said
  · rw [hheard, hnode, htaken, List.take_add_one, hframe, Option.toList_some, List.map_append]
    exact Subsequence.append h.heard hmore

/-- A frame that arrives, or is lost, leaves the node as it is. -/
theorem deliver_bridge (callbacks : Callbacks cfg)
    (deserialize : List UInt8 → Option Host.TopicInfo) {b : Bridge} {frame : List UInt8}
    (hframe : b.node.hardware.tx[b.taken]? = some frame) (enabled : Bool) (outside : Outside) :
    (b.step cfg callbacks deserialize (.deliver enabled outside)).node = b.node ∧
      (b.step cfg callbacks deserialize (.deliver enabled outside)).taken = b.taken + 1 := by
  rw [Bridge.step, hframe]
  dsimp only [Bridge.receive]
  split
  · exact ⟨rfl, rfl⟩
  · split <;> exact ⟨rfl, rfl⟩

theorem lose_bridge (callbacks : Callbacks cfg)
    (deserialize : List UInt8 → Option Host.TopicInfo) {b : Bridge} {frame : List UInt8}
    (hframe : b.node.hardware.tx[b.taken]? = some frame) :
    (b.step cfg callbacks deserialize .lose).node = b.node ∧
      (b.step cfg callbacks deserialize .lose).taken = b.taken + 1 := by
  rw [Bridge.step, hframe]
  exact ⟨rfl, rfl⟩

/-- The next frame of the node is its own. -/
theorem own_partsOf (h : c.Sound cfg text deserializeLog speech) {frame : List UInt8}
    (hframe : c.duplex.bridge.node.hardware.tx[c.duplex.bridge.taken]? = some frame) :
    Own cfg c.duplex.bridge.node (partsOf frame) := by
  obtain ⟨sent, htx, hsent⟩ := h.bridge.own
  obtain ⟨f, hf, rfl⟩ : ∃ f ∈ sent, frameOf f = frame :=
    List.mem_map.mp (htx ▸ List.mem_of_getElem? hframe)
  have hown := (hsent f hf).own
  rw [partsOf_frameOf (own_topic_lt h.bridge.enrolled hown)]
  exact hown

/-- What is heard in a step stands in the frame that arrives. -/
theorem heardBy_reaches (hids : IdsFit cfg) (h : c.Sound cfg text deserializeLog speech)
    {frame : List UInt8}
    (hframe : c.duplex.bridge.node.hardware.tx[c.duplex.bridge.taken]? = some frame)
    (enabled : Bool) (outside : Outside) :
    List.SublistForall₂ (Reaches text deserializeLog c.duplex.bridge.node)
      (heardBy deserializeLog c.duplex.bridge (.bridge (.deliver enabled outside)))
      [partsOf frame] := by
  rw [heardBy, hframe]
  dsimp only
  split
  · cases hhears : c.duplex.bridge.session.hears deserializeLog (Wire.topicOf frame)
        (Wire.payloadOf frame) with
    | none => exact .nil
    | some hearing =>
      have hreaches : Reaches text deserializeLog c.duplex.bridge.node hearing (partsOf frame) :=
        hears_reaches hids h.bridge.enrolled h.bridge.reflects (own_partsOf h hframe) hhears
      exact .cons hreaches .nil
  · exact .nil

theorem step_sound (hcallbacks : callbacks.Proper) (hspeak : callbacks.Speak speech)
    (hdeserializes : Deserializes text deserialize) (hids : IdsFit cfg)
    (h : c.Sound cfg text deserializeLog speech) {st : Duplex.Step} (hproper : Proper callbacks c st) :
    (c.step cfg callbacks deserialize deserializeLog st).Sound cfg text deserializeLog speech := by
  cases st with
  | carry n =>
    have hcall : Call.Proper callbacks c.duplex.bridge.node (.arrive (c.duplex.onLine.take n)) := trivial
    have hsound : (c.duplex.bridge.step cfg callbacks deserialize
        (.call (.arrive (c.duplex.onLine.take n)))).Sound cfg text :=
      Bridge.step_sound hcallbacks hdeserializes hids h.bridge hcall
    exact call_sound hcallbacks hspeak h hcall trivial rfl rfl (List.append_nil _) hsound
  | bridge st =>
    obtain ⟨hproper, hwhole⟩ := hproper
    have hsound := Bridge.step_sound hcallbacks hdeserializes hids h.bridge hproper
    cases st with
    | call call =>
      exact call_sound hcallbacks hspeak h hproper (hwhole call rfl) rfl rfl (List.append_nil _)
        hsound
    | deliver enabled outside =>
      cases hframe : c.duplex.bridge.node.hardware.tx[c.duplex.bridge.taken]? with
      | none =>
        have hsame : c.duplex.bridge.step cfg callbacks deserialize (.deliver enabled outside) =
            c.duplex.bridge := by rw [Bridge.step, hframe]
        refine idle_sound h hsound (congrArg Bridge.node hsame) (congrArg Bridge.taken hsame) rfl
          (congrArg (c.heard ++ ·) ?_)
        rw [heardBy, hframe]
      | some frame =>
        obtain ⟨hnode, htaken⟩ := deliver_bridge callbacks deserialize hframe enabled outside
        exact taken_sound h hsound hnode hframe htaken rfl rfl
          (heardBy_reaches hids h hframe enabled outside)
    | lose =>
      cases hframe : c.duplex.bridge.node.hardware.tx[c.duplex.bridge.taken]? with
      | none =>
        have hsame : c.duplex.bridge.step cfg callbacks deserialize .lose = c.duplex.bridge := by
          rw [Bridge.step, hframe]
        exact idle_sound h hsound (congrArg Bridge.node hsame) (congrArg Bridge.taken hsame) rfl rfl
      | some frame =>
        obtain ⟨hnode, htaken⟩ := lose_bridge callbacks deserialize hframe
        exact taken_sound h hsound hnode hframe htaken rfl rfl .nil
    | rosMessage id message => exact idle_sound h hsound rfl rfl rfl rfl
    | rosRequest type request => exact idle_sound h hsound rfl rfl rfl rfl
    | fail i error => exact idle_sound h hsound rfl rfl rfl rfl
    | stop => exact idle_sound h hsound rfl rfl rfl rfl
    | interrupt => exact idle_sound h hsound rfl rfl rfl rfl
    | start => exact idle_sound h hsound rfl rfl rfl rfl

/-! ## Runs -/

theorem new_sound {nh : NodeHandle} (henrolled : Enrolled cfg nh) (htx : nh.hardware.tx = [])
    {types : List String} {timeout threshold : Int} {ok : Bool} {t : TableSession}
    (hnew : TableSession.new types timeout threshold ok = some t) :
    (new nh t).Sound cfg text deserializeLog speech where
  bridge := Bridge.new_sound henrolled htx hnew
  said := by
    have hnone : (new nh t).duplex.bridge.node.hardware.tx = [] := htx
    rw [hnone]
    exact ⟨[], .nil, .nil⟩
  heard := .nil

/-- What was heard stands in what was said. -/
theorem Sound.heard_of_said (h : c.Sound cfg text deserializeLog speech) (hids : IdsFit cfg)
    (hlogs : DeserializesLog text deserializeLog) :
    ∃ ms, Says speech c.uttered ms ∧
      List.SublistForall₂ (Heard cfg text c.duplex.bridge.node) c.heard ms := by
  obtain ⟨ms, hspoken, htranscript⟩ := h.said
  have hall : List.SublistForall₂ (Reaches text deserializeLog c.duplex.bridge.node) c.heard
      (c.duplex.bridge.node.hardware.tx.map partsOf) := by
    have hmore := Subsequence.append_right h.heard
      ((c.duplex.bridge.node.hardware.tx.drop c.duplex.bridge.taken).map partsOf)
    rwa [← List.map_append, List.take_append_drop] at hmore
  have hkept := Subsequence.filter_right (q := fun frame => decide (¬ ByItself frame))
    (fun hearing frame hreaches =>
      decide_eq_true (hreaches.not_byItself hids h.bridge.enrolled)) hall
  have hcarried := htranscript.sublist fun frame hkeep => of_decide_eq_true hkeep
  refine ⟨ms, hspoken, Subsequence.mono ?_ (Subsequence.comp hkept hcarried)⟩
  rintro hearing m ⟨frame, hreaches, hcarries⟩
  exact hreaches.heard hids h.bridge.enrolled hlogs hcarries

/-- A run of a `Bridge`, in which no message is cut off. -/
theorem proper_bridge {steps : List Bridge.Step}
    (h : Throughout (Bridge.step cfg callbacks deserialize) (fun b st => st.Proper callbacks b)
      c.duplex.bridge steps) (hwhole : ∀ call, .call call ∈ steps → call.Whole cfg) :
    Throughout (step cfg callbacks deserialize deserializeLog) (Proper callbacks) c
      (steps.map .bridge) := by
  induction steps generalizing c with
  | nil => exact throughout_nil
  | cons st steps ih =>
    obtain ⟨hfirst, hmore⟩ := throughout_cons.mp h
    refine throughout_cons.mpr ⟨⟨hfirst, fun call hcall => ?_⟩, ih hmore fun call hcall => ?_⟩
    · exact hwhole call (hcall ▸ List.mem_cons_self)
    · exact hwhole call (List.mem_cons_of_mem _ hcall)

end Invariant

/-! ### A decoder for the log -/

/-- The decoder of the device, on a new object. -/
def deserializeLogWith (text : CString → String) (payload : List UInt8) : Option Host.Log :=
  let cfg : NodeConfig := { atmega168 with INPUT_SIZE := payload.length }
  let received := (Device.Subscriber.construct logDef).receive cfg exactPlatform logDef payload
  received.2.map fun v =>
    let level : Fin (256 ^ 1) := theOne (.primitive .uint8) v.1
    { level := UInt8.ofNat level.val, msg := text (theOne .string v.2.1) }

theorem deserializeLogWith_deserializes (text : CString → String) :
    DeserializesLog text (deserializeLogWith text) := by
  intro level t payload hencodes
  have hinvertible : logDef.Invertible := by
    simp [logDef, MessageDef.Invertible, DataClass.Invertible]
  have hsent : Sent { atmega168 with INPUT_SIZE := payload.length } logDef payload
      (logMsg level t).value :=
    ⟨payload, ⟨rfl, rfl⟩, Nat.le_refl _, hencodes⟩
  have husable := Device.Subscriber.construct_usable (P := exactPlatform) logDef_compiles
  have hreceived := husable.receive_sent exactPlatform_allocates logDef_compiles hinvertible hsent
  rw [deserializeLogWith, hreceived.1]
  rfl

/-! ### A message and a warning -/

/-- A program without callbacks says what it publishes itself. -/
def noSpeech : Speech := fun _ _ ms => ms = []

theorem noCallbacks_speak (cfg : NodeConfig) : (noCallbacks cfg).Speak noSpeech :=
  fun _ _ _ => ⟨[], rfl, .of_tx rfl⟩

/-- The publisher `p` is announced and sends, and the program logs a warning. -/
def tellingSteps : List Bridge.Step :=
  .start :: (publishingCalls ++ [Call.log 2 publisherP.topic]).map .call ++
    List.replicate 4 (.deliver true ⟨true, none, []⟩)

theorem tellingSteps_proper :
    Throughout (step atmega168 (noCallbacks _) (deserializeInfo Bridge.plainText)
        (deserializeLogWith Bridge.plainText)) (Proper (noCallbacks atmega168))
      (new (freshNode atmega168) quietSession) (tellingSteps.map .bridge) := by
  refine proper_bridge (throughout_cons.mpr ⟨trivial, (throughout_append _).mpr
    ⟨Bridge.proper_calls ((throughout_append _).mpr ⟨publishingCalls_proper, ?_⟩),
      Bridge.proper_others (by simp)⟩⟩) ?_
  · exact throughout_cons.mpr ⟨trivial, throughout_nil⟩
  · intro call hcall
    have hmem : call ∈ publishingCalls ++ [Call.log 2 publisherP.topic] := by
      simpa [tellingSteps] using hcall
    simp only [publishingCalls, List.cons_append, List.nil_append, List.mem_cons, List.not_mem_nil,
      or_false] at hmem
    rcases hmem with rfl | rfl | rfl | rfl | rfl
    · trivial
    · trivial
    · trivial
    · exact Msg.whole_of_fits (by decide)
    · trivial

end Conversation

end Ros2Serial.Link

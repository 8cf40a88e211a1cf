import Ros2Serial.Device.Subscription
import Ros2Serial.Device.Utterance

/-!
# Services of a node

A `ServiceServer` subscribes to the requests of its service and has a publisher for the
responses.  `callback` deserializes a request into `req`, lets `cb_` fill in `resp`, and publishes
`resp`.  Both objects are as the calls before have left them.

* `cb_` may use the node, for example to log, but not to publish under the id of `pub`
  (`Courteous`).
* A request that arrives whole reaches `cb_` as it was sent, and the server can be called again
  (`callback_sent`).  One response is published (`callback_conveys`).
* `serving` are the callbacks of a program with a server, and `Attends` is what its clients may
  count on.
-/

namespace Ros2Serial.Device

open Bytes Ucdr Generator

/-! ## The server -/

/-- What `cb_` makes of the value in `req`, where the memory behind `req` holds one, of `resp`
and of the node. -/
abbrev ServiceCallback (Req Resp : MessageDef) : Type :=
  Option Req.Val → Resp.Val → NodeHandle → Resp.Val × NodeHandle

/-- The members of `ServiceServer` that `callback` uses. -/
structure ServiceServer (Resp : MessageDef) where
  /-- `req`, with the heap of its arrays. -/
  req : Subscriber
  resp : Resp.Val
  /-- The id of `pub`. -/
  pub : Int

section Server

variable {Resp : MessageDef} (cfg : NodeConfig)

/-- `pub.publish`.  A publisher that was not advertised has no node. -/
def ServiceServer.respond (s : ServiceServer Resp) (nh : NodeHandle) : NodeHandle :=
  if nh.publishers.any fun slot => slot.any fun e => e.id = s.pub then
    (publish cfg s.pub ⟨Resp, s.resp⟩ nh).1
  else nh

/-- `callback`, with the node that `pub` and `cb_` use. -/
def ServiceServer.callback (P : Platform) (Req : MessageDef) (cb : ServiceCallback Req Resp)
    (s : ServiceServer Resp) (nh : NodeHandle) : ServiceServer Resp × NodeHandle :=
  let (req, request) := s.req.callback P Req nh.receiver.messageIn nh.inputCdr
  let (resp, nh) := cb request s.resp nh
  let s := { s with req := req, resp := resp }
  (s, s.respond cfg nh)

end Server

/-- The message is published under another id than the responses. -/
def Aside (pub : Int) (m : Int × Msg) : Prop := topicField m.1 ≠ topicField pub

instance (pub : Int) (m : Int × Msg) : Decidable (Aside pub m) := inferInstanceAs (Decidable (_ ≠ _))

/-- `cb_` uses the node as a program may, and leaves the responses to `callback`.  It makes
responses that `publish` does not cut off. -/
structure ServiceCallback.Courteous {Req Resp : MessageDef} (cfg : NodeConfig) (pub : Int)
    (cb : ServiceCallback Req Resp) : Prop where
  keeps : ∀ request resp nh, nh.Initialised cfg → Keeps cfg nh (cb request resp nh).2
  emits : ∀ request resp nh, Enrolled cfg nh → Emits cfg nh (cb request resp nh).2
  conveys : ∀ request resp nh, Enrolled cfg nh → ∃ ms,
    Conveys cfg nh ms (cb request resp nh).2 ∧ ∀ m ∈ ms, Aside pub m
  whole : ∀ request resp nh, (⟨Resp, (cb request resp nh).1⟩ : Msg).Whole cfg

/-! ## One call -/

section Call

variable {cfg : NodeConfig} {P : Platform} {Req Resp : MessageDef} {reserved : String → Prop}
  {cb : ServiceCallback Req Resp} {s : ServiceServer Resp} {nh : NodeHandle}

theorem ServiceCallback.Courteous.of_pub {pub : Int} (h : cb.Courteous cfg pub)
    (hpub : s.pub = pub) : cb.Courteous cfg s.pub := hpub ▸ h

theorem ServiceServer.respond_keeps (s : ServiceServer Resp) (h : nh.Initialised cfg) :
    Keeps cfg nh (s.respond cfg nh) := by
  unfold ServiceServer.respond
  split
  · exact publish_keeps h _ _
  · exact .refl h

theorem ServiceServer.callback_keeps (hcb : cb.Courteous cfg s.pub) (h : nh.Initialised cfg) :
    Keeps cfg nh (s.callback cfg P Req cb nh).2 := by
  have hcalled := hcb.keeps (s.req.callback P Req nh.receiver.messageIn nh.inputCdr).2 s.resp nh h
  exact hcalled.trans (respond_keeps _ hcalled.initialised)

/-- The response has the id of a publisher in the table. -/
theorem ServiceServer.respond_emits (s : ServiceServer Resp) (h : Enrolled cfg nh) :
    Emits cfg nh (s.respond cfg nh) := by
  unfold ServiceServer.respond
  split
  · rename_i hregistered
    obtain ⟨slot, hslot, hsome⟩ := List.any_eq_true.mp hregistered
    obtain ⟨i, hi⟩ := List.mem_iff_getElem?.mp hslot
    cases slot with
    | none => cases hsome
    | some e =>
      refine publish_emits h (fun payload => ?_) _
      rw [← of_decide_eq_true hsome]
      exact .message hi payload
  · exact .refl h

theorem ServiceServer.callback_emits (hcb : cb.Courteous cfg s.pub) (h : Enrolled cfg nh) :
    Emits cfg nh (s.callback cfg P Req cb nh).2 := by
  have hcalled := hcb.emits (s.req.callback P Req nh.receiver.messageIn nh.inputCdr).2 s.resp nh h
  exact hcalled.trans (respond_emits _ hcalled.enrolled)

theorem ServiceServer.respond_conveys (s : ServiceServer Resp) (h : nh.Initialised cfg)
    (hwhole : (⟨Resp, s.resp⟩ : Msg).Whole cfg) :
    Conveys cfg nh [(s.pub, ⟨Resp, s.resp⟩)] (s.respond cfg nh) := by
  unfold ServiceServer.respond
  split
  · exact publish_conveys h s.pub hwhole
  · exact ⟨[], by simp, .unsent _ .nil⟩

/-- Whatever arrives, one response is published, behind what `cb_` has said. -/
theorem ServiceServer.callback_conveys (hcb : cb.Courteous cfg s.pub) (h : Enrolled cfg nh) :
    ∃ said, Conveys cfg nh (said ++ [(s.pub, ⟨Resp, (s.callback cfg P Req cb nh).1.resp⟩)])
      (s.callback cfg P Req cb nh).2 ∧ ∀ m ∈ said, Aside s.pub m := by
  obtain ⟨request, hrequest⟩ : ∃ request,
      (s.req.callback P Req nh.receiver.messageIn nh.inputCdr).2 = request := ⟨_, rfl⟩
  obtain ⟨said, hsaid, haside⟩ := hcb.conveys request s.resp nh h
  have hcalled := (hcb.emits request s.resp nh h).enrolled.initialised
  refine ⟨said, ?_, haside⟩
  simp only [ServiceServer.callback, hrequest]
  exact hsaid.trans (respond_conveys ⟨_, (cb request s.resp nh).1, s.pub⟩ hcalled
    (hcb.whole request s.resp nh))

/-- A request that arrives whole reaches `cb_`, and `req` can be used again. -/
theorem ServiceServer.callback_sent (hP : P.Allocates) (hReq : Req.Compiles reserved)
    (hinv : Req.Invertible) (husable : s.req.Usable P Req) (h : nh.Initialised cfg) {v : Req.Val}
    (hsent : Sent cfg Req nh.receiver.messageIn v) :
    (s.callback cfg P Req cb (openInput nh)).1.resp = (cb (some v) s.resp (openInput nh)).1 ∧
      (s.callback cfg P Req cb (openInput nh)).1.req.Usable P Req := by
  have hreceive : s.req.callback P Req (openInput nh).receiver.messageIn (openInput nh).inputCdr =
      s.req.receive cfg P Req nh.receiver.messageIn := by
    rw [openInput_inputCdr h]
    rfl
  obtain ⟨hvalue, hnext⟩ := husable.receive_sent hP hReq hinv hsent
  simp only [ServiceServer.callback, hreceive]
  exact ⟨by rw [hvalue], hnext⟩

end Call

/-! ## A program with a server -/

/-- What the callback of a slot says to a request that arrives whole is one response under this
id, and the other callbacks say nothing under it. -/
structure Attends (cfg : NodeConfig) (speech : Speech) (j : Nat) (pub : Int)
    {Req Resp : MessageDef} (Respond : Req.Val → Resp.Val → Prop) : Prop where
  answers : ∀ messageIn v ms, Sent cfg Req messageIn v → speech j messageIn ms →
    ∃ said w, ms = said ++ [(pub, ⟨Resp, w⟩)] ∧ Respond v w ∧ ∀ m ∈ said, Aside pub m
  others : ∀ i messageIn ms, i ≠ j → speech i messageIn ms → ∀ m ∈ ms, Aside pub m

/-- What `message_in` held when the callback of a slot was called. -/
def calledWith (j : Nat) (us : List Utterance) : List (List UInt8) :=
  us.filterMap fun
    | .callback i messageIn => if i = j then some messageIn else none
    | .publish _ _ => none

/-- The responses among the messages are those to the requests, in order and one for each. -/
theorem Attends.responses {cfg : NodeConfig} {speech : Speech} {j : Nat} {pub : Int}
    {Req Resp : MessageDef} {Respond : Req.Val → Resp.Val → Prop}
    (h : Attends cfg speech j pub Respond) {us : List Utterance} {ms : List (Int × Msg)}
    (hspoken : Says speech us ms) (haside : ∀ id msg, .publish id msg ∈ us → Aside pub (id, msg))
    {vs : List Req.Val} (hsent : List.Forall₂ (Sent cfg Req) (calledWith j us) vs) :
    List.Forall₂ (fun m v => ∃ w, Respond v w ∧ m.2 = ⟨Resp, w⟩)
      (ms.filter fun m => ¬ Aside pub m) vs := by
  have hnone : ∀ {said : List (Int × Msg)}, (∀ m ∈ said, Aside pub m) →
      (said.filter fun m => ¬ Aside pub m) = [] := fun hsaid =>
    List.filter_eq_nil_iff.mpr fun m hm => by simp [hsaid m hm]
  induction hspoken generalizing vs with
  | nil =>
    cases hsent
    exact .nil
  | publish id msg _ ih =>
    have hfirst := haside id msg List.mem_cons_self
    rw [List.filter_cons_of_neg (by simp [hfirst])]
    exact ih (fun id msg hmem => haside id msg (List.mem_cons_of_mem _ hmem)) hsent
  | @callback us said ms i messageIn hsaid _ ih =>
    have hmore : ∀ {vs : List Req.Val}, List.Forall₂ (Sent cfg Req) (calledWith j us) vs →
        List.Forall₂ (fun m v => ∃ w, Respond v w ∧ m.2 = ⟨Resp, w⟩)
          (ms.filter fun m => ¬ Aside pub m) vs :=
      ih fun id msg hmem => haside id msg (List.mem_cons_of_mem _ hmem)
    rw [List.filter_append]
    by_cases hi : i = j
    · subst hi
      have hcalls : calledWith i (.callback i messageIn :: us) = messageIn :: calledWith i us :=
        List.filterMap_cons_some (if_pos rfl)
      rw [hcalls] at hsent
      cases hsent with
      | @cons _ v _ vs hv hrest =>
        obtain ⟨before, w, rfl, hw, hbefore⟩ := h.answers messageIn v _ hv hsaid
        have hlast : ¬ Aside pub (pub, (⟨Resp, w⟩ : Msg)) := fun haside => haside rfl
        rw [List.filter_append, hnone hbefore, List.filter_cons_of_pos (by simp [hlast])]
        exact .cons ⟨w, hw, rfl⟩ (hmore hrest)
    · have hcalls : calledWith j (.callback i messageIn :: us) = calledWith j us :=
        List.filterMap_cons_none (if_neg hi)
      rw [hcalls] at hsent
      rw [hnone (h.others i messageIn said hi hsaid)]
      exact hmore hsent

section Program

variable {cfg : NodeConfig} {P : Platform} {Req Resp : MessageDef} {reserved : String → Prop}
  {cb : ServiceCallback Req Resp} {pub : Int}

/-- The callbacks of a program that has a server in a slot.  `object` is the server as the calls
before have left it. -/
def serving (P : Platform) (hcb : cb.Courteous cfg pub)
    (object : NodeHandle → {s : ServiceServer Resp // s.pub = pub}) (j : Nat)
    (others : Callbacks cfg) : Callbacks cfg where
  run i nh := if i = j then ((object nh).val.callback cfg P Req cb nh).2 else others.run i nh
  keeps i nh h := by
    split
    · exact ServiceServer.callback_keeps (hcb.of_pub (object nh).property) h
    · exact others.keeps i nh h

/-- What a program with a server says. -/
def serverSpeech (cfg : NodeConfig) (cb : ServiceCallback Req Resp) (pub : Int) (j : Nat)
    (speech : Speech) : Speech := fun i messageIn ms =>
  if i = j then
    ∃ said w, ms = said ++ [(pub, ⟨Resp, w⟩)] ∧ (∀ m ∈ said, Aside pub m) ∧
      ∀ v, Sent cfg Req messageIn v → ∃ resp nh, w = (cb (some v) resp nh).1
  else speech i messageIn ms

variable {hcb : cb.Courteous cfg pub}
  {object : NodeHandle → {s : ServiceServer Resp // s.pub = pub}} {others : Callbacks cfg}
  {speech : Speech} {j : Nat}

theorem serving_proper (h : others.Proper) : (serving P hcb object j others).Proper := by
  intro i nh henrolled
  dsimp only [serving]
  split
  · exact ServiceServer.callback_emits (hcb.of_pub (object nh).property) henrolled
  · exact h i nh henrolled

theorem serving_speak (hP : P.Allocates) (hReq : Req.Compiles reserved) (hinv : Req.Invertible)
    (husable : ∀ nh, (object nh).val.req.Usable P Req) (h : others.Speak speech) :
    (serving P hcb object j others).Speak (serverSpeech cfg cb pub j speech) := by
  intro i nh henrolled
  dsimp only [serving, serverSpeech]
  split
  · obtain ⟨s, hs⟩ : ∃ s, object (openInput nh) = s := ⟨_, rfl⟩
    obtain ⟨server, rfl⟩ := s
    have hreq : server.req.Usable P Req := by
      have := husable (openInput nh)
      rwa [hs] at this
    rw [hs]
    have hopen := (openInput_emits henrolled).enrolled
    obtain ⟨said, hconveys, haside⟩ :=
      ServiceServer.callback_conveys (P := P) (s := server) hcb hopen
    refine ⟨_, ⟨said, _, rfl, haside, fun v hsent => ⟨server.resp, openInput nh, ?_⟩⟩, hconveys⟩
    exact (ServiceServer.callback_sent hP hReq hinv hreq henrolled.initialised hsent).1
  · exact h i nh henrolled

theorem serving_attends (h : ∀ i messageIn ms, i ≠ j → speech i messageIn ms →
    ∀ m ∈ ms, Aside pub m) :
    Attends cfg (serverSpeech cfg cb pub j speech) j pub
      fun v w => ∃ resp nh, w = (cb (some v) resp nh).1 where
  answers messageIn v ms hsent hspeech := by
    obtain ⟨said, w, hms, haside, hw⟩ := (if_pos rfl).mp hspeech
    exact ⟨said, w, hms, hw v hsent, haside⟩
  others i messageIn ms hi hspeech := h i messageIn ms hi (by
    dsimp only [serverSpeech] at hspeech
    rwa [if_neg hi] at hspeech)

end Program

end Ros2Serial.Device

import Ros2Serial.Host.Endpoints
import Ros2Serial.Lib.Runs

/-!
# The wiring of the ROS services

A service that the device serves is stored by its name in `service_servers_`.
What ROS sees of it, and where a request goes, is in the converter of its type.

`Wired` says that the two agree.  A step keeps that if it makes no server for a
type whose converter advertises a service already, and if it does not stop a
session that has servers (`SparesConverters`).  No other step does
(`wired_iff_throughout`): the second service of a type takes the converter from
the first one, and `stop` does not end the services that the converters
advertise.
-/

namespace Ros2Serial.Host.Registry

/-! ## The invariant -/

/-- The converter of a type advertises a service. -/
def Advertises (s : Registry) (type name : String) : Prop :=
  ∃ converter, s.converters.lookup type = some converter ∧ converter.service_server = some name

/-- A ROS request on a service is forwarded to a server. -/
def Forwards (s : Registry) (name : String) (srv : Nat) : Prop :=
  ∃ type converter, s.converters.lookup type = some converter ∧
    converter.service_server = some name ∧ converter.callback = some srv

/-- The services that are advertised are those of the table, one each, and their
requests are forwarded to the servers in the table. -/
structure Wired (s : Registry) : Prop where
  names : ∀ name, name ∈ s.service_servers ↔ ∃ type, s.Advertises type name
  once : ∀ name type type', s.Advertises type name → s.Advertises type' name → type = type'
  forwards : ∀ name srv, s.Forwards name srv ↔ s.service_servers.lookup name = some srv

/-- A request is forwarded as `Forwards` says. -/
theorem rosRequest_forwards {s : Registry} {type name : String} {srv : Nat} {converter : Converter}
    (hconverter : s.converters.lookup type = some converter)
    (hname : converter.service_server = some name) (hsrv : converter.callback = some srv)
    (request : List UInt8) :
    s.Forwards name srv ∧ s.rosRequest type request = s.startRequest srv request := by
  refine ⟨⟨type, converter, hconverter, hname, hsrv⟩, ?_⟩
  obtain ⟨service_server, callback⟩ := converter
  obtain rfl : service_server = some name := hname
  obtain rfl : callback = some srv := hsrv
  rw [rosRequest, hconverter]

/-! ## Setup frames -/

section Setup

variable {s s' : Registry} {topic_info : TopicInfo}

/-- The wiring depends on the converters and on the table only. -/
theorem Wired.congr (h : s.Wired) (hconverters : s'.converters = s.converters)
    (hservers : s'.service_servers = s.service_servers) : s'.Wired := by
  obtain ⟨names, once, forwards⟩ := h
  refine ⟨?_, ?_, ?_⟩
  · unfold Advertises
    rw [hconverters, hservers]
    exact names
  · unfold Advertises
    rw [hconverters]
    exact once
  · unfold Forwards
    rw [hconverters, hservers]
    exact forwards

/-- The setup handler of a subscriber is wired as its beginning is. -/
theorem setupServiceSubscriber_tables (kind : ServiceKind) (created : Bool) (topic_info : TopicInfo)
    (s : Registry) :
    (s.setupServiceSubscriber kind created topic_info).converters =
        (s.createService kind created topic_info).1.converters ∧
      (s.setupServiceSubscriber kind created topic_info).service_servers =
        (s.createService kind created topic_info).1.service_servers := by
  cases hconstructed : (s.createService kind created topic_info).2 with
  | true =>
    have hsets := setupServiceSubscriber_sets hconstructed
    exact ⟨hsets.converters, congrFun hsets.services .server⟩
  | false =>
    rw [setupServiceSubscriber_thrown hconstructed]
    exact ⟨rfl, rfl⟩

/-- The setup of a client does not touch the servers. -/
theorem createService_client (created : Bool) (topic_info : TopicInfo) (s : Registry) :
    (s.createService .client created topic_info).1.converters = s.converters ∧
      (s.createService .client created topic_info).1.service_servers = s.service_servers := by
  by_cases hmem : topic_info.topic_name ∈ s.service_clients
  · have hmem' : topic_info.topic_name ∈ s.services .client := hmem
    rw [createService_present hmem']
    exact ⟨rfl, rfl⟩
  · rcases createService_client_eq hmem created with heq | ⟨client, -, heq⟩
    · rw [heq]
      exact ⟨rfl, rfl⟩
    · rw [heq]
      exact ⟨rfl, rfl⟩

/-- A new server of a type that has a converter. -/
theorem createService_server (habsent : topic_info.topic_name ∉ s.service_servers)
    {converter : Converter}
    (hconverter : s.converters.lookup topic_info.message_type = some converter)
    (created : Bool) :
    (s.createService .server created topic_info).1.converters =
        s.converters.insert topic_info.message_type
          (converter.startServer created topic_info.topic_name s.servers.length) ∧
      (s.createService .server created topic_info).1.service_servers =
        (if created then s.service_servers.insert topic_info.topic_name s.servers.length
          else s.service_servers) := by
  have habsent' : topic_info.topic_name ∉ s.services .server := habsent
  unfold createService newServiceServer
  dsimp only
  rw [if_neg habsent', hconverter]
  cases created with
  | true => exact ⟨rfl, rfl⟩
  | false => exact ⟨rfl, rfl⟩

/-- A new server of a type that has none. -/
theorem createService_server_unknown (habsent : topic_info.topic_name ∉ s.service_servers)
    (hconverter : s.converters.lookup topic_info.message_type = none) (created : Bool) :
    (s.createService .server created topic_info).1.converters = s.converters ∧
      (s.createService .server created topic_info).1.service_servers =
        s.service_servers.insert topic_info.topic_name s.servers.length := by
  have habsent' : topic_info.topic_name ∉ s.services .server := habsent
  unfold createService newServiceServer
  dsimp only
  rw [if_neg habsent', hconverter]
  exact ⟨rfl, rfl⟩

/-- What is advertised after a converter has changed. -/
theorem advertises_insert {type : String} {converter : Converter}
    (h : s'.converters = s.converters.insert type converter) (type' name : String) :
    s'.Advertises type' name ↔
      type' = type ∧ converter.service_server = some name ∨
        type' ≠ type ∧ s.Advertises type' name := by
  unfold Advertises
  rw [h]
  by_cases htype : type' = type
  · subst htype
    simp
  · rw [AList.lookup_insert_ne htype]
    simp [htype]

/-- Where requests go after a converter has changed. -/
theorem forwards_insert {type : String} {converter : Converter}
    (h : s'.converters = s.converters.insert type converter) (name : String) (srv : Nat) :
    s'.Forwards name srv ↔
      converter.service_server = some name ∧ converter.callback = some srv ∨
        ∃ type' other, type' ≠ type ∧ s.converters.lookup type' = some other ∧
          other.service_server = some name ∧ other.callback = some srv := by
  unfold Forwards
  rw [h]
  constructor
  · rintro ⟨type', other, hlookup, hname, hsrv⟩
    by_cases htype : type' = type
    · rw [htype, AList.lookup_insert] at hlookup
      obtain rfl := Option.some.inj hlookup
      exact Or.inl ⟨hname, hsrv⟩
    · rw [AList.lookup_insert_ne htype] at hlookup
      exact Or.inr ⟨type', other, htype, hlookup, hname, hsrv⟩
  · rintro (⟨hname, hsrv⟩ | ⟨type', other, htype, hlookup, hname, hsrv⟩)
    · exact ⟨type, converter, AList.lookup_insert _, hname, hsrv⟩
    · exact ⟨type', other, by rw [AList.lookup_insert_ne htype]; exact hlookup, hname, hsrv⟩

/-- Requests are forwarded by converters that advertise. -/
theorem Forwards.mem (h : s.Wired) {name : String} {srv : Nat} (hforwards : s.Forwards name srv) :
    name ∈ s.service_servers := by
  obtain ⟨type, converter, hlookup, hname, -⟩ := hforwards
  exact (h.names name).mpr ⟨type, converter, hlookup, hname⟩

section Free

variable {type : String} {converter : Converter}

/-- A type whose converter is free advertises nothing. -/
theorem ne_of_advertises (hlookup : s.converters.lookup type = some converter)
    (hfree : converter.service_server = none) {type' name : String}
    (h : s.Advertises type' name) : type' ≠ type := by
  intro heq
  subst heq
  obtain ⟨other, hother, hname⟩ := h
  rw [hlookup] at hother
  obtain rfl := Option.some.inj hother
  rw [hfree] at hname
  cases hname

/-- What is advertised after a free converter has changed. -/
theorem advertises_insert_free (hlookup : s.converters.lookup type = some converter)
    (hfree : converter.service_server = none) {new : Converter}
    (hconverters : s'.converters = s.converters.insert type new) (type' name : String) :
    s'.Advertises type' name ↔
      type' = type ∧ new.service_server = some name ∨ s.Advertises type' name := by
  rw [advertises_insert hconverters]
  constructor
  · exact Or.imp id And.right
  · exact Or.imp id fun h => ⟨ne_of_advertises hlookup hfree h, h⟩

/-- Where requests go after a free converter has changed. -/
theorem forwards_insert_free (hlookup : s.converters.lookup type = some converter)
    (hfree : converter.service_server = none) {new : Converter}
    (hconverters : s'.converters = s.converters.insert type new) (name : String) (srv : Nat) :
    s'.Forwards name srv ↔
      new.service_server = some name ∧ new.callback = some srv ∨ s.Forwards name srv := by
  rw [forwards_insert hconverters]
  refine or_congr Iff.rfl ?_
  constructor
  · rintro ⟨type', other, -, hlookup', hname, hsrv⟩
    exact ⟨type', other, hlookup', hname, hsrv⟩
  · rintro ⟨type', other, hlookup', hname, hsrv⟩
    exact ⟨type', other, ne_of_advertises hlookup hfree ⟨other, hlookup', hname⟩, hlookup', hname,
      hsrv⟩

/-- A free converter that stays free. -/
theorem Wired.spare (h : s.Wired) (hlookup : s.converters.lookup type = some converter)
    (hfree : converter.service_server = none) {new : Converter}
    (hconverters : s'.converters = s.converters.insert type new) (hnew : new.service_server = none)
    (hservers : s'.service_servers = s.service_servers) : s'.Wired := by
  have hadvertises : ∀ type' name, s'.Advertises type' name ↔ s.Advertises type' name := by
    intro type' name
    rw [advertises_insert_free hlookup hfree hconverters, hnew]
    simp
  refine ⟨?_, ?_, ?_⟩
  · intro name
    simp only [hservers, hadvertises]
    exact h.names name
  · intro name type type' htype htype'
    exact h.once name type type' ((hadvertises _ _).mp htype) ((hadvertises _ _).mp htype')
  · intro name srv
    rw [forwards_insert_free hlookup hfree hconverters, hnew, hservers, ← h.forwards]
    simp

/-- A free converter that gets a new name. -/
theorem Wired.enter (h : s.Wired) (hlookup : s.converters.lookup type = some converter)
    (hfree : converter.service_server = none) {name : String} {srv : Nat}
    (habsent : name ∉ s.service_servers)
    (hconverters : s'.converters = s.converters.insert type ⟨some name, some srv⟩)
    (hservers : s'.service_servers = s.service_servers.insert name srv) : s'.Wired := by
  have hadvertises := advertises_insert_free hlookup hfree hconverters
  simp only [Option.some.injEq] at hadvertises
  refine ⟨?_, ?_, ?_⟩
  · intro name'
    rw [hservers, AList.mem_insert, h.names]
    constructor
    · rintro (rfl | ⟨type', htype⟩)
      · exact ⟨_, (hadvertises _ _).mpr (Or.inl ⟨rfl, rfl⟩)⟩
      · exact ⟨type', (hadvertises _ _).mpr (Or.inr htype)⟩
    · rintro ⟨type', htype⟩
      rcases (hadvertises _ _).mp htype with ⟨-, rfl⟩ | hold
      · exact Or.inl rfl
      · exact Or.inr ⟨type', hold⟩
  · intro name' type' type'' htype htype'
    have hname : ∀ type', s.Advertises type' name → False := fun type' hold =>
      habsent ((h.names _).mpr ⟨type', hold⟩)
    rcases (hadvertises _ _).mp htype with ⟨rfl, rfl⟩ | hold
    · rcases (hadvertises _ _).mp htype' with ⟨rfl, -⟩ | hold'
      · rfl
      · exact absurd hold' (hname type'')
    · rcases (hadvertises _ _).mp htype' with ⟨-, rfl⟩ | hold'
      · exact absurd hold (hname type')
      · exact h.once name' type' type'' hold hold'
  · intro name' srv'
    rw [hservers, forwards_insert_free hlookup hfree hconverters, Option.some.injEq,
      Option.some.injEq]
    by_cases hname : name' = name
    · subst hname
      rw [AList.lookup_insert, Option.some.injEq]
      constructor
      · rintro (⟨-, rfl⟩ | hold)
        · rfl
        · exact absurd (hold.mem h) habsent
      · intro heq
        subst heq
        exact Or.inl ⟨rfl, rfl⟩
    · rw [AList.lookup_insert_ne hname, ← h.forwards]
      constructor
      · rintro (⟨rfl, -⟩ | hold)
        · exact absurd rfl hname
        · exact hold
      · exact Or.inr

end Free

/-- A server for a type whose converter is free. -/
theorem Wired.make (h : s.Wired) (habsent : topic_info.topic_name ∉ s.service_servers)
    {converter : Converter} (hlookup : s.converters.lookup topic_info.message_type = some converter)
    (hfree : converter.service_server = none) (created : Bool) :
    (s.createService .server created topic_info).1.Wired := by
  obtain ⟨hconverters, hservers⟩ := createService_server habsent hlookup created
  cases created with
  | false => exact h.spare hlookup hfree hconverters hfree hservers
  | true => exact h.enter hlookup hfree habsent hconverters hservers

/-- A server whose converter is missing or taken. -/
theorem Wired.free_of_make {created : Bool} (h : s.Wired) (hheld : s.Held)
    (habsent : topic_info.topic_name ∉ s.service_servers)
    (h' : (s.createService .server created topic_info).1.Wired) :
    ∃ converter, s.converters.lookup topic_info.message_type = some converter ∧
      converter.service_server = none := by
  cases hlookup : s.converters.lookup topic_info.message_type with
  | none =>
    -- Nothing advertises the new name.
    obtain ⟨hconverters, hservers⟩ := createService_server_unknown habsent
      hlookup created
    have hmem := (h'.names topic_info.topic_name).mp (by
      rw [hservers, AList.mem_insert]
      exact Or.inl rfl)
    obtain ⟨type, converter, hother, hname⟩ := hmem
    rw [hconverters] at hother
    exact absurd ((h.names _).mpr ⟨type, converter, hother, hname⟩) habsent
  | some converter =>
    refine ⟨converter, rfl, ?_⟩
    by_contra htaken
    obtain ⟨name, hname⟩ := Option.ne_none_iff_exists'.mp htaken
    have hadvertised : s.Advertises topic_info.message_type name := ⟨converter, hlookup, hname⟩
    have hmem : name ∈ s.service_servers := (h.names name).mpr ⟨_, hadvertised⟩
    have hne : name ≠ topic_info.topic_name := fun heq => habsent (heq ▸ hmem)
    obtain ⟨hconverters, hservers⟩ := createService_server habsent hlookup created
    cases created with
    | true =>
      -- The old service of the type is not advertised any more.
      obtain ⟨type, htype⟩ := (h'.names name).mp (by
        rw [hservers, if_pos rfl, AList.mem_insert]
        exact Or.inr hmem)
      rcases (advertises_insert hconverters type name).mp htype with ⟨-, hnew⟩ | ⟨hother, hold⟩
      · exact hne (Option.some.inj hnew).symm
      · exact hother (h.once name type _ hold hadvertised)
    | false =>
      -- The old service is bound to the object that the constructor gave up.
      have hlost := (h'.forwards name s.servers.length).mp
        ((forwards_insert hconverters name _).mpr (Or.inl ⟨hname, rfl⟩))
      rw [hservers, if_neg Bool.false_ne_true] at hlost
      exact absurd (hheld.made .server name _ hlost) (Nat.lt_irrefl _)

/-- `stop` keeps the wiring of a session without servers only. -/
theorem wired_stop_iff (h : s.Wired) (hactive : s.active = true) :
    s.stop.Wired ↔ ∀ name, name ∉ s.service_servers := by
  have hconverters : s.stop.converters = s.converters := by
    rw [stop, if_pos hactive]
    rfl
  have hservers : s.stop.service_servers = ∅ := by
    rw [stop, if_pos hactive]
    rfl
  constructor
  · intro h' name hmem
    obtain ⟨type, converter, hlookup, hname⟩ := (h.names name).mp hmem
    have hmem' := (h'.names name).mpr ⟨type, converter, hconverters ▸ hlookup, hname⟩
    rw [hservers] at hmem'
    exact AList.notMem_empty name hmem'
  · intro hempty
    have hnone : s.service_servers = ∅ := by
      apply AList.ext
      refine List.eq_nil_iff_forall_not_mem.mpr fun entry hentry => ?_
      exact hempty entry.1 (AList.mem_keys.mpr (List.mem_map_of_mem hentry))
    exact h.congr hconverters (hservers.trans hnone.symm)

end Setup

/-! ## Steps and runs -/

section Runs

variable (deserialize : List UInt8 → Option TopicInfo)

/-- The step is a setup frame for a server of a new name. -/
def MakesServer (s : Registry) (st : Step) (topic_info : TopicInfo) : Prop :=
  ∃ topic_id stream outside, st = .message topic_id stream outside ∧ s.runs .io = true ∧
    s.active = true ∧
    (s.callbacks.lookup topic_id = some .setupServiceServerPublisher ∨
      s.callbacks.lookup topic_id = some .setupServiceServerSubscriber) ∧
    deserialize stream = some topic_info ∧ topic_info.topic_name ∉ s.service_servers

/-- The step makes no server for a type that is not in the map, or whose converter
advertises a service, and it does not stop a session that has servers. -/
structure SparesConverters (s : Registry) (st : Step) : Prop where
  makes : ∀ topic_info, s.MakesServer deserialize st topic_info →
    ∃ converter, s.converters.lookup topic_info.message_type = some converter ∧
      converter.service_server = none
  stops : st = .stop → s.runs .io = true → s.active = true → ∀ name, name ∉ s.service_servers

variable {deserialize} {s : Registry} {st : Step}

/-- The steps that do not set up a server and do not stop leave the tables of the
servers as they are. -/
theorem Effect.wired {s' : Registry} (heffect : Effect deserialize s st s')
    (hruns : s.runs st.thread = true) (h : s.Wired)
    (hspares : s.SparesConverters deserialize st) : s'.Wired := by
  cases heffect with
  | none => exact h
  | setupPublisher | setupSubscriber =>
    refine h.congr ?_ ?_
    · simp only [Registry.setupPublisher, Registry.setupSubscriber]
      split <;> rfl
    · simp only [Registry.setupPublisher, Registry.setupSubscriber]
      split <;> rfl
  | setupServicePublisher kind hactive hentry hinfo =>
    rename_i topic_id stream outside topic_info
    cases kind with
    | client =>
      obtain ⟨hconverters, hservers⟩ := createService_client outside.created topic_info s
      exact h.congr hconverters hservers
    | server =>
      by_cases hmem : topic_info.topic_name ∈ s.service_servers
      · rw [Registry.setupServicePublisher, createService_present hmem]
        exact h
      · obtain ⟨converter, hlookup, hfree⟩ := hspares.makes topic_info
          ⟨topic_id, stream, outside, rfl, hruns, hactive, Or.inl hentry, hinfo, hmem⟩
        exact h.make hmem hlookup hfree outside.created
  | setupServiceSubscriber kind hactive hentry hinfo =>
    rename_i topic_id stream outside topic_info
    obtain ⟨hconverters, hservers⟩ :=
      setupServiceSubscriber_tables kind outside.created topic_info s
    refine Wired.congr ?_ hconverters hservers
    cases kind with
    | client =>
      obtain ⟨hconverters, hservers⟩ := createService_client outside.created topic_info s
      exact h.congr hconverters hservers
    | server =>
      by_cases hmem : topic_info.topic_name ∈ s.service_servers
      · rw [createService_present hmem]
        exact h
      · obtain ⟨converter, hlookup, hfree⟩ := hspares.makes topic_info
          ⟨topic_id, stream, outside, rfl, hruns, hactive, Or.inr hentry, hinfo, hmem⟩
        exact h.make hmem hlookup hfree outside.created
  | handleTime => exact h.congr rfl rfl
  | handleClient =>
    unfold Registry.handleClient
    split <;> exact h.congr rfl rfl
  | handleResponse => exact h.congr rfl rfl
  | requestTopics => exact h.congr rfl rfl
  | rosMessage => exact h.congr rfl rfl
  | rosRequest =>
    unfold Registry.startRequest
    split
    · exact h.congr rfl rfl
    · split <;> exact h.congr rfl rfl
  | stop hactive => exact (wired_stop_iff h hactive).mpr (hspares.stops rfl hruns hactive)
  | start => exact h.congr rfl rfl

/-- A step keeps the wiring if and only if it spares the converters. -/
theorem step_wired_iff (hheld : s.Held) (h : s.Wired) :
    (s.step deserialize st).Wired ↔ s.SparesConverters deserialize st := by
  by_cases hruns : s.runs st.thread = true
  case neg =>
    rw [step, if_neg hruns]
    refine iff_of_true h ⟨?_, ?_⟩
    · rintro topic_info ⟨topic_id, stream, outside, rfl, hio, -⟩
      exact absurd hio hruns
    · rintro rfl hio
      exact absurd hio hruns
  rw [step, if_pos hruns]
  refine ⟨fun h' => ⟨?_, ?_⟩, (perform_effect deserialize s st).wired hruns h⟩
  · rintro topic_info ⟨topic_id, stream, outside, rfl, -, hactive, hentry, hinfo, habsent⟩
    apply Wired.free_of_make h hheld habsent
    rcases hentry with hentry | hentry
    · simp only [perform, if_pos hactive, hentry, call, hinfo, setup] at h'
      exact h'
    · simp only [perform, if_pos hactive, hentry, call, hinfo, setup] at h'
      obtain ⟨hconverters, hservers⟩ :=
        setupServiceSubscriber_tables .server outside.created topic_info s
      exact h'.congr hconverters.symm hservers.symm
  · rintro rfl - hactive
    exact (wired_stop_iff h hactive).mp h'

theorem new_converters {types : List String} {timeout : Int} {type : String} {converter : Converter}
    (h : (Registry.new types timeout).converters.lookup type = some converter) :
    converter = Converter.new := by
  have hfold : ∀ types : List String,
      (types.foldr (fun type converters => converters.insert type Converter.new)
        (∅ : AList fun _ : String => Converter)).lookup type = some converter →
      converter = Converter.new := by
    intro types
    induction types with
    | nil => intro h; cases h
    | cons other types ih =>
      intro h
      rw [List.foldr_cons] at h
      by_cases htype : type = other
      · rw [htype, AList.lookup_insert] at h
        exact (Option.some.inj h).symm
      · rw [AList.lookup_insert_ne htype] at h
        exact ih h
  exact hfold types h

/-- In a new session nothing is advertised and no server is set up. -/
theorem new_wired (types : List String) (timeout : Int) :
    (Registry.new types timeout).Wired := by
  have hnone : ∀ type name, ¬ (Registry.new types timeout).Advertises type name := by
    rintro type name ⟨converter, hlookup, hname⟩
    rw [new_converters hlookup] at hname
    cases hname
  refine ⟨?_, ?_, ?_⟩
  · intro name
    refine ⟨fun hmem => absurd hmem (AList.notMem_empty name), ?_⟩
    rintro ⟨type, htype⟩
    exact absurd htype (hnone type name)
  · intro name type type' htype
    exact absurd htype (hnone type name)
  · intro name srv
    constructor
    · rintro ⟨type, converter, hlookup, hname, -⟩
      exact absurd ⟨converter, hlookup, hname⟩ (hnone type name)
    · intro hlookup
      cases hlookup

end Runs

open Runs

/-- A session is wired throughout if and only if its steps spare the converters. -/
theorem wired_iff_throughout (deserialize : List UInt8 → Option TopicInfo) (types : List String)
    (timeout : Int) (steps : List Step) :
    Always (step deserialize) Wired (Registry.new types timeout) steps ↔
      Throughout (step deserialize) (SparesConverters deserialize) (Registry.new types timeout)
        steps :=
  always_iff_throughout (I := Held) (new_held types timeout)
    (fun s st hheld => (step_effect deserialize s st).held hheld) (new_wired types timeout)
    fun _ _ hheld h => step_wired_iff hheld h

/-- A device that serves two services of one type. -/
def twoServices (stream : List UInt8) : Option TopicInfo :=
  if stream = [0] then some ⟨125, "/lamp", "std_srvs/srv/SetBool", 512⟩
  else if stream = [1] then some ⟨126, "/motor", "std_srvs/srv/SetBool", 512⟩
  else none

/-- The setup frames for the publishers of the two services. -/
def twoSetups : List Step :=
  [.start, .message 2 [0] ⟨true, none, []⟩, .message 2 [1] ⟨true, none, []⟩]

/-- The second service of a type takes the converter from the first one. -/
theorem twoSetups_not_wired :
    ¬ ∀ (deserialize : List UInt8 → Option TopicInfo) (types : List String) (timeout : Int)
      (steps : List Step),
      (∀ stream topic_info, deserialize stream = some topic_info →
        topic_info.message_type ∈ types) →
      Always (step deserialize) Wired (Registry.new types timeout) steps := by
  intro h
  have hwired := (h twoServices ["std_srvs/srv/SetBool"] 2000 twoSetups (by
    intro stream topic_info hinfo
    unfold twoServices at hinfo
    split_ifs at hinfo <;> cases hinfo <;> exact List.mem_singleton_self _)).last
  obtain ⟨type, converter, hlookup, hname⟩ := (hwired.names "/lamp").mp (by decide)
  by_cases htype : type = "std_srvs/srv/SetBool"
  · subst htype
    have hmotor : (run (step twoServices) (Registry.new ["std_srvs/srv/SetBool"] 2000)
        twoSetups).converters.lookup "std_srvs/srv/SetBool" = some ⟨some "/motor", some 1⟩ := by
      decide
    rw [hmotor] at hlookup
    obtain rfl := Option.some.inj hlookup
    revert hname
    decide
  · have hkeys : (run (step twoServices) (Registry.new ["std_srvs/srv/SetBool"] 2000)
        twoSetups).converters.keys = ["std_srvs/srv/SetBool"] := by decide
    have hmem := AList.lookup_isSome.mp (Option.isSome_of_eq_some hlookup)
    rw [AList.mem_keys, hkeys, List.mem_singleton] at hmem
    exact htype hmem

end Ros2Serial.Host.Registry

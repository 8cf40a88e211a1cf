import Ros2Serial.Host.Registry

/-!
# The endpoints of the services

What the setup handlers of a service do to the tables, for clients and servers
alike.  A handler begins with `createService`, which finds the endpoint in the
table or makes it (`createService_creates`), and that of a subscriber goes on
with `setTopicId` (`setTopicId_sets`).

`Held` is what every step keeps (`Effect.held`): the tables name objects that
were made, and an entry of `callbacks_` for an endpoint is for one of the table.
-/

namespace Ros2Serial.Host.Registry

/-! ## Endpoints of services -/

/-- The entry of `callbacks_` for an endpoint. -/
def serviceHandler : ServiceKind → Nat → Handler
  | .client => .serviceClient
  | .server => .serviceServer

/-- How many endpoints of a kind were made. -/
def made (s : Registry) : ServiceKind → Nat
  | .client => s.clients.length
  | .server => s.servers.length

/-- The `topic_id_` of an endpoint. -/
def topicId (s : Registry) (kind : ServiceKind) (srv : Nat) : Option UInt16 :=
  match kind with
  | .client => s.clients[srv]?.map ServiceClient.topic_id
  | .server => s.servers[srv]?.map ServiceServer.topic_id

/-- What has nothing to do with services stays as it is. -/
structure SameTopics (s s' : Registry) : Prop where
  active : s'.active = s.active
  subscribers : s'.subscribers = s.subscribers
  announced : s'.announced = s.announced
  written : s'.written = s.written
  faults : s'.faults = s.faults

/-- The endpoint of a setup frame is new.  It is made and entered, or its constructor
throws. -/
structure Creates (kind : ServiceKind) (topic_info : TopicInfo) (s s' : Registry)
    (constructed : Bool) : Prop where
  topics : s.SameTopics s'
  services : s'.services kind =
    if constructed then (s.services kind).insert topic_info.topic_name (s.made kind)
    else s.services kind
  others : ∀ other, other ≠ kind → s'.services other = s.services other
  callbacks : s'.callbacks =
    if constructed then s.callbacks.insert topic_info.topic_id (serviceHandler kind (s.made kind))
    else s.callbacks
  made_le : ∀ other, s.made other ≤ s'.made other
  made : constructed = true → s'.made kind = s.made kind + 1
  topicId : ∀ other srv, srv < s.made other → s'.topicId other srv = s.topicId other srv
  unset : constructed = true → s'.topicId kind (s.made kind) = some (-1)

section Services

variable {s : Registry} {topic_info : TopicInfo}

theorem createService_present {kind : ServiceKind} (h : topic_info.topic_name ∈ s.services kind)
    (created : Bool) :
    s.createService kind created topic_info = (s, true) := by
  unfold createService
  rw [if_pos h]

/-- A client that is not in the table: its constructor throws, or it is entered. -/
theorem createService_client_eq (habsent : topic_info.topic_name ∉ s.service_clients)
    (created : Bool) :
    s.createService .client created topic_info = (s, false) ∨
      ∃ client : ServiceClient, client.topic_id = -1 ∧
        s.createService .client created topic_info =
          (register .client topic_info s.clients.length { s with clients := s.clients ++ [client] },
            true) := by
  have habsent' : topic_info.topic_name ∉ s.services .client := habsent
  unfold createService newServiceClient
  dsimp only
  rw [if_neg habsent']
  by_cases hthrows : (decide (topic_info.message_type ∈ s.converters) && !created) = true
  · rw [if_pos hthrows]
    exact Or.inl rfl
  · rw [if_neg hthrows]
    exact Or.inr ⟨_, rfl, rfl⟩

/-- A server that is not in the table.  Its converter is touched in any case. -/
theorem createService_server_eq (habsent : topic_info.topic_name ∉ s.service_servers)
    (created : Bool) :
    ∃ (server : ServiceServer) (converters : AList fun _ : String => Converter),
      server.topic_id = -1 ∧
        (s.createService .server created topic_info =
            ({ s with servers := s.servers ++ [server], converters := converters }, false) ∨
          s.createService .server created topic_info =
            (register .server topic_info s.servers.length
              { s with servers := s.servers ++ [server], converters := converters }, true)) := by
  have habsent' : topic_info.topic_name ∉ s.services .server := habsent
  unfold createService newServiceServer
  dsimp only
  rw [if_neg habsent']
  cases s.converters.lookup topic_info.message_type with
  | none => exact ⟨_, s.converters, rfl, Or.inr rfl⟩
  | some converter =>
    cases created with
    | true => exact ⟨_, _, rfl, Or.inr rfl⟩
    | false => exact ⟨_, _, rfl, Or.inl rfl⟩

/-- The setup of an endpoint whose name the table does not have. -/
theorem createService_creates {kind : ServiceKind}
    (habsent : topic_info.topic_name ∉ s.services kind) (created : Bool) :
    Creates kind topic_info s (s.createService kind created topic_info).1
      (s.createService kind created topic_info).2 := by
  have hthrown : ∀ {p : Prop}, false = true → p := fun h => absurd h Bool.false_ne_true
  cases kind with
  | client =>
    rcases createService_client_eq habsent created with heq | ⟨client, hunset, heq⟩
    · rw [heq]
      exact ⟨⟨rfl, rfl, rfl, rfl, rfl⟩, rfl, fun _ _ => rfl, rfl, fun _ => Nat.le_refl _, hthrown,
        fun _ _ _ => rfl, hthrown⟩
    · rw [heq]
      refine ⟨⟨rfl, rfl, rfl, rfl, rfl⟩, rfl, ?_, rfl, ?_, fun _ => List.length_append, ?_, ?_⟩
      · rintro (_ | _) hother
        · exact absurd rfl hother
        · rfl
      · rintro (_ | _)
        · show s.clients.length ≤ (s.clients ++ [client]).length
          rw [List.length_append]
          exact Nat.le_add_right _ _
        · exact Nat.le_refl _
      · rintro (_ | _) srv hsrv
        · show (s.clients ++ [client])[srv]?.map ServiceClient.topic_id = _
          rw [List.getElem?_append_left hsrv]
          rfl
        · rfl
      · intro _
        simp [topicId, made, register, hunset]
  | server =>
    obtain ⟨server, converters, hunset, heq⟩ := createService_server_eq habsent created
    have hmade : ∀ other, s.made other ≤
        made { s with servers := s.servers ++ [server], converters := converters } other := by
      rintro (_ | _)
      · exact Nat.le_refl _
      · show s.servers.length ≤ (s.servers ++ [server]).length
        rw [List.length_append]
        exact Nat.le_add_right _ _
    have htopicId : ∀ other srv, srv < s.made other →
        topicId { s with servers := s.servers ++ [server], converters := converters } other srv =
          s.topicId other srv := by
      rintro (_ | _) srv hsrv
      · rfl
      · show (s.servers ++ [server])[srv]?.map ServiceServer.topic_id = _
        rw [List.getElem?_append_left hsrv]
        rfl
    rcases heq with heq | heq
    · rw [heq]
      exact ⟨⟨rfl, rfl, rfl, rfl, rfl⟩, rfl, fun _ _ => rfl, rfl, hmade, hthrown, htopicId, hthrown⟩
    · rw [heq]
      refine ⟨⟨rfl, rfl, rfl, rfl, rfl⟩, rfl, ?_, rfl, hmade, fun _ => List.length_append, htopicId, ?_⟩
      · rintro (_ | _) hother
        · rfl
        · exact absurd rfl hother
      · intro _
        simp [topicId, made, register, hunset]

/-- What the setup handler of a subscriber does after its beginning: the endpoint in the
table gets the topic id, which is announced now. -/
structure SetsTopicId (kind : ServiceKind) (topic_info : TopicInfo) (s s' : Registry) : Prop where
  active : s'.active = s.active
  subscribers : s'.subscribers = s.subscribers
  announced : s'.announced = s.announced.insert topic_info.topic_id topic_info.buffer_size
  written : s'.written = s.written
  faults : s'.faults = s.faults
  services : s'.services = s.services
  callbacks : s'.callbacks = s.callbacks
  converters : s'.converters = s.converters
  made : s'.made = s.made
  topicId : ∀ other srv, s'.topicId other srv =
    if other = kind ∧ (s.services kind).lookup topic_info.topic_name = some srv then
      (s.topicId other srv).map fun _ => topic_info.topic_id
    else s.topicId other srv

/-- A change of one object's topic id. -/
theorem getElem?_modify_topicId {α : Type} (id : α → UInt16) (f : α → α) {topic_id : UInt16}
    (hf : ∀ a, id (f a) = topic_id) (objects : List α) (srv i : Nat) :
    (objects.modify srv f)[i]?.map id =
      if srv = i then (objects[i]?.map id).map fun _ => topic_id else objects[i]?.map id := by
  rw [List.getElem?_modify]
  by_cases hi : srv = i
  · simp only [if_pos hi]
    cases objects[i]? with
    | none => rfl
    | some a => exact congrArg some (hf a)
  · simp only [if_neg hi]
    cases objects[i]? <;> rfl

theorem setTopicId_sets (kind : ServiceKind) (topic_info : TopicInfo) (s : Registry) :
    SetsTopicId kind topic_info s { s.setTopicId kind topic_info with
      announced := (s.setTopicId kind topic_info).announced.insert topic_info.topic_id
        topic_info.buffer_size } := by
  cases hlookup : (s.services kind).lookup topic_info.topic_name with
  | none =>
    have hsame : s.setTopicId kind topic_info = s := by
      unfold setTopicId
      rw [hlookup]
      cases kind <;> rfl
    rw [hsame]
    refine ⟨rfl, rfl, rfl, rfl, rfl, ?_, rfl, rfl, ?_, ?_⟩
    · exact funext fun other => by cases other <;> rfl
    · exact funext fun other => by cases other <;> rfl
    · intro other srv
      rw [hlookup]
      cases other <;> simp [topicId]
  | some srv =>
    unfold setTopicId
    rw [hlookup]
    cases kind with
    | client =>
      refine ⟨rfl, rfl, rfl, rfl, rfl, ?_, rfl, rfl, ?_, ?_⟩
      · exact funext fun other => by cases other <;> rfl
      · funext other
        cases other with
        | client => exact List.length_modify ..
        | server => rfl
      · intro other i
        rw [hlookup]
        cases other with
        | client =>
          have hmodify := getElem?_modify_topicId ServiceClient.topic_id
            (ServiceClient.setTopicId topic_info.topic_id) (fun _ => rfl) s.clients srv i
          simpa [topicId] using hmodify
        | server => simp [topicId]
    | server =>
      refine ⟨rfl, rfl, rfl, rfl, rfl, ?_, rfl, rfl, ?_, ?_⟩
      · exact funext fun other => by cases other <;> rfl
      · funext other
        cases other with
        | client => rfl
        | server => exact List.length_modify ..
      · intro other i
        rw [hlookup]
        cases other with
        | client => simp [topicId]
        | server =>
          have hmodify := getElem?_modify_topicId ServiceServer.topic_id
            (ServiceServer.setTopicId topic_info.topic_id) (fun _ => rfl) s.servers srv i
          simpa [topicId] using hmodify

/-- The setup handler of a subscriber, where the endpoint is there. -/
theorem setupServiceSubscriber_sets {kind : ServiceKind} {created : Bool}
    (hconstructed : (s.createService kind created topic_info).2 = true) :
    SetsTopicId kind topic_info (s.createService kind created topic_info).1
      (s.setupServiceSubscriber kind created topic_info) := by
  unfold setupServiceSubscriber
  dsimp only
  rw [if_pos hconstructed]
  exact setTopicId_sets kind topic_info _

/-- The setup handler of a subscriber, where the constructor has thrown. -/
theorem setupServiceSubscriber_thrown {kind : ServiceKind} {created : Bool}
    (hthrown : (s.createService kind created topic_info).2 = false) :
    s.setupServiceSubscriber kind created topic_info =
      (s.createService kind created topic_info).1 := by
  unfold setupServiceSubscriber
  dsimp only
  rw [hthrown, if_neg Bool.false_ne_true]

theorem createService_faults (kind : ServiceKind) (created : Bool) (topic_info : TopicInfo)
    (s : Registry) : (s.createService kind created topic_info).1.faults = s.faults := by
  by_cases hmem : topic_info.topic_name ∈ s.services kind
  · rw [createService_present hmem]
  · exact (createService_creates hmem created).topics.faults

theorem setupServiceSubscriber_faults (kind : ServiceKind) (created : Bool)
    (topic_info : TopicInfo) (s : Registry) :
    (s.setupServiceSubscriber kind created topic_info).faults = s.faults := by
  have hcreate := createService_faults kind created topic_info s
  cases hconstructed : (s.createService kind created topic_info).2 with
  | true => exact (setupServiceSubscriber_sets hconstructed).faults.trans hcreate
  | false => rw [setupServiceSubscriber_thrown hconstructed, hcreate]

end Services

/-! ## What every step keeps -/

/-- The tables are about objects that were made, and `callbacks_` is about endpoints in
the tables. -/
structure Held (s : Registry) : Prop where
  made : ∀ kind name srv, (s.services kind).lookup name = some srv → srv < s.made kind
  bound : ∀ kind topic_id srv, s.callbacks.lookup topic_id = some (serviceHandler kind srv) →
    ∃ name, (s.services kind).lookup name = some srv

section Held

variable {deserialize : List UInt8 → Option TopicInfo} {s s' : Registry}

theorem Held.congr (h : s.Held) (hservices : s'.services = s.services)
    (hmade : ∀ kind, s.made kind ≤ s'.made kind)
    (hcallbacks : ∀ kind topic_id srv,
      s'.callbacks.lookup topic_id = some (serviceHandler kind srv) →
        s.callbacks.lookup topic_id = some (serviceHandler kind srv)) : s'.Held := by
  refine ⟨?_, ?_⟩
  · intro kind name srv hlookup
    rw [hservices] at hlookup
    exact Nat.lt_of_lt_of_le (h.made kind name srv hlookup) (hmade kind)
  · intro kind topic_id srv hlookup
    rw [hservices]
    exact h.bound kind topic_id srv (hcallbacks kind topic_id srv hlookup)

theorem serviceHandler_inj {kind kind' : ServiceKind} {srv srv' : Nat}
    (h : serviceHandler kind srv = serviceHandler kind' srv') : kind = kind' ∧ srv = srv' := by
  cases kind <;> cases kind' <;> cases h <;> exact ⟨rfl, rfl⟩

theorem Creates.held {kind : ServiceKind} {topic_info : TopicInfo} {constructed : Bool}
    (hcreates : Creates kind topic_info s s' constructed)
    (habsent : topic_info.topic_name ∉ s.services kind) (h : s.Held) : s'.Held := by
  have hothers : ∀ other name srv, (s.services other).lookup name = some srv →
      (s'.services other).lookup name = some srv := by
    intro other name srv hlookup
    by_cases hother : other = kind
    · subst hother
      rw [hcreates.services]
      split
      · have hname : name ≠ topic_info.topic_name := by
          intro heq
          subst heq
          exact habsent (AList.lookup_isSome.mp (Option.isSome_of_eq_some hlookup))
        rw [AList.lookup_insert_ne hname]
        exact hlookup
      · exact hlookup
    · rw [hcreates.others other hother]
      exact hlookup
  refine ⟨?_, ?_⟩
  · intro other name srv hlookup
    by_cases hother : other = kind
    · subst hother
      rw [hcreates.services] at hlookup
      split at hlookup
      · rename_i hconstructed
        by_cases hname : name = topic_info.topic_name
        · rw [hname, AList.lookup_insert] at hlookup
          rw [hcreates.made hconstructed, ← Option.some.inj hlookup]
          exact Nat.lt_succ_self _
        · rw [AList.lookup_insert_ne hname] at hlookup
          exact Nat.lt_of_lt_of_le (h.made other name srv hlookup) (hcreates.made_le other)
      · exact Nat.lt_of_lt_of_le (h.made other name srv hlookup) (hcreates.made_le other)
    · rw [hcreates.others other hother] at hlookup
      exact Nat.lt_of_lt_of_le (h.made other name srv hlookup) (hcreates.made_le other)
  · intro other topic_id srv hlookup
    have hbefore : s.callbacks.lookup topic_id = some (serviceHandler other srv) →
        ∃ name, (s'.services other).lookup name = some srv := by
      intro hlookup
      obtain ⟨name, hname⟩ := h.bound other topic_id srv hlookup
      exact ⟨name, hothers other name srv hname⟩
    rw [hcreates.callbacks] at hlookup
    split at hlookup
    · rename_i hconstructed
      by_cases hid : topic_id = topic_info.topic_id
      · rw [hid, AList.lookup_insert] at hlookup
        obtain ⟨rfl, rfl⟩ := serviceHandler_inj (Option.some.inj hlookup)
        refine ⟨topic_info.topic_name, ?_⟩
        rw [hcreates.services, if_pos hconstructed, AList.lookup_insert]
      · rw [AList.lookup_insert_ne hid] at hlookup
        exact hbefore hlookup
    · exact hbefore hlookup

theorem createService_held (h : s.Held) (kind : ServiceKind) (created : Bool)
    (topic_info : TopicInfo) : (s.createService kind created topic_info).1.Held := by
  by_cases hmem : topic_info.topic_name ∈ s.services kind
  · rw [createService_present hmem]
    exact h
  · exact (createService_creates hmem created).held hmem h

theorem SetsTopicId.held {kind : ServiceKind} {topic_info : TopicInfo}
    (hsets : SetsTopicId kind topic_info s s') (h : s.Held) : s'.Held :=
  h.congr hsets.services (fun kind => Nat.le_of_eq (congrFun hsets.made kind).symm)
    fun _ _ _ hlookup => hsets.callbacks ▸ hlookup

theorem setupServiceSubscriber_held (h : s.Held) (kind : ServiceKind) (created : Bool)
    (topic_info : TopicInfo) : (s.setupServiceSubscriber kind created topic_info).Held := by
  have hcreate := createService_held h kind created topic_info
  cases hconstructed : (s.createService kind created topic_info).2 with
  | true => exact (setupServiceSubscriber_sets hconstructed).held hcreate
  | false =>
    rw [setupServiceSubscriber_thrown hconstructed]
    exact hcreate

/-- What `start` enters is no endpoint. -/
theorem start_callbacks {topic_id : UInt16} {handler : Handler}
    (h : s.start.callbacks.lookup topic_id = some handler) :
    handler ∈ setupHandlers.map Prod.snd ∨ s.callbacks.lookup topic_id = some handler := by
  have hfold : ∀ (entries : List (Nat × Handler)) (callbacks : AList fun _ : UInt16 => Handler),
      (entries.foldl (fun callbacks entry => callbacks.insert (UInt16.ofNat entry.1) entry.2)
        callbacks).lookup topic_id = some handler →
      handler ∈ entries.map Prod.snd ∨ callbacks.lookup topic_id = some handler := by
    intro entries
    induction entries with
    | nil => exact fun _ h => Or.inr h
    | cons entry entries ih =>
      intro callbacks h
      rcases ih _ h with hmem | hlookup
      · exact Or.inl (List.mem_cons_of_mem _ hmem)
      · by_cases hid : topic_id = UInt16.ofNat entry.1
        · rw [hid, AList.lookup_insert] at hlookup
          exact Or.inl (List.mem_cons.mpr (Or.inl (Option.some.inj hlookup).symm))
        · rw [AList.lookup_insert_ne hid] at hlookup
          exact Or.inr hlookup
  exact hfold _ _ h

theorem Effect.held {st : Step} (heffect : Effect deserialize s st s') (h : s.Held) : s'.Held := by
  have hframe : ∀ s' : Registry, s'.service_clients = s.service_clients →
      s'.service_servers = s.service_servers → s'.clients = s.clients →
      s'.servers.length = s.servers.length → s'.callbacks = s.callbacks → s'.Held := by
    intro s' hclients hservers hmade hmade' hcallbacks
    refine h.congr (funext fun kind => ?_) (fun kind => ?_) fun _ _ _ hlookup => hcallbacks ▸ hlookup
    · cases kind with
      | client => exact hclients
      | server => exact hservers
    · cases kind with
      | client => exact Nat.le_of_eq (congrArg List.length hmade).symm
      | server => exact Nat.le_of_eq hmade'.symm
  cases heffect with
  | none => exact h
  | setupPublisher topic_info =>
    unfold Registry.setupPublisher
    split
    · refine h.congr rfl (fun _ => Nat.le_refl _) fun kind topic_id srv hlookup => ?_
      by_cases hid : topic_id = topic_info.topic_id
      · rw [hid, AList.lookup_insert] at hlookup
        cases kind <;> cases hlookup
      · rw [AList.lookup_insert_ne hid] at hlookup
        exact hlookup
    · exact h
  | setupSubscriber =>
    unfold Registry.setupSubscriber
    split
    · exact hframe _ rfl rfl rfl rfl rfl
    · exact h
  | setupServicePublisher => exact createService_held h _ _ _
  | setupServiceSubscriber => exact setupServiceSubscriber_held h _ _ _
  | handleTime => exact hframe _ rfl rfl rfl rfl rfl
  | handleClient =>
    unfold Registry.handleClient
    split
    · exact h
    · exact hframe _ rfl rfl rfl rfl rfl
  | handleResponse => exact hframe _ rfl rfl rfl (List.length_modify ..) rfl
  | requestTopics => exact hframe _ rfl rfl rfl rfl rfl
  | rosMessage => exact hframe _ rfl rfl rfl rfl rfl
  | rosRequest =>
    unfold Registry.startRequest
    split
    · exact h
    · split
      · exact hframe _ rfl rfl rfl List.length_set rfl
      · exact hframe _ rfl rfl rfl rfl rfl
  | stop hactive =>
    rw [Registry.stop, if_pos hactive]
    refine ⟨?_, ?_⟩
    · intro kind name srv hlookup
      cases kind <;> cases hlookup
    · intro kind topic_id srv hlookup
      cases hlookup
  | start =>
    refine h.congr rfl (fun _ => Nat.le_refl _) fun kind topic_id srv hlookup => ?_
    rcases start_callbacks hlookup with hmem | hbefore
    · cases kind <;> simp [setupHandlers, serviceHandler] at hmem
    · exact hbefore

theorem new_held (types : List String) (timeout : Int) : (Registry.new types timeout).Held := by
  refine ⟨?_, ?_⟩
  · intro kind name srv hlookup
    cases kind <;> cases hlookup
  · intro kind topic_id srv hlookup
    cases hlookup

end Held

end Ros2Serial.Host.Registry

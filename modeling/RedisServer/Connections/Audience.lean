import RedisServer.Connections.History

/-!
# The commands on channels follow the history

Each operation on the connections of a state that follows a history adds one
operation to that history, or none if it is not accepted (`Unfolds`).  The queues
of the sessions are always awake here: no notification fails, and the session of
a registered client is alive.
-/

namespace RedisServer.Connections

open Resp PubSub

variable {clientId : ClientId} {client : ClientState}

variable {history : List Operation} {connections : Connections}

/-! ## Replies and authentication -/

theorem Follows.enqueuePubsubResponse (h : Follows history connections) (clientId : ClientId)
    (response : Response) :
    Unfolds history [] connections
      (connections.enqueuePubsubResponse none clientId response).2 := by
  unfold Connections.enqueuePubsubResponse
  cases hclient : connections.clients.lookup clientId with
  | none => exact .refl h
  | some client =>
    obtain ⟨-, pending, hpending⟩ := h.session hclient
    simp only [hpending, Connections.enqueue, enqueueFrame_none]
    refine ⟨by simpa using h.enqueue client.pubsubSession _, fun session => ?_⟩
    by_cases hsession : session = client.pubsubSession
    · subst hsession
      exact .aside (by rw [queue_insert, if_pos rfl, queue, hpending]; rfl)
    · exact .of_eq (by rw [queue_insert, if_neg hsession])

theorem Follows.authenticate (h : Follows history connections) (host : Host) (user : User)
    (clientId : ClientId) (command : Command) :
    Unfolds history [] connections
      (Acl.authenticate host user clientId command connections).2 := by
  rcases Acl.authenticate_cases host user clientId command connections with
    hafter | ⟨client, hclient, hafter⟩
  · rw [hafter]
    exact .refl h
  · -- Only the mark of the client changes.
    rw [hafter]
    refine ⟨?_, fun session => .of_eq rfl⟩
    rw [List.append_nil]
    refine h.congr (fun other => ?_) rfl rfl fun _ hsession => hsession
    unfold registration
    by_cases hother : other = clientId
    · subst hother
      simp [hclient]
    · simp [hother]

/-! ## Joining and leaving -/

/-- A change of the subscriptions that is acknowledged. -/
theorem Follows.acknowledge (h : Follows history connections) {operation : Operation}
    (hnews : ∀ session past, delivered session past operation = [])
    (hregistration : ∀ clientId, operation.registration clientId = none)
    {clientId : ClientId} {client : ClientState}
    (hclient : connections.clients.lookup clientId = some client)
    {change : Connections → Bytes × Connections}
    (hclients : (change connections).2.clients = connections.clients)
    (hsessions : (change connections).2.sessions = connections.sessions)
    (hmirrored : (change connections).2.Mirrored)
    (hmem : ∀ other channel, channel ∈ (change connections).2.channelsOf other ↔
      PubSub.subscribed (history ++ [operation]) other channel = true)
    (hknown : ∀ other channel, channel ∈ (change connections).2.channelsOf other →
      channel ∈ connections.channelsOf other ∨ other = clientId) :
    Unfolds history [operation] connections
      (connections.acknowledge none clientId change).2 := by
  obtain ⟨hsession, pending, hpending⟩ := h.session hclient
  have hsame : ∀ other, sessionOf (history ++ [operation]) other = sessionOf history other := by
    intro other
    rw [sessionOf_snoc, hregistration]
    rfl
  have hfollows : Follows (history ++ [operation]) (change connections).2 := {
    mirrored := hmirrored
    registered := fun other => by
      rw [hsame, ← h.registered, registration, hclients, registration]
    subscribed := hmem
    known := fun other channel hchannel => by
      rw [hsame]
      rcases hknown other channel hchannel with hold | rfl
      · exact h.known other channel hold
      · rw [hsession]
        rfl
    alive := fun other session hother => by
      rw [hsessions]
      exact h.alive other session (hsame other ▸ hother)
    own := fun first second session hfirst hsecond =>
      h.own first second session (hsame first ▸ hfirst) (hsame second ▸ hsecond) }
  rw [(sessions_acknowledge hclient hpending).2]
  refine ⟨hfollows.enqueue client.pubsubSession _, fun session => ?_⟩
  rw [mail_singleton, hnews]
  have hqueue : (change connections).2.queue session = connections.queue session := by
    rw [queue, hsessions, queue]
  by_cases heq : session = client.pubsubSession
  · subst heq
    exact .aside (by rw [queue_insert, if_pos rfl, queue, hpending]; rfl)
  · exact .of_eq (by rw [queue_insert, if_neg heq, hqueue])

theorem Follows.subscribe (h : Follows history connections)
    (hclient : connections.clients.lookup clientId = some client) (word channel : Bytes)
    (channels : List Bytes) :
    Unfolds history [.subscribe clientId (channel :: channels)] connections
      (connections.subscribe none clientId (word :: channel :: channels)).2 := by
  obtain ⟨-, -, hclients, hsessions⟩ :=
    @subscribeAll_spec clientId (fun _ => True) client (channel :: channels) connections hclient
  have hmem := mem_channelsOf_subscribeAll clientId (channel :: channels) connections
  refine h.acknowledge (fun _ _ => rfl) (fun _ => rfl) hclient hclients hsessions
    (h.mirrored.subscribeAll clientId _).1 (fun other heard => ?_) (fun other heard hheard => ?_)
  · rw [hmem, subscribed_subscribe, h.subscribed]
  · rcases (hmem other heard).mp hheard with hold | ⟨rfl, -⟩
    · exact .inl hold
    · exact .inr rfl

theorem Follows.unsubscribe (h : Follows history connections)
    (hclient : connections.clients.lookup clientId = some client) (word channel : Bytes)
    (channels : List Bytes) :
    Unfolds history [.unsubscribe clientId (channel :: channels)] connections
      (connections.unsubscribe none clientId (word :: channel :: channels)).2 := by
  obtain ⟨-, -, hclients, hsessions⟩ := @unsubscribeAll_spec clientId (fun _ => True) clientId
    (channel :: channels) connections
  have hmem := h.mirrored.mem_channelsOf_unsubscribeAll clientId (channel :: channels)
  refine h.acknowledge (fun _ _ => rfl) (fun _ => rfl) hclient hclients hsessions
    (h.mirrored.unsubscribeAll clientId _).1 (fun other heard => ?_) (fun other heard hheard => ?_)
  · simp only
    rw [hmem, subscribed_unsubscribe, h.subscribed]
  · exact .inl ((hmem other heard).mp hheard).1

/-- What an `UNSUBSCRIBE` without channels does, up to its acknowledgement. -/
def leaveAll (clientId : ClientId) (connections : Connections) : Bytes × Connections :=
  match connections.clientSubscriptions.lookup clientId with
  | none | some [] => (acknowledgement (ascii "unsubscribe") .nullBulkString 0, connections)
  | some channels => unsubscribeAll clientId channels connections

theorem leaveAll_eq (h : connections.Mirrored) (clientId : ClientId) :
    (connections.leaveAll clientId).2 =
      (connections.unsubscribeAll clientId (connections.channelsOf clientId)).2 := by
  unfold leaveAll channelsOf
  cases hlookup : connections.clientSubscriptions.lookup clientId with
  | none =>
    rw [Index.members_of_none hlookup]
    rfl
  | some channels =>
    obtain ⟨first, rest, rfl⟩ := List.exists_cons_of_ne_nil (h.tidy _ _ hlookup).1
    rw [Index.members_of_lookup hlookup]

/-- An `UNSUBSCRIBE` without channels takes the client off all of them. -/
theorem Follows.leaveAll (h : Follows history connections)
    (hclient : connections.clients.lookup clientId = some client) :
    Unfolds history [.unsubscribeAll clientId] connections
      (connections.acknowledge none clientId (Connections.leaveAll clientId)).2 := by
  have hleave := leaveAll_eq h.mirrored clientId
  obtain ⟨-, -, hclients, hsessions⟩ := @unsubscribeAll_spec clientId (fun _ => True) clientId
    (connections.channelsOf clientId) connections
  have hmem := h.mirrored.mem_channelsOf_unsubscribeAll clientId (connections.channelsOf clientId)
  refine h.acknowledge (fun _ _ => rfl) (fun _ => rfl) hclient (hleave ▸ hclients)
    (hleave ▸ hsessions) (hleave ▸ (h.mirrored.unsubscribeAll clientId _).1)
    (fun other heard => ?_) (fun other heard hheard => ?_)
  · rw [hleave, hmem, subscribed_off (.inl rfl), ← h.subscribed]
    refine and_congr_right fun hheard => not_congr ⟨And.left, ?_⟩
    rintro rfl
    exact ⟨rfl, hheard⟩
  · rw [hleave] at hheard
    exact .inl ((hmem other heard).mp hheard).1

/-! ## Arriving and leaving -/

theorem Follows.register (h : Follows history connections) (noPassword : Bool) {session : SessionId}
    (halive : (connections.sessions.lookup session).isSome)
    (hown : ∀ other, connections.registration other = some session → other = clientId) :
    Unfolds history [.register clientId session] connections
      (connections.register noPassword clientId session) := by
  have hsubscribed : ∀ other channel,
      PubSub.subscribed (history ++ [.register clientId session]) other channel =
        PubSub.subscribed history other channel := by
    intro other channel
    rw [subscribed_snoc]
    rfl
  have howner : ∀ other, sessionOf history other = some session → other = clientId := by
    intro other hother
    exact hown other ((h.registered other).trans hother)
  refine ⟨?_, fun _ => .of_eq rfl⟩
  exact {
    mirrored := h.mirrored
    registered := fun other => by
      rw [sessionOf_register, registration, Connections.register]
      by_cases hother : clientId = other
      · subst hother
        simp
      · have hother' : other ≠ clientId := fun heq => hother heq.symm
        rw [if_neg hother, AList.lookup_insert_ne hother']
        exact h.registered other
    subscribed := fun other channel => by
      rw [hsubscribed]
      exact h.subscribed other channel
    known := fun other channel hchannel => by
      rw [sessionOf_register]
      split
      · rfl
      · exact h.known other channel hchannel
    alive := fun other live hlive => by
      rw [sessionOf_register] at hlive
      split at hlive
      · exact Option.some.inj hlive ▸ halive
      · exact h.alive other live hlive
    own := fun first second live hfirst hsecond => by
      rw [sessionOf_register] at hfirst hsecond
      split at hfirst
      · rename_i heq
        obtain rfl := Option.some.inj hfirst
        split at hsecond
        · rename_i heq'
          exact heq.symm.trans heq'
        · exact (howner second hsecond ▸ heq).symm
      · split at hsecond
        · rename_i heq'
          obtain rfl := Option.some.inj hsecond
          exact (howner first hfirst).trans heq'
        · exact h.own first second live hfirst hsecond }

theorem Follows.unregister (h : Follows history connections) (clientId : ClientId) :
    Unfolds history [.leave clientId] connections (connections.unregister clientId) := by
  obtain ⟨hmirrored, hsubscribers⟩ := h.mirrored.unregister clientId
  obtain ⟨channelSubscribers, hunregister⟩ := unregister_eq clientId connections
  have hmem : ∀ other channel, channel ∈ (connections.unregister clientId).channelsOf other ↔
      channel ∈ connections.channelsOf other ∧ other ≠ clientId := by
    intro other channel
    rw [hmirrored.mem_iff, hsubscribers, h.mirrored.mem_iff]
  refine ⟨?_, fun session => .of_eq (by rw [hunregister]; rfl)⟩
  exact {
    mirrored := hmirrored
    registered := fun other => by
      rw [sessionOf_leave, registration, hunregister]
      by_cases hother : clientId = other
      · subst hother
        simp
      · have hother' : other ≠ clientId := fun heq => hother heq.symm
        rw [if_neg hother]
        simp only [AList.lookup_erase_ne hother']
        exact h.registered other
    subscribed := fun other channel => by
      rw [hmem, h.subscribed, subscribed_off (.inr rfl)]
    known := fun other channel hchannel => by
      obtain ⟨hold, hother⟩ := (hmem other channel).mp hchannel
      rw [sessionOf_leave, if_neg (Ne.symm hother)]
      exact h.known other channel hold
    alive := fun other session hlive => by
      rw [sessionOf_leave] at hlive
      rw [hunregister]
      split at hlive
      · cases hlive
      · exact h.alive other session hlive
    own := fun first second session hfirst hsecond => by
      rw [sessionOf_leave] at hfirst hsecond
      split at hfirst
      · cases hfirst
      · split at hsecond
        · cases hsecond
        · exact h.own first second session hfirst hsecond }

/-! ## Publishing -/

/-- The loop of `publish`, when every subscriber has a live session of its own. -/
theorem publishTo_live (channel payload : Bytes) {notifications : Stream' Notification}
    (hawake : ∀ n, notifications.get n = none) {subscribers : List ClientId}
    (hnodup : subscribers.Nodup)
    (hlive : ∀ clientId ∈ subscribers, ∃ session, connections.registration clientId = some session ∧
      (connections.sessions.lookup session).isSome)
    (hown : ∀ first ∈ subscribers, ∀ second ∈ subscribers, ∀ session,
      connections.registration first = some session →
        connections.registration second = some session → first = second) :
    ∃ sessions, connections.publishTo channel payload subscribers notifications =
        (subscribers, subscribers.length, { connections with sessions }) ∧
      ∀ session,
        ((∃ clientId ∈ subscribers, connections.registration clientId = some session) →
          sessions.lookup session =
            (connections.sessions.lookup session).map (· ++ [payload])) ∧
        ((∀ clientId ∈ subscribers, connections.registration clientId ≠ some session) →
          sessions.lookup session = connections.sessions.lookup session) := by
  induction subscribers generalizing notifications connections with
  | nil => exact ⟨connections.sessions, rfl, fun session => ⟨by simp, fun _ => rfl⟩⟩
  | cons subscriber rest ih =>
    obtain ⟨hfresh, hrest⟩ := List.nodup_cons.mp hnodup
    obtain ⟨first, hfirst, halive⟩ := hlive subscriber (by simp)
    obtain ⟨pending, hpending⟩ := Option.isSome_iff_exists.mp halive
    obtain ⟨client, hclient, rfl⟩ := Option.map_eq_some_iff.mp hfirst
    have hsession : connections.liveSession subscriber =
        some (client.pubsubSession, pending) := by
      simp [liveSession, hclient, hpending]
    have hhead : notifications.head = none := hawake 0
    -- The others have other sessions, so their queues are not touched by this frame.
    have hothers : ∀ clientId ∈ rest,
        connections.registration clientId ≠ some client.pubsubSession := by
      intro clientId hclientId heq
      have hsame := hown subscriber (by simp) clientId (by simp [hclientId]) _ hfirst heq
      exact hfresh (hsame ▸ hclientId)
    obtain ⟨sessions, houtcome, hsessions⟩ := @ih
      { connections with
        sessions := connections.sessions.insert client.pubsubSession (pending ++ [payload]) }
      notifications.tail (fun n => hawake (n + 1)) hrest
      (fun clientId hclientId => by
        obtain ⟨session, hregistered, hsome⟩ := hlive clientId (by simp [hclientId])
        refine ⟨session, hregistered, ?_⟩
        have hne : session ≠ client.pubsubSession := fun heq =>
          hothers clientId hclientId (heq ▸ hregistered)
        simpa [hne] using hsome)
      (fun first hfirst second hsecond =>
        hown first (by simp [hfirst]) second (by simp [hsecond]))
    refine ⟨sessions, ?_, fun session => ?_⟩
    · simp only [publishTo, hsession, hhead, enqueue, enqueueFrame_none, houtcome,
        List.length_cons]
    · obtain ⟨hsome, hnone⟩ := hsessions session
      by_cases heq : session = client.pubsubSession
      · subst heq
        refine ⟨fun _ => ?_, fun habsent => absurd hfirst (habsent subscriber (by simp))⟩
        rw [hnone hothers, hpending]
        exact AList.lookup_insert _
      · constructor
        · rintro ⟨clientId, hmem, hregistered⟩
          rcases List.mem_cons.mp hmem with rfl | hmem
          · rw [hfirst] at hregistered
            exact absurd (Option.some.inj hregistered).symm heq
          · rw [hsome ⟨clientId, hmem, hregistered⟩]
            simp [heq]
        · intro habsent
          rw [hnone fun clientId hmem => habsent clientId (by simp [hmem])]
          simp [heq]

/-- The registered clients that are subscribed to a channel. -/
def audience (history : List Operation) (channel : Bytes) (connections : Connections) :
    List ClientId :=
  connections.clients.keys.filter fun clientId => PubSub.subscribed history clientId channel

/-- The audience is whom the map of the channel lists. -/
theorem Follows.perm_audience (h : Follows history connections) (channel : Bytes) :
    (connections.subscribersOf channel).Perm (connections.audience history channel) := by
  refine (List.perm_ext_iff_of_nodup (h.mirrored.tidy'.nodup channel)
    (connections.clients.keys_nodup.filter _)).mpr fun clientId => ?_
  have hsubscribed := h.subscribed clientId channel
  rw [h.mirrored.mem_iff] at hsubscribed
  rw [List.mem_filter, ← AList.mem_keys, ← AList.lookup_isSome]
  constructor
  · intro hmem
    have hknown := h.known clientId channel ((h.mirrored.mem_iff _ _).mpr hmem)
    rw [← h.registered, registration, Option.isSome_map] at hknown
    exact ⟨hknown, hsubscribed.mp hmem⟩
  · exact fun hmem => hsubscribed.mpr hmem.2

/-- It is enough to know the sessions afterwards, if everything else is the same. -/
theorem Follows.unfolds_publish (h : Follows history connections) {channel message : Bytes}
    {after : Connections} (hclients : after.clients = connections.clients)
    (hsubscriptions : after.clientSubscriptions = connections.clientSubscriptions)
    (hmirrored : after.Mirrored)
    (hsessions : ∀ session, after.sessions.lookup session =
      (connections.sessions.lookup session).map
        (· ++ delivered session history (.publish channel message))) :
    Unfolds history [.publish channel message] connections after := by
  have hsession : ∀ other, sessionOf (history ++ [.publish channel message]) other =
      sessionOf history other := by
    intro other
    rw [sessionOf_snoc]
    rfl
  have hchannels : ∀ other, after.channelsOf other = connections.channelsOf other := by
    intro other
    rw [channelsOf, hsubscriptions, channelsOf]
  refine ⟨?_, fun session => ?_⟩
  · exact {
      mirrored := hmirrored
      registered := fun other => by
        rw [hsession, ← h.registered, registration, hclients, registration]
      subscribed := fun other heard => by
        rw [hchannels, subscribed_snoc]
        exact h.subscribed other heard
      known := fun other heard hheard => by
        rw [hsession]
        exact h.known other heard (hchannels other ▸ hheard)
      alive := fun other session hlive => by
        rw [hsessions, Option.isSome_map]
        exact h.alive other session (hsession other ▸ hlive)
      own := fun first second session hfirst hsecond =>
        h.own first second session (hsession first ▸ hfirst) (hsession second ▸ hsecond) }
  · have hafter := hsessions session
    rw [mail_singleton]
    rw [delivered_publish] at hafter ⊢
    cases hlistens : listens history session channel with
    | false =>
      refine .of_eq ?_
      rw [queue, hafter, queue, hlistens]
      simp
    | true =>
      refine .published ?_
      obtain ⟨clientId, hregistered, -⟩ := listens_iff.mp hlistens
      obtain ⟨pending, hpending⟩ :=
        Option.isSome_iff_exists.mp (h.alive clientId session hregistered)
      rw [queue, hafter, queue, hlistens, hpending]
      rfl

/-- **One publication.**  It goes to the session of everybody in the audience, once,
and to no other; the reply is the number of them. -/
theorem Follows.publish (h : Follows history connections)
    {notifications : Stream' Notification} (hawake : ∀ n, notifications.get n = none)
    (word channel message : Bytes) :
    (connections.publish notifications [word, channel, message]).1 =
        .integer (connections.audience history channel).length ∧
      (∀ session,
        (connections.publish notifications [word, channel, message]).2.sessions.lookup session =
          (connections.sessions.lookup session).map
            (· ++ delivered session history (.publish channel message))) ∧
      Unfolds history [.publish channel message] connections
        (connections.publish notifications [word, channel, message]).2 := by
  have hlistens : ∀ session, listens history session channel = true ↔
      ∃ clientId ∈ connections.subscribersOf channel,
        connections.registration clientId = some session := by
    intro session
    rw [listens_iff]
    refine exists_congr fun clientId => ?_
    rw [h.registered, ← h.subscribed, h.mirrored.mem_iff, and_comm]
  have hcount := (h.perm_audience channel).length_eq
  simp only [Connections.publish]
  cases hlookup : connections.channelSubscribers.lookup channel with
  | none =>
    have hnobody : connections.subscribersOf channel = [] := Index.members_of_none hlookup
    have hdelivered : ∀ session,
        delivered session history (.publish channel message) = [] := by
      intro session
      refine if_neg fun heq => ?_
      obtain ⟨clientId, hmem, -⟩ := (hlistens session).mp heq
      rw [hnobody] at hmem
      cases hmem
    have hsame : ∀ session, connections.sessions.lookup session =
        (connections.sessions.lookup session).map
          (· ++ delivered session history (.publish channel message)) := by
      intro session
      simp [hdelivered]
    refine ⟨?_, hsame, h.unfolds_publish rfl rfl h.mirrored hsame⟩
    rw [← hcount, hnobody]
    rfl
  | some subscribers =>
    have hsubscribers : connections.subscribersOf channel = subscribers :=
      Index.members_of_lookup hlookup
    rw [hsubscribers] at hlistens hcount
    obtain ⟨hsome, hnodup⟩ := h.mirrored.tidy' channel subscribers hlookup
    have hregistered : ∀ clientId ∈ subscribers, ∃ session,
        connections.registration clientId = some session ∧
          (connections.sessions.lookup session).isSome := by
      intro clientId hmem
      have hchannel : channel ∈ connections.channelsOf clientId :=
        (h.mirrored.mem_iff _ _).mpr (hsubscribers ▸ hmem)
      obtain ⟨session, hsession⟩ := Option.isSome_iff_exists.mp (h.known _ _ hchannel)
      exact ⟨session, (h.registered clientId).trans hsession, h.alive _ _ hsession⟩
    obtain ⟨sessions, houtcome, hsessions⟩ := publishTo_live channel
      (messageFrame channel message) hawake hnodup hregistered
      (fun first _ second _ session hfirst hsecond =>
        h.own first second session (h.registered first ▸ hfirst) (h.registered second ▸ hsecond))
    have hdelivered : ∀ session, sessions.lookup session =
        (connections.sessions.lookup session).map
          (· ++ delivered session history (.publish channel message)) := by
      intro session
      rw [delivered_publish]
      by_cases heq : listens history session channel = true
      · rw [if_pos heq]
        exact (hsessions session).1 ((hlistens session).mp heq)
      · rw [if_neg heq]
        have hnobody : ∀ clientId ∈ subscribers,
            connections.registration clientId ≠ some session := fun clientId hmem hreg =>
          heq ((hlistens session).mpr ⟨clientId, hmem, hreg⟩)
        simp [(hsessions session).2 hnobody]
    unfold messageFrame at houtcome
    simp only [houtcome, if_neg hsome]
    refine ⟨by rw [hcount], hdelivered, h.unfolds_publish rfl rfl ?_ hdelivered⟩
    have hmirrored := h.mirrored.publish notifications [word, channel, message]
    simpa only [Connections.publish, hlookup, houtcome, if_neg hsome] using hmirrored

end RedisServer.Connections

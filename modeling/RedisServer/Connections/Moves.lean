import Mathlib.Logic.Relation
import RedisServer.Connections.Frame

/-!
# What a client can do to the connections

A command of one client changes the connections in small moves: it forgets a
client whose session is gone, lets a client leave channels, puts a frame into a
queue, lets its own client join a channel or marks it as authenticated.  Every
fact about all commands is proved move by move.
-/

namespace RedisServer.Connections

open Resp

variable {clientId : ClientId} {connections : Connections}

/-- The client is listed as a subscriber of some channel. -/
def Hears (clientId : ClientId) (connections : Connections) : Prop :=
  ∃ channel subscribers, connections.channelSubscribers.lookup channel = some subscribers ∧
    clientId ∈ subscribers

/-- **One move on behalf of a client.**  `Sends` holds of the frames that may be
put into a queue. -/
inductive Move (actor : ClientId) (Sends : Bytes → Prop) : Connections → Connections → Prop
  | forget (clientId : ClientId) (connections : Connections) :
      Move actor Sends connections (connections.forgetClient clientId)
  | leave {clientId : ClientId} {channels remaining : List Bytes} {connections : Connections}
      (hchannels : connections.clientSubscriptions.lookup clientId = some channels) :
      Move actor Sends connections (connections.setChannels clientId remaining)
  | audience {connections : Connections} {channelSubscribers : AList fun _ : Bytes => List ClientId}
      (hfewer : ∀ clientId, Hears clientId { connections with channelSubscribers } →
        Hears clientId connections) :
      Move actor Sends connections { connections with channelSubscribers }
  | join {client : ClientState} {connections : Connections}
      (hclient : connections.clients.lookup actor = some client) (channel : Bytes) :
      Move actor Sends connections (connections.addSubscription actor channel).2
  | deliver {recipient : ClientId} {client : ClientState} {pending : List Bytes} {payload : Bytes}
      {connections : Connections} (notification : Notification)
      (hclient : connections.clients.lookup recipient = some client)
      (hsession : connections.sessions.lookup client.pubsubSession = some pending)
      (hrecipient : recipient = actor ∨ Hears recipient connections) (hsends : Sends payload) :
      Move actor Sends connections
        (connections.enqueue notification client.pubsubSession pending payload).2
  | logIn {client : ClientState} {connections : Connections}
      (hclient : connections.clients.lookup actor = some client) :
      Move actor Sends connections
        { connections with
          clients := connections.clients.insert actor { client with authenticated := true } }

/-- Some moves, one after the other. -/
abbrev Moves (actor : ClientId) (Sends : Bytes → Prop) : Connections → Connections → Prop :=
  Relation.ReflTransGen (Move actor Sends)

variable {actor : ClientId} {Sends : Bytes → Prop} {before after : Connections}

/-! ## Subscriptions -/

/-- The frames that acknowledge channels, one after the other. -/
inductive Acknowledges : Bytes → Prop
  | none : Acknowledges []
  | more {kind : Bytes} {channel : Response} {count : ℕ} {payload : Bytes}
      (hkind : kind = ascii "subscribe" ∨ kind = ascii "unsubscribe")
      (hchannel : channel = .nullBulkString ∨ ∃ name, channel = .bulkString name)
      (hrest : Acknowledges payload) :
      Acknowledges (acknowledgement kind channel count ++ payload)

theorem subscribeAll_spec {client : ClientState} (channels : List Bytes)
    {connections : Connections} (hclient : connections.clients.lookup actor = some client) :
    Moves actor Sends connections (connections.subscribeAll actor channels).2 ∧
      Acknowledges (connections.subscribeAll actor channels).1 ∧
      (connections.subscribeAll actor channels).2.clients = connections.clients ∧
      (connections.subscribeAll actor channels).2.sessions = connections.sessions := by
  induction channels generalizing connections with
  | nil => exact ⟨.refl, .none, rfl, rfl⟩
  | cons channel rest ih =>
    obtain ⟨hmoves, hacknowledges, hclients, hsessions⟩ :=
      @ih (connections.addSubscription actor channel).2 hclient
    exact ⟨.head (.join hclient channel) hmoves, .more (.inl rfl) (.inr ⟨channel, rfl⟩) hacknowledges,
      hclients, hsessions⟩

theorem removeSubscriber_spec (clientId : ClientId) (channel : Bytes) (connections : Connections) :
    Moves actor Sends connections (connections.removeSubscriber clientId channel) ∧
      ∃ channelSubscribers, connections.removeSubscriber clientId channel =
        { connections with channelSubscribers } := by
  unfold removeSubscriber
  cases hsubscribers : connections.channelSubscribers.lookup channel with
  | none => exact ⟨.refl, connections.channelSubscribers, rfl⟩
  | some subscribers =>
    simp only
    split
    · refine ⟨.single (.audience fun other hhears => ?_), _, rfl⟩
      obtain ⟨heard, listeners, hlookup, hmem⟩ := hhears
      by_cases hheard : heard = channel
      · subst hheard
        simp at hlookup
      · exact ⟨heard, listeners, by rwa [AList.lookup_erase_ne hheard] at hlookup, hmem⟩
    · refine ⟨.single (.audience fun other hhears => ?_), _, rfl⟩
      obtain ⟨heard, listeners, hlookup, hmem⟩ := hhears
      by_cases hheard : heard = channel
      · subst hheard
        simp only [AList.lookup_insert, Option.some.injEq] at hlookup
        subst hlookup
        exact ⟨heard, subscribers, hsubscribers, List.mem_of_mem_erase hmem⟩
      · exact ⟨heard, listeners, by rwa [AList.lookup_insert_ne hheard] at hlookup, hmem⟩

theorem setChannels_eq (clientId : ClientId) (channels : List Bytes) (connections : Connections) :
    ∃ clientSubscriptions, connections.setChannels clientId channels =
      { connections with clientSubscriptions } := by
  unfold setChannels
  split
  · exact ⟨_, rfl⟩
  · exact ⟨_, rfl⟩

theorem removeSubscription_spec (clientId : ClientId) (channel : Bytes)
    (connections : Connections) :
    Moves actor Sends connections (connections.removeSubscription clientId channel).2 ∧
      (connections.removeSubscription clientId channel).2.clients = connections.clients ∧
      (connections.removeSubscription clientId channel).2.sessions = connections.sessions := by
  unfold removeSubscription
  cases hchannels : connections.clientSubscriptions.lookup clientId with
  | none => exact ⟨.refl, rfl, rfl⟩
  | some channels =>
    simp only
    obtain ⟨clientSubscriptions, hset⟩ := setChannels_eq clientId (channels.erase channel)
      (if channel ∈ channels then connections.removeSubscriber clientId channel else connections)
    split
    · obtain ⟨hmoves, channelSubscribers, hremove⟩ :=
        @removeSubscriber_spec actor Sends clientId channel connections
      rw [if_pos ‹_›, hremove] at hset
      rw [hremove] at hmoves ⊢
      refine ⟨hmoves.tail (.leave hchannels), ?_, ?_⟩ <;> rw [hset]
    · rw [if_neg ‹_›] at hset
      refine ⟨.single (.leave hchannels), ?_, ?_⟩ <;> rw [hset]

theorem unsubscribeAll_spec (clientId : ClientId) (channels : List Bytes)
    (connections : Connections) :
    Moves actor Sends connections (connections.unsubscribeAll clientId channels).2 ∧
      Acknowledges (connections.unsubscribeAll clientId channels).1 ∧
      (connections.unsubscribeAll clientId channels).2.clients = connections.clients ∧
      (connections.unsubscribeAll clientId channels).2.sessions = connections.sessions := by
  induction channels generalizing connections with
  | nil => exact ⟨.refl, .none, rfl, rfl⟩
  | cons channel rest ih =>
    obtain ⟨hmoves, hclients, hsessions⟩ :=
      @removeSubscription_spec actor Sends clientId channel connections
    obtain ⟨hmoves', hacknowledges, hclients', hsessions'⟩ :=
      ih (connections.removeSubscription clientId channel).2
    exact ⟨hmoves.trans hmoves', .more (.inr rfl) (.inr ⟨channel, rfl⟩) hacknowledges,
      hclients'.trans hclients, hsessions'.trans hsessions⟩

/-- An acknowledgement goes to the session of its client. -/
theorem moves_acknowledge {change : Connections → Bytes × Connections} (notification : Notification)
    (hchange : ∀ client, connections.clients.lookup actor = some client →
      Moves actor Sends connections (change connections).2 ∧ Sends (change connections).1 ∧
        (change connections).2.clients = connections.clients ∧
        (change connections).2.sessions = connections.sessions) :
    Moves actor Sends connections (connections.acknowledge notification actor change).2 := by
  unfold acknowledge
  cases hclient : connections.clients.lookup actor with
  | none => exact .refl
  | some client =>
    obtain ⟨hmoves, hsends, hclients, hsessions⟩ := hchange client hclient
    simp only
    cases hsession : connections.sessions.lookup client.pubsubSession with
    | none => exact .single (.forget _ _)
    | some pending =>
      have hdeliver : Move actor Sends (change connections).2
          ((change connections).2.enqueue notification client.pubsubSession pending
            (change connections).1).2 :=
        .deliver notification (hclients ▸ hclient) (hsessions ▸ hsession) (.inl rfl) hsends
      simp only
      cases henqueue : (change connections).2.enqueue notification client.pubsubSession pending
        (change connections).1 with
      | mk result after =>
        rw [henqueue] at hdeliver
        cases result <;> exact hmoves.tail hdeliver

theorem moves_subscribe (hsends : ∀ payload, Acknowledges payload → Sends payload)
    (notification : Notification) (command : Command) (connections : Connections) :
    Moves actor Sends connections (connections.subscribe notification actor command).2 := by
  match command with
  | _ :: channel :: channels =>
    refine moves_acknowledge notification fun client hclient => ?_
    obtain ⟨hmoves, hacknowledges, hrest⟩ := subscribeAll_spec (channel :: channels) hclient
    exact ⟨hmoves, hsends _ hacknowledges, hrest⟩
  | [] | [_] => exact .refl

theorem moves_unsubscribe (hsends : ∀ payload, Acknowledges payload → Sends payload)
    (notification : Notification) (command : Command) (connections : Connections) :
    Moves actor Sends connections (connections.unsubscribe notification actor command).2 := by
  have hall : ∀ channels, Moves actor Sends connections
        (connections.unsubscribeAll actor channels).2 ∧
      Sends (connections.unsubscribeAll actor channels).1 ∧
      (connections.unsubscribeAll actor channels).2.clients = connections.clients ∧
      (connections.unsubscribeAll actor channels).2.sessions = connections.sessions := by
    intro channels
    obtain ⟨hmoves, hacknowledges, hrest⟩ := unsubscribeAll_spec actor channels connections
    exact ⟨hmoves, hsends _ hacknowledges, hrest⟩
  have hnone : Sends (acknowledgement (ascii "unsubscribe") .nullBulkString 0) := by
    have hacknowledges := @Acknowledges.more (ascii "unsubscribe") .nullBulkString 0 [] (.inr rfl) (.inl rfl) .none
    rw [List.append_nil] at hacknowledges
    exact hsends _ hacknowledges
  refine moves_acknowledge notification fun client hclient => ?_
  match command with
  | _ :: channel :: channels => exact hall _
  | [] | [_] =>
    simp only
    split
    · exact ⟨.refl, hnone, rfl, rfl⟩
    · exact ⟨.refl, hnone, rfl, rfl⟩
    · exact hall _

/-! ## Publishing -/

/-- Only those stay on a channel who were on it. -/
theorem publishTo_sublist (channel payload : Bytes) (subscribers : List ClientId)
    (notifications : Stream' Notification) (connections : Connections) :
    (connections.publishTo channel payload subscribers notifications).1.Sublist subscribers := by
  induction subscribers generalizing notifications connections with
  | nil => exact .refl _
  | cons subscriber rest ih =>
    simp only [publishTo]
    split
    · exact (ih _ _).cons _
    · exact (ih _ _).cons_cons _

theorem publishTo_spec {channel payload : Bytes} (hsends : Sends payload)
    {subscribers listeners : List ClientId} (hsubset : subscribers ⊆ listeners)
    (notifications : Stream' Notification) {connections : Connections}
    (hlisteners : connections.channelSubscribers.lookup channel = some listeners) :
    Moves actor Sends connections
        (connections.publishTo channel payload subscribers notifications).2.2 ∧
      (connections.publishTo channel payload subscribers notifications).2.2.channelSubscribers =
        connections.channelSubscribers := by
  induction subscribers generalizing notifications connections with
  | nil => exact ⟨.refl, rfl⟩
  | cons subscriber rest ih =>
    have hrest : rest ⊆ listeners := fun _ h => hsubset (.tail _ h)
    simp only [publishTo]
    cases hlive : connections.liveSession subscriber with
    | none =>
      simp only
      cases hchannels : connections.clientSubscriptions.lookup subscriber with
      | none =>
        obtain ⟨hmoves, hsame⟩ := @ih hrest notifications
          (connections.forgetClient subscriber) hlisteners
        exact ⟨.head (.forget subscriber connections) hmoves, hsame⟩
      | some channels =>
        obtain ⟨clientSubscriptions, hset⟩ :=
          setChannels_eq subscriber (channels.erase channel) connections
        have hleave : Move actor Sends connections
            (connections.setChannels subscriber (channels.erase channel)) :=
          .leave hchannels
        simp only
        rw [hset] at hleave ⊢
        obtain ⟨hmoves, hsame⟩ := @ih hrest notifications
          ({ connections with clientSubscriptions }.forgetClient subscriber) hlisteners
        exact ⟨.head hleave (.head (.forget subscriber _) hmoves), hsame⟩
    | some found =>
      obtain ⟨client, hclient, hfound⟩ := Option.bind_eq_some_iff.mp hlive
      obtain ⟨pending, hsession, rfl⟩ := Option.map_eq_some_iff.mp hfound
      have hdeliver : Move actor Sends connections
          (connections.enqueue notifications.head client.pubsubSession pending payload).2 :=
        .deliver notifications.head hclient hsession
          (.inr ⟨channel, listeners, hlisteners, hsubset (by simp)⟩) hsends
      obtain ⟨hmoves, hsame⟩ := @ih hrest notifications.tail
        (connections.enqueue notifications.head client.pubsubSession pending payload).2
        hlisteners
      exact ⟨.head hdeliver hmoves, hsame⟩

theorem moves_publish
    (hsends : ∀ channel message,
      Sends (serializeResponse (.array [ascii "message", channel, message])))
    (notifications : Stream' Notification) (command : Command) (connections : Connections) :
    Moves actor Sends connections (connections.publish notifications command).2 := by
  match command with
  | [_, channel, message] =>
    simp only [publish]
    cases hsubscribers : connections.channelSubscribers.lookup channel with
    | none => exact .refl
    | some subscribers =>
      obtain ⟨hmoves, hsame⟩ := publishTo_spec (hsends channel message)
        (fun _ h => h) notifications hsubscribers
      have hfewer := (publishTo_sublist channel
        (serializeResponse (.array [ascii "message", channel, message])) subscribers
        notifications connections).subset
      refine hmoves.tail (.audience fun clientId hhears => ?_)
      obtain ⟨heard, listeners, hlookup, hmem⟩ := hhears
      simp only [hsame] at hlookup
      by_cases hheard : heard = channel
      · subst hheard
        refine ⟨heard, subscribers, by rw [hsame, hsubscribers], hfewer ?_⟩
        split at hlookup
        · simp at hlookup
        · simp only [AList.lookup_insert, Option.some.injEq] at hlookup
          rwa [hlookup]
      · refine ⟨heard, listeners, ?_, hmem⟩
        rw [hsame]
        split at hlookup
        · rwa [AList.lookup_erase_ne hheard] at hlookup
        · rwa [AList.lookup_insert_ne hheard] at hlookup
  | [] | [_] | [_, _] | _ :: _ :: _ :: _ :: _ => exact .refl

/-! ## Replies and authentication -/

theorem moves_enqueuePubsubResponse {response : Response}
    (hsends : Sends (serializeResponse response)) (notification : Notification)
    (connections : Connections) :
    Moves actor Sends connections
      (connections.enqueuePubsubResponse notification actor response).2 := by
  unfold enqueuePubsubResponse
  cases hclient : connections.clients.lookup actor with
  | none => exact .refl
  | some client =>
    simp only
    cases hsession : connections.sessions.lookup client.pubsubSession with
    | none => exact .single (.forget _ _)
    | some pending =>
      exact .single (.deliver notification hclient hsession (.inl rfl) hsends)

theorem moves_authenticate (host : Host) (user : User) (command : Command)
    (connections : Connections) :
    Moves actor Sends connections (Acl.authenticate host user actor command connections).2 := by
  rcases Acl.authenticate_cases host user actor command connections with h | ⟨client, hclient, h⟩ <;>
    rw [h]
  exact .single (.logIn hclient)

/-! ## Strangers -/

/-- The client is neither registered nor subscribed. -/
structure Stranger (clientId : ClientId) (connections : Connections) : Prop where
  unregistered : connections.clients.lookup clientId = none
  unsubscribed : connections.clientSubscriptions.lookup clientId = none

theorem lookup_erase_of_none {Key Value : Type} [DecidableEq Key] {key other : Key}
    {entries : AList fun _ : Key => Value} (h : entries.lookup key = none) :
    (entries.erase other).lookup key = none := by
  by_cases hother : key = other
  · subst hother
    exact AList.lookup_erase _ _
  · exact (AList.lookup_erase_ne hother).trans h

theorem lookup_of_erase {Key Value : Type} [DecidableEq Key] {key other : Key} {value : Value}
    {entries : AList fun _ : Key => Value} (h : (entries.erase other).lookup key = some value) :
    entries.lookup key = some value := by
  by_cases hother : key = other
  · subst hother
    rw [AList.lookup_erase] at h
    cases h
  · rwa [AList.lookup_erase_ne hother] at h

/-- Only a client itself joins channels. -/
theorem Move.unsubscribed (hmove : Move actor Sends before after)
    (hjoins : ∀ client, before.clients.lookup actor = some client → clientId ≠ actor)
    (h : before.clientSubscriptions.lookup clientId = none) :
    after.clientSubscriptions.lookup clientId = none := by
  cases hmove with
  | @leave other channels remaining _ hchannels =>
    have hother : clientId ≠ other := by
      rintro rfl
      rw [h] at hchannels
      cases hchannels
    exact (subscriptions_setChannels_ne hother _ _).trans h
  | join hclient channel => exact (AList.lookup_insert_ne (hjoins _ hclient)).trans h
  | _ => exact h

/-- Nobody else makes a client subscribe. -/
theorem Moves.unsubscribed (hmoves : Moves actor Sends before after)
    (hother : clientId ≠ actor) (h : before.clientSubscriptions.lookup clientId = none) :
    after.clientSubscriptions.lookup clientId = none := by
  induction hmoves with
  | refl => exact h
  | tail _ hmove ih => exact hmove.unsubscribed (fun _ _ => hother) ih

/-- No command makes a stranger known, not even its own. -/
theorem Stranger.move (h : Stranger clientId before)
    (hmove : Move actor Sends before after) : Stranger clientId after := by
  have hne : ∀ client, before.clients.lookup actor = some client → clientId ≠ actor := by
    rintro client hclient rfl
    rw [h.unregistered] at hclient
    cases hclient
  refine ⟨?_, hmove.unsubscribed hne h.unsubscribed⟩
  cases hmove with
  | forget other _ => exact lookup_erase_of_none h.unregistered
  | @leave other channels remaining _ hchannels =>
    obtain ⟨clientSubscriptions, hset⟩ := setChannels_eq other remaining before
    rw [hset]
    exact h.unregistered
  | logIn hclient => exact (AList.lookup_insert_ne (hne _ hclient)).trans h.unregistered
  | _ => exact h.unregistered

theorem Stranger.moves (h : Stranger clientId before)
    (hmoves : Moves actor Sends before after) : Stranger clientId after := by
  induction hmoves with
  | refl => exact h
  | tail _ hmove ih => exact ih.move hmove

theorem isSubscribed_publish (hclient : connections.isSubscribed clientId = false)
    (notifications : Stream' Notification) (command : Command) :
    (connections.publish notifications command).2.isSubscribed clientId = false := by
  -- A publication is made of moves that anybody could make.
  have hmoves : Moves (clientId + 1) (fun _ => True) connections
      (connections.publish notifications command).2 :=
    moves_publish (fun _ _ => trivial) notifications command connections
  have hnone := hmoves.unsubscribed (Nat.succ_ne_self _).symm (by simpa [isSubscribed] using hclient)
  rw [isSubscribed, hnone, Option.isSome_none]

/-- Unsubscribing subscribes nobody. -/
theorem subscriptions_unsubscribe (hclient : connections.clientSubscriptions.lookup clientId = none)
    (notification : Notification) (other : ClientId) (command : Command) :
    (connections.unsubscribe notification other command).2.clientSubscriptions.lookup clientId =
      none := by
  have hall : ∀ channels,
      (connections.unsubscribeAll other channels).2.clientSubscriptions.lookup clientId = none := by
    intro channels
    obtain ⟨hmoves, -⟩ :=
      @unsubscribeAll_spec (clientId + 1) (fun _ => True) other channels connections
    exact hmoves.unsubscribed (Nat.succ_ne_self _).symm hclient
  unfold unsubscribe acknowledge
  split
  · exact hclient
  · split
    · exact hclient
    · simp only
      split <;> rename_i henqueue <;> rw [← congrArg Prod.snd henqueue] <;>
        simp only [enqueue] <;> split
      all_goals first | exact hall _ | (split <;> first | exact hclient | exact hall _)

theorem removeFromChannels_eq (clientId : ClientId) (channels : List Bytes)
    (connections : Connections) :
    ∃ channelSubscribers, connections.removeFromChannels clientId channels =
      { connections with channelSubscribers } := by
  induction channels generalizing connections with
  | nil => exact ⟨connections.channelSubscribers, rfl⟩
  | cons channel rest ih =>
    obtain ⟨-, channelSubscribers, hremove⟩ :=
      @removeSubscriber_spec clientId (fun _ => True) clientId channel connections
    obtain ⟨remaining, hrest⟩ := ih { connections with channelSubscribers }
    exact ⟨remaining, by rw [removeFromChannels, hremove, hrest]⟩

theorem moves_removeFromChannels (clientId : ClientId) (channels : List Bytes)
    (connections : Connections) :
    Moves actor Sends connections (connections.removeFromChannels clientId channels) := by
  induction channels generalizing connections with
  | nil => exact .refl
  | cons channel rest ih => exact (removeSubscriber_spec clientId channel connections).1.trans (ih _)

/-- The departure of a client is made of moves that anybody could make. -/
theorem moves_unregister (clientId : ClientId) (connections : Connections) :
    Moves actor Sends connections (connections.unregister clientId) := by
  unfold unregister
  cases hchannels : connections.clientSubscriptions.lookup clientId with
  | none => exact .single (.forget clientId connections)
  | some channels =>
    obtain ⟨channelSubscribers, hremove⟩ := removeFromChannels_eq clientId channels connections
    have hfirst : Moves actor Sends connections { connections with channelSubscribers } :=
      hremove ▸ moves_removeFromChannels clientId channels connections
    have hleave : Move actor Sends { connections with channelSubscribers }
        ({ connections with channelSubscribers }.setChannels clientId []) := .leave hchannels
    simp only [hremove]
    exact (hfirst.tail hleave).tail (.forget clientId _)

/-- The departure of a client takes it off the books. -/
theorem unregister_eq (clientId : ClientId) (connections : Connections) :
    ∃ channelSubscribers, connections.unregister clientId =
      { connections with
        channelSubscribers
        clients := connections.clients.erase clientId
        clientSubscriptions := connections.clientSubscriptions.erase clientId } := by
  unfold unregister
  cases hchannels : connections.clientSubscriptions.lookup clientId with
  | none =>
    have hnone : connections.clientSubscriptions.erase clientId =
        connections.clientSubscriptions :=
      AList.ext (List.kerase_of_notMem_keys (AList.lookup_eq_none.mp hchannels))
    exact ⟨connections.channelSubscribers, by rw [hnone]; rfl⟩
  | some channels =>
    obtain ⟨channelSubscribers, hremove⟩ := removeFromChannels_eq clientId channels connections
    exact ⟨channelSubscribers, by simp only [hremove]; rfl⟩

theorem Stranger.unregister (h : Stranger clientId connections) (other : ClientId) :
    Stranger clientId (connections.unregister other) := by
  obtain ⟨channelSubscribers, hunregister⟩ := unregister_eq other connections
  rw [hunregister]
  exact ⟨lookup_erase_of_none h.unregistered, lookup_erase_of_none h.unsubscribed⟩

end RedisServer.Connections

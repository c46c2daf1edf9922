import RedisServer.Connections.Moves
import RedisServer.Library.Index

/-!
# The two maps of the subscriptions

`clientSubscriptions` and `channelSubscribers` hold the same pairs, in the two
directions (`Mirrored`).  The commands on channels, the departure of a client and
a `PUBLISH` that meets dead sessions update both, each in its own way.

With it go the counts of the acknowledgements: each is the number of channels of
the client at that point of the command.
-/

namespace RedisServer.Connections

open Resp

variable {connections : Connections}

def channelsOf (clientId : ClientId) (connections : Connections) : List Bytes :=
  Index.members connections.clientSubscriptions clientId

def subscribersOf (channel : Bytes) (connections : Connections) : List ClientId :=
  Index.members connections.channelSubscribers channel

/-- The number of distinct channels that the client is subscribed to. -/
def channelCount (clientId : ClientId) (connections : Connections) : ℕ :=
  (connections.channelsOf clientId).toFinset.card

/-- **The two maps mirror each other.** -/
def Mirrored (connections : Connections) : Prop :=
  Index.Mirror connections.clientSubscriptions connections.channelSubscribers

theorem Mirrored.count_eq (h : connections.Mirrored) (clientId : ClientId) :
    connections.channelCount clientId = (connections.channelsOf clientId).length :=
  List.toFinset_card_of_nodup (h.tidy.nodup clientId)

theorem Mirrored.mem_iff (h : connections.Mirrored) (clientId : ClientId) (channel : Bytes) :
    channel ∈ connections.channelsOf clientId ↔ clientId ∈ connections.subscribersOf channel :=
  h.agree clientId channel

/-- A client is in subscribed mode as long as it has a channel. -/
theorem Mirrored.isSubscribed_iff (h : connections.Mirrored) (clientId : ClientId) :
    connections.isSubscribed clientId = true ↔ connections.channelsOf clientId ≠ [] := by
  unfold isSubscribed channelsOf
  cases hlookup : connections.clientSubscriptions.lookup clientId with
  | none => simp [Index.members_of_none hlookup]
  | some channels => simp [Index.members_of_lookup hlookup, (h.tidy _ _ hlookup).1]

variable {connections : Connections}

/-! ## Leaving -/

theorem removeSubscriber_eq (clientId : ClientId) (channel : Bytes) (connections : Connections) :
    connections.removeSubscriber clientId channel =
      { connections with
        channelSubscribers := Index.unlink channel clientId connections.channelSubscribers } := by
  unfold removeSubscriber
  cases hlookup : connections.channelSubscribers.lookup channel with
  | none => simp only [Index.unlink_of_none hlookup]
  | some subscribers =>
    simp only [Index.unlink, Index.store, Index.members_of_lookup hlookup]
    split <;> rfl

theorem setChannels_eq_store (clientId : ClientId) (channels : List Bytes)
    (connections : Connections) :
    connections.setChannels clientId channels =
      { connections with
        clientSubscriptions := Index.store clientId channels connections.clientSubscriptions } := by
  unfold setChannels Index.store
  split <;> rfl

/-- A client leaves a channel: the count is what is left to it. -/
theorem Mirrored.removeSubscription (h : connections.Mirrored) (clientId : ClientId)
    (channel : Bytes) :
    (connections.removeSubscription clientId channel).2.Mirrored ∧
      (connections.removeSubscription clientId channel).1 =
        ((connections.removeSubscription clientId channel).2.channelsOf clientId).length ∧
      ∀ other heard,
        heard ∈ (connections.removeSubscription clientId channel).2.channelsOf other ↔
          heard ∈ connections.channelsOf other ∧ ¬ (other = clientId ∧ heard = channel) := by
  unfold Connections.removeSubscription
  cases hlookup : connections.clientSubscriptions.lookup clientId with
  | none =>
    have hnone : connections.channelsOf clientId = [] := Index.members_of_none hlookup
    refine ⟨h, by simp [hnone], fun other heard => ?_⟩
    constructor
    · intro hheard
      refine ⟨hheard, ?_⟩
      rintro ⟨rfl, rfl⟩
      rw [hnone] at hheard
      cases hheard
    · exact And.left
  | some channels =>
    have hchannels : connections.channelsOf clientId = channels :=
      Index.members_of_lookup hlookup
    have hunlink : Index.store clientId (channels.erase channel)
        connections.clientSubscriptions =
          Index.unlink clientId channel connections.clientSubscriptions := by
      rw [Index.unlink, Index.members_of_lookup hlookup]
    have hmem : ∀ other heard,
        heard ∈ Index.members (Index.unlink clientId channel connections.clientSubscriptions)
          other ↔
            heard ∈ connections.channelsOf other ∧ ¬ (other = clientId ∧ heard = channel) :=
      fun other heard => h.tidy.mem_unlink
    have hcount : (Index.members
        (Index.unlink clientId channel connections.clientSubscriptions) clientId) =
          channels.erase channel := by
      rw [Index.members_unlink, if_pos rfl, Index.members_of_lookup hlookup]
    by_cases hchannel : channel ∈ channels
    · simp only [if_pos hchannel, removeSubscriber_eq, setChannels_eq_store]
      rw [hunlink]
      exact ⟨h.unlink clientId channel, congrArg List.length hcount.symm, hmem⟩
    · -- The client was not on the channel, so there is nothing to take from it.
      simp only [if_neg hchannel, setChannels_eq_store]
      rw [hunlink]
      refine ⟨?_, congrArg List.length hcount.symm, hmem⟩
      refine ⟨h.tidy.unlink _ _, h.tidy', fun other heard => ?_⟩
      refine ((hmem other heard).trans ?_).trans (h.agree other heard)
      constructor
      · exact And.left
      · intro hheard
        refine ⟨hheard, ?_⟩
        rintro ⟨rfl, rfl⟩
        rw [← hchannels] at hchannel
        exact hchannel hheard

/-! ## The loops of the commands -/

/-- What the client has left after a list of channels is worked off, and the frames
of the acknowledgements so far. -/
def acknowledgements (kind : Bytes) (clientId : ClientId)
    (change : List Bytes → Connections → Bytes × Connections) (channels : List Bytes)
    (connections : Connections) : Bytes :=
  (List.range channels.length).flatMap fun n =>
    acknowledgement kind (.bulkString (channels.getD n []))
      ((change (channels.take (n + 1)) connections).2.channelCount clientId)

/-- The loop over the channels of a command, one of which keeps the two maps together and
is acknowledged by what the client then has. -/
theorem Mirrored.loop {kind : Bytes} {clientId : ClientId}
    {change : List Bytes → Connections → Bytes × Connections}
    (first : Bytes → Connections → ℕ × Connections) (hnil : ∀ connections, change [] connections =
      ([], connections)) (hcons : ∀ channel rest connections, change (channel :: rest) connections =
      (acknowledgement kind (.bulkString channel) (first channel connections).1 ++
          (change rest (first channel connections).2).1,
        (change rest (first channel connections).2).2))
    (hfirst : ∀ {connections : Connections}, connections.Mirrored → ∀ channel,
      (first channel connections).2.Mirrored ∧ (first channel connections).1 =
        ((first channel connections).2.channelsOf clientId).length)
    (channels : List Bytes) (h : connections.Mirrored) :
    (change channels connections).2.Mirrored ∧ (change channels connections).1 =
      acknowledgements kind clientId change channels connections := by
  induction channels generalizing connections with
  | nil =>
    rw [hnil]
    exact ⟨h, rfl⟩
  | cons channel rest ih =>
    obtain ⟨hmirrored, hcount⟩ := hfirst h channel
    obtain ⟨hafter, hpayload⟩ := ih hmirrored
    rw [hcons]
    refine ⟨hafter, ?_⟩
    -- The first acknowledgement, then those of the rest of the command.
    unfold acknowledgements at hpayload ⊢
    rw [List.length_cons, List.range_succ_eq_map, List.flatMap_cons, List.flatMap_map]
    simp only [List.getD_cons_zero, List.take_succ_cons, List.take_zero, hcons, hnil,
      List.getD_cons_succ]
    rw [hmirrored.count_eq, ← hcount, hpayload]

theorem Mirrored.subscribeAll (clientId : ClientId) (channels : List Bytes)
    (h : connections.Mirrored) :
    (connections.subscribeAll clientId channels).2.Mirrored ∧
      (connections.subscribeAll clientId channels).1 =
        acknowledgements (ascii "subscribe") clientId (Connections.subscribeAll clientId) channels
          connections :=
  loop (Connections.addSubscription clientId) (fun _ => rfl) (fun _ _ _ => rfl)
    (fun hmirrored channel => ⟨hmirrored.link clientId channel, by
      unfold addSubscription channelsOf
      simp only [Index.members_insert, if_true]⟩) channels h

theorem Mirrored.unsubscribeAll (clientId : ClientId) (channels : List Bytes)
    (h : connections.Mirrored) :
    (connections.unsubscribeAll clientId channels).2.Mirrored ∧
      (connections.unsubscribeAll clientId channels).1 =
        acknowledgements (ascii "unsubscribe") clientId (Connections.unsubscribeAll clientId)
          channels connections :=
  loop (Connections.removeSubscription clientId) (fun _ => rfl) (fun _ _ _ => rfl)
    (fun hmirrored channel => ⟨(hmirrored.removeSubscription clientId channel).1,
      (hmirrored.removeSubscription clientId channel).2.1⟩) channels h

theorem mem_channelsOf_subscribeAll (clientId : ClientId) (channels : List Bytes)
    (connections : Connections) (other : ClientId) (heard : Bytes) :
    heard ∈ (connections.subscribeAll clientId channels).2.channelsOf other ↔
      heard ∈ connections.channelsOf other ∨ other = clientId ∧ heard ∈ channels := by
  induction channels generalizing connections with
  | nil => simp [Connections.subscribeAll]
  | cons channel rest ih =>
    refine (ih (connections.addSubscription clientId channel).2).trans
      ((or_congr_left Index.mem_link).trans ?_)
    rw [List.mem_cons]
    tauto

theorem Mirrored.mem_channelsOf_unsubscribeAll (clientId : ClientId) (channels : List Bytes)
    (h : connections.Mirrored) (other : ClientId) (heard : Bytes) :
    heard ∈ (connections.unsubscribeAll clientId channels).2.channelsOf other ↔
      heard ∈ connections.channelsOf other ∧ ¬ (other = clientId ∧ heard ∈ channels) := by
  induction channels generalizing connections with
  | nil => simp [Connections.unsubscribeAll]
  | cons channel rest ih =>
    obtain ⟨hfirst, -, hmem⟩ := h.removeSubscription clientId channel
    refine (ih hfirst).trans ?_
    rw [hmem, List.mem_cons]
    tauto

/-! ## Departures -/

theorem removeFromChannels_spec (clientId : ClientId) (channels : List Bytes)
    (htidy : Index.Tidy connections.channelSubscribers) :
    Index.Tidy (connections.removeFromChannels clientId channels).channelSubscribers ∧
      ∀ channel other,
        other ∈ (connections.removeFromChannels clientId channels).subscribersOf channel ↔
          other ∈ connections.subscribersOf channel ∧ ¬ (other = clientId ∧ channel ∈ channels) := by
  induction channels generalizing connections with
  | nil => exact ⟨htidy, fun channel other => by simp [removeFromChannels]⟩
  | cons first rest ih =>
    rw [removeFromChannels, removeSubscriber_eq]
    obtain ⟨hafter, hmem⟩ := @ih
      { connections with
        channelSubscribers := Index.unlink first clientId connections.channelSubscribers }
      (htidy.unlink first clientId)
    refine ⟨hafter, fun channel other => ?_⟩
    have hfirst : other ∈ Index.members
        (Index.unlink first clientId connections.channelSubscribers) channel ↔
          other ∈ connections.subscribersOf channel ∧ ¬ (channel = first ∧ other = clientId) :=
      htidy.mem_unlink
    rw [hmem, List.mem_cons]
    unfold subscribersOf at hfirst ⊢
    rw [hfirst]
    tauto

/-- **A client that has left is on no channel**, and nobody else is affected. -/
theorem Mirrored.unregister (h : connections.Mirrored) (clientId : ClientId) :
    (connections.unregister clientId).Mirrored ∧
      ∀ channel other, other ∈ (connections.unregister clientId).subscribersOf channel ↔
        other ∈ connections.subscribersOf channel ∧ other ≠ clientId := by
  unfold Connections.unregister
  cases hlookup : connections.clientSubscriptions.lookup clientId with
  | none =>
    refine ⟨h, fun channel other => ⟨fun hother => ⟨hother, ?_⟩, And.left⟩⟩
    rintro rfl
    have hchannel : channel ∈ connections.channelsOf other := (h.mem_iff _ _).mpr hother
    rw [channelsOf, Index.members_of_none hlookup] at hchannel
    cases hchannel
  | some channels =>
    obtain ⟨htidy, hmem⟩ := removeFromChannels_spec clientId channels h.tidy'
    obtain ⟨channelSubscribers, hremove⟩ := removeFromChannels_eq clientId channels connections
    have hall : ∀ channel other,
        other ∈ (connections.removeFromChannels clientId channels).subscribersOf channel ↔
          other ∈ connections.subscribersOf channel ∧ other ≠ clientId := by
      intro channel other
      rw [hmem]
      refine and_congr_right fun hother => not_congr ⟨And.left, fun heq => ⟨heq, ?_⟩⟩
      subst heq
      have hchannel : channel ∈ connections.channelsOf other := (h.mem_iff _ _).mpr hother
      rwa [channelsOf, Index.members_of_lookup hlookup] at hchannel
    rw [hremove] at htidy hall
    simp only [hremove]
    exact ⟨Index.Mirror.drop h htidy hall, hall⟩

/-! ## Publishing -/

/-- A dead subscriber loses the channel in its own map, and its registration. -/
theorem publishTo_dead {channel payload : Bytes} {subscriber : ClientId}
    {subscribers : List ClientId} {notifications : Stream' Notification}
    (hlive : connections.liveSession subscriber = none) :
    connections.publishTo channel payload (subscriber :: subscribers) notifications =
      ({ connections with
          clientSubscriptions :=
            Index.unlink subscriber channel connections.clientSubscriptions }.forgetClient
        subscriber).publishTo channel payload subscribers notifications := by
  simp only [publishTo, hlive]
  cases hlookup : connections.clientSubscriptions.lookup subscriber with
  | none => simp only [Index.unlink_of_none hlookup]
  | some channels =>
    simp only [setChannels_eq_store, Index.unlink, Index.members_of_lookup hlookup]

/-- The loop of `publish` takes the channel from the clients it drops. -/
theorem publishTo_mirror (channel payload : Bytes) (subscribers : List ClientId)
    (hnodup : subscribers.Nodup) (notifications : Stream' Notification)
    (htidy : Index.Tidy connections.clientSubscriptions) :
    let outcome := connections.publishTo channel payload subscribers notifications
    Index.Tidy outcome.2.2.clientSubscriptions ∧
      ∀ clientId heard, heard ∈ outcome.2.2.channelsOf clientId ↔
        heard ∈ connections.channelsOf clientId ∧
          ¬ (heard = channel ∧ clientId ∈ subscribers ∧ clientId ∉ outcome.1) := by
  induction subscribers generalizing notifications connections with
  | nil => exact ⟨htidy, fun clientId heard => by simp [publishTo]⟩
  | cons subscriber rest ih =>
    obtain ⟨hfresh, hrest⟩ := List.nodup_cons.mp hnodup
    cases hlive : connections.liveSession subscriber with
    | some found =>
      simp only [publishTo, hlive]
      obtain ⟨hafter, hmem⟩ := @ih
        (connections.enqueue notifications.head found.1 found.2 payload).2 hrest
        notifications.tail htidy
      refine ⟨hafter, fun clientId heard => (hmem clientId heard).trans ?_⟩
      refine and_congr_right fun _ => not_congr (and_congr_right fun _ => ?_)
      simp only [List.mem_cons, not_or]
      constructor
      · rintro ⟨hclient, hgone⟩
        exact ⟨.inr hclient, fun heq => hfresh (heq ▸ hclient), hgone⟩
      · rintro ⟨hclient | hclient, hne, hgone⟩
        · exact absurd hclient hne
        · exact ⟨hclient, hgone⟩
    | none =>
      rw [publishTo_dead hlive]
      obtain ⟨hafter, hmem⟩ := @ih
        ({ connections with
            clientSubscriptions :=
              Index.unlink subscriber channel connections.clientSubscriptions }.forgetClient
          subscriber) hrest notifications (htidy.unlink subscriber channel)
      refine ⟨hafter, fun clientId heard => (hmem clientId heard).trans ?_⟩
      have hfirst : heard ∈ Index.members
          (Index.unlink subscriber channel connections.clientSubscriptions) clientId ↔
            heard ∈ connections.channelsOf clientId ∧
              ¬ (clientId = subscriber ∧ heard = channel) :=
        htidy.mem_unlink
      have hgone : subscriber ∉ (publishTo channel payload rest notifications
          ({ connections with
            clientSubscriptions :=
              Index.unlink subscriber channel connections.clientSubscriptions }.forgetClient
          subscriber)).1 := fun hkept =>
        hfresh ((publishTo_sublist _ _ _ _ _).subset hkept)
      change (heard ∈ Index.members
          (Index.unlink subscriber channel connections.clientSubscriptions) clientId ∧ _) ↔ _
      rw [hfirst, List.mem_cons, and_assoc]
      refine and_congr_right fun _ => ?_
      by_cases hclient : clientId = subscriber
      · subst hclient
        simp [hgone, hfresh]
      · simp [hclient]

theorem Mirrored.publish (h : connections.Mirrored) (notifications : Stream' Notification)
    (command : Command) : (connections.publish notifications command).2.Mirrored := by
  match command with
  | [_, channel, message] =>
    simp only [Connections.publish]
    cases hlookup : connections.channelSubscribers.lookup channel with
    | none => exact h
    | some subscribers =>
      have hsubscribers : connections.subscribersOf channel = subscribers :=
        Index.members_of_lookup hlookup
      have hnodup : subscribers.Nodup := (h.tidy' _ _ hlookup).2
      obtain ⟨htidy, hmem⟩ := publishTo_mirror channel
        (serializeResponse (.array [ascii "message", channel, message])) subscribers hnodup
        notifications h.tidy
      have hsublist := publishTo_sublist channel
        (serializeResponse (.array [ascii "message", channel, message])) subscribers
        notifications connections
      obtain ⟨-, hsame⟩ := @publishTo_spec 0 (fun _ => True) channel
        (serializeResponse (.array [ascii "message", channel, message])) trivial subscribers
        subscribers (fun _ hmem => hmem) notifications connections hlookup
      simp only
      generalize connections.publishTo channel
        (serializeResponse (.array [ascii "message", channel, message])) subscribers
        notifications = outcome at htidy hsublist hmem hsame ⊢
      obtain ⟨remaining, recipients, after⟩ := outcome
      simp only at htidy hsublist hmem hsame ⊢
      refine ⟨htidy, ?_, fun clientId heard => (hmem clientId heard).trans ?_⟩
      · exact Index.Tidy.store (hsame ▸ h.tidy') channel (hnodup.sublist hsublist)
      · change _ ↔ clientId ∈ Index.members
          (Index.store channel remaining after.channelSubscribers) heard
        rw [Index.members_store, hsame, h.mem_iff]
        by_cases hheard : heard = channel
        · subst hheard
          rw [if_pos rfl, hsubscribers]
          have hkept : clientId ∈ remaining → clientId ∈ subscribers := fun hkept =>
            hsublist.subset hkept
          tauto
        · rw [if_neg hheard]
          simp [hheard, subscribersOf]
  | [] | [_] | [_, _] | _ :: _ :: _ :: _ :: _ => exact h

/-! ## The commands -/

theorem Mirrored.acknowledge (h : connections.Mirrored) (notification : Notification)
    (clientId : ClientId) {change : Connections → Bytes × Connections}
    (hchange : (change connections).2.Mirrored) :
    (connections.acknowledge notification clientId change).2.Mirrored := by
  unfold Connections.acknowledge
  split
  · exact h
  · split
    · exact h
    · simp only
      split
      · rename_i henqueue
        exact congrArg Prod.snd henqueue ▸ hchange
      · rename_i henqueue
        exact congrArg Prod.snd henqueue ▸ hchange

/-- A successful write puts the payload behind the frames that are pending. -/
theorem enqueueFrame_none (payload : Bytes) (pending : List Bytes) :
    enqueueFrame none payload pending = (.ok (), pending ++ [payload]) := by
  cases pending <;> rfl

/-- The acknowledgement of a client whose session is alive is one frame. -/
theorem sessions_acknowledge {clientId : ClientId} {client : ClientState} {pending : List Bytes}
    {change : Connections → Bytes × Connections}
    (hclient : connections.clients.lookup clientId = some client)
    (hsession : connections.sessions.lookup client.pubsubSession = some pending) :
    (connections.acknowledge none clientId change).1 = .noResponse ∧
      (connections.acknowledge none clientId change).2 =
        { (change connections).2 with
          sessions := (change connections).2.sessions.insert client.pubsubSession
            (pending ++ [(change connections).1]) } := by
  simp only [acknowledge, hclient, hsession, enqueue, enqueueFrame_none, and_self]

theorem Mirrored.subscribe (h : connections.Mirrored) (notification : Notification)
    (clientId : ClientId) (command : Command) :
    (connections.subscribe notification clientId command).2.Mirrored := by
  match command with
  | _ :: channel :: channels =>
    exact h.acknowledge notification clientId (h.subscribeAll clientId _).1
  | [] | [_] => exact h

theorem Mirrored.unsubscribe (h : connections.Mirrored) (notification : Notification)
    (clientId : ClientId) (command : Command) :
    (connections.unsubscribe notification clientId command).2.Mirrored := by
  refine h.acknowledge notification clientId ?_
  match command with
  | _ :: channel :: channels => exact (h.unsubscribeAll clientId _).1
  | [] | [_] =>
    simp only
    split
    · exact h
    · exact h
    · exact (h.unsubscribeAll clientId _).1

theorem Mirrored.enqueuePubsubResponse (h : connections.Mirrored) (notification : Notification)
    (clientId : ClientId) (response : Response) :
    (connections.enqueuePubsubResponse notification clientId response).2.Mirrored := by
  unfold Connections.enqueuePubsubResponse
  split
  · exact h
  · split
    · exact h
    · exact h

theorem Mirrored.authenticate (h : connections.Mirrored) (host : Host) (user : User)
    (clientId : ClientId) (command : Command) :
    (Acl.authenticate host user clientId command connections).2.Mirrored := by
  rcases Acl.authenticate_cases host user clientId command connections with
    hafter | ⟨client, -, hafter⟩ <;> rw [hafter] <;> exact h

end RedisServer.Connections

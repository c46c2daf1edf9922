import RedisServer.Connections.Mirror

/-!
# Pub/Sub as a history

What a subscriber is owed can be said without any map: look through what happened
so far for the last operation of the client that affects the channel; the client
is subscribed if that was a `SUBSCRIBE`.  `mail` lists what a session should have
been sent, publication by publication.

`Follows` connects this to the connections: a state follows a history if it has
the registrations and the subscriptions that the history says.
-/

namespace RedisServer

open Resp

variable {before after : Connections}

namespace PubSub

/-- What happens around the channels.  Only operations that were accepted count. -/
inductive Operation where
  | register (clientId : ClientId) (session : SessionId)
  | leave (clientId : ClientId)
  | subscribe (clientId : ClientId) (channels : List Bytes)
  | unsubscribe (clientId : ClientId) (channels : List Bytes)
  | unsubscribeAll (clientId : ClientId)
  | publish (channel message : Bytes)
  /-- The connection of a session takes a frame. -/
  | receive (session : SessionId) (frame : Bytes)
  /-- A session is gone. -/
  | drop (session : SessionId)
deriving DecidableEq

/-- Whether the client is on the channel after the operation, if that affects it. -/
def Operation.effect (clientId : ClientId) (channel : Bytes) : Operation → Option Bool
  | .subscribe actor channels =>
    if actor = clientId ∧ channel ∈ channels then some true else none
  | .unsubscribe actor channels =>
    if actor = clientId ∧ channel ∈ channels then some false else none
  | .unsubscribeAll actor | .leave actor => if actor = clientId then some false else none
  | _ => none

/-- The session of the client after the operation, if that affects it. -/
def Operation.registration (clientId : ClientId) : Operation → Option (Option SessionId)
  | .register actor session => if actor = clientId then some (some session) else none
  | .leave actor => if actor = clientId then some none else none
  | _ => none

/-- **The last operation of the client that affected the channel was a `SUBSCRIBE`.** -/
def subscribed (history : List Operation) (clientId : ClientId) (channel : Bytes) : Bool :=
  (history.reverse.findSome? (Operation.effect clientId channel)).getD false

/-- The session with which the client is registered. -/
def sessionOf (history : List Operation) (clientId : ClientId) : Option SessionId :=
  (history.reverse.findSome? (Operation.registration clientId)).getD none

/-- The clients that were ever registered. -/
def arrivals (history : List Operation) : List ClientId :=
  history.filterMap fun
    | .register clientId _ => some clientId
    | _ => none

/-- The frame of a publication. -/
def messageFrame (channel message : Bytes) : Bytes :=
  serializeResponse (.array [ascii "message", channel, message])

/-- The client of the session is subscribed to the channel. -/
def listens (history : List Operation) (session : SessionId) (channel : Bytes) : Bool :=
  (arrivals history).any fun clientId =>
    decide (sessionOf history clientId = some session) && subscribed history clientId channel

/-- What an operation should send to a session. -/
def delivered (session : SessionId) (history : List Operation) : Operation → List Bytes
  | .publish channel message =>
    if listens history session channel then [messageFrame channel message] else []
  | _ => []

/-- What some operations should send to a session, after a history. -/
def mail (session : SessionId) : List Operation → List Operation → List Bytes
  | _, [] => []
  | past, operation :: rest =>
    delivered session past operation ++ mail session (past ++ [operation]) rest

/-- What the connection of a session has taken. -/
def received (session : SessionId) (history : List Operation) : List Bytes :=
  history.filterMap fun
    | .receive other frame => if other = session then some frame else none
    | _ => none

/-! ## One more operation -/

theorem subscribed_snoc (history : List Operation) (operation : Operation) (clientId : ClientId)
    (channel : Bytes) :
    subscribed (history ++ [operation]) clientId channel =
      (operation.effect clientId channel).getD (subscribed history clientId channel) := by
  unfold subscribed
  rw [List.reverse_append, List.reverse_singleton, List.singleton_append, List.findSome?_cons]
  cases operation.effect clientId channel <;> rfl

theorem sessionOf_snoc (history : List Operation) (operation : Operation) (clientId : ClientId) :
    sessionOf (history ++ [operation]) clientId =
      (operation.registration clientId).getD (sessionOf history clientId) := by
  unfold sessionOf
  rw [List.reverse_append, List.reverse_singleton, List.singleton_append, List.findSome?_cons]
  cases operation.registration clientId <;> rfl

section Snoc

variable {history : List Operation} {actor clientId : ClientId} {channels : List Bytes}
  {channel : Bytes} {session : SessionId}

theorem subscribed_subscribe :
    subscribed (history ++ [.subscribe actor channels]) clientId channel = true ↔
      subscribed history clientId channel = true ∨ clientId = actor ∧ channel ∈ channels := by
  rw [subscribed_snoc]
  by_cases hactor : actor = clientId ∧ channel ∈ channels
  · simp [Operation.effect, hactor.1, hactor.2]
  · have hactor' : ¬ (clientId = actor ∧ channel ∈ channels) := fun h => hactor ⟨h.1.symm, h.2⟩
    simp [Operation.effect, hactor, hactor']

theorem subscribed_unsubscribe :
    subscribed (history ++ [.unsubscribe actor channels]) clientId channel = true ↔
      subscribed history clientId channel = true ∧ ¬ (clientId = actor ∧ channel ∈ channels) := by
  rw [subscribed_snoc]
  by_cases hactor : actor = clientId ∧ channel ∈ channels
  · simp [Operation.effect, hactor.1, hactor.2]
  · have hactor' : ¬ (clientId = actor ∧ channel ∈ channels) := fun h => hactor ⟨h.1.symm, h.2⟩
    simp [Operation.effect, hactor, hactor']

theorem subscribed_off {operation : Operation}
    (hoff : operation = .unsubscribeAll actor ∨ operation = .leave actor) :
    subscribed (history ++ [operation]) clientId channel = true ↔
      subscribed history clientId channel = true ∧ clientId ≠ actor := by
  have heffect : operation.effect clientId channel =
      if actor = clientId then some false else none := by
    rcases hoff with rfl | rfl <;> rfl
  rw [subscribed_snoc, heffect]
  by_cases hactor : actor = clientId
  · simp [hactor]
  · simp [hactor, Ne.symm hactor]

theorem sessionOf_register :
    sessionOf (history ++ [.register actor session]) clientId =
      if actor = clientId then some session else sessionOf history clientId := by
  rw [sessionOf_snoc, Operation.registration]
  split <;> rfl

theorem sessionOf_leave :
    sessionOf (history ++ [.leave actor]) clientId =
      if actor = clientId then none else sessionOf history clientId := by
  rw [sessionOf_snoc, Operation.registration]
  split <;> rfl

end Snoc

theorem delivered_publish (session : SessionId) (history : List Operation)
    (channel message : Bytes) :
    delivered session history (.publish channel message) =
      if listens history session channel then [messageFrame channel message] else [] := rfl

theorem mail_append (session : SessionId) (past first second : List Operation) :
    mail session past (first ++ second) =
      mail session past first ++ mail session (past ++ first) second := by
  induction first generalizing past with
  | nil => simp [mail]
  | cons operation rest ih => simp [mail, ih, List.append_assoc]

theorem mail_singleton (session : SessionId) (past : List Operation) (operation : Operation) :
    mail session past [operation] = delivered session past operation := by
  simp [mail]

theorem received_append (session : SessionId) (first second : List Operation) :
    received session (first ++ second) = received session first ++ received session second :=
  List.filterMap_append

/-- Who is registered has arrived. -/
theorem mem_arrivals {history : List Operation} {clientId : ClientId} {session : SessionId}
    (h : sessionOf history clientId = some session) : clientId ∈ arrivals history := by
  induction history using List.reverseRecOn with
  | nil => simp [sessionOf] at h
  | append_singleton history operation ih =>
    rw [sessionOf_snoc] at h
    unfold arrivals
    rw [List.filterMap_append, List.mem_append]
    cases operation with
    | register actor other =>
      by_cases hactor : actor = clientId
      · exact .inr (by simp [hactor])
      · exact .inl (ih (by simpa [Operation.registration, hactor] using h))
    | leave actor =>
      by_cases hactor : actor = clientId
      · simp [Operation.registration, hactor] at h
      · exact .inl (ih (by simpa [Operation.registration, hactor] using h))
    | _ => exact .inl (ih (by simpa [Operation.registration] using h))

theorem listens_iff {history : List Operation} {session : SessionId} {channel : Bytes} :
    listens history session channel = true ↔
      ∃ clientId, sessionOf history clientId = some session ∧
        subscribed history clientId channel = true := by
  simp only [listens, List.any_eq_true, Bool.and_eq_true, decide_eq_true_eq]
  constructor
  · rintro ⟨clientId, -, hsession, hsubscribed⟩
    exact ⟨clientId, hsession, hsubscribed⟩
  · rintro ⟨clientId, hsession, hsubscribed⟩
    exact ⟨clientId, mem_arrivals hsession, hsession, hsubscribed⟩

end PubSub

namespace Connections

open PubSub

/-- The frames that wait in a session. -/
def queue (session : SessionId) (connections : Connections) : List Bytes :=
  (connections.sessions.lookup session).getD []

/-- The session of a client, as registered. -/
def registration (clientId : ClientId) (connections : Connections) : Option SessionId :=
  (connections.clients.lookup clientId).map ClientState.pubsubSession

/-! ## Growing queues -/

/-- Frames were added to the queue of a session; those that are marked are these. -/
def Grows (session : SessionId) (published : List Bytes) (before after : Connections) : Prop :=
  ∃ marked : List (Bool × Bytes),
    after.queue session = before.queue session ++ marked.map Prod.snd ∧
      (marked.filter Prod.fst).map Prod.snd = published

theorem Grows.of_eq {session : SessionId} (h : after.queue session = before.queue session) :
    Grows session [] before after :=
  ⟨[], by simpa using h, rfl⟩

/-- A frame that is not a publication. -/
theorem Grows.aside {session : SessionId} {frame : Bytes}
    (h : after.queue session = before.queue session ++ [frame]) : Grows session [] before after :=
  ⟨[(false, frame)], by simpa using h, rfl⟩

theorem Grows.published {session : SessionId} {frame : Bytes}
    (h : after.queue session = before.queue session ++ [frame]) :
    Grows session [frame] before after :=
  ⟨[(true, frame)], by simpa using h, rfl⟩

theorem Grows.trans {session : SessionId} {sent sent' : List Bytes}
    {first second third : Connections} (h₁ : Grows session sent first second)
    (h₂ : Grows session sent' second third) : Grows session (sent ++ sent') first third := by
  obtain ⟨marked, hqueue, hsent⟩ := h₁
  obtain ⟨marked', hqueue', hsent'⟩ := h₂
  refine ⟨marked ++ marked', ?_, ?_⟩
  · rw [hqueue', hqueue, List.map_append, List.append_assoc]
  · rw [List.filter_append, List.map_append, hsent, hsent']

/-- One frame more in one queue. -/
theorem queue_insert (session : SessionId) (pending : List Bytes) (connections : Connections)
    (other : SessionId) :
    { connections with sessions := connections.sessions.insert session pending }.queue other =
      if other = session then pending else connections.queue other := by
  unfold queue
  by_cases hother : other = session
  · subst hother
    simp
  · simp [hother]

/-! ## States that follow a history -/

/-- **The connections are as the history says**; every registered client has a live
session of its own. -/
structure Follows (history : List Operation) (connections : Connections) : Prop where
  mirrored : connections.Mirrored
  registered : ∀ clientId, connections.registration clientId = sessionOf history clientId
  subscribed : ∀ clientId channel, channel ∈ connections.channelsOf clientId ↔
    PubSub.subscribed history clientId channel = true
  known : ∀ clientId channel, channel ∈ connections.channelsOf clientId →
    (sessionOf history clientId).isSome
  alive : ∀ clientId session, sessionOf history clientId = some session →
    (connections.sessions.lookup session).isSome
  own : ∀ first second session, sessionOf history first = some session →
    sessionOf history second = some session → first = second

/-- Some operations lead from one state to another. -/
structure Unfolds (history operations : List Operation) (before after : Connections) : Prop where
  follows : Follows (history ++ operations) after
  grows : ∀ session, Grows session (mail session history operations) before after

variable {history : List Operation} {connections : Connections}

theorem Unfolds.refl (h : Follows history connections) :
    Unfolds history [] connections connections :=
  ⟨by simpa using h, fun _ => .of_eq rfl⟩

theorem Unfolds.trans {operations operations' : List Operation} {first second third : Connections}
    (h₁ : Unfolds history operations first second)
    (h₂ : Unfolds (history ++ operations) operations' second third) :
    Unfolds history (operations ++ operations') first third where
  follows := by
    rw [← List.append_assoc]
    exact h₂.follows
  grows session := by
    rw [mail_append]
    exact (h₁.grows session).trans (h₂.grows session)

theorem follows_empty : Follows [] ({} : Connections) where
  mirrored := Index.Mirror.empty
  registered clientId := by simp [registration, sessionOf]
  subscribed clientId channel := by simp [channelsOf, Index.members, PubSub.subscribed]
  known clientId channel := by simp [channelsOf, Index.members]
  alive clientId session := by simp [sessionOf]
  own first second session := by simp [sessionOf]

/-- The registered client of a live session. -/
theorem Follows.session (h : Follows history connections) {clientId : ClientId}
    {client : ClientState} (hclient : connections.clients.lookup clientId = some client) :
    sessionOf history clientId = some client.pubsubSession ∧
      ∃ pending, connections.sessions.lookup client.pubsubSession = some pending := by
  have hregistered : sessionOf history clientId = some client.pubsubSession := by
    rw [← h.registered, registration, hclient]
    rfl
  exact ⟨hregistered, Option.isSome_iff_exists.mp (h.alive clientId _ hregistered)⟩

/-- Neither the queues nor the other accounts of the clients matter. -/
theorem Follows.congr (h : Follows history connections)
    (hclients : ∀ clientId, after.registration clientId = connections.registration clientId)
    (hsubscriptions : after.clientSubscriptions = connections.clientSubscriptions)
    (hsubscribers : after.channelSubscribers = connections.channelSubscribers)
    (hsessions : ∀ session, (connections.sessions.lookup session).isSome →
      (after.sessions.lookup session).isSome) : Follows history after where
  mirrored := by
    unfold Mirrored
    rw [hsubscriptions, hsubscribers]
    exact h.mirrored
  registered clientId := (hclients clientId).trans (h.registered clientId)
  subscribed clientId channel := by
    unfold channelsOf
    rw [hsubscriptions]
    exact h.subscribed clientId channel
  known clientId channel hmem := by
    unfold channelsOf at hmem
    rw [hsubscriptions] at hmem
    exact h.known clientId channel hmem
  alive clientId session hsession := hsessions session (h.alive clientId session hsession)
  own := h.own

/-- An operation that affects neither registrations nor subscriptions. -/
theorem Follows.snoc (h : Follows history connections) {operation : Operation}
    (hregistration : ∀ clientId, operation.registration clientId = none)
    (heffect : ∀ clientId channel, operation.effect clientId channel = none) :
    Follows (history ++ [operation]) connections := by
  have hsession : ∀ clientId, sessionOf (history ++ [operation]) clientId =
      sessionOf history clientId := by
    intro clientId
    rw [sessionOf_snoc, hregistration]
    rfl
  exact {
    mirrored := h.mirrored
    registered := fun clientId => (h.registered clientId).trans (hsession clientId).symm
    subscribed := fun clientId channel => by
      rw [subscribed_snoc, heffect]
      exact h.subscribed clientId channel
    known := fun clientId channel hchannel => hsession clientId ▸ h.known clientId channel hchannel
    alive := fun clientId session hlive => h.alive clientId session (hsession clientId ▸ hlive)
    own := fun first second session hfirst hsecond =>
      h.own first second session (hsession first ▸ hfirst) (hsession second ▸ hsecond) }

/-- A frame is added to a session that is alive. -/
theorem Follows.enqueue (h : Follows history connections) (session : SessionId)
    (pending : List Bytes) :
    Follows history
      { connections with sessions := connections.sessions.insert session pending } := by
  refine h.congr (fun _ => rfl) rfl rfl fun other hother => ?_
  by_cases heq : other = session
  · subst heq
    simp
  · simpa [heq] using hother

end Connections

end RedisServer

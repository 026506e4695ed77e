import OpenStreamGrid.Tracker.SocketMessages
import OpenStreamGrid.Tracker.StoreParts

/-!
# What a socket's messages can do

Whatever text the listener is handed, it is refused and closes its own socket, or it is one of
the typed messages the hub handles for the peer of the socket's session. The
typed hub therefore simulates this one, and a peer cannot reach beyond its own
record, its own subscription and the signals it signs with its own ID.
-/

namespace OpenStreamGrid

theorem bind_eq_ok {ε α β : Type} {x : Except ε α} {f : α → Except ε β} {b : β} :
    x >>= f = .ok b ↔ ∃ a, x = .ok a ∧ f a = .ok b := by
  cases x with
  | error e =>
      refine iff_of_false (fun h => nomatch h) ?_
      rintro ⟨a, h, -⟩
      cases h
  | ok a =>
      constructor
      · exact fun h => ⟨a, rfl, h⟩
      · rintro ⟨a', h, hf⟩
        obtain rfl := Except.ok.inj h
        exact hf

namespace MessageHub

variable {m m' : MessageHub} {s : SocketId} {b : BroadcastId} {p : PeerId}
  {data : Except String JsValue}

/-! ## Reading -/

theorem requiredString_ok {message : JsonObject} {key value : String}
    (h : requiredString message key = .ok value) :
    OpenStreamGrid.requiredString key value = .ok value := by
  unfold requiredString at h
  split at h
  · obtain ⟨rfl, -⟩ := TrackerWebSocketHub.requiredString_ok h
    exact h
  · cases h

/-- The IDs of a message are texts that are not blank. -/
theorem readEnvelope_ok {envelope : Envelope} (h : readEnvelope data = .ok envelope) :
    OpenStreamGrid.requiredString "broadcastId" envelope.broadcastId = .ok envelope.broadcastId ∧
      OpenStreamGrid.requiredString "peerId" envelope.peerId = .ok envelope.peerId := by
  unfold readEnvelope at h
  obtain ⟨value, -, h⟩ := bind_eq_ok.mp h
  split at h
  · obtain ⟨type, -, h⟩ := bind_eq_ok.mp h
    obtain ⟨broadcastId, hb, h⟩ := bind_eq_ok.mp h
    obtain ⟨peerId, hp, h⟩ := bind_eq_ok.mp h
    obtain rfl := Except.ok.inj h
    exact ⟨requiredString_ok hb, requiredString_ok hp⟩
  · cases h

theorem readSignal_ok {type : WebRtcSignalType} {envelope : Envelope}
    {message : WebRtcSignalMessage} (h : readSignal type envelope = .ok message) :
    message.broadcastId = envelope.broadcastId ∧ message.peerId = envelope.peerId := by
  unfold readSignal at h
  obtain ⟨targetPeerId, -, h⟩ := bind_eq_ok.mp h
  obtain ⟨requestId, -, h⟩ := bind_eq_ok.mp h
  obtain ⟨sdp, -, h⟩ := bind_eq_ok.mp h
  obtain rfl := Except.ok.inj h
  exact ⟨rfl, rfl⟩

/-! ## The cases of a message -/

/-- What accepting a message does. -/
inductive Accepts (m : MessageHub) (s : SocketId) (data : Except String JsValue) :
    MessageHub → Prop where
  | subscribed {b : BroadcastId} {p : PeerId} {features : Option (List String)}
      {hub : TrackerWebSocketHub} (hb : OpenStreamGrid.requiredString "broadcastId" b = .ok b)
      (hp : OpenStreamGrid.requiredString "peerId" p = .ok p)
      (hok : m.hub.handleSubscribe s b p features = .ok hub) :
      Accepts m s data { m with hub := hub }
  | relayed {message : WebRtcSignalMessage} (hsignal : signalOf data = some message)
      (hb : OpenStreamGrid.requiredString "broadcastId" message.broadcastId
        = .ok message.broadcastId)
      (hsub : m.isSubscribed s message.broadcastId message.peerId = true) :
      Accepts m s data (m.relayWebRtcSignal s message)
  | reported {b : BroadcastId} {p : PeerId} {admitted : Bool} {t : Timestamp}
      {report : ReportSegmentsMessage} {hub : TrackerWebSocketHub}
      {limiter : InventoryRateLimiter} (hb : OpenStreamGrid.requiredString "broadcastId" b = .ok b)
      (hp : OpenStreamGrid.requiredString "peerId" p = .ok p)
      (hsub : m.isSubscribed s b p = true)
      (hok : m.hub.handleReport s admitted t b p report = .ok hub) :
      Accepts m s data { m with hub := hub, inventoryLimiter := limiter }
  | heartbeat {b : BroadcastId} {p : PeerId} {t : Timestamp} {heartbeat : PeerHeartbeat}
      {store : TrackerStore} {peer : Peer}
      (hb : OpenStreamGrid.requiredString "broadcastId" b = .ok b)
      (hsub : m.isSubscribed s b p = true)
      (hok : m.hub.store.heartbeat t b p heartbeat = .ok (store, peer)) :
      Accepts m s data { m with hub := { m.hub with store := store } }
  | stats {b : BroadcastId} {p : PeerId} {t : Timestamp} {stats : TrafficRecord JsNumber}
      {store : TrackerStore} {peer : Peer}
      (hb : OpenStreamGrid.requiredString "broadcastId" b = .ok b)
      (hsub : m.isSubscribed s b p = true)
      (hok : m.hub.store.reportStats t b p stats = .ok (store, peer)) :
      Accepts m s data { m with hub := { m.hub with store := store } }

/-- A message is refused, which at most charged the limiter, or accepted. -/
inductive MessageCases (m : MessageHub) (s : SocketId) (data : Except String JsValue) :
    Handled → Prop where
  | refused (limiter : InventoryRateLimiter) (reason : String) :
      MessageCases m s data ({ m with inventoryLimiter := limiter }, some reason)
  | accepted {m' : MessageHub} (h : Accepts m s data m') : MessageCases m s data (m', none)

theorem MessageCases.same (m : MessageHub) (s : SocketId) (data : Except String JsValue)
    (reason : String) : MessageCases m s data (m, some reason) :=
  .refused m.inventoryLimiter reason

theorem handleSubscribe_cases (m : MessageHub) (s : SocketId) {envelope : Envelope}
    (hb : OpenStreamGrid.requiredString "broadcastId" envelope.broadcastId
      = .ok envelope.broadcastId)
    (hp : OpenStreamGrid.requiredString "peerId" envelope.peerId = .ok envelope.peerId) :
    MessageCases m s data (m.handleSubscribe s envelope) := by
  unfold handleSubscribe
  dsimp only
  split_ifs
  · exact .same m s data _
  · split
    · exact .same m s data _
    · rename_i features _
      cases hok : m.hub.handleSubscribe s envelope.broadcastId envelope.peerId features with
      | error reason => exact .same m s data reason
      | ok hub => exact .accepted (.subscribed hb hp hok)

theorem handleReport_cases (m : MessageHub) {s : SocketId} (clock : ClockReadings)
    {envelope : Envelope}
    (hb : OpenStreamGrid.requiredString "broadcastId" envelope.broadcastId
      = .ok envelope.broadcastId)
    (hp : OpenStreamGrid.requiredString "peerId" envelope.peerId = .ok envelope.peerId)
    (hsub : m.isSubscribed s envelope.broadcastId envelope.peerId = true) :
    MessageCases m s data (m.handleReport s clock envelope) := by
  unfold handleReport
  cases readReport envelope.parsed with
  | error reason => exact .same m s data reason
  | ok report =>
      dsimp only
      generalize m.inventoryLimiter.consume _ = consumed
      cases hok : m.hub.handleReport s consumed.2 clock.store envelope.broadcastId
        envelope.peerId report with
      | error reason => exact .refused consumed.1 reason
      | ok hub => exact .accepted (.reported hb hp hsub hok)

theorem handleHeartbeat_cases (m : MessageHub) {s : SocketId} (clock : ClockReadings)
    {envelope : Envelope}
    (hb : OpenStreamGrid.requiredString "broadcastId" envelope.broadcastId
      = .ok envelope.broadcastId)
    (hsub : m.isSubscribed s envelope.broadcastId envelope.peerId = true) :
    MessageCases m s data (m.handleHeartbeat clock envelope) := by
  unfold handleHeartbeat
  cases readHeartbeat envelope.parsed with
  | error e => exact .same m s data e.message
  | ok heartbeat =>
      dsimp only
      cases hok : m.hub.store.heartbeat clock.store envelope.broadcastId envelope.peerId
        heartbeat with
      | error e => exact .same m s data e.message
      | ok result => exact .accepted (.heartbeat hb hsub hok)

theorem handleStats_cases (m : MessageHub) {s : SocketId} (clock : ClockReadings)
    {envelope : Envelope}
    (hb : OpenStreamGrid.requiredString "broadcastId" envelope.broadcastId
      = .ok envelope.broadcastId)
    (hsub : m.isSubscribed s envelope.broadcastId envelope.peerId = true) :
    MessageCases m s data (m.handleStats clock envelope) := by
  unfold handleStats
  cases parsePeerTrafficStats (envelope.parsed.get "stats") with
  | error reason => exact .same m s data reason
  | ok stats =>
      dsimp only
      cases hok : m.hub.store.reportStats clock.store envelope.broadcastId envelope.peerId
        stats with
      | error e => exact .same m s data e.message
      | ok result => exact .accepted (.stats hb hsub hok)

/-- **Everything a text can do.** -/
theorem handleMessage_cases (m : MessageHub) (s : SocketId) (clock : ClockReadings)
    (data : Except String JsValue) :
    MessageCases m s data (m.handleMessage s clock data) := by
  unfold handleMessage
  cases henvelope : readEnvelope data with
  | error reason => exact .same m s data reason
  | ok envelope =>
      obtain ⟨hb, hp⟩ := readEnvelope_ok henvelope
      dsimp only
      by_cases hsubscribe : envelope.type = "subscribe"
      · rw [if_pos hsubscribe]
        exact handleSubscribe_cases m s hb hp
      rw [if_neg hsubscribe]
      by_cases hsub : m.isSubscribed s envelope.broadcastId envelope.peerId = false
      · rw [if_pos hsub]
        exact .same m s data _
      rw [if_neg hsub]
      rw [Bool.not_eq_false] at hsub
      cases htype : signalType? envelope.type with
      | some type =>
          dsimp only
          cases hread : readSignal type envelope with
          | error reason => exact .same m s data reason
          | ok message =>
              have hsignal : signalOf data = some message := by
                unfold signalOf
                rw [henvelope]
                dsimp only
                rw [htype, Option.bind_some, hread]
                rfl
              obtain ⟨hbroadcast, hpeer⟩ := readSignal_ok hread
              rw [← hbroadcast] at hb hsub
              rw [← hpeer] at hsub
              exact .accepted (.relayed hsignal hb hsub)
      | none =>
          dsimp only
          split_ifs
          · exact handleHeartbeat_cases m clock hb hsub
          · exact handleReport_cases m clock hb hp hsub
          · exact handleStats_cases m clock hb hsub
          · exact .same m s data _

/-! ## The listener -/

/-- What a message on a socket does: the socket is closed, or the message accepted. -/
inductive ListenerCases (m : MessageHub) (s : SocketId) (data : Except String JsValue) :
    MessageHub → Prop where
  | closed (budgets : OrderedMap SocketId MessageBudget) (limiter : InventoryRateLimiter)
      (code : ℕ) (reason : String) :
      ListenerCases m s data { m with
        hub := m.hub.close s
        messageBudgets := budgets
        inventoryLimiter := limiter
        closeFrames := m.closeFrames ++ [⟨s, code, reason⟩] }
  | accepted {m' : MessageHub} (budgets : OrderedMap SocketId MessageBudget)
      (h : Accepts { m with messageBudgets := budgets } s data m') : ListenerCases m s data m'

theorem consumeMessageBudget_eq (m : MessageHub) (s : SocketId) (now : Timestamp) :
    ∃ budgets, (m.consumeMessageBudget s now).1 = { m with messageBudgets := budgets } := by
  unfold consumeMessageBudget
  cases m.messageBudgets.get? s with
  | none => exact ⟨m.messageBudgets, rfl⟩
  | some budget =>
      dsimp only
      split_ifs
      · exact ⟨_, rfl⟩
      · exact ⟨_, rfl⟩

theorem onMessage_cases (m : MessageHub) (s : SocketId) (isBinary : Bool) (clock : ClockReadings)
    (data : Except String JsValue) :
    ListenerCases m s data (m.onMessage s isBinary clock data) := by
  unfold onMessage
  split_ifs
  · exact .closed m.messageBudgets m.inventoryLimiter _ _
  · obtain ⟨budgets, heq⟩ := m.consumeMessageBudget_eq s clock.budget
    generalize m.consumeMessageBudget s clock.budget = consumed at heq
    obtain ⟨m₁, within⟩ := consumed
    obtain rfl : m₁ = _ := heq
    cases within with
    | false => exact .closed budgets m.inventoryLimiter _ _
    | true =>
        have hcases := handleMessage_cases { m with messageBudgets := budgets } s clock data
        dsimp only
        generalize handleMessage _ s clock data = handled at hcases ⊢
        cases hcases with
        | refused limiter reason => exact .closed budgets limiter _ _
        | accepted h => exact .accepted budgets h

/-! ## The typed hub simulates this one -/

theorem Accepts.hub_step (h : Accepts m s data m') (hs : s ∈ m.hub.subscriptions) :
    m'.hub = m.hub ∨ ∃ e, m.hub.step e = some m'.hub := by
  cases h with
  | @subscribed b p features hub hb hp hok =>
      refine Or.inr ⟨.received s true 0 (.subscribe b p features), ?_⟩
      have hmessage : m.hub.handleMessage s true 0 (.subscribe b p features) = .ok hub := by
        unfold TrackerWebSocketHub.handleMessage SocketMessage.broadcastId SocketMessage.peerId
        dsimp only
        rw [hb, hp]
        exact hok
      unfold TrackerWebSocketHub.step
      dsimp only
      rw [if_pos hs, hmessage]
  | relayed => exact Or.inl rfl
  | @reported b p admitted t report hub limiter hb hp hsub hok =>
      refine Or.inr ⟨.received s admitted t (.reportSegments b p report), ?_⟩
      have hmessage : m.hub.handleMessage s admitted t (.reportSegments b p report) = .ok hub := by
        unfold TrackerWebSocketHub.handleMessage SocketMessage.broadcastId SocketMessage.peerId
        dsimp only
        rw [hb, hp]
        exact hok
      unfold TrackerWebSocketHub.step
      dsimp only
      rw [if_pos hs, hmessage]
  | @heartbeat b p t heartbeat store peer hb hsub hok =>
      refine Or.inr ⟨.heartbeat t b p heartbeat, ?_⟩
      unfold TrackerWebSocketHub.step TrackerWebSocketHub.withStore
      dsimp only
      rw [hok]
  | @stats b p t stats store peer hb hsub hok =>
      refine Or.inr ⟨.reportStats t b p stats, ?_⟩
      unfold TrackerWebSocketHub.step TrackerWebSocketHub.withStore
      dsimp only
      rw [hok]

/-- **A step leaves the typed hub alone or is one of its steps.** -/
theorem step_hub (hsteady : m.hub.Steady) {e : MessageHubEvent} (hstep : m.step e = some m') :
    m'.hub = m.hub ∨ ∃ e', m.hub.step e' = some m'.hub := by
  cases e with
  | hub e =>
      unfold step at hstep
      dsimp only at hstep
      split_ifs at hstep
      obtain ⟨hub, hhub, rfl⟩ := Option.map_eq_some_iff.mp hstep
      exact Or.inr ⟨e, hhub⟩
  | connected s claims now =>
      obtain ⟨hub, hhub, rfl⟩ := Option.map_eq_some_iff.mp hstep
      exact Or.inr ⟨_, hhub⟩
  | message s isBinary clock data =>
      unfold step at hstep
      dsimp only at hstep
      split_ifs at hstep with hs
      obtain rfl := Option.some.inj hstep
      have hcases := m.onMessage_cases s isBinary clock data
      generalize m.onMessage s isBinary clock data = m' at hcases
      cases hcases with
      | closed =>
          refine Or.inr ⟨.closing s, ?_⟩
          unfold TrackerWebSocketHub.step
          exact if_pos (hsteady.indexed.connected s hs)
      | accepted budgets h => exact h.hub_step hs
  | closed s =>
      obtain ⟨hub, hhub, rfl⟩ := Option.map_eq_some_iff.mp hstep
      exact Or.inr ⟨_, hhub⟩

/-- Whatever texts arrive, the hub is in a state that typed messages reach. -/
theorem hub_reachable (hr : system.Reachable (fun _ _ => True) m) :
    TrackerWebSocketHub.system.Reachable (fun _ _ => True) m.hub := by
  refine hr.invariant
    (fun m => TrackerWebSocketHub.system.Reachable (fun _ _ => True) m.hub) ?_ ?_
  · rintro m ⟨perTurn, size, random, store, rates, rfl, hkeyed⟩
    exact .init ⟨perTurn, size, random, store, rfl, hkeyed⟩
  · intro m e m' hh _ hstep
    rcases step_hub (TrackerWebSocketHub.steady_placed hh).1 hstep with hsame | ⟨e', hhub⟩
    · exact hsame ▸ hh
    · exact .step hh trivial hhub

/-- **Every run over texts is a run over typed messages**, of no more steps. -/
theorem texts_refine_messages {es : List MessageHubEvent}
    (hr : system.Reachable (fun _ _ => True) m) (hrun : system.run m es = some m') :
    ∃ es' : List HubEvent, es'.length ≤ es.length ∧
      TrackerWebSocketHub.system.run m.hub es' = some m'.hub := by
  induction es generalizing m with
  | nil =>
      obtain rfl := Option.some.inj hrun
      exact ⟨[], le_rfl, rfl⟩
  | cons e es ih =>
      obtain ⟨m₁, hstep, hrest⟩ := (TransitionSystem.run_cons_eq_some system).mp hrun
      obtain ⟨es', hlength, hrun'⟩ := ih (.step hr trivial hstep) hrest
      rcases step_hub (TrackerWebSocketHub.steady_placed (hub_reachable hr)).1 hstep with
        hsame | ⟨e', hhub⟩
      · exact ⟨es', Nat.le_succ_of_le hlength, hsame ▸ hrun'⟩
      · exact ⟨e' :: es', Nat.succ_le_succ hlength,
          (TransitionSystem.run_cons_eq_some _).mpr ⟨m₁.hub, hhub, hrun'⟩⟩

/-- A socket's session never changes. -/
theorem session_step (hr : system.Reachable (fun _ _ => True) m) {e : MessageHubEvent}
    (hstep : m.step e = some m') {claims : PeerSessionClaims}
    (hs : m.hub.claimsOf s = some claims) : m'.hub.claimsOf s = some claims := by
  have hsteady := (TrackerWebSocketHub.steady_placed (hub_reachable hr)).1
  rcases step_hub hsteady hstep with hsame | ⟨e', hhub⟩
  · rw [hsame]
    exact hs
  · exact TrackerWebSocketHub.claimsOf_step hsteady hhub hs

/-! ## What a message changes -/

/-- A subscribed socket acts as the peer of its session. -/
theorem session_of_isSubscribed (ha : m.hub.Authenticated)
    (hb : OpenStreamGrid.requiredString "broadcastId" b = .ok b)
    (hsub : m.isSubscribed s b p = true) : m.hub.claimsOf s = some ⟨b, p⟩ := by
  unfold isSubscribed at hsub
  cases hget : m.hub.subscriptions.get? s with
  | none =>
      rw [hget] at hsub
      cases hsub
  | some sub =>
      rw [hget, Option.any_some, decide_eq_true_eq] at hsub
      obtain ⟨rfl, rfl⟩ := hsub
      refine (ha s sub hget).resolve_left ?_
      rintro rfl
      exact (TrackerWebSocketHub.requiredString_ok hb).2 rfl

/-! ### The store -/

/-- One record of a broadcast at most is not as before. -/
structure OneRecord (b : BroadcastId) (p : PeerId) (store store' : TrackerStore) : Prop where
  records : ∀ b' p', ¬(b' = b ∧ p' = p) → store'.peerState? b' p' = store.peerState? b' p'
  stored : ∀ b' p', (store'.peerState? b' p').isSome = (store.peerState? b' p').isSome
  broadcasts : ∀ b', b' ≠ b → TrackerStore.SameOf b' store' store

theorem OneRecord.refl (b : BroadcastId) (p : PeerId) (store : TrackerStore) :
    OneRecord b p store store :=
  ⟨fun _ _ _ => rfl, fun _ _ => rfl, fun b' _ => .refl b' store⟩

theorem oneRecord_modifyPeer {store store' : TrackerStore} {f : PeerState → PeerState}
    {peer : Peer} (hok : store.modifyPeer b p f = .ok (store', peer)) :
    OneRecord b p store store' := by
  obtain ⟨state, old, hs, hp, rfl, -⟩ := TrackerStore.modifyPeer_ok.mp hok
  have hget := TrackerStore.peerState?_setPeer hs p (f old)
  refine ⟨fun b' p' hne => ?_, fun b' p' => ?_, fun b' hne => .setPeer_apart hne store state p _⟩
  · rw [hget, if_neg hne]
  · rw [hget]
    split_ifs with hbp
    · rw [hbp.1, hbp.2, TrackerStore.peerState?_eq_some.mpr ⟨state, hs, hp⟩]
      rfl
    · rfl

theorem oneRecord_handleReportSegments {store store' : TrackerStore} {admitted : Bool}
    {t : Timestamp} {report : ReportSegmentsMessage} {published : Option InventoryMessage}
    (hok : TrackerWebSocketHub.handleReportSegments store admitted t b p report
      = .ok (store', published)) : OneRecord b p store store' := by
  obtain rfl := TrackerWebSocketHub.handleReportSegments_admitted hok
  unfold TrackerWebSocketHub.handleReportSegments at hok
  simp only [Bool.true_eq_false, if_false] at hok
  split_ifs at hok
  · split at hok
    · cases hok
    · cases hok
    · split at hok
      · cases hok
      · rename_i hresult
        obtain ⟨rfl, -⟩ := Prod.mk.inj (Except.ok.inj hok)
        exact oneRecord_modifyPeer hresult
  · split at hok
    · cases hok
    · split_ifs at hok
      · obtain ⟨rfl, -⟩ := Prod.mk.inj (Except.ok.inj hok)
        exact .refl b p _
      · split at hok
        · cases hok
        · rename_i hresult
          obtain ⟨rfl, -⟩ := Prod.mk.inj (Except.ok.inj hok)
          exact oneRecord_modifyPeer hresult

theorem oneRecord_handleReport {h h' : TrackerWebSocketHub} {admitted : Bool} {t : Timestamp}
    {report : ReportSegmentsMessage} (hok : h.handleReport s admitted t b p report = .ok h') :
    OneRecord b p h.store h'.store := by
  unfold TrackerWebSocketHub.handleReport at hok
  dsimp only at hok
  split_ifs at hok
  cases hresult : TrackerWebSocketHub.handleReportSegments h.store admitted t b p report with
  | error reason =>
      rw [hresult] at hok
      cases hok
  | ok result =>
      have hrecord := oneRecord_handleReportSegments hresult
      obtain ⟨store, published⟩ := result
      rw [hresult] at hok
      cases published with
      | none =>
          obtain rfl := Except.ok.inj hok
          exact hrecord
      | some message =>
          obtain rfl := Except.ok.inj hok
          rw [(TrackerWebSocketHub.publishInventory_untouched _ message).store]
          exact hrecord

/-! ### Sockets and subscriptions -/

theorem statusOf_publishInventory (h : TrackerWebSocketHub) (message : InventoryMessage)
    (x : SocketId) : (h.publishInventory message).statusOf x = h.statusOf x ∧
      (h.publishInventory message).subscriptions = h.subscriptions := by
  unfold TrackerWebSocketHub.publishInventory TrackerWebSocketHub.queueInventory
  split
  · exact ⟨rfl, rfl⟩
  · dsimp only
    split_ifs
    · exact ⟨TrackerWebSocketHub.statusOf_deliver h _ x, rfl⟩
    · exact ⟨TrackerWebSocketHub.statusOf_deliver h _ x, rfl⟩

theorem statusOf_handleReport {h h' : TrackerWebSocketHub} {admitted : Bool} {t : Timestamp}
    {report : ReportSegmentsMessage} (hok : h.handleReport s admitted t b p report = .ok h')
    (x : SocketId) : h'.statusOf x = h.statusOf x ∧ h'.subscriptions = h.subscriptions := by
  rcases TrackerWebSocketHub.handleReport_ok hok with rfl | ⟨old, m, store, -, -, -, -, -, rfl⟩
  · exact ⟨rfl, rfl⟩
  · exact statusOf_publishInventory { h with store := store } m x

theorem statusOf_close_of_ne (h : TrackerWebSocketHub) {x : SocketId} (hx : x ≠ s) :
    (h.close s).statusOf x = h.statusOf x := by
  unfold TrackerWebSocketHub.statusOf
  rw [TrackerWebSocketHub.get?_sockets_close_of_ne hx]

/-- A signal reaches the peer it is for. -/
theorem claimsOf_recipient (hplaced : m.hub.Placed) (ha : m.hub.Authenticated)
    {message : WebRtcSignalMessage} (hs : s ∈ m.recipients message) :
    m.hub.claimsOf s = some ⟨message.broadcastId, message.targetPeerId⟩ := by
  obtain ⟨hmem, hcond⟩ := List.mem_filter.mp hs
  exact TrackerWebSocketHub.claimsOf_subscriber hplaced ha hmem (of_decide_eq_true hcond).1

/-! ### The theorem -/

/-- Nothing but what the peer of the session may change. -/
structure Confined (claims : PeerSessionClaims) (s : SocketId) (m m' : MessageHub) : Prop where
  store : OneRecord claims.broadcastId claims.peerId m.hub.store m'.hub.store
  sockets : ∀ x, x ≠ s → m'.hub.statusOf x = m.hub.statusOf x ∧
    m'.hub.subscriptions.get? x = m.hub.subscriptions.get? x
  /-- A signal names its sender, and reaches nobody but the peer it is for. -/
  signals : (m'.accepted = m.accepted ∧ m'.signals = m.signals) ∨
    ∃ message, message.broadcastId = claims.broadcastId ∧ message.peerId = claims.peerId ∧
      m'.accepted = m.accepted ++ [(s, message)] ∧
      ∀ x, m'.signals x = m.signals x ∨ m'.signals x = m.signals x ++ [message] ∧
        m.hub.claimsOf x = some ⟨claims.broadcastId, message.targetPeerId⟩
  /-- A socket that is told why it is closed has done nothing. -/
  refused : m'.closeFrames ≠ m.closeFrames →
    m'.hub = m.hub.close s ∧ m'.accepted = m.accepted ∧ m'.signals = m.signals

variable {claims : PeerSessionClaims}

theorem Accepts.confined (h : Accepts m s data m') (hplaced : m.hub.Placed) (ha : m.hub.Authenticated)
    (hclaims : m.hub.claimsOf s = some claims) : Confined claims s m m' := by
  have hsame : ∀ {b p}, m.hub.claimsOf s = some ⟨b, p⟩ → claims = ⟨b, p⟩ := fun hfound =>
    Option.some.inj (hclaims.symm.trans hfound)
  cases h with
  | @subscribed b p features hub hb hp hok =>
      have hsub := TrackerWebSocketHub.handleSubscribe_subscribes hok
      obtain ⟨sub, -, -, hsubscriptions⟩ := hsub.subscribed
      refine ⟨?_, fun x hx => ⟨hsub.sockets x, ?_⟩, Or.inl ⟨rfl, rfl⟩, fun hne => absurd rfl hne⟩
      · show OneRecord _ _ m.hub.store hub.store
        rw [hsub.store]
        exact .refl _ _ _
      · show hub.subscriptions.get? x = _
        rw [hsubscriptions, OrderedMap.get?_set, if_neg hx]
  | @relayed message _ hb hsub =>
      obtain rfl := hsame (session_of_isSubscribed ha hb hsub)
      refine ⟨.refl _ _ _, fun _ _ => ⟨rfl, rfl⟩, Or.inr ⟨message, rfl, rfl, rfl, fun x => ?_⟩,
        fun hne => absurd rfl hne⟩
      unfold relayWebRtcSignal
      dsimp only
      split_ifs with hx
      · exact Or.inr ⟨rfl, claimsOf_recipient hplaced ha hx⟩
      · exact Or.inl rfl
  | @reported b p admitted t report hub limiter hb hp hsub hok =>
      obtain rfl := hsame (session_of_isSubscribed ha hb hsub)
      refine ⟨oneRecord_handleReport hok, fun x _ => ?_, Or.inl ⟨rfl, rfl⟩,
        fun hne => absurd rfl hne⟩
      obtain ⟨hstatus, hsubscriptions⟩ := statusOf_handleReport hok x
      exact ⟨hstatus, congrArg (OrderedMap.get? · x) hsubscriptions⟩
  | @heartbeat b p t heartbeat store peer hb hsub hok =>
      obtain rfl := hsame (session_of_isSubscribed ha hb hsub)
      exact ⟨oneRecord_modifyPeer hok, fun _ _ => ⟨rfl, rfl⟩, Or.inl ⟨rfl, rfl⟩,
        fun hne => absurd rfl hne⟩
  | @stats b p t stats store peer hb hsub hok =>
      obtain rfl := hsame (session_of_isSubscribed ha hb hsub)
      exact ⟨oneRecord_modifyPeer hok, fun _ _ => ⟨rfl, rfl⟩, Or.inl ⟨rfl, rfl⟩,
        fun hne => absurd rfl hne⟩

/-- **A message does at most what the peer of its socket's session may do**, whatever its text is,
if it is within the payload limit, and in every state the tracker reaches. -/
theorem message_confined (hr : system.Reachable (fun _ _ => True) m)
    (hclaims : m.hub.claimsOf s = some claims) {isBinary : Bool} {clock : ClockReadings}
    (hstep : m.step (.message s isBinary clock data) = some m') :
    Confined claims s m m' := by
  have hhub := hub_reachable hr
  have hplaced := (TrackerWebSocketHub.steady_placed hhub).2
  have ha := TrackerWebSocketHub.authenticated_of_reachable hhub
  unfold step at hstep
  dsimp only at hstep
  split_ifs at hstep
  obtain rfl := Option.some.inj hstep
  have hcases := m.onMessage_cases s isBinary clock data
  generalize m.onMessage s isBinary clock data = m' at hcases
  cases hcases with
  | closed budgets limiter code reason =>
      refine ⟨.refl _ _ _, fun x hx => ⟨statusOf_close_of_ne m.hub hx, rfl⟩, Or.inl ⟨rfl, rfl⟩,
        fun _ => ⟨rfl, rfl, rfl⟩⟩
  | accepted budgets h =>
      have hconfined := h.confined hplaced ha hclaims
      exact ⟨hconfined.store, hconfined.sockets, hconfined.signals, hconfined.refused⟩

/-! ## Running a small tracker -/

def start : MessageHub :=
  .new 1 4 (NeighborViews.always ⟨0, TrackerWebSocketHub.zero_isDraw⟩) (.new 10)
    ⟨100, 10, by norm_num, by norm_num⟩

theorem init_start : system.init start :=
  ⟨1, 4, _, .new 10, _, rfl, fun _ _ _ hpeer => nomatch hpeer⟩

def endOf (events : List MessageHubEvent) : MessageHub := (system.run start events).getD start

theorem reachable_endOf {events : List MessageHubEvent}
    (hrun : (system.run start events).isSome = true) :
    system.Reachable (fun _ _ => True) (endOf events) := by
  obtain ⟨m, hm⟩ := Option.isSome_iff_exists.mp hrun
  rw [endOf, hm, Option.getD_some]
  exact TransitionSystem.reachable_of_run init_start hm

def textLive (s : SocketId) (now : Timestamp) (type : String) (p : PeerId)
    (fields : List (String × JsValue)) : MessageHubEvent :=
  .message s false ⟨now, now, now⟩ (.ok (.record
    ([("type", .string type), ("broadcastId", .string "live"), ("peerId", .string p)] ++ fields)))

/-- Two peers join, and both subscribe. -/
def bothSubscribed : List MessageHubEvent :=
  [.hub (.registerBroadcast 0 ⟨"live", "https://origin/live.m3u8", none⟩),
    .hub (TrackerWebSocketHub.joinLive "p"), .hub (TrackerWebSocketHub.joinLive "q"),
    .connected 0 ⟨"live", "p"⟩ 0, .connected 1 ⟨"live", "q"⟩ 0,
    textLive 0 0 "subscribe" "p" [], textLive 1 0 "subscribe" "q" []]

def offerLive : MessageHubEvent :=
  textLive 0 0 "webrtc_offer" "p"
    [("targetPeerId", .string "q"), ("requestId", .string "r"), ("sdp", .string "offer")]

def afterOffer : MessageHub := ((endOf bothSubscribed).step offerLive).getD start

theorem offer_confined :
    Confined ⟨"live", "p"⟩ 0 (endOf bothSubscribed) afterOffer ∧
      afterOffer.signals 1 = [⟨.webrtcOffer, "live", "p", "q", "r", "offer"⟩] := by
  have hstep : (endOf bothSubscribed).step offerLive = some afterOffer := by
    obtain ⟨m, hm⟩ : ∃ m, (endOf bothSubscribed).step offerLive = some m :=
      Option.isSome_iff_exists.mp (by decide +kernel)
    rw [afterOffer, hm, Option.getD_some]
  exact ⟨message_confined (reachable_endOf (by decide +kernel)) (by decide +kernel) hstep,
    by decide +kernel⟩

theorem bothSubscribed_refines : ∃ es' : List HubEvent, es'.length ≤ 7 ∧
    TrackerWebSocketHub.system.run start.hub es' = some (endOf bothSubscribed).hub := by
  obtain ⟨m, hm⟩ : ∃ m, system.run start bothSubscribed = some m :=
    Option.isSome_iff_exists.mp (by decide +kernel)
  rw [endOf, hm, Option.getD_some]
  exact texts_refine_messages (.init init_start) hm

end MessageHub

end OpenStreamGrid

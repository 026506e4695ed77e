import OpenStreamGrid.Tracker.SocketConfinement

/-!
# The signals of a tracker

What a socket is sent of a signalling exchange was accepted from the socket of
the peer it names, over every run.
-/

namespace OpenStreamGrid

namespace MessageHub

variable {m m' : MessageHub} {s : SocketId} {message : WebRtcSignalMessage}
  {e : MessageHubEvent} {claims : PeerSessionClaims}

/-! ## Round trip -/

theorem requiredString_string {parsed : JsonObject} {key read : String} (value : String)
    (hget : parsed.get key = .string value) (h : requiredString parsed key = .ok read) :
    read = value := by
  unfold requiredString at h
  rw [hget] at h
  exact (TrackerWebSocketHub.requiredString_ok h).1

theorem signalType?_text (type : WebRtcSignalType) : signalType? type.text = some type := by
  cases type <;> rfl

/-- The tracker takes the text of a signal for that signal, if for any. -/
theorem signalOf_toJs {read : WebRtcSignalMessage} (h : signalOf (.ok message.toJs) = some read) :
    read = message := by
  unfold signalOf at h
  cases henvelope : readEnvelope (.ok message.toJs) with
  | error reason =>
      rw [henvelope] at h
      cases h
  | ok envelope =>
      rw [henvelope] at h
      obtain ⟨type, htype, hread⟩ := Option.bind_eq_some_iff.mp h
      unfold readEnvelope at henvelope
      obtain ⟨value, hvalue, henvelope⟩ := bind_eq_ok.mp henvelope
      obtain rfl := Except.ok.inj hvalue
      obtain ⟨typeText, htypeText, henvelope⟩ := bind_eq_ok.mp henvelope
      obtain ⟨broadcastId, hbroadcast, henvelope⟩ := bind_eq_ok.mp henvelope
      obtain ⟨peerId, hpeer, henvelope⟩ := bind_eq_ok.mp henvelope
      obtain rfl := Except.ok.inj henvelope
      obtain rfl := requiredString_string message.type.text rfl htypeText
      obtain rfl := requiredString_string message.broadcastId rfl hbroadcast
      obtain rfl := requiredString_string message.peerId rfl hpeer
      rw [signalType?_text, Option.some.injEq] at htype
      subst htype
      cases hok : readSignal message.type
          ⟨_, message.type.text, message.broadcastId, message.peerId⟩ with
      | error reason =>
          rw [hok] at hread
          cases hread
      | ok found =>
          rw [hok] at hread
          obtain rfl := Option.some.inj hread
          unfold readSignal at hok
          obtain ⟨target, htarget, hok⟩ := bind_eq_ok.mp hok
          obtain ⟨requestId, hrequest, hok⟩ := bind_eq_ok.mp hok
          obtain ⟨sdp, hsdp, hok⟩ := bind_eq_ok.mp hok
          obtain rfl := requiredString_string message.targetPeerId rfl htarget
          obtain rfl := requiredString_string message.requestId rfl hrequest
          obtain rfl := requiredString_string message.sdp rfl hsdp
          exact (Except.ok.inj hok).symm

/-! ## One step -/

/-- What an event does to the signals of a tracker. -/
inductive SignalStep (m m' : MessageHub) (e : MessageHubEvent) : Prop where
  | none (haccepted : m'.accepted = m.accepted) (hsignals : m'.signals = m.signals)
  | relayed {s : SocketId} {isBinary : Bool} {clock : ClockReadings}
      {data : Except String JsValue} {message : WebRtcSignalMessage}
      (hevent : e = .message s isBinary clock data) (hsignal : signalOf data = some message)
      (hsender : m.hub.claimsOf s = some ⟨message.broadcastId, message.peerId⟩)
      (haccepted : m'.accepted = m.accepted ++ [(s, message)])
      (hsignals : ∀ x, m'.signals x = m.signals x ∨ m'.signals x = m.signals x ++ [message] ∧
        m.hub.claimsOf x = some ⟨message.broadcastId, message.targetPeerId⟩)

theorem Accepts.signalStep {data : Except String JsValue} (h : Accepts m s data m')
    (isBinary : Bool) (clock : ClockReadings) (hplaced : m.hub.Placed) (ha : m.hub.Authenticated) :
    SignalStep m m' (.message s isBinary clock data) := by
  cases h with
  | subscribed | reported | heartbeat | stats => exact .none rfl rfl
  | @relayed message hsignal hb hsub =>
      refine .relayed rfl hsignal (session_of_isSubscribed ha hb hsub) rfl fun x => ?_
      unfold relayWebRtcSignal
      dsimp only
      split_ifs with hx
      · exact Or.inr ⟨rfl, claimsOf_recipient hplaced ha hx⟩
      · exact Or.inl rfl

theorem signalStep (hr : system.Reachable (fun _ _ => True) m) (hstep : m.step e = some m') :
    SignalStep m m' e := by
  cases e with
  | hub e =>
      unfold step at hstep
      dsimp only at hstep
      split_ifs at hstep
      obtain ⟨hub, -, rfl⟩ := Option.map_eq_some_iff.mp hstep
      exact .none rfl rfl
  | connected x claims now =>
      obtain ⟨hub, -, rfl⟩ := Option.map_eq_some_iff.mp hstep
      exact .none rfl rfl
  | message x isBinary clock data =>
      unfold step at hstep
      dsimp only at hstep
      split_ifs at hstep
      obtain rfl := Option.some.inj hstep
      have hcases := m.onMessage_cases x isBinary clock data
      generalize m.onMessage x isBinary clock data = m' at hcases
      cases hcases with
      | closed => exact .none rfl rfl
      | accepted budgets h =>
          have hhub := hub_reachable hr
          have hsignal := h.signalStep isBinary clock
            (TrackerWebSocketHub.steady_placed hhub).2
            (TrackerWebSocketHub.authenticated_of_reachable hhub)
          cases hsignal with
          | none haccepted hsignals => exact .none haccepted hsignals
          | relayed hevent hsignal hsender haccepted hsignals =>
              exact .relayed hevent hsignal hsender haccepted hsignals
  | closed x =>
      obtain ⟨hub, -, rfl⟩ := Option.map_eq_some_iff.mp hstep
      exact .none rfl rfl

/-! ## Runs -/

/-- The tracker has accepted the signal from one of its peer's sockets. -/
def Accepted (m : MessageHub) (message : WebRtcSignalMessage) : Prop :=
  ∃ s, (s, message) ∈ m.accepted ∧
    m.hub.claimsOf s = some ⟨message.broadcastId, message.peerId⟩

/-- Signals come from the peers they name, and go to the peers they are for. -/
structure Relays (m : MessageHub) : Prop where
  senders : ∀ s message, (s, message) ∈ m.accepted →
    m.hub.claimsOf s = some ⟨message.broadcastId, message.peerId⟩
  recipients : ∀ s, ∀ message ∈ m.signals s, m.Accepted message ∧
    m.hub.claimsOf s = some ⟨message.broadcastId, message.targetPeerId⟩

theorem accepted_step (hr : system.Reachable (fun _ _ => True) m) (hstep : m.step e = some m')
    (h : m.Accepted message) : m'.Accepted message := by
  obtain ⟨s, hs, hclaims⟩ := h
  refine ⟨s, ?_, session_step hr hstep hclaims⟩
  cases signalStep hr hstep with
  | none haccepted => exact haccepted ▸ hs
  | relayed _ _ _ haccepted _ =>
      rw [haccepted]
      exact List.mem_append_left _ hs

theorem Relays.step (h : m.Relays) (hr : system.Reachable (fun _ _ => True) m)
    (hstep : m.step e = some m') : m'.Relays := by
  cases signalStep hr hstep with
  | none haccepted hsignals =>
      refine ⟨fun s message hmem => ?_, fun s message hmem => ?_⟩
      · rw [haccepted] at hmem
        exact session_step hr hstep (h.senders s message hmem)
      · rw [hsignals] at hmem
        obtain ⟨hfrom, hto⟩ := h.recipients s message hmem
        exact ⟨accepted_step hr hstep hfrom, session_step hr hstep hto⟩
  | @relayed x _ _ _ signal _ _ hsender haccepted hsignals =>
      have hnow : m'.Accepted signal := by
        refine ⟨x, ?_, session_step hr hstep hsender⟩
        rw [haccepted]
        exact List.mem_append_right _ (List.mem_singleton_self _)
      refine ⟨fun s message hmem => ?_, fun s message hmem => ?_⟩
      · rw [haccepted] at hmem
        rcases List.mem_append.mp hmem with hmem | hmem
        · exact session_step hr hstep (h.senders s message hmem)
        · obtain ⟨rfl, rfl⟩ := Prod.mk.inj (List.mem_singleton.mp hmem)
          exact session_step hr hstep hsender
      · have hold : message ∈ m.signals s → m'.Accepted message ∧
            m'.hub.claimsOf s = some ⟨message.broadcastId, message.targetPeerId⟩ := by
          intro hmem
          obtain ⟨hfrom, hto⟩ := h.recipients s message hmem
          exact ⟨accepted_step hr hstep hfrom, session_step hr hstep hto⟩
        rcases hsignals s with hsame | ⟨happend, hto⟩
        · exact hold (hsame ▸ hmem)
        · rw [happend] at hmem
          rcases List.mem_append.mp hmem with hmem | hmem
          · exact hold hmem
          · obtain rfl := List.mem_singleton.mp hmem
            exact ⟨hnow, session_step hr hstep hto⟩

theorem relays_of_reachable (hr : system.Reachable (fun _ _ => True) m) : m.Relays := by
  induction hr with
  | init h0 =>
      obtain ⟨perTurn, size, random, store, rates, rfl, -⟩ := h0
      exact ⟨fun _ _ h => absurd h List.not_mem_nil, fun _ _ h => absurd h List.not_mem_nil⟩
  | step hr _ hstep ih => exact ih.step hr hstep

end MessageHub

end OpenStreamGrid

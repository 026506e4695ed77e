import OpenStreamGrid.Client.SignalingEndpoint
import OpenStreamGrid.Tracker.SignalRelay

/-!
# WebRTC signalling between peers

Any number of peers that follow the protocol, a tracker, and whoever else holds
a session with it. The peers' signals travel to the tracker in order on each
socket and may arrive late or never; everything interleaves with everything
else. What others send is not restricted, except that nobody but a peer itself
signals with its session.
-/

namespace OpenStreamGrid

structure SignalingNetwork where
  tracker : MessageHub
  /-- The peers that follow the protocol. -/
  endpoints : OrderedMap PeerSessionClaims SignalingEndpoint
  /-- Signals on their way to the tracker, by socket. -/
  inFlight : SocketId → List WebRtcSignalMessage
  /-- How many signals of each socket have been read. -/
  reads : SocketId → ℕ

inductive SignalingEvent where
  /-- Anything at the tracker that is not a signal from one of the endpoints. -/
  | tracker (event : MessageHubEvent)
  /-- The next signal of a socket arrives at the tracker. -/
  | delivered (socket : SocketId) (clock : ClockReadings)
  | endpoint (claims : PeerSessionClaims) (event : EndpointEvent)
  /-- An endpoint reads the next signal on its socket. -/
  | received (claims : PeerSessionClaims) (slotFree : Bool)

namespace SignalingNetwork

/-- Whether an event is a signal that only an endpoint could send. -/
def forges (n : SignalingNetwork) : MessageHubEvent → Bool
  | .message socket _ _ data =>
      (n.tracker.hub.claimsOf socket).any (fun claims => decide (claims ∈ n.endpoints)) &&
        (MessageHub.signalOf data).isSome
  | _ => false

/-- What the tracker has to do with an endpoint's event: a socket is a new one, and
opens when its session is established. -/
def permits (n : SignalingNetwork) (claims : PeerSessionClaims) (endpoint : SignalingEndpoint) :
    EndpointEvent → Bool
  | .connecting socket => (n.tracker.hub.claimsOf socket).isNone
  | .opened => endpoint.signalSocket.any fun socket =>
      n.tracker.hub.claimsOf socket = some claims
  | _ => true

/-- A signal is put on its way. -/
def write (n : SignalingNetwork) (out : Option (SocketId × WebRtcSignalMessage)) :
    SignalingNetwork :=
  match out with
  | none => n
  | some (socket, message) =>
      { n with
        inFlight := fun s => if s = socket then n.inFlight s ++ [message] else n.inFlight s }

def step (n : SignalingNetwork) : SignalingEvent → Option SignalingNetwork
  | .tracker event =>
      if n.forges event then none
      else (n.tracker.step event).map fun tracker => { n with tracker := tracker }
  | .delivered socket clock =>
      match n.inFlight socket with
      | [] => none
      | message :: rest =>
          (n.tracker.step (.message socket false clock (.ok message.toJs))).map fun tracker =>
            { n with
              tracker := tracker
              inFlight := fun s => if s = socket then rest else n.inFlight s }
  | .endpoint claims event =>
      match n.endpoints.get? claims with
      | none => none
      | some endpoint =>
          if n.permits claims endpoint event then
            (endpoint.step event).map fun (after, out) =>
              { n with endpoints := n.endpoints.set claims after }.write out
          else none
  | .received claims slotFree =>
      match n.endpoints.get? claims with
      | none => none
      | some endpoint =>
          endpoint.signalSocket.bind fun socket =>
            ((n.tracker.signals socket)[n.reads socket]?).map fun message =>
              { n with
                endpoints := n.endpoints.set claims (endpoint.receive message.toJs slotFree)
                reads := fun s => if s = socket then n.reads s + 1 else n.reads s }

/-- A tracker that starts, and endpoints that do. -/
def system : TransitionSystem SignalingNetwork SignalingEvent where
  init n := MessageHub.system.init n.tracker ∧
    (∀ claims endpoint, n.endpoints.get? claims = some endpoint →
      ∃ side, endpoint = .new side claims) ∧
    n.inFlight = (fun _ => []) ∧ n.reads = fun _ => 0
  step := step

/-! ## The invariant -/

variable {n n' : SignalingNetwork} {claims : PeerSessionClaims} {endpoint : SignalingEndpoint}
  {message : WebRtcSignalMessage} {s : SocketId}

/-- The endpoint that a signal names has made it. -/
def Genuine (n : SignalingNetwork) (message : WebRtcSignalMessage) : Prop :=
  ∀ endpoint, n.endpoints.get? ⟨message.broadcastId, message.peerId⟩ = some endpoint →
    endpoint.Wrote message

structure Sound (n : SignalingNetwork) : Prop where
  tracker : MessageHub.system.Reachable (fun _ _ => True) n.tracker
  endpoints : ∀ claims endpoint, n.endpoints.get? claims = some endpoint →
    endpoint.claims = claims ∧ endpoint.Sound n.tracker.Accepted
  accepted : ∀ s message, (s, message) ∈ n.tracker.accepted → n.Genuine message
  inFlight : ∀ s, ∀ message ∈ n.inFlight s, n.Genuine message

theorem sound_init (h : system.init n) : n.Sound := by
  obtain ⟨htracker, hendpoints, hinFlight, -⟩ := h
  refine ⟨.init htracker, fun claims endpoint hget => ?_, fun s message hmem => ?_,
    fun s message hmem => ?_⟩
  · obtain ⟨side, rfl⟩ := hendpoints claims endpoint hget
    exact ⟨rfl, SignalingEndpoint.sound_new side claims⟩
  · obtain ⟨perTurn, size, random, store, rates, heq, -⟩ := htracker
    rw [heq] at hmem
    exact absurd hmem List.not_mem_nil
  · rw [hinFlight] at hmem
    exact absurd hmem List.not_mem_nil

/-- The tracker moves on. What it accepts now was sent by the endpoint it names. -/
theorem Sound.withTracker (h : n.Sound) {tracker : MessageHub} {e : MessageHubEvent}
    {inFlight : SocketId → List WebRtcSignalMessage} (hstep : n.tracker.step e = some tracker)
    (hgenuine : ∀ s isBinary clock data message, e = .message s isBinary clock data →
      MessageHub.signalOf data = some message →
      n.tracker.hub.claimsOf s = some ⟨message.broadcastId, message.peerId⟩ → n.Genuine message)
    (hinFlight : ∀ s, inFlight s ⊆ n.inFlight s) :
    Sound { n with tracker := tracker, inFlight := inFlight } := by
  refine ⟨.step h.tracker trivial hstep, fun claims endpoint hget => ?_, fun s message hmem => ?_,
    fun s message hmem => h.inFlight s message (hinFlight s hmem)⟩
  · obtain ⟨hclaims, hsound⟩ := h.endpoints claims endpoint hget
    exact ⟨hclaims, hsound.mono fun message => MessageHub.accepted_step h.tracker hstep⟩
  · cases MessageHub.signalStep h.tracker hstep with
    | none haccepted _ => exact h.accepted s message (haccepted ▸ hmem)
    | relayed hevent hsignal hsender haccepted _ =>
        rw [haccepted] at hmem
        rcases List.mem_append.mp hmem with hmem | hmem
        · exact h.accepted s message hmem
        · obtain ⟨rfl, rfl⟩ := Prod.mk.inj (List.mem_singleton.mp hmem)
          exact hgenuine _ _ _ _ _ hevent hsignal hsender

/-- An endpoint moves on. What it writes is its own. -/
theorem Sound.withEndpoint (h : n.Sound) (hget : n.endpoints.get? claims = some endpoint)
    {after : SignalingEndpoint} {out : Option (SocketId × WebRtcSignalMessage)}
    (hsound : after.Sound n.tracker.Accepted)
    (hwrites : SignalingEndpoint.Writes endpoint after out) {reads : SocketId → ℕ} :
    Sound ({ n with endpoints := n.endpoints.set claims after, reads := reads }.write out) := by
  have hclaims : after.claims = claims := hwrites.claims.trans (h.endpoints claims endpoint hget).1
  have hkept : ∀ message, n.Genuine message →
      Genuine { n with endpoints := n.endpoints.set claims after, reads := reads } message := by
    intro message hgenuine found hfound
    rw [OrderedMap.get?_set] at hfound
    split_ifs at hfound with hsame
    · obtain rfl := Option.some.inj hfound
      exact hwrites.wrote message (hgenuine endpoint (hsame ▸ hget))
    · exact hgenuine found hfound
  have hrest :
      Sound { n with endpoints := n.endpoints.set claims after, reads := reads } := by
    refine ⟨h.tracker, fun claims' found hfound => ?_,
      fun s message hmem => hkept message (h.accepted s message hmem),
      fun s message hmem => hkept message (h.inFlight s message hmem)⟩
    rw [OrderedMap.get?_set] at hfound
    split_ifs at hfound with hsame
    · obtain rfl := Option.some.inj hfound
      exact ⟨hclaims.trans hsame.symm, hsound⟩
    · exact h.endpoints claims' found hfound
  cases hout : out with
  | none => exact hrest
  | some written =>
      obtain ⟨socket, message⟩ := written
      refine ⟨hrest.tracker, hrest.endpoints, hrest.accepted, fun s sent hmem => ?_⟩
      have hnew : Genuine { n with endpoints := n.endpoints.set claims after, reads := reads }
          message := by
        intro found hfound
        have hwrote := hwrites.out socket message hout
        rw [hsound.wrote_claims hwrote, hclaims, OrderedMap.get?_set, if_pos rfl] at hfound
        exact Option.some.inj hfound ▸ hwrote
      unfold write at hmem
      dsimp only at hmem
      split_ifs at hmem
      · rcases List.mem_append.mp hmem with hmem | hmem
        · exact hrest.inFlight s sent hmem
        · obtain rfl := List.mem_singleton.mp hmem
          exact hnew
      · exact hrest.inFlight s sent hmem

theorem Sound.step {event : SignalingEvent} (h : n.Sound) (hstep : n.step event = some n') :
    n'.Sound := by
  cases event with
  | tracker e =>
      unfold SignalingNetwork.step at hstep
      dsimp only at hstep
      split_ifs at hstep with hforges
      obtain ⟨tracker, htracker, rfl⟩ := Option.map_eq_some_iff.mp hstep
      refine h.withTracker htracker ?_ fun s => List.Subset.refl _
      rintro s isBinary clock data message rfl hsignal hsender found hfound
      refine absurd ?_ hforges
      unfold forges
      dsimp only
      rw [hsender, hsignal, Option.any_some, Option.isSome_some, Bool.and_true, decide_eq_true_eq]
      exact OrderedMap.mem_of_get? hfound
  | delivered socket clock =>
      unfold SignalingNetwork.step at hstep
      dsimp only at hstep
      cases hflight : n.inFlight socket with
      | nil =>
          rw [hflight] at hstep
          cases hstep
      | cons first rest =>
          rw [hflight] at hstep
          obtain ⟨tracker, htracker, rfl⟩ := Option.map_eq_some_iff.mp hstep
          refine h.withTracker htracker ?_ fun s => ?_
          · intro s isBinary clock' data message hevent hsignal _
            obtain ⟨rfl, -, -, rfl⟩ := MessageHubEvent.message.inj hevent
            rw [MessageHub.signalOf_toJs hsignal]
            refine h.inFlight socket first ?_
            rw [hflight]
            exact List.mem_cons_self
          · split_ifs with hs
            · rw [hs, hflight]
              exact List.subset_cons_self first rest
            · exact List.Subset.refl _
  | endpoint claims event =>
      unfold SignalingNetwork.step at hstep
      dsimp only at hstep
      cases hget : n.endpoints.get? claims with
      | none =>
          rw [hget] at hstep
          cases hstep
      | some endpoint =>
          rw [hget] at hstep
          dsimp only at hstep
          split_ifs at hstep
          obtain ⟨⟨after, out⟩, hafter, rfl⟩ := Option.map_eq_some_iff.mp hstep
          have hcases := SignalingEndpoint.step_cases hafter
          exact h.withEndpoint hget (hcases.sound (h.endpoints claims endpoint hget).2)
            hcases.writes
  | received claims slotFree =>
      unfold SignalingNetwork.step at hstep
      dsimp only at hstep
      cases hget : n.endpoints.get? claims with
      | none =>
          rw [hget] at hstep
          cases hstep
      | some endpoint =>
          rw [hget] at hstep
          obtain ⟨socket, hsocket, hstep⟩ := Option.bind_eq_some_iff.mp hstep
          obtain ⟨message, hmessage, rfl⟩ := Option.map_eq_some_iff.mp hstep
          have hmem := List.mem_of_getElem? hmessage
          obtain ⟨haccepted, -⟩ :=
            (MessageHub.relays_of_reachable h.tracker).recipients socket message hmem
          have hread : ∀ read, endpoint.side.readSignal endpoint.claims message.toJs = some read →
              n.tracker.Accepted read := fun read hread => by
            rw [SignalingSide.readSignal_toJs] at hread
            split_ifs at hread
            exact Option.some.inj hread ▸ haccepted
          exact h.withEndpoint hget
            (SignalingEndpoint.receive_sound (h.endpoints claims endpoint hget).2 hread slotFree)
            (SignalingEndpoint.receive_writes endpoint message.toJs slotFree)

theorem sound_of_reachable (hr : system.Reachable (fun _ _ => True) n) : n.Sound :=
  hr.invariant Sound (fun _ => sound_init) fun _ _ _ h _ hstep => h.step hstep

/-! ## Agreement -/

/-- A request that got an answer asked one peer, and a socket of that peer's session sent the answer.
If the peer follows the protocol, both ends mean the same offer and the same answer. -/
def Agreed (n : SignalingNetwork) (claims : PeerSessionClaims) (endpoint : SignalingEndpoint)
    (r : ResolvedRequest) : Prop :=
  ∃ offer ∈ endpoint.offers, offer.requestId = r.requestId ∧
    offer.targetPeerId = r.expectedPeerId ∧
    n.tracker.Accepted ⟨.webrtcAnswer, claims.broadcastId, r.expectedPeerId, claims.peerId,
      r.requestId, r.sdp⟩ ∧
    ∀ other, n.endpoints.get? ⟨claims.broadcastId, r.expectedPeerId⟩ = some other →
      n.tracker.Accepted offer ∧ ∃ a ∈ other.answers, a.offer = offer ∧ a.answer.sdp = r.sdp

theorem Sound.agreed (h : n.Sound) (hget : n.endpoints.get? claims = some endpoint)
    {r : ResolvedRequest} (hr : r ∈ endpoint.resolved) : n.Agreed claims endpoint r := by
  obtain ⟨hclaims, hsound⟩ := h.endpoints claims endpoint hget
  obtain ⟨⟨offer, hoffer, hid, htarget⟩, hanswer⟩ := hsound.resolved r hr
  rw [hclaims] at hanswer
  refine ⟨offer, hoffer, hid, htarget, hanswer, fun other hother => ?_⟩
  obtain ⟨hclaims', hsound'⟩ := h.endpoints _ other hother
  obtain ⟨s, hs, -⟩ := hanswer
  rcases h.accepted s _ hs other hother with hwrote | ⟨a, ha, heq⟩
  · exact nomatch (hsound'.offers _ hwrote).1
  obtain ⟨haccepted, hfor, hto⟩ := hsound'.answers a ha
  -- the offer it answers names this endpoint and carries the ID of its request
  have hfrom : a.offer.peerId = claims.peerId := by
    rw [← hto.targetPeerId, heq]
  have hrequest : a.offer.requestId = offer.requestId := by
    rw [← hto.requestId, heq, hid]
  have hbroadcast : a.offer.broadcastId = claims.broadcastId := by
    rw [hfor.broadcastId, hclaims']
  have hsame : a.offer = offer := by
    obtain ⟨x, hx, -⟩ := haccepted
    rcases h.accepted x a.offer hx endpoint (by rw [hbroadcast, hfrom]; exact hget) with
      hwrote | ⟨a', ha', heq'⟩
    · exact List.inj_on_of_nodup_map hsound.fresh hwrote hoffer hrequest
    · have htype := (hsound.answers a' ha').2.2.type
      rw [heq', hfor.type] at htype
      exact nomatch htype
  refine ⟨hsame ▸ haccepted, a, ha, hsame, ?_⟩
  rw [heq]

/-- **Peers that find each other through the tracker agree on what they exchanged**: every request
is answered once at most, by the peer it was sent to, whoever else signals. -/
theorem signaling_agrees (hr : system.Reachable (fun _ _ => True) n)
    (hget : n.endpoints.get? claims = some endpoint) :
    (endpoint.resolved.map ResolvedRequest.requestId).Nodup ∧
      ∀ r ∈ endpoint.resolved, n.Agreed claims endpoint r := by
  have hsound := sound_of_reachable hr
  exact ⟨(hsound.endpoints claims endpoint hget).2.once, fun r hresolved =>
    hsound.agreed hget hresolved⟩

/-! ## Running a small network -/

/-- A Node peer and a browser, with a tracker over an empty store. -/
def start : SignalingNetwork where
  tracker := .start
  endpoints := ((∅ : OrderedMap PeerSessionClaims SignalingEndpoint).set ⟨"live", "p"⟩
    (.new .node ⟨"live", "p"⟩)).set ⟨"live", "q"⟩ (.new .browser ⟨"live", "q"⟩)
  inFlight _ := []
  reads _ := 0

theorem init_start : system.init start := by
  refine ⟨MessageHub.init_start, fun claims endpoint hget => ?_, rfl, rfl⟩
  unfold start at hget
  rw [OrderedMap.get?_set, OrderedMap.get?_set] at hget
  split_ifs at hget with hq hp
  · subst hq
    exact ⟨.browser, (Option.some.inj hget).symm⟩
  · subst hp
    exact ⟨.node, (Option.some.inj hget).symm⟩
  · cases hget

def joins (socket : SocketId) (p : PeerId) : List SignalingEvent :=
  [.tracker (.hub (TrackerWebSocketHub.joinLive p)), .tracker (.connected socket ⟨"live", p⟩ 0),
    .tracker (MessageHub.textLive socket 0 "subscribe" p [])]

def connects (socket : SocketId) (p : PeerId) : List SignalingEvent :=
  [.tracker (.hub (TrackerWebSocketHub.joinLive p)),
    .endpoint ⟨"live", p⟩ (.connecting socket), .tracker (.connected socket ⟨"live", p⟩ 0),
    .endpoint ⟨"live", p⟩ .opened, .tracker (MessageHub.textLive socket 0 "subscribe" p [])]

/-- The Node peer asks the browser. A third peer answers first, in vain. -/
def exchange : List SignalingEvent :=
  .tracker (.hub (.registerBroadcast 0 ⟨"live", "https://origin/live.m3u8", none⟩)) ::
    .endpoint ⟨"live", "p"⟩ .started :: connects 0 "p" ++ connects 1 "q" ++ joins 2 "z" ++
    [.endpoint ⟨"live", "p"⟩ (.offered "q" "r" "offer" false), .delivered 0 ⟨0, 0, 0⟩,
      .tracker (MessageHub.textLive 2 0 "webrtc_answer" "z"
        [("targetPeerId", .string "p"), ("requestId", .string "r"), ("sdp", .string "forged")]),
      .received ⟨"live", "q"⟩ true, .endpoint ⟨"live", "q"⟩ (.answered 0 "answer"),
      .received ⟨"live", "p"⟩ true, .delivered 1 ⟨0, 0, 0⟩, .received ⟨"live", "p"⟩ true]

def afterExchange : SignalingNetwork := (system.run start exchange).getD start

theorem exchange_agrees : ∃ endpoint,
    afterExchange.endpoints.get? ⟨"live", "p"⟩ = some endpoint ∧
      endpoint.resolved = [⟨"r", "q", "answer"⟩] ∧
      ((endpoint.resolved.map ResolvedRequest.requestId).Nodup ∧
        ∀ r ∈ endpoint.resolved, afterExchange.Agreed ⟨"live", "p"⟩ endpoint r) := by
  have hreachable : system.Reachable (fun _ _ => True) afterExchange := by
    obtain ⟨n, hn⟩ : ∃ n, system.run start exchange = some n :=
      Option.isSome_iff_exists.mp (by decide +kernel)
    rw [afterExchange, hn, Option.getD_some]
    exact TransitionSystem.reachable_of_run init_start hn
  obtain ⟨endpoint, hget⟩ : ∃ endpoint,
      afterExchange.endpoints.get? ⟨"live", "p"⟩ = some endpoint :=
    Option.isSome_iff_exists.mp (by decide +kernel)
  have hresolved : (afterExchange.endpoints.get? ⟨"live", "p"⟩).map SignalingEndpoint.resolved =
      some [⟨"r", "q", "answer"⟩] := by decide +kernel
  rw [hget, Option.map_some, Option.some.injEq] at hresolved
  exact ⟨endpoint, hget, hresolved, signaling_agrees hreachable hget⟩

end SignalingNetwork

end OpenStreamGrid

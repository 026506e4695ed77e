import OpenStreamGrid.Client.TrackerMessages
import OpenStreamGrid.Tracker.SocketMessages

/-!
# The two ends of WebRTC signalling

A peer asks another for a segment with an offer, and waits for the answer that
carries its request ID. The Node transport and the browser's peer keep the same
table of the answers they wait for; they differ in how they read a text and in
what they give up with their socket.
-/

namespace OpenStreamGrid

/-! ## Reading a text -/

namespace WebRtcTransport

/-- What `handleSignalMessage` takes a text for. -/
def readSignal (claims : PeerSessionClaims) (text : JsValue) : Option WebRtcSignalMessage :=
  if (text.get "broadcastId").isText claims.broadcastId ∧
      (text.get "targetPeerId").isText claims.peerId then
    match (text.get "peerId").string?, (text.get "requestId").string?,
      (text.get "sdp").string? with
    | some peerId, some requestId, some sdp =>
        if (text.get "type").isText "webrtc_answer" then
          some ⟨.webrtcAnswer, claims.broadcastId, peerId, claims.peerId, requestId, sdp⟩
        else if (text.get "type").isText "webrtc_offer" then
          some ⟨.webrtcOffer, claims.broadcastId, peerId, claims.peerId, requestId, sdp⟩
        else none
    | _, _, _ => none
  else none

end WebRtcTransport

namespace BrowserWebRtcPeer

/-- What the tracker client passes on, and `handleSignal` does not turn away. -/
def readSignal (claims : PeerSessionClaims) (text : JsValue) : Option WebRtcSignalMessage :=
  match WsTrackerClient.parseServerMessage text with
  | .ok (.webRtcSignal signal) =>
      if signal.broadcastId = claims.broadcastId ∧ signal.targetPeerId = claims.peerId then
        some ⟨if signal.isOffer then .webrtcOffer else .webrtcAnswer, signal.broadcastId,
          signal.peerId, signal.targetPeerId, signal.requestId, signal.sdp⟩
      else none
  | _ => none

end BrowserWebRtcPeer

/-! ### What is relayed is read alike -/

theorem WebRtcTransport.readSignal_toJs (claims : PeerSessionClaims)
    (message : WebRtcSignalMessage) : readSignal claims message.toJs =
      if message.broadcastId = claims.broadcastId ∧ message.targetPeerId = claims.peerId then
        some message
      else none := by
  obtain ⟨type, broadcastId, peerId, targetPeerId, requestId, sdp⟩ := message
  have hbroadcast : (JsValue.get (WebRtcSignalMessage.toJs
      ⟨type, broadcastId, peerId, targetPeerId, requestId, sdp⟩) "broadcastId").isText
        claims.broadcastId = decide (broadcastId = claims.broadcastId) := by
    simp [JsValue.isText, WebRtcSignalMessage.toJs, JsValue.get, JsValue.string?]
  have htarget : (JsValue.get (WebRtcSignalMessage.toJs
      ⟨type, broadcastId, peerId, targetPeerId, requestId, sdp⟩) "targetPeerId").isText
        claims.peerId = decide (targetPeerId = claims.peerId) := by
    simp [JsValue.isText, WebRtcSignalMessage.toJs, JsValue.get, JsValue.string?]
  unfold readSignal
  rw [hbroadcast, htarget]
  simp only [decide_eq_true_eq]
  by_cases haddressed : broadcastId = claims.broadcastId ∧ targetPeerId = claims.peerId
  · rw [if_pos haddressed, if_pos haddressed]
    obtain ⟨rfl, rfl⟩ := haddressed
    cases type <;> rfl
  · rw [if_neg haddressed, if_neg haddressed]

theorem WsTrackerClient.parseServerMessage_signal (message : WebRtcSignalMessage) :
    parseServerMessage message.toJs =
      .ok (.webRtcSignal ⟨message.broadcastId, message.peerId, message.targetPeerId,
        message.requestId, message.sdp, decide (message.type = .webrtcOffer)⟩) := by
  obtain ⟨type, broadcastId, peerId, targetPeerId, requestId, sdp⟩ := message
  cases type <;> rfl

theorem BrowserWebRtcPeer.readSignal_toJs (claims : PeerSessionClaims)
    (message : WebRtcSignalMessage) : readSignal claims message.toJs =
      if message.broadcastId = claims.broadcastId ∧ message.targetPeerId = claims.peerId then
        some message
      else none := by
  unfold readSignal
  rw [WsTrackerClient.parseServerMessage_signal]
  obtain ⟨type, broadcastId, peerId, targetPeerId, requestId, sdp⟩ := message
  cases type <;> rfl

/-! ## An endpoint -/

inductive SignalingSide where
  | node
  | browser
deriving DecidableEq

def SignalingSide.readSignal : SignalingSide → PeerSessionClaims → JsValue →
    Option WebRtcSignalMessage
  | .node => WebRtcTransport.readSignal
  | .browser => BrowserWebRtcPeer.readSignal

theorem SignalingSide.readSignal_toJs (side : SignalingSide) (claims : PeerSessionClaims)
    (message : WebRtcSignalMessage) : side.readSignal claims message.toJs =
      if message.broadcastId = claims.broadcastId ∧ message.targetPeerId = claims.peerId then
        some message
      else none := by
  cases side with
  | node => exact WebRtcTransport.readSignal_toJs claims message
  | browser => exact BrowserWebRtcPeer.readSignal_toJs claims message

structure AnsweredOffer where
  offer : WebRtcSignalMessage
  answer : WebRtcSignalMessage
deriving DecidableEq

structure ResolvedRequest where
  requestId : String
  expectedPeerId : PeerId
  sdp : String
deriving DecidableEq

structure SignalingEndpoint where
  side : SignalingSide
  claims : PeerSessionClaims
  stopped : Bool
  /-- `signalSocket`, or the `ws` of the browser's tracker client. -/
  signalSocket : Option SocketId
  isOpen : Bool
  /-- Whose answer is expected, by request ID. -/
  pendingAnswers : OrderedMap String PeerId
  /-- The offers that are being answered. -/
  answering : List WebRtcSignalMessage
  /-- The offers made so far, also those that could not be sent. -/
  offers : List WebRtcSignalMessage
  /-- The answers sent so far. -/
  answers : List AnsweredOffer
  resolved : List ResolvedRequest

/-- What happens at an endpoint, apart from the messages that arrive. -/
inductive EndpointEvent where
  | started
  | stopped
  | connecting (socket : SocketId)
  | opened
  /-- The socket begins to close. -/
  | closing
  | closed
  /-- A request has its offer; its signal may have aborted by then. -/
  | offered (targetPeerId : PeerId) (requestId : String) (sdp : String) (aborted : Bool)
  | aborted (requestId : String)
  /-- The answer to an accepted offer is ready. -/
  | answered (index : ℕ) (sdp : String)
  | answerFailed (index : ℕ)

namespace SignalingEndpoint

def new (side : SignalingSide) (claims : PeerSessionClaims) : SignalingEndpoint where
  side := side
  claims := claims
  stopped := side = .node
  signalSocket := none
  isOpen := false
  pendingAnswers := ∅
  answering := []
  offers := []
  answers := []
  resolved := []

/-- The socket that `sendSignal` writes to, where it does not throw. -/
def openSocket (e : SignalingEndpoint) : Option SocketId :=
  if e.isOpen then e.signalSocket else none

/-- `waitForAnswer` and `sendSignal` in `requestSegment`. -/
def makeOffer (e : SignalingEndpoint) (targetPeerId : PeerId) (requestId : String) (sdp : String)
    (aborted : Bool) : SignalingEndpoint × Option (SocketId × WebRtcSignalMessage) :=
  let offer : WebRtcSignalMessage :=
    ⟨.webrtcOffer, e.claims.broadcastId, e.claims.peerId, targetPeerId, requestId, sdp⟩
  let waiting := { e with
    pendingAnswers :=
      if aborted then e.pendingAnswers.delete requestId
      else e.pendingAnswers.set requestId targetPeerId
    offers := e.offers ++ [offer] }
  match e.openSocket with
  | some socket => (waiting, some (socket, offer))
  | none => ({ waiting with pendingAnswers := waiting.pendingAnswers.delete requestId }, none)

/-- `sendSignal` at the end of `acceptOffer`. -/
def sendAnswer (e : SignalingEndpoint) (offer : WebRtcSignalMessage) (sdp : String) :
    SignalingEndpoint × Option (SocketId × WebRtcSignalMessage) :=
  match e.openSocket with
  | some socket =>
      let answer : WebRtcSignalMessage :=
        ⟨.webrtcAnswer, e.claims.broadcastId, e.claims.peerId, offer.peerId, offer.requestId, sdp⟩
      ({ e with answers := e.answers ++ [⟨offer, answer⟩] }, some (socket, answer))
  | none => (e, none)

/-- `slotFree` tells whether an upload slot is left. -/
def handleSignal (e : SignalingEndpoint) (message : WebRtcSignalMessage) (slotFree : Bool) :
    SignalingEndpoint :=
  if e.stopped then e
  else
    match message.type with
    | .webrtcAnswer =>
        if e.pendingAnswers.get? message.requestId = some message.peerId then
          { e with
            pendingAnswers := e.pendingAnswers.delete message.requestId
            resolved := e.resolved ++ [⟨message.requestId, message.peerId, message.sdp⟩] }
        else e
    | .webrtcOffer => if slotFree then { e with answering := e.answering ++ [message] } else e

def receive (e : SignalingEndpoint) (text : JsValue) (slotFree : Bool) : SignalingEndpoint :=
  match e.side.readSignal e.claims text with
  | none => e
  | some message => e.handleSignal message slotFree

def start (e : SignalingEndpoint) : Option SignalingEndpoint :=
  match e.side with
  | .node => some { e with stopped := false }
  | .browser => none

def stop (e : SignalingEndpoint) : SignalingEndpoint :=
  match e.side with
  | .node =>
      { e with stopped := true, signalSocket := none, isOpen := false, pendingAnswers := ∅ }
  | .browser => { e with stopped := true, pendingAnswers := ∅ }

/-- Whether a socket is opened now. -/
def opensSocket (e : SignalingEndpoint) : Bool :=
  match e.side with
  | .node => !e.stopped && !e.isOpen
  | .browser => e.signalSocket.isNone

/-- The listener of `close`. A Node peer gives up the answers it waits for. -/
def onClose (e : SignalingEndpoint) : SignalingEndpoint :=
  { e with
    signalSocket := none
    isOpen := false
    pendingAnswers := if e.side = .node then ∅ else e.pendingAnswers }

/-- The endpoint after an event, and what it has written to its socket. The request ID of an
offer is a random one that it has not used. -/
def step (e : SignalingEndpoint) :
    EndpointEvent → Option (SignalingEndpoint × Option (SocketId × WebRtcSignalMessage))
  | .started => e.start.map (·, none)
  | .stopped => some (e.stop, none)
  | .connecting socket =>
      if e.opensSocket then some ({ e with signalSocket := some socket, isOpen := false }, none)
      else none
  | .opened => if e.signalSocket.isSome then some ({ e with isOpen := true }, none) else none
  | .closing => some ({ e with isOpen := false }, none)
  | .closed => if e.signalSocket.isSome then some (e.onClose, none) else none
  | .offered targetPeerId requestId sdp aborted =>
      if sdp = "" ∨ requestId ∈ e.offers.map WebRtcSignalMessage.requestId then none
      else some (e.makeOffer targetPeerId requestId sdp aborted)
  | .aborted requestId =>
      some ({ e with pendingAnswers := e.pendingAnswers.delete requestId }, none)
  | .answered index sdp =>
      if sdp = "" then none
      else
        (e.answering[index]?).map fun offer =>
          { e with answering := e.answering.eraseIdx index }.sendAnswer offer sdp
  | .answerFailed index => some ({ e with answering := e.answering.eraseIdx index }, none)

/-! ## What an endpoint keeps -/

variable {e e' : SignalingEndpoint} {accepted accepted' : WebRtcSignalMessage → Prop}

/-- The messages an endpoint has made. -/
def Wrote (e : SignalingEndpoint) (message : WebRtcSignalMessage) : Prop :=
  message ∈ e.offers ∨ ∃ a ∈ e.answers, a.answer = message

/-- A message that is an offer to this peer. -/
structure OfferFor (claims : PeerSessionClaims) (offer : WebRtcSignalMessage) : Prop where
  type : offer.type = .webrtcOffer
  broadcastId : offer.broadcastId = claims.broadcastId
  targetPeerId : offer.targetPeerId = claims.peerId

/-- An answer that this peer has made to an offer. -/
structure AnswerTo (claims : PeerSessionClaims) (offer answer : WebRtcSignalMessage) : Prop where
  type : answer.type = .webrtcAnswer
  broadcastId : answer.broadcastId = claims.broadcastId
  peerId : answer.peerId = claims.peerId
  targetPeerId : answer.targetPeerId = offer.peerId
  requestId : answer.requestId = offer.requestId

/-- An endpoint answers offers, and takes answers to its own, that the tracker has accepted. -/
structure Sound (accepted : WebRtcSignalMessage → Prop) (e : SignalingEndpoint) : Prop where
  offers : ∀ o ∈ e.offers, o.type = .webrtcOffer ∧ o.broadcastId = e.claims.broadcastId ∧
    o.peerId = e.claims.peerId
  fresh : (e.offers.map WebRtcSignalMessage.requestId).Nodup
  pending : ∀ id p, e.pendingAnswers.get? id = some p →
    ∃ o ∈ e.offers, o.requestId = id ∧ o.targetPeerId = p
  answering : ∀ o ∈ e.answering, accepted o ∧ OfferFor e.claims o
  answers : ∀ a ∈ e.answers, accepted a.offer ∧ OfferFor e.claims a.offer ∧
    AnswerTo e.claims a.offer a.answer
  resolved : ∀ r ∈ e.resolved,
    (∃ o ∈ e.offers, o.requestId = r.requestId ∧ o.targetPeerId = r.expectedPeerId) ∧
      accepted ⟨.webrtcAnswer, e.claims.broadcastId, r.expectedPeerId, e.claims.peerId,
        r.requestId, r.sdp⟩
  once : (e.resolved.map ResolvedRequest.requestId).Nodup
  settled : ∀ r ∈ e.resolved, r.requestId ∉ e.pendingAnswers

theorem sound_new (side : SignalingSide) (claims : PeerSessionClaims) :
    (new side claims).Sound accepted where
  offers _ h := absurd h List.not_mem_nil
  fresh := List.nodup_nil
  pending _ _ h := nomatch h
  answering _ h := absurd h List.not_mem_nil
  answers _ h := absurd h List.not_mem_nil
  resolved _ h := absurd h List.not_mem_nil
  once := List.nodup_nil
  settled _ h := absurd h List.not_mem_nil

theorem Sound.mono (hmono : ∀ message, accepted message → accepted' message)
    (h : e.Sound accepted) : e.Sound accepted' where
  offers := h.offers
  fresh := h.fresh
  pending := h.pending
  answering o ho := (h.answering o ho).imp_left (hmono o)
  answers a ha := (h.answers a ha).imp_left (hmono a.offer)
  resolved r hr := (h.resolved r hr).imp_right (hmono _)
  once := h.once
  settled := h.settled

/-- What an endpoint makes names the endpoint. -/
theorem Sound.wrote_claims (h : e.Sound accepted) {message : WebRtcSignalMessage}
    (hwrote : e.Wrote message) : ⟨message.broadcastId, message.peerId⟩ = e.claims := by
  rcases hwrote with ho | ⟨a, ha, rfl⟩
  · obtain ⟨-, hbroadcast, hpeer⟩ := h.offers message ho
    rw [hbroadcast, hpeer]
  · obtain ⟨-, -, hanswer⟩ := h.answers a ha
    rw [hanswer.broadcastId, hanswer.peerId]

/-- Waiting for fewer answers, or answering fewer offers, breaks nothing. -/
theorem Sound.forget (h : e.Sound accepted) (hclaims : e'.claims = e.claims)
    (hoffers : e'.offers = e.offers)
    (hpending : ∀ id p, e'.pendingAnswers.get? id = some p → e.pendingAnswers.get? id = some p)
    (hanswering : e'.answering ⊆ e.answering) (hanswers : e'.answers = e.answers)
    (hresolved : e'.resolved = e.resolved) : e'.Sound accepted where
  offers := by
    rw [hoffers, hclaims]
    exact h.offers
  fresh := by
    rw [hoffers]
    exact h.fresh
  pending id p hget := by
    rw [hoffers]
    exact h.pending id p (hpending id p hget)
  answering o ho := by
    rw [hclaims]
    exact h.answering o (hanswering ho)
  answers := by
    rw [hanswers, hclaims]
    exact h.answers
  resolved := by
    rw [hresolved, hoffers, hclaims]
    exact h.resolved
  once := by
    rw [hresolved]
    exact h.once
  settled r hr hmem := by
    rw [hresolved] at hr
    obtain ⟨p, hp⟩ := OrderedMap.get?_of_mem hmem
    exact h.settled r hr (OrderedMap.mem_of_get? (hpending _ _ hp))

theorem get?_of_get?_delete {pending : OrderedMap String PeerId} {requestId id : String}
    {p : PeerId} (h : (pending.delete requestId).get? id = some p) : pending.get? id = some p := by
  rw [OrderedMap.get?_delete] at h
  split_ifs at h
  exact h

/-- A message is written to the socket by the peer that the endpoint is. -/
structure Writes (e e' : SignalingEndpoint) (out : Option (SocketId × WebRtcSignalMessage)) :
    Prop where
  claims : e'.claims = e.claims
  wrote : ∀ message, e.Wrote message → e'.Wrote message
  out : ∀ s message, out = some (s, message) → e'.Wrote message

theorem Writes.nothing (hclaims : e'.claims = e.claims) (hoffers : e'.offers = e.offers)
    (hanswers : e'.answers = e.answers) : Writes e e' none where
  claims := hclaims
  wrote message h := by
    unfold Wrote at h ⊢
    rwa [hoffers, hanswers]
  out _ _ h := nomatch h

/-! ## Requests -/

theorem makeOffer_sound (h : e.Sound accepted) (target : PeerId) {id : String} (sdp : String)
    (aborted : Bool) (hid : id ∉ e.offers.map WebRtcSignalMessage.requestId) :
    (e.makeOffer target id sdp aborted).1.Sound accepted := by
  have hwaiting : ∀ pending : OrderedMap String PeerId,
      (∀ id' p, pending.get? id' = some p →
        e.pendingAnswers.get? id' = some p ∨ id' = id ∧ p = target) →
      Sound accepted { e with
        pendingAnswers := pending
        offers := e.offers ++
          [⟨.webrtcOffer, e.claims.broadcastId, e.claims.peerId, target, id, sdp⟩] } := by
    intro pending hpending
    refine ⟨?_, ?_, ?_, h.answering, h.answers, ?_, h.once, ?_⟩
    · intro o ho
      rcases List.mem_append.mp ho with ho | ho
      · exact h.offers o ho
      · obtain rfl := List.mem_singleton.mp ho
        exact ⟨rfl, rfl, rfl⟩
    · show (List.map _ (_ ++ _)).Nodup
      rw [List.map_append, List.nodup_append]
      refine ⟨h.fresh, List.nodup_singleton _, ?_⟩
      rintro id' hid' x hx rfl
      obtain rfl := List.mem_singleton.mp hx
      exact hid hid'
    · intro id' p hget
      rcases hpending id' p hget with hold | ⟨rfl, rfl⟩
      · obtain ⟨o, ho, heq⟩ := h.pending id' p hold
        exact ⟨o, List.mem_append_left _ ho, heq⟩
      · exact ⟨_, List.mem_append_right _ (List.mem_singleton_self _), rfl, rfl⟩
    · intro r hr
      obtain ⟨⟨o, ho, heq⟩, hanswer⟩ := h.resolved r hr
      exact ⟨⟨o, List.mem_append_left _ ho, heq⟩, hanswer⟩
    · intro r hr hmem
      obtain ⟨p, hp⟩ := OrderedMap.get?_of_mem hmem
      rcases hpending r.requestId p hp with hold | ⟨hsame, -⟩
      · exact h.settled r hr (OrderedMap.mem_of_get? hold)
      · obtain ⟨⟨o, ho, hoid, -⟩, -⟩ := h.resolved r hr
        exact hid (List.mem_map.mpr ⟨o, ho, hoid.trans hsame⟩)
  have hset : ∀ id' p,
      (if aborted then e.pendingAnswers.delete id else e.pendingAnswers.set id target).get? id' =
        some p → e.pendingAnswers.get? id' = some p ∨ id' = id ∧ p = target := by
    intro id' p hget
    split_ifs at hget
    · exact Or.inl (get?_of_get?_delete hget)
    · rw [OrderedMap.get?_set] at hget
      split_ifs at hget with hsame
      · exact Or.inr ⟨hsame, (Option.some.inj hget).symm⟩
      · exact Or.inl hget
  unfold makeOffer
  cases e.openSocket with
  | some socket => exact hwaiting _ hset
  | none => exact hwaiting _ fun id' p hget => hset id' p (get?_of_get?_delete hget)

theorem makeOffer_writes (e : SignalingEndpoint) (target : PeerId) (id sdp : String)
    (aborted : Bool) :
    Writes e (e.makeOffer target id sdp aborted).1 (e.makeOffer target id sdp aborted).2 := by
  have hkept : ∀ pending : OrderedMap String PeerId, ∀ {offer : WebRtcSignalMessage} message,
      e.Wrote message →
        Wrote { e with pendingAnswers := pending, offers := e.offers ++ [offer] } message := by
    rintro pending offer message (ho | ha)
    · exact Or.inl (List.mem_append_left _ ho)
    · exact Or.inr ha
  unfold makeOffer
  cases e.openSocket with
  | some socket =>
      refine ⟨rfl, hkept _, fun s message hout => ?_⟩
      obtain ⟨-, rfl⟩ := Prod.mk.inj (Option.some.inj hout)
      exact Or.inl (List.mem_append_right _ (List.mem_singleton_self _))
  | none => exact ⟨rfl, hkept _, fun _ _ hout => nomatch hout⟩

/-! ## Answers -/

theorem sendAnswer_sound (h : e.Sound accepted) {offer : WebRtcSignalMessage}
    (hoffer : accepted offer ∧ OfferFor e.claims offer) (sdp : String) :
    (e.sendAnswer offer sdp).1.Sound accepted := by
  unfold sendAnswer
  cases e.openSocket with
  | none => exact h
  | some socket =>
      refine ⟨h.offers, h.fresh, h.pending, h.answering, fun a ha => ?_, h.resolved, h.once,
        h.settled⟩
      rcases List.mem_append.mp ha with ha | ha
      · exact h.answers a ha
      · obtain rfl := List.mem_singleton.mp ha
        exact ⟨hoffer.1, hoffer.2, rfl, rfl, rfl, rfl, rfl⟩

theorem sendAnswer_writes (e : SignalingEndpoint) (offer : WebRtcSignalMessage) (sdp : String) :
    Writes e (e.sendAnswer offer sdp).1 (e.sendAnswer offer sdp).2 := by
  unfold sendAnswer
  cases e.openSocket with
  | none => exact .nothing rfl rfl rfl
  | some socket =>
      refine ⟨rfl, ?_, fun s message hout => ?_⟩
      · rintro message (ho | ⟨a, ha, heq⟩)
        · exact Or.inl ho
        · exact Or.inr ⟨a, List.mem_append_left _ ha, heq⟩
      · obtain ⟨-, rfl⟩ := Prod.mk.inj (Option.some.inj hout)
        exact Or.inr ⟨_, List.mem_append_right _ (List.mem_singleton_self _), rfl⟩

/-! ## What arrives -/

theorem readSignal_addressed {side : SignalingSide} {claims : PeerSessionClaims} {text : JsValue}
    {message : WebRtcSignalMessage} (h : side.readSignal claims text = some message) :
    message.broadcastId = claims.broadcastId ∧ message.targetPeerId = claims.peerId := by
  cases side with
  | node =>
      replace h : WebRtcTransport.readSignal claims text = some message := h
      unfold WebRtcTransport.readSignal at h
      split at h
      · split at h
        · split at h
          · obtain rfl := Option.some.inj h
            exact ⟨rfl, rfl⟩
          · split at h
            · obtain rfl := Option.some.inj h
              exact ⟨rfl, rfl⟩
            · cases h
        · cases h
      · cases h
  | browser =>
      replace h : BrowserWebRtcPeer.readSignal claims text = some message := h
      unfold BrowserWebRtcPeer.readSignal at h
      split at h
      · split at h
        · rename_i hfor
          obtain rfl := Option.some.inj h
          exact hfor
        · cases h
      · cases h

/-- A signal resolves the request it answers, and no other. -/
theorem handleSignal_sound (h : e.Sound accepted) {message : WebRtcSignalMessage}
    (haccepted : accepted message) (hbroadcast : message.broadcastId = e.claims.broadcastId)
    (htarget : message.targetPeerId = e.claims.peerId) (slotFree : Bool) :
    (e.handleSignal message slotFree).Sound accepted := by
  unfold handleSignal
  by_cases hstopped : e.stopped = true
  · rw [if_pos hstopped]
    exact h
  rw [if_neg hstopped]
  cases htype : message.type with
  | webrtcOffer =>
      dsimp only
      split_ifs
      · refine ⟨h.offers, h.fresh, h.pending, fun o ho => ?_, h.answers, h.resolved, h.once,
          h.settled⟩
        rcases List.mem_append.mp ho with ho | ho
        · exact h.answering o ho
        · obtain rfl := List.mem_singleton.mp ho
          exact ⟨haccepted, htype, hbroadcast, htarget⟩
      · exact h
  | webrtcAnswer =>
      dsimp only
      split_ifs with hpending
      · have hunresolved : message.requestId ∉ e.resolved.map ResolvedRequest.requestId := by
          rintro hmem
          obtain ⟨r, hr, hid⟩ := List.mem_map.mp hmem
          exact h.settled r hr (hid ▸ OrderedMap.mem_of_get? hpending)
        refine ⟨h.offers, h.fresh, fun id p hget => h.pending id p (get?_of_get?_delete hget),
          h.answering, h.answers, ?_, ?_, ?_⟩
        · intro r hr
          rcases List.mem_append.mp hr with hr | hr
          · exact h.resolved r hr
          · obtain rfl := List.mem_singleton.mp hr
            refine ⟨h.pending _ _ hpending, ?_⟩
            have hmessage : message = ⟨.webrtcAnswer, e.claims.broadcastId, message.peerId,
                e.claims.peerId, message.requestId, message.sdp⟩ := by
              rw [← htype, ← hbroadcast, ← htarget]
            exact hmessage ▸ haccepted
        · show (List.map _ (_ ++ _)).Nodup
          rw [List.map_append, List.nodup_append]
          refine ⟨h.once, List.nodup_singleton _, ?_⟩
          rintro id hid x hx rfl
          obtain rfl := List.mem_singleton.mp hx
          exact hunresolved hid
        · intro r hr hmem
          rw [OrderedMap.mem_delete] at hmem
          rcases List.mem_append.mp hr with hr | hr
          · exact h.settled r hr hmem.1
          · obtain rfl := List.mem_singleton.mp hr
            exact hmem.2 rfl
      · exact h

theorem receive_sound (h : e.Sound accepted) {text : JsValue}
    (haccepted : ∀ message, e.side.readSignal e.claims text = some message → accepted message)
    (slotFree : Bool) : (e.receive text slotFree).Sound accepted := by
  unfold receive
  cases hread : e.side.readSignal e.claims text with
  | none => exact h
  | some message =>
      obtain ⟨hbroadcast, htarget⟩ := readSignal_addressed hread
      exact handleSignal_sound h (haccepted message hread) hbroadcast htarget slotFree

theorem handleSignal_writes (e : SignalingEndpoint) (message : WebRtcSignalMessage)
    (slotFree : Bool) : Writes e (e.handleSignal message slotFree) none := by
  unfold handleSignal
  by_cases hstopped : e.stopped = true
  · rw [if_pos hstopped]
    exact .nothing rfl rfl rfl
  · rw [if_neg hstopped]
    cases message.type with
    | webrtcAnswer =>
        dsimp only
        split_ifs <;> exact .nothing rfl rfl rfl
    | webrtcOffer =>
        dsimp only
        split_ifs <;> exact .nothing rfl rfl rfl

theorem receive_writes (e : SignalingEndpoint) (text : JsValue) (slotFree : Bool) :
    Writes e (e.receive text slotFree) none := by
  unfold receive
  cases e.side.readSignal e.claims text with
  | none => exact .nothing rfl rfl rfl
  | some message => exact handleSignal_writes e message slotFree

/-! ## Every event -/

variable {event : EndpointEvent} {out : Option (SocketId × WebRtcSignalMessage)}

/-- What an event does. -/
inductive EndpointStep (e : SignalingEndpoint) :
    SignalingEndpoint → Option (SocketId × WebRtcSignalMessage) → Prop where
  /-- Nothing is written, and no more is waited for or answered than before. -/
  | quiet {e' : SignalingEndpoint} (hclaims : e'.claims = e.claims) (hoffers : e'.offers = e.offers)
      (hpending : ∀ id p, e'.pendingAnswers.get? id = some p → e.pendingAnswers.get? id = some p)
      (hanswering : e'.answering ⊆ e.answering) (hanswers : e'.answers = e.answers)
      (hresolved : e'.resolved = e.resolved) : EndpointStep e e' none
  | offered (target : PeerId) {id : String} (sdp : String) (aborted : Bool)
      (hid : id ∉ e.offers.map WebRtcSignalMessage.requestId) :
      EndpointStep e (e.makeOffer target id sdp aborted).1 (e.makeOffer target id sdp aborted).2
  | answered {offer : WebRtcSignalMessage} (index : ℕ) (sdp : String)
      (hoffer : offer ∈ e.answering) :
      EndpointStep e ({ e with answering := e.answering.eraseIdx index }.sendAnswer offer sdp).1
        ({ e with answering := e.answering.eraseIdx index }.sendAnswer offer sdp).2

theorem endpointStep_stop (e : SignalingEndpoint) : EndpointStep e e.stop none := by
  have hnone : ∀ id p, (∅ : OrderedMap String PeerId).get? id = some p →
      e.pendingAnswers.get? id = some p := fun _ _ hget => nomatch hget
  unfold stop
  cases e.side with
  | node => exact .quiet rfl rfl hnone (List.Subset.refl _) rfl rfl
  | browser => exact .quiet rfl rfl hnone (List.Subset.refl _) rfl rfl

theorem endpointStep_onClose (e : SignalingEndpoint) : EndpointStep e e.onClose none := by
  refine .quiet rfl rfl (fun id p hget => ?_) (List.Subset.refl _) rfl rfl
  unfold onClose at hget
  dsimp only at hget
  split_ifs at hget
  · cases hget
  · exact hget

theorem step_cases (hstep : e.step event = some (e', out)) : EndpointStep e e' out := by
  have hsame : ∀ {stopped isOpen : Bool} {signalSocket : Option SocketId},
      EndpointStep e
        { e with stopped := stopped, isOpen := isOpen, signalSocket := signalSocket } none :=
    .quiet rfl rfl (fun _ _ => id) (List.Subset.refl _) rfl rfl
  cases event with
  | started =>
      obtain ⟨started, hstart, heq⟩ := Option.map_eq_some_iff.mp hstep
      obtain ⟨rfl, rfl⟩ := Prod.mk.inj heq
      unfold start at hstart
      split at hstart
      · obtain rfl := Option.some.inj hstart
        exact hsame
      · cases hstart
  | stopped =>
      obtain ⟨rfl, rfl⟩ := Prod.mk.inj (Option.some.inj hstep)
      exact endpointStep_stop e
  | connecting socket =>
      unfold step at hstep
      dsimp only at hstep
      split_ifs at hstep
      obtain ⟨rfl, rfl⟩ := Prod.mk.inj (Option.some.inj hstep)
      exact hsame
  | opened =>
      unfold step at hstep
      dsimp only at hstep
      split_ifs at hstep
      obtain ⟨rfl, rfl⟩ := Prod.mk.inj (Option.some.inj hstep)
      exact hsame
  | closing =>
      obtain ⟨rfl, rfl⟩ := Prod.mk.inj (Option.some.inj hstep)
      exact hsame
  | closed =>
      unfold step at hstep
      dsimp only at hstep
      split_ifs at hstep
      obtain ⟨rfl, rfl⟩ := Prod.mk.inj (Option.some.inj hstep)
      exact endpointStep_onClose e
  | offered target id sdp aborted =>
      unfold step at hstep
      dsimp only at hstep
      split_ifs at hstep with hcond
      have hoffered := EndpointStep.offered (e := e) target sdp aborted
        fun hmem => hcond (Or.inr hmem)
      rwa [Option.some.inj hstep] at hoffered
  | aborted id =>
      obtain ⟨rfl, rfl⟩ := Prod.mk.inj (Option.some.inj hstep)
      exact .quiet rfl rfl (fun _ _ => get?_of_get?_delete) (List.Subset.refl _) rfl rfl
  | answered index sdp =>
      unfold step at hstep
      dsimp only at hstep
      split_ifs at hstep
      obtain ⟨offer, hoffer, heq⟩ := Option.map_eq_some_iff.mp hstep
      have hanswered := EndpointStep.answered (e := e) index sdp (List.mem_of_getElem? hoffer)
      rwa [heq] at hanswered
  | answerFailed index =>
      obtain ⟨rfl, rfl⟩ := Prod.mk.inj (Option.some.inj hstep)
      exact .quiet rfl rfl (fun _ _ => id) (List.eraseIdx_sublist _ _).subset rfl rfl

theorem EndpointStep.sound (hstep : EndpointStep e e' out) (h : e.Sound accepted) :
    e'.Sound accepted := by
  cases hstep with
  | quiet hclaims hoffers hpending hanswering hanswers hresolved =>
      exact h.forget hclaims hoffers hpending hanswering hanswers hresolved
  | offered target sdp aborted hid => exact makeOffer_sound h target sdp aborted hid
  | answered index sdp hoffer =>
      have hrest : Sound accepted { e with answering := e.answering.eraseIdx index } :=
        h.forget rfl rfl (fun _ _ => id) (List.eraseIdx_sublist _ _).subset rfl rfl
      exact sendAnswer_sound hrest (h.answering _ hoffer) sdp

theorem EndpointStep.writes (hstep : EndpointStep e e' out) : Writes e e' out := by
  cases hstep with
  | quiet hclaims hoffers _ _ hanswers _ => exact .nothing hclaims hoffers hanswers
  | offered target sdp aborted _ => exact makeOffer_writes e target _ sdp aborted
  | @answered offer index sdp _ =>
      have hwrites :=
        sendAnswer_writes { e with answering := e.answering.eraseIdx index } offer sdp
      exact ⟨hwrites.claims, hwrites.wrote, hwrites.out⟩

end SignalingEndpoint

end OpenStreamGrid

import OpenStreamGrid.Tracker.PlainMessages

/-!
# Flushes with a trace

A tracker once more, from one start to the next, with what the state of its hub
forgets: every flush has a number, what `setImmediate` holds is a queue that may
hold several calls for a broadcast, and a log says which socket was sent which
flush. The logs of the sockets are the messages of these receipts.
-/

namespace OpenStreamGrid

/-- What a socket is sent of a flush, or that its subscription is accepted. -/
inductive Receipt where
  | batch (broadcastId : BroadcastId) (flush : ℕ) (updates : List SegmentInventoryUpdate)
  | subscribed
deriving DecidableEq

/-- One message for every `MAX_UPDATES_PER_BATCH` updates. -/
def Receipt.messages : Receipt → List WsServerMessage
  | .batch broadcastId _ updates =>
      (List.range ((updates.length + (MAX_UPDATES_PER_BATCH - 1)) / MAX_UPDATES_PER_BATCH)).map
        fun i => .segmentInventoryBatch broadcastId
          ((updates.drop (i * MAX_UPDATES_PER_BATCH)).take MAX_UPDATES_PER_BATCH)
  | .subscribed => []

def Receipt.flush? : Receipt → Option ℕ
  | .batch _ flush _ => some flush
  | .subscribed => none

/-- The flushes a socket was sent, in the order of its receipts. -/
def flushesOf (receipts : List Receipt) : List ℕ := receipts.filterMap Receipt.flush?

/-- A call of `sendViewerBatches` that waits for its turn. -/
structure ScheduledSlice where
  broadcastId : BroadcastId
  flush : ℕ
  job : FlushJob
deriving DecidableEq

structure TracedHub where
  hub : TrackerWebSocketHub
  /-- How many batches were flushed so far. -/
  flushes : ℕ
  queue : List ScheduledSlice
  log : List (SocketId × Receipt)

/-- What one socket was sent. -/
def receiptsTo (s : SocketId) (log : List (SocketId × Receipt)) : List Receipt :=
  log.filterMap fun entry => if entry.1 = s then some entry.2 else none

namespace TrackerWebSocketHub

/-- A tracker over what is stored, until it is restarted. -/
def process : TransitionSystem TrackerWebSocketHub TrackerEvent where
  init := system.init
  step h
    | .restart _ _ _ => none
    | event => lifetime.step h event

def hasOpenSocket (h : TrackerWebSocketHub) (socket : SocketId) : Bool :=
  (h.sockets.get? socket).any Socket.isOpen

/-- The updates of a flush that a viewer's sockets are sent. -/
def viewerUpdates (h : TrackerWebSocketHub) (broadcastId : BroadcastId)
    (updates : OrderedMap PeerId SegmentInventoryUpdate) (peerId : PeerId) :
    List SegmentInventoryUpdate :=
  match h.neighborViews.bind (fun views => views.view broadcastId peerId) with
  | none => []
  | some view =>
      if view.size < updates.size then view.toList.filterMap updates.get?
      else updates.values.filter fun update => decide (update.peerId ∈ view)

/-- The receipts of a batch: it goes to the sockets that are open. -/
def dispatch (h : TrackerWebSocketHub) (broadcastId : BroadcastId) (flush : ℕ)
    (updates : List SegmentInventoryUpdate) (sockets : OrderedSet SocketId) :
    List (SocketId × Receipt) :=
  if updates.isEmpty then []
  else (sockets.toList.filter h.hasOpenSocket).map fun socket =>
    (socket, .batch broadcastId flush updates)

def dispatchViewers (h : TrackerWebSocketHub) (broadcastId : BroadcastId) (flush : ℕ)
    (updates : OrderedMap PeerId SegmentInventoryUpdate) (viewerIds : List PeerId) :
    List (SocketId × Receipt) :=
  viewerIds.flatMap fun peerId => h.dispatch broadcastId flush
    (h.viewerUpdates broadcastId updates peerId) (h.viewerSockets broadcastId peerId)

end TrackerWebSocketHub

namespace TracedHub

def sendSlice (t : TracedHub) (broadcastId : BroadcastId) (job : FlushJob) (flush : ℕ) :
    TracedHub × Bool :=
  let (h, ended) := t.hub.sendSlice broadcastId job
  ({ t with
    hub := h
    queue :=
      if ended then t.queue
      else t.queue ++
        [⟨broadcastId, flush, { job with start := t.hub.sliceEnd broadcastId job }⟩]
    log := t.log ++
      t.hub.dispatchViewers broadcastId flush job.updates (t.hub.served broadcastId job) }, ended)

def startFlush (t : TracedHub) (broadcastId : BroadcastId) : TracedHub × Bool :=
  let batch := t.hub.pendingInventory.get? broadcastId
  let t := { t with hub := t.hub.taken broadcastId }
  match batch, t.hub.subscribersByBroadcast.get? broadcastId with
  | some pending, some subscribers =>
      if pending.size = 0 then (t, false)
      else
        let flush := t.flushes
        let updates := toUpdates pending
        let t : TracedHub :=
          { t with
            hub := t.hub.deliver
              (if subscribers.batched.size > 0 then
                sendBatch broadcastId updates.values subscribers.batched
              else [])
            flushes := flush + 1
            log := t.log ++
              t.hub.dispatch broadcastId flush updates.values subscribers.batched }
        if subscribers.viewers.size = 0 then (t, false)
        else
          { t with hub := { t.hub with flushing := t.hub.flushing.insert broadcastId } }.sendSlice
            broadcastId (TrackerWebSocketHub.snapshot pending subscribers) flush
  | _, _ => (t, false)

def flushRequestedNext (t : TracedHub) (broadcastId : BroadcastId) : TracedHub :=
  if broadcastId ∈ t.hub.flushRequested then
    ({ t with
      hub := { t.hub with
        flushRequested := t.hub.flushRequested.erase broadcastId } }.startFlush broadcastId).1
  else t

def sendViewerBatches (t : TracedHub) (broadcastId : BroadcastId) (job : FlushJob)
    (flush : ℕ) : TracedHub :=
  let (t, ended) := t.sendSlice broadcastId job flush
  if ended then t.flushRequestedNext broadcastId else t

def flushInventory (t : TracedHub) (broadcastId : BroadcastId) : TracedHub :=
  if broadcastId ∈ t.hub.flushing then
    { t with
      hub := { t.hub with flushRequested := t.hub.flushRequested.insert broadcastId } }
  else
    let (t, ended) := t.startFlush broadcastId
    if ended then t.flushRequestedNext broadcastId else t

/-- Runs the first call that waits for the broadcast. -/
def hubStep (t : TracedHub) : HubEvent → Option TracedHub
  | .batchTimer broadcastId =>
      if broadcastId ∈ t.hub.timers then
        some ({ t with
          hub := { t.hub with timers := t.hub.timers.erase broadcastId } }.flushInventory
            broadcastId)
      else none
  | .flushTurn broadcastId =>
      match t.queue.find? fun slice => slice.broadcastId = broadcastId with
      | none => none
      | some slice =>
          some ({ t with
            hub := { t.hub with immediates := t.hub.immediates.delete broadcastId }
            queue := t.queue.erase slice }.sendViewerBatches broadcastId slice.job slice.flush)
  | event =>
      (t.hub.step event).map fun h =>
        { t with
          hub := h
          log := t.log ++ (t.hub.subscriber event).toList.map fun socket => (socket, .subscribed) }

open TrackerWebSocketHub in
def step (t : TracedHub) : TrackerEvent → Option TracedHub
  | .hub event => t.hubStep event
  | event => (process.step t.hub event).map fun h => { t with hub := h }

open TrackerWebSocketHub in
def system : TransitionSystem TracedHub TrackerEvent where
  init t := ∃ h, process.init h ∧ t = ⟨h, 0, [], []⟩
  step := step

end TracedHub

/-! ## Receipts -/

@[simp] theorem receiptsTo_append (s : SocketId) (log log' : List (SocketId × Receipt)) :
    receiptsTo s (log ++ log') = receiptsTo s log ++ receiptsTo s log' := List.filterMap_append

theorem receiptsTo_flatMap {α : Type} (s : SocketId) (f : α → List (SocketId × Receipt))
    (xs : List α) : receiptsTo s (xs.flatMap f) = xs.flatMap fun x => receiptsTo s (f x) :=
  List.filterMap_flatMap

theorem mem_receiptsTo {s : SocketId} {r : Receipt} {log : List (SocketId × Receipt)} :
    r ∈ receiptsTo s log ↔ (s, r) ∈ log := by
  unfold receiptsTo
  rw [List.mem_filterMap]
  constructor
  · rintro ⟨⟨x, r'⟩, hmem, hsome⟩
    dsimp only at hsome
    split_ifs at hsome with hx
    obtain rfl := Option.some.inj hsome
    exact hx ▸ hmem
  · exact fun hmem => ⟨(s, r), hmem, if_pos rfl⟩

theorem receiptsTo_map (s : SocketId) (r : Receipt) : ∀ {sockets : List SocketId},
    sockets.Nodup →
      receiptsTo s (sockets.map fun socket => (socket, r)) = if s ∈ sockets then [r] else []
  | [], _ => rfl
  | x :: rest, hnd => by
      obtain ⟨hx, hrest⟩ := List.nodup_cons.mp hnd
      have ih := receiptsTo_map s r hrest
      unfold receiptsTo at ih ⊢
      rw [List.map_cons, List.filterMap_cons, ih]
      by_cases hs : x = s
      · subst hs
        simp [hx]
      · simp [hs, Ne.symm hs]

@[simp] theorem flushesOf_append (rs rs' : List Receipt) :
    flushesOf (rs ++ rs') = flushesOf rs ++ flushesOf rs' := List.filterMap_append

theorem mem_flushesOf {n : ℕ} {rs : List Receipt} :
    n ∈ flushesOf rs ↔ ∃ b us, Receipt.batch b n us ∈ rs := by
  unfold flushesOf
  rw [List.mem_filterMap]
  constructor
  · rintro ⟨r, hr, hn⟩
    cases r with
    | batch b m us =>
        obtain rfl := Option.some.inj hn
        exact ⟨b, us, hr⟩
    | subscribed => cases hn
  · rintro ⟨b, us, hr⟩
    exact ⟨_, hr, rfl⟩

namespace TrackerWebSocketHub

variable {h h' : TrackerWebSocketHub} {s : SocketId} {b : BroadcastId} {p : PeerId} {n : ℕ}
variable {us : List SegmentInventoryUpdate} {sockets : OrderedSet SocketId}

theorem receiptsTo_dispatch : receiptsTo s (h.dispatch b n us sockets)
    = if s ∈ sockets ∧ h.hasOpenSocket s = true ∧ us ≠ [] then [.batch b n us] else [] := by
  unfold dispatch
  cases us with
  | nil => simp [receiptsTo]
  | cons u rest =>
      rw [if_neg (by simp), receiptsTo_map _ _ (sockets.nodup.filter _)]
      simp

theorem receiptsTo_dispatchViewers (s : SocketId)
    (updates : OrderedMap PeerId SegmentInventoryUpdate) (viewerIds : List PeerId) :
    receiptsTo s (h.dispatchViewers b n updates viewerIds) = viewerIds.flatMap fun p =>
      receiptsTo s (h.dispatch b n (h.viewerUpdates b updates p) (h.viewerSockets b p)) :=
  receiptsTo_flatMap ..

/-- A viewer that is served gets one receipt at most, whoever else is served. -/
theorem receiptsTo_viewer (hi : h.Indexed) (updates : OrderedMap PeerId SegmentInventoryUpdate) :
    ∀ {viewerIds : List PeerId}, viewerIds.Nodup →
      receiptsTo s (h.dispatchViewers b n updates viewerIds) = [] ∨
        ∃ p ∈ viewerIds, ∃ us, s ∈ h.viewerSockets b p ∧ h.hasOpenSocket s = true ∧
          receiptsTo s (h.dispatchViewers b n updates viewerIds) = [.batch b n us]
  | [], _ => Or.inl rfl
  | p :: rest, hnd => by
      obtain ⟨hp, hrest⟩ := List.nodup_cons.mp hnd
      rw [receiptsTo_dispatchViewers, List.flatMap_cons, ← receiptsTo_dispatchViewers,
        receiptsTo_dispatch]
      have ih := receiptsTo_viewer hi updates hrest
      split_ifs with hserved
      · obtain ⟨hs, hopen, -⟩ := hserved
        refine Or.inr ⟨p, List.mem_cons_self, h.viewerUpdates b updates p, hs, hopen, ?_⟩
        rcases ih with hnone | ⟨q, hq, us, hsq, -⟩
        · rw [hnone]
          rfl
        · exact absurd ((hi.viewer_unique hs hsq).2 ▸ hq) hp
      · rcases ih with hnone | ⟨q, hq, us, hsq, hopen, heq⟩
        · exact Or.inl hnone
        · exact Or.inr ⟨q, List.mem_cons_of_mem _ hq, us, hsq, hopen, heq⟩

/-! ## Receipts are what is sent -/

def isBatch : WsServerMessage → Bool
  | .segmentInventoryBatch _ _ => true
  | _ => false

def sentTo (h : TrackerWebSocketHub) (s : SocketId) : List WsServerMessage :=
  ((h.sockets.get? s).map Socket.sent).getD []

theorem sentTo_deliver (h : TrackerWebSocketHub) (out : Outgoing) (s : SocketId) :
    (h.deliver out).sentTo s
      = h.sentTo s ++ if h.hasOpenSocket s = true then messagesTo s out else [] := by
  unfold sentTo hasOpenSocket
  rw [get?_sockets_deliver]
  cases h.sockets.get? s with
  | none => simp
  | some socket => by_cases hopen : socket.isOpen = true <;> simp [hopen]

theorem messagesTo_sendBatch_eq (n : ℕ) : messagesTo s (sendBatch b us sockets)
    = if s ∈ sockets then (Receipt.batch b n us).messages else [] := by
  unfold sendBatch Receipt.messages
  simp only [messagesTo_flatMap, messagesTo_sendToAll]
  split_ifs
  · exact List.map_eq_flatMap.symm
  · simp

theorem messages_dispatch : (receiptsTo s (h.dispatch b n us sockets)).flatMap Receipt.messages
    = if h.hasOpenSocket s = true then messagesTo s (sendBatch b us sockets) else [] := by
  rw [receiptsTo_dispatch, messagesTo_sendBatch_eq n]
  by_cases hs : s ∈ sockets <;> by_cases hopen : h.hasOpenSocket s = true
  · cases us with
    | nil => simp [Receipt.messages, MAX_UPDATES_PER_BATCH]
    | cons u rest => simp [hs, hopen]
  all_goals simp [hs, hopen]

theorem isBatch_of_mem_messages {r : Receipt} {m : WsServerMessage} (hm : m ∈ r.messages) :
    isBatch m = true := by
  cases r with
  | batch b n us =>
      obtain ⟨i, -, rfl⟩ := List.mem_map.mp hm
      rfl
  | subscribed => exact absurd hm List.not_mem_nil

/-- A handler sends no batch. -/
theorem Tells.not_isBatch {h h' : TrackerWebSocketHub} {e : HubEvent} {m : WsServerMessage}
    (hm : Tells h h' e m) : isBatch m = false := by
  cases hm with
  | membership _ hm =>
      cases m with
      | segmentInventoryBatch => exact absurd hm id
      | _ => rfl
  | @report _ _ _ _ _ _ m => cases m <;> rfl

theorem filter_isBatch_sentTo {h h' : TrackerWebSocketHub}
    (hsends : Sends (fun m => isBatch m = false) h h') (s : SocketId) :
    (h'.sentTo s).filter isBatch = (h.sentTo s).filter isBatch := by
  have hnone : ∀ sent : List WsServerMessage, (∀ m ∈ sent, isBatch m = false) →
      sent.filter isBatch = [] := by
    intro sent hsent
    refine List.filter_eq_nil_iff.mpr fun m hm => ?_
    rw [hsent m hm]
    exact Bool.false_ne_true
  unfold sentTo
  cases hget : h.sockets.get? s with
  | some socket =>
      obtain ⟨socket', sent, hget', -, hsent, hP⟩ := hsends.grown s socket hget
      rw [hget', Option.map_some, Option.map_some, Option.getD_some, Option.getD_some, hsent,
        List.filter_append, hnone sent hP, List.append_nil]
  | none =>
      cases hget' : h'.sockets.get? s with
      | none => rfl
      | some socket' =>
          rw [Option.map_some, Option.getD_some, hnone _ (hsends.connected s socket' hget' hget)]
          rfl

theorem viewerBatch_eq (h : TrackerWebSocketHub) (b : BroadcastId)
    (updates : OrderedMap PeerId SegmentInventoryUpdate) (p : PeerId) :
    h.viewerBatch b updates p
      = sendBatch b (h.viewerUpdates b updates p) (h.viewerSockets b p) := by
  have hnobody : ∀ us, sendBatch b us ∅ = [] := by
    intro us
    unfold sendBatch sendToAll
    simp
  unfold viewerBatch viewerUpdates viewerSockets
  cases (h.subscribersByBroadcast.get? b).bind (fun s => s.viewers.get? p) with
  | none =>
      dsimp only
      rw [Option.getD_none, hnobody]
  | some sockets =>
      cases h.neighborViews.bind (fun views => views.view b p) with
      | none => simp [sendBatch, MAX_UPDATES_PER_BATCH]
      | some view => rfl

theorem messages_dispatchViewers (updates : OrderedMap PeerId SegmentInventoryUpdate)
    (viewerIds : List PeerId) :
    (receiptsTo s (h.dispatchViewers b n updates viewerIds)).flatMap Receipt.messages
      = if h.hasOpenSocket s = true then
          messagesTo s (viewerIds.flatMap (h.viewerBatch b updates)) else [] := by
  rw [receiptsTo_dispatchViewers, messagesTo_flatMap, List.flatMap_assoc]
  simp only [messages_dispatch, ← viewerBatch_eq]
  split_ifs <;> simp

end TrackerWebSocketHub

end OpenStreamGrid

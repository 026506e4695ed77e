import OpenStreamGrid.Client.MessageDecoding
import OpenStreamGrid.Tracker.HubContent
import OpenStreamGrid.Tracker.InventoryReports
import OpenStreamGrid.Tracker.RestRequests

/-!
# Messages that can be read back

`__proto__` is no key that assigning an entry makes. The reader of a join request
leaves it out, nothing else sets a peer's metadata, and a message carries stored
peers only: so every client reads all that a message says.
-/

namespace OpenStreamGrid

/-! ## Requests -/

def PeerJoinRequest.Plain (request : PeerJoinRequest) : Prop :=
  ∀ metadata, request.metadata = some metadata → metadata.Plain

theorem Metadata.Plain.set {metadata : Metadata} (hplain : metadata.Plain) {key : String}
    (hkey : key ≠ "__proto__") (item : String) : Metadata.Plain (metadata.set key item) := by
  intro hmem
  rcases OrderedMap.mem_set.mp hmem with hold | heq
  · exact hplain hold
  · exact hkey heq.symm

theorem plain_addMetadata {read read' : Metadata × ℕ} {entry : String × JsValue}
    (hplain : read.1.Plain) (hadd : addMetadata read entry = .ok read') : read'.1.Plain := by
  unfold addMetadata at hadd
  split at hadd
  · split_ifs at hadd with hpattern hlength hproto
    · obtain rfl := Except.ok.inj hadd
      exact hplain
    · obtain rfl := Except.ok.inj hadd
      exact hplain.set hproto _
  · cases hadd

theorem plain_foldlM_addMetadata : ∀ {entries : List (String × JsValue)} {read read' : Metadata × ℕ},
    read.1.Plain → entries.foldlM addMetadata read = .ok read' → read'.1.Plain
  | [], read, read', hplain, hread => by
      obtain rfl := Except.ok.inj hread
      exact hplain
  | entry :: rest, read, read', hplain, hread => by
      rw [List.foldlM_cons] at hread
      cases hadd : addMetadata read entry with
      | error e =>
          rw [hadd] at hread
          cases hread
      | ok next =>
          rw [hadd] at hread
          exact plain_foldlM_addMetadata (plain_addMetadata hplain hadd) hread

theorem plain_optionalMetadata {body : JsonObject} {metadata : Metadata}
    (hread : optionalMetadata body = .ok (some metadata)) : metadata.Plain := by
  unfold optionalMetadata at hread
  split at hread
  · cases hread
  · rename_i entries _
    split_ifs at hread
    cases hfold : entries.foldlM addMetadata ((∅ : Metadata), 0) with
    | error e =>
        rw [hfold] at hread
        cases hread
    | ok read =>
        rw [hfold] at hread
        dsimp only at hread
        split_ifs at hread
        obtain rfl := Option.some.inj (Except.ok.inj hread)
        have hempty : ((∅ : Metadata), (0 : ℕ)).1.Plain := OrderedMap.not_mem_empty _
        exact plain_foldlM_addMetadata hempty hfold
  · cases hread

/-- **A join request that is read** has metadata that can be read back. -/
theorem plain_of_readJoin {parseUrl : String → Option AddressUrl} {body : JsonObject}
    {join : PeerJoinRequest} (hread : readJoin parseUrl body = .ok join) : join.Plain := by
  unfold readJoin at hread
  simp only [bind, Except.bind] at hread
  cases hbandwidth : optionalNonNegativeNumber body "uploadBandwidthBps" with
  | error e => simp [hbandwidth] at hread
  | ok bandwidth =>
      cases hmetadata : optionalMetadata body with
      | error e => simp [hbandwidth, hmetadata] at hread
      | ok metadata =>
          simp only [hbandwidth, hmetadata] at hread
          -- the ID and the address do not touch the metadata
          split at hread
          · cases hread
          · split at hread
            · cases hread
            · split at hread
              · cases hread
              · obtain rfl := Except.ok.inj hread
                rintro found rfl
                exact plain_optionalMetadata hmetadata

/-! ## The store -/

namespace TrackerStore

/-- Every stored peer can be read back. -/
def Plain (store : TrackerStore) : Prop :=
  ∀ b q peer, store.getPeer b q = some peer → peer.Plain

/-- One record is written. -/
theorem Plain.put {s s' : TrackerStore} (hs : s.Plain) {b : BroadcastId} {p : PeerId} {new : Peer}
    (hstore : ∀ b' q, s'.getPeer b' q = if b' = b ∧ q = p then some new else s.getPeer b' q)
    (hnew : new.Plain) : s'.Plain := by
  intro b' q peer hpeer
  rw [hstore] at hpeer
  split_ifs at hpeer
  · obtain rfl := Option.some.inj hpeer
    exact hnew
  · exact hs b' q peer hpeer

theorem PeerUpdated.plain {s s' : TrackerStore} {b : BroadcastId} {p : PeerId} {new : PeerState}
    (h : s.PeerUpdated s' b p (some new)) (hs : s.Plain) (hnew : new.peer.Plain) : s'.Plain :=
  hs.put h.getPeer hnew

theorem Plain.peerState {s : TrackerStore} (hs : s.Plain) {b : BroadcastId} {p : PeerId}
    {old : PeerState} (hold : s.peerState? b p = some old) : old.peer.Plain := by
  refine hs b p old.peer ?_
  rw [getPeer, hold, Option.map_some]

/-- A record is rewritten, its metadata is not. -/
theorem Plain.modifyPeer {s s' : TrackerStore} (hs : s.Plain) {b : BroadcastId} {p : PeerId}
    {f : PeerState → PeerState} {peer : Peer} (hmodify : s.modifyPeer b p f = .ok (s', peer))
    (hmetadata : ∀ old, (f old).peer.metadata = old.peer.metadata) : s'.Plain := by
  obtain ⟨old, hold, -, hupdated⟩ := modifyPeer_updated hmodify
  refine hupdated.plain hs fun metadata hsome => ?_
  exact hs.peerState hold metadata ((hmetadata old).symm.trans hsome)

/-- A record is made, or made anew, by a request. -/
theorem Plain.joined {s s' : TrackerStore} (hs : s.Plain) {t : Timestamp} {b : BroadcastId}
    {request : PeerJoinRequest} {options : JoinPeerOptions} {peer : Peer} {already : Bool}
    (hrequest : request.Plain)
    (hjoin : s.joinPeerDetailed t b request options = .ok (s', peer, already)) : s'.Plain := by
  obtain ⟨state, hstate, -, rfl, -, rfl⟩ := joinPeerDetailed_ok.mp hjoin
  have hjoined : (joinedPeer request ((state.peers.get? request.id).map PeerState.peer) t).Plain :=
    fun metadata hsome => hrequest metadata hsome
  exact (peerUpdated_setPeer hstate request.id _).plain hs hjoined

end TrackerStore

namespace TrackerWebSocketHub

variable {h h' : TrackerWebSocketHub} {s : SocketId} {b : BroadcastId} {p : PeerId}
  {P : WsServerMessage → Prop}

/-! ## What a step stores -/

/-- A join carries a request that was read from a body. -/
def ReadsJoins (parseUrl : String → Option AddressUrl) : HubEvent → Prop
  | .joinPeer _ _ request _ => ∃ body, readJoin parseUrl body = .ok request
  | _ => True

variable {parseUrl : String → Option AddressUrl}

/-- **Nothing but a join sets metadata.** -/
theorem plain_step (hsteady : h.Steady) (hplain : h.store.Plain) {e : HubEvent}
    (hreads : ReadsJoins parseUrl e) (hstep : h.step e = some h') : h'.store.Plain := by
  have hstores := step_stores hsteady.toSound hstep
  generalize h'.store = store at hstores ⊢
  cases hstores with
  | kept _ hstore => exact fun b q peer hpeer => hplain b q peer (hstore b q peer hpeer)
  | joined hjoin =>
      obtain ⟨body, hread⟩ := hreads
      exact hplain.joined (plain_of_readJoin hread) hjoin
  | revised _ hold hstore hmember =>
      refine hplain.put hstore fun metadata hsome => ?_
      exact hplain _ _ _ hold metadata (hmember.metadata.symm.trans hsome)
  | reported _ hold hstore hmember =>
      refine hplain.put hstore fun metadata hsome => ?_
      exact hplain _ _ _ hold metadata (hmember.metadata.symm.trans hsome)

/-! ## What a step sends -/

/-- What an event other than a flush leads to says nothing of peers but of stored ones. -/
theorem Tells.plain {e : HubEvent} {m : WsServerMessage} (hplain : h'.store.Plain)
    (hm : Tells h h' e m) : m.Plain := by
  cases hm with
  | membership e hm =>
      cases m with
      | peerJoined b joined =>
          intro peer hpeer
          obtain rfl := List.mem_singleton.mp hpeer
          exact hplain b peer.id peer hm
      | peerList b peers => exact fun peer hpeer => hplain b peer.id peer (hm peer hpeer)
      | peerLeft => exact fun peer hpeer => absurd hpeer List.not_mem_nil
      | segmentAvailable | segmentInventoryDelta | segmentInventoryBatch => exact hm.elim
  | @report s admitted t b q message m =>
      cases m with
      | segmentAvailable | segmentInventoryDelta =>
          exact fun peer hpeer => absurd hpeer List.not_mem_nil

/-- What held of the logs holds of what they become. -/
theorem Sends.all (hh : Sends P h h')
    (hsent : ∀ s socket, h.sockets.get? s = some socket → ∀ m ∈ socket.sent, P m) :
    ∀ s socket, h'.sockets.get? s = some socket → ∀ m ∈ socket.sent, P m := by
  intro s socket' hget
  cases hold : h.sockets.get? s with
  | none => exact hh.connected s socket' hget hold
  | some socket =>
      obtain ⟨found, sent, hfound, -, hlog, hnew⟩ := hh.grown s socket hold
      obtain rfl := Option.some.inj (hget.symm.trans hfound)
      intro m hm
      rw [hlog] at hm
      rcases List.mem_append.mp hm with hm | hm
      · exact hsent s socket hold m hm
      · exact hnew m hm

/-- Between two handlers: what is stored and what was sent can be read back. -/
structure Readable (h : TrackerWebSocketHub) : Prop extends Steady h where
  stores : h.store.Plain
  sent : ∀ s socket, h.sockets.get? s = some socket → ∀ m ∈ socket.sent, m.Plain

theorem Readable.step {e : HubEvent} (h₀ : h.Readable) (hreads : ReadsJoins parseUrl e)
    (hstep : h.step e = some h') : h'.Readable := by
  have hstores := plain_step h₀.toSteady h₀.stores hreads hstep
  have hsends : Sends WsServerMessage.Plain h h' := by
    cases hflushes : e.flushes with
    | false =>
        exact ((step_handles h₀.keyed hflushes hstep).sends h₀.toSteady).mono fun _ hm =>
          hm.plain hstores
    | true =>
        have hbatch : ∀ b updates, Batches WsServerMessage.Plain b updates :=
          fun _ _ _ _ peer hpeer => absurd hpeer List.not_mem_nil
        exact (step_flushes hflushes hstep).sends (fun b _ _ _ => hbatch b _)
          fun b _ _ => hbatch b _
  exact ⟨h₀.toSteady.step hstep, hstores, hsends.all h₀.sent⟩

/-! ## Reports over HTTP -/

/-- A failure report lowers a quality, or is only counted. -/
theorem reportPeerFailure_ok {store store' : TrackerStore} {now : Timestamp}
    {report : PeerFailureReport} {peer : Peer}
    (hreport : store.reportPeerFailure now b p report = .ok (store', peer)) :
    (∀ b' q, store'.getPeer b' q = store.getPeer b' q) ∨
      ∃ old new, store.getPeer b p = some old ∧ SameMember new old ∧
        new.segments = old.segments ∧
        ∀ b' q, store'.getPeer b' q
          = if b' = b ∧ q = p then some new else store.getPeer b' q := by
  unfold TrackerStore.reportPeerFailure at hreport
  split at hreport
  · cases hreport
  · cases hreport
  · dsimp only at hreport
    split_ifs at hreport
    · obtain ⟨old, hold, -, hupdated⟩ := TrackerStore.modifyPeer_updated hreport
      have hget : store.getPeer b p = some old.peer := by
        rw [TrackerStore.getPeer]
        exact congrArg (Option.map PeerState.peer) hold
      refine Or.inr ⟨old.peer, _, hget, ?_, ?_, hupdated.getPeer⟩
      · exact ⟨rfl, rfl, rfl, rfl⟩
      · rfl
    · obtain ⟨rfl, -⟩ := Prod.mk.inj (Except.ok.inj hreport)
      exact Or.inl fun _ _ => rfl

theorem reportPeerFailure_inventories {store store' : TrackerStore} {now : Timestamp}
    {report : PeerFailureReport} {peer : Peer}
    (hreport : store.reportPeerFailure now b p report = .ok (store', peer)) :
    store.SameInventoriesAs store' := by
  intro b' q
  rcases reportPeerFailure_ok hreport with hsame | ⟨old, new, hold, hmember, hsegments, hstore⟩
  · rw [hsame]
  · rw [hstore]
    split_ifs with hbq
    · obtain ⟨rfl, rfl⟩ := hbq
      rw [hold, Option.map_some, Option.map_some, hmember.id, hsegments]
    · rfl

theorem plain_reportPeerFailure {store store' : TrackerStore} {now : Timestamp}
    {report : PeerFailureReport} {peer : Peer} (hplain : store.Plain)
    (hreport : store.reportPeerFailure now b p report = .ok (store', peer)) : store'.Plain := by
  rcases reportPeerFailure_ok hreport with hsame | ⟨old, new, hold, hmember, -, hstore⟩
  · exact fun b' q found hfound => hplain b' q found ((hsame b' q).symm.trans hfound)
  · refine hplain.put hstore fun metadata hsome => ?_
    exact hplain b p old hold metadata (hmember.metadata.symm.trans hsome)

/-- A present record is rewritten. -/
theorem Steady.withRecord (hsteady : h.Steady) {store : TrackerStore} {old new : PeerState}
    (hold : h.store.peerState? b p = some old)
    (hupdated : h.store.PeerUpdated store b p (some new)) (hid : new.peer.id = old.peer.id) :
    Steady { h with store := store } := by
  have hget : h.store.getPeer b p = some old.peer := by
    rw [TrackerStore.getPeer, hold, Option.map_some]
  have hstore : ∀ b' q', store.getPeer b' q' =
      if b' = b ∧ q' = p then some new.peer else h.store.getPeer b' q' := hupdated.getPeer
  refine ⟨hsteady.withPeer (hid.trans (hsteady.keyed b p old.peer hget)) hstore, ?_,
    hsteady.scheduled⟩
  intro b' q hq
  have hstored := hsteady.registered b' q hq
  rw [mem_stored_iff] at hstored ⊢
  show (store.getPeer b' q).isSome = true
  rw [hstore]
  split_ifs
  · rfl
  · exact hstored

theorem Readable.publishInventory (h₀ : h.Readable) (m : InventoryMessage) :
    (h.publishInventory m).Readable := by
  have hplain : m.toServerMessage.Plain := by
    cases m <;> exact fun peer hpeer => absurd hpeer List.not_mem_nil
  have hsends : Sends WsServerMessage.Plain h (h.publishInventory m) :=
    sends_publishInventory hplain
  refine ⟨h₀.toSteady.publishInventory m, ?_, hsends.all h₀.sent⟩
  rw [(publishInventory_untouched ..).store]
  exact h₀.stores

theorem postSegments_ok {store store' : TrackerStore} {admitted : Bool} {t : Timestamp}
    {report : SegmentPossessionReport} {segments : List SegmentId}
    (hpost : TrackerServer.postSegments store admitted t b p report = .ok (store', segments)) :
    ∃ peer, store.reportSegments t b p segments (report.replace.getD false) = .ok (store', peer) := by
  unfold TrackerServer.postSegments at hpost
  split at hpost
  · cases hpost
  · split_ifs at hpost
    split at hpost
    · cases hpost
    · rename_i hreport
      obtain ⟨rfl, rfl⟩ := Prod.mk.inj (Except.ok.inj hpost)
      exact ⟨_, hreport⟩

/-! ## The life of a tracker -/

/-- What happens to a tracker. -/
inductive TrackerEvent where
  | hub (e : HubEvent)
  /-- A segment report by request, whose list is published. -/
  | postSegments (admitted : Bool) (timestamp : Timestamp) (broadcastId : BroadcastId)
      (peerId : PeerId) (report : SegmentPossessionReport)
  | reportFailure (now : Timestamp) (broadcastId : BroadcastId) (peerId : PeerId)
      (report : PeerFailureReport)
  /-- A new hub over what is stored. -/
  | restart (perTurn size : ℕ) (random : Stream' Draw)

/-- A tracker from its first start on. -/
def lifetime : TransitionSystem TrackerWebSocketHub TrackerEvent where
  init h := ∃ perTurn size random maxSegmentsPerPeer,
    h = .new perTurn size random (.new maxSegmentsPerPeer)
  step h
    | .hub e => h.step e
    | .postSegments admitted timestamp broadcastId peerId report =>
        match TrackerServer.postSegments h.store admitted timestamp broadcastId peerId report with
        | .error _ => some h
        | .ok (store, segments) =>
            some ({ h with store := store }.publishInventory
              (TrackerServer.segmentsAvailable broadcastId peerId segments))
    | .reportFailure now broadcastId peerId report =>
        some (h.withStore (h.store.reportPeerFailure now broadcastId peerId report))
    | .restart perTurn size random => some (.new perTurn size random h.store)

/-- Every join carries a request that was read from a body. -/
def ReadJoins (parseUrl : String → Option AddressUrl) (_ : TrackerWebSocketHub) :
    TrackerEvent → Prop
  | .hub e => ReadsJoins parseUrl e
  | _ => True

theorem readable_new (perTurn size : ℕ) (random : Stream' Draw) {store : TrackerStore}
    (hkeyed : ∀ b p peer, store.getPeer b p = some peer → peer.id = p) (hplain : store.Plain) :
    (TrackerWebSocketHub.new perTurn size random store).Readable := by
  refine ⟨steady_new perTurn size random hkeyed, hplain, fun s socket hget => ?_⟩
  cases hget

theorem Readable.postSegments (h₀ : h.Readable) {admitted : Bool} {t : Timestamp}
    {report : SegmentPossessionReport} {store : TrackerStore} {segments : List SegmentId}
    (hpost : TrackerServer.postSegments h.store admitted t b p report = .ok (store, segments)) :
    Readable { h with store := store } := by
  obtain ⟨peer, hreport⟩ := postSegments_ok hpost
  obtain ⟨old, hold, -, hupdated⟩ := TrackerStore.modifyPeer_updated hreport
  refine ⟨h₀.toSteady.withRecord hold hupdated rfl, hupdated.plain h₀.stores ?_, h₀.sent⟩
  exact fun metadata hsome => h₀.stores.peerState hold metadata hsome

/-- **Whatever happens to a tracker**, what it stores and sends can be read back. -/
theorem readable (hr : lifetime.Reachable (ReadJoins parseUrl) h) : h.Readable := by
  apply hr.invariant
  · rintro h ⟨perTurn, size, random, max, rfl⟩
    exact readable_new perTurn size random (fun _ _ _ hget => nomatch hget)
      fun _ _ _ hget => nomatch hget
  · intro h e h' h₀ hreads hstep
    cases e with
    | hub e => exact h₀.step hreads hstep
    | postSegments admitted t b p report =>
        dsimp only [lifetime] at hstep
        cases hpost : TrackerServer.postSegments h.store admitted t b p report with
        | error _ =>
            rw [hpost] at hstep
            exact Option.some.inj hstep ▸ h₀
        | ok result =>
            rw [hpost] at hstep
            obtain rfl := Option.some.inj hstep
            exact (h₀.postSegments hpost).publishInventory _
    | reportFailure now b p report =>
        obtain rfl := Option.some.inj hstep
        unfold withStore
        cases hreport : h.store.reportPeerFailure now b p report with
        | error _ => exact h₀
        | ok result =>
            have heff : StepEffect h (.closing 0) { h with store := result.1 } :=
              .stored _ (reportPeerFailure_inventories hreport)
            exact ⟨heff.steady h₀.toSteady, plain_reportPeerFailure h₀.stores hreport, h₀.sent⟩
    | restart perTurn size random =>
        obtain rfl := Option.some.inj hstep
        exact readable_new perTurn size random h₀.keyed h₀.stores

end TrackerWebSocketHub

end OpenStreamGrid

import OpenStreamGrid.Client.PeerDirectory

/-!
# A directory that follows a view

A neighbor-view client is told about the peers of its view only. `Follows` says
that its directory holds what the view shows, each copy `good` in a sense the
user of this module chooses, and, where `exact`, that it knows nobody else.
`Carries` says that a list of messages takes a directory from following one view
to following the next; a handler of the tracker is a sequence of such lists.
-/

namespace OpenStreamGrid

namespace PeerDirectory

/-! ## Peer messages -/

@[simp] theorem handleMessages_nil (d : PeerDirectory) : d.handleMessages [] = d := rfl

theorem handleMessages_append (d : PeerDirectory) (ms ms' : List WsServerMessage) :
    d.handleMessages (ms ++ ms') = (d.handleMessages ms).handleMessages ms' := List.foldl_append

@[simp] theorem handleMessage_broadcastId (d : PeerDirectory) (m : WsServerMessage) :
    (d.handleMessage m).broadcastId = d.broadcastId := by
  have hupdates : ∀ (updates : List SegmentInventoryUpdate) (e : PeerDirectory),
      (updates.foldl applyUpdate e).broadcastId = e.broadcastId := by
    intro updates
    induction updates with
    | nil => exact fun e => rfl
    | cons u rest ih => exact fun e => (ih _).trans (applyUpdate_broadcastId e u)
  unfold handleMessage
  split_ifs with hb
  · rfl
  · cases m with
    | peerList b peers => rfl
    | peerJoined b peer => rfl
    | peerLeft b p => rfl
    | segmentAvailable b p segments replace =>
        dsimp only
        split_ifs <;> exact mapInventory_broadcastId ..
    | segmentInventoryDelta b p added removed => exact mapInventory_broadcastId ..
    | segmentInventoryBatch b updates => exact hupdates updates d

@[simp] theorem handleMessages_broadcastId (ms : List WsServerMessage) : ∀ d : PeerDirectory,
    (d.handleMessages ms).broadcastId = d.broadcastId := by
  induction ms with
  | nil => exact fun d => rfl
  | cons m rest ih => exact fun d => (ih _).trans (handleMessage_broadcastId d m)

/-- Records set under their own IDs, one after another. -/
def setPeers (known : OrderedMap PeerId Peer) (peers : List Peer) : OrderedMap PeerId Peer :=
  peers.foldl (fun known peer => known.set peer.id peer) known

/-- A key holds one of the records set under it, or what it held. -/
theorem get?_setPeers (q : PeerId) (peers : List Peer) : ∀ known : OrderedMap PeerId Peer,
    (∃ peer ∈ peers, peer.id = q ∧ (setPeers known peers).get? q = some peer) ∨
      (∀ peer ∈ peers, peer.id ≠ q) ∧ (setPeers known peers).get? q = known.get? q := by
  induction peers with
  | nil => exact fun known => Or.inr ⟨fun _ h => absurd h List.not_mem_nil, rfl⟩
  | cons peer rest ih =>
      intro known
      rcases ih (known.set peer.id peer) with ⟨found, hmem, hid, hget⟩ | ⟨hnone, hget⟩
      · exact Or.inl ⟨found, List.mem_cons_of_mem _ hmem, hid, hget⟩
      · rw [OrderedMap.get?_set] at hget
        by_cases hq : q = peer.id
        · rw [if_pos hq] at hget
          exact Or.inl ⟨peer, List.mem_cons_self, hq.symm, hget⟩
        · rw [if_neg hq] at hget
          exact Or.inr ⟨List.forall_mem_cons.mpr ⟨fun e => hq e.symm, hnone⟩, hget⟩

theorem handleMessages_peerJoined (peers : List Peer) : ∀ d : PeerDirectory,
    d.handleMessages (peers.map (.peerJoined d.broadcastId))
      = { d with peers := setPeers d.peers peers } := by
  induction peers with
  | nil => exact fun d => rfl
  | cons peer rest ih =>
      intro d
      have hstep : d.handleMessage (.peerJoined d.broadcastId peer)
          = { d with peers := d.peers.set peer.id peer } := by
        simp [handleMessage, WsServerMessage.broadcastId]
      change (d.handleMessage _).handleMessages _ = _
      rw [hstep]
      exact ih { d with peers := d.peers.set peer.id peer }

theorem get?_handleMessages_peerLeft (q : PeerId) (left : List PeerId) : ∀ d : PeerDirectory,
    (d.handleMessages (left.map (.peerLeft d.broadcastId))).peers.get? q
      = if q ∈ left then none else d.peers.get? q := by
  induction left with
  | nil => exact fun d => by simp
  | cons p rest ih =>
      intro d
      have hstep : d.handleMessage (.peerLeft d.broadcastId p)
          = { d with peers := d.peers.delete p } := by
        simp [handleMessage, WsServerMessage.broadcastId]
      change ((d.handleMessage _).handleMessages _).peers.get? q = _
      rw [hstep]
      refine (ih { d with peers := d.peers.delete p }).trans ?_
      by_cases hq : q = p
      · simp [hq]
      · simp [hq]

theorem handleMessage_peerList (d : PeerDirectory) (peers : List Peer) :
    d.handleMessage (.peerList d.broadcastId peers) = { d with peers := setPeers ∅ peers } := by
  simp [handleMessage, WsServerMessage.broadcastId, setPeers]

theorem handleMessages_segmentInventoryBatch (batches : List (List SegmentInventoryUpdate)) :
    ∀ d : PeerDirectory,
    d.handleMessages (batches.map (.segmentInventoryBatch d.broadcastId))
      = batches.flatten.foldl applyUpdate d := by
  induction batches with
  | nil => exact fun d => rfl
  | cons updates rest ih =>
      intro d
      have hstep : d.handleMessage (.segmentInventoryBatch d.broadcastId updates)
          = updates.foldl applyUpdate d := by
        simp [handleMessage, WsServerMessage.broadcastId]
      have hb : (updates.foldl applyUpdate d).broadcastId = d.broadcastId := by
        rw [← hstep, handleMessage_broadcastId]
      change (d.handleMessage _).handleMessages _ = _
      rw [hstep, List.flatten_cons, List.foldl_append, ← ih, hb]

theorem mem_applyUpdates {q : PeerId} (updates : List SegmentInventoryUpdate) :
    ∀ d : PeerDirectory, q ∈ (updates.foldl applyUpdate d).peers ↔ q ∈ d.peers := by
  induction updates with
  | nil => exact fun d => Iff.rfl
  | cons u rest ih => exact fun d => (ih _).trans mem_applyUpdate

theorem inventory_of_get? {d : PeerDirectory} {q : PeerId} {peer : Peer}
    (h : d.peers.get? q = some peer) : d.inventory q = {x | x ∈ peer.segments} := by
  unfold inventory inventory?
  rw [h, Option.map_some, Option.getD_some]

theorem inventory_congr {d e : PeerDirectory} {q : PeerId}
    (h : e.peers.get? q = d.peers.get? q) : e.inventory q = d.inventory q := by
  unfold inventory inventory?
  rw [h]

theorem mem_congr {d e : PeerDirectory} {q : PeerId} (h : e.peers.get? q = d.peers.get? q) :
    q ∈ e.peers ↔ q ∈ d.peers := by
  rw [OrderedMap.mem_iff_isSome, OrderedMap.mem_iff_isSome, h]

end PeerDirectory

/-! ## Following a view -/

section Following

variable (good : PeerId → Set SegmentId → Prop) (stored : Set PeerId)

/-- The directory of the client of `p` holds what `view` shows of the stored
peers; where `exact`, it knows nobody else. -/
structure Follows (p : PeerId) (exact : Prop) (view : Set PeerId) (d : PeerDirectory) :
    Prop where
  own : p ∈ d.peers
  shown : ∀ q ∈ view, q ∈ stored → q ∈ d.peers ∧ good q (d.inventory q)
  known : exact → ∀ q ∈ d.peers, q = p ∨ q ∈ view

/-- The messages take a directory of `b` from following `view` to following
`view'`; only of a stored peer's directory is it asked to know nobody else. -/
def Carries (b : BroadcastId) (p : PeerId) (view view' : Set PeerId)
    (messages : List WsServerMessage) : Prop :=
  ∀ exact d, d.broadcastId = b → (exact → p ∈ stored) → Follows good stored p exact view d →
    Follows good stored p exact view' (d.handleMessages messages)

variable {good} {stored} {b : BroadcastId} {p : PeerId}

theorem Carries.refl (view : Set PeerId) : Carries good stored b p view view [] :=
  fun _ _ _ _ h => h

theorem Carries.trans {view view' view'' : Set PeerId} {ms ms' : List WsServerMessage}
    (h : Carries good stored b p view view' ms) (h' : Carries good stored b p view' view'' ms') :
    Carries good stored b p view view'' (ms ++ ms') := by
  intro exact d hb hexact hd
  rw [PeerDirectory.handleMessages_append]
  exact h' exact _ ((PeerDirectory.handleMessages_broadcastId ms d).trans hb) hexact
    (h exact d hb hexact hd)

/-- A view that shrinks while its own peer is not stored. -/
theorem Carries.narrow {view view' : Set PeerId} (hsub : ∀ x ∈ view', x ∈ view)
    (hself : p ∈ stored → view' = view) : Carries good stored b p view view' [] := by
  intro exact d _ hexact hd
  refine ⟨hd.own, fun q hq => hd.shown q (hsub q hq), fun h q hq => ?_⟩
  rw [hself (hexact h)]
  exact hd.known h q hq

/-- **Links that were made and dropped.** Every stored peer that is new in the
view is announced with its current record, and every dropped one is taken back. -/
theorem carries_links {view view' : Set PeerId} (new : Set PeerId) (joined : List Peer)
    (left : List PeerId) (hview : ∀ x, x ∈ view' ↔ x ∈ view ∧ x ∉ left ∨ x ∈ new)
    (hnew : ∀ x ∈ left, x ∉ new)
    (hself : p ∉ left)
    (hjoined : ∀ peer ∈ joined, peer.id ∈ new ∧ good peer.id {x | x ∈ peer.segments})
    (hstored : ∀ q ∈ new, q ∈ stored → ∃ peer ∈ joined, peer.id = q) :
    Carries good stored b p view view'
      (joined.map (.peerJoined b) ++ left.map (.peerLeft b)) := by
  rintro exact d rfl - h
  rw [PeerDirectory.handleMessages_append, PeerDirectory.handleMessages_peerJoined]
  set e : PeerDirectory := { d with peers := PeerDirectory.setPeers d.peers joined } with he
  have hleft := fun q => PeerDirectory.get?_handleMessages_peerLeft q left e
  set f := e.handleMessages (left.map (.peerLeft e.broadcastId)) with hf
  have hkeep : ∀ q, q ∉ left → f.peers.get? q = e.peers.get? q := by
    intro q hq
    rw [hleft, if_neg hq]
  have hjoin := fun q => PeerDirectory.get?_setPeers q joined d.peers
  change Follows good stored p exact view' f
  refine ⟨?_, ?_, ?_⟩
  · rw [PeerDirectory.mem_congr (hkeep p hself)]
    rcases hjoin p with ⟨peer, -, -, hget⟩ | ⟨-, hget⟩
    · exact OrderedMap.mem_of_get? hget
    · exact (PeerDirectory.mem_congr (d := d) hget).mpr h.own
  · intro q hq hqs
    have hnot : q ∉ left := by
      rcases (hview q).mp hq with hold | hin
      · exact hold.2
      · exact fun hmem => hnew q hmem hin
    rw [PeerDirectory.mem_congr (hkeep q hnot), PeerDirectory.inventory_congr (hkeep q hnot)]
    rcases hjoin q with ⟨peer, hmem, rfl, hget⟩ | ⟨hnone, hget⟩
    · rw [PeerDirectory.inventory_of_get? (d := e) hget]
      exact ⟨OrderedMap.mem_of_get? hget, (hjoined peer hmem).2⟩
    · have hold : q ∈ view := by
        rcases (hview q).mp hq with hold | hin
        · exact hold.1
        · obtain ⟨peer, hmem, hid⟩ := hstored q hin hqs
          exact absurd hid (hnone peer hmem)
      rw [PeerDirectory.mem_congr (d := d) hget, PeerDirectory.inventory_congr (d := d) hget]
      exact h.shown q hold hqs
  · intro hexact q hq
    have hnot : q ∉ left := by
      intro hmem
      rw [OrderedMap.mem_iff_isSome, hleft, if_pos hmem] at hq
      exact absurd hq (by simp)
    rw [PeerDirectory.mem_congr (hkeep q hnot)] at hq
    rcases hjoin q with ⟨peer, hmem, rfl, -⟩ | ⟨-, hget⟩
    · exact Or.inr ((hview _).mpr (Or.inr (hjoined peer hmem).1))
    · rcases h.known hexact q ((PeerDirectory.mem_congr (d := d) hget).mp hq) with hp | hold
      · exact Or.inl hp
      · exact Or.inr ((hview q).mpr (Or.inl ⟨hold, hnot⟩))

/-- One neighbor is gone. -/
theorem carries_peerLeft {view view' : Set PeerId} {q : PeerId}
    (hview : ∀ x, x ∈ view' ↔ x ∈ view ∧ x ≠ q) (hself : p ≠ q) :
    Carries good stored b p view view' [.peerLeft b q] := by
  refine carries_links ∅ [] [q] (fun x => ?_) ?_ ?_ ?_ ?_
  · simp [hview]
  · simp
  · simpa using hself
  · simp
  · simp

/-- A peer list starts the directory anew. -/
theorem follows_peerList (exact : Prop) {view : Set PeerId} {peers : List Peer}
    (d : PeerDirectory) (hp : p ∈ stored)
    (hlisted : ∀ peer ∈ peers,
      (peer.id = p ∨ peer.id ∈ view) ∧ good peer.id {x | x ∈ peer.segments})
    (hall : ∀ q ∈ stored, q = p ∨ q ∈ view → ∃ peer ∈ peers, peer.id = q) :
    Follows good stored p exact view (d.handleMessage (.peerList d.broadcastId peers)) := by
  rw [PeerDirectory.handleMessage_peerList]
  have hset := fun q => PeerDirectory.get?_setPeers q peers ∅
  have hmem : ∀ q, (∃ peer ∈ peers, peer.id = q) →
      ∃ peer ∈ peers, peer.id = q ∧ (PeerDirectory.setPeers ∅ peers).get? q = some peer := by
    rintro q ⟨peer, hmem, hid⟩
    rcases hset q with hfound | ⟨hnone, -⟩
    · exact hfound
    · exact absurd hid (hnone peer hmem)
  refine ⟨?_, ?_, ?_⟩
  · obtain ⟨peer, -, -, hget⟩ := hmem p (hall p hp (Or.inl rfl))
    exact OrderedMap.mem_of_get? hget
  · intro q hq hqs
    obtain ⟨peer, hpeer, rfl, hget⟩ := hmem q (hall q hqs (Or.inr hq))
    refine ⟨OrderedMap.mem_of_get? hget, ?_⟩
    rw [PeerDirectory.inventory_of_get? hget]
    exact (hlisted peer hpeer).2
  · intro _ q hq
    rcases hset q with ⟨peer, hpeer, rfl, -⟩ | ⟨-, hget⟩
    · exact (hlisted peer hpeer).1
    · rw [OrderedMap.mem_iff_isSome, hget] at hq
      exact absurd hq (by simp)

/-- The same directory under other requirements. -/
theorem Follows.mono {good' : PeerId → Set SegmentId → Prop} {stored' : Set PeerId}
    {exact exact' : Prop} {view view' : Set PeerId} {d : PeerDirectory}
    (h : Follows good stored p exact view d)
    (hshown : ∀ q ∈ view', q ∈ stored' → q ∈ view ∧ q ∈ stored ∧
      ∀ copy, good q copy → good' q copy)
    (hknown : exact' → (∀ q ∈ d.peers, q = p) ∨ exact ∧ ∀ q ∈ view, q ∈ view') :
    Follows good' stored' p exact' view' d where
  own := h.own
  shown q hq hqs := by
    obtain ⟨hold, hstored, hgood⟩ := hshown q hq hqs
    obtain ⟨hmem, hcopy⟩ := h.shown q hold hstored
    exact ⟨hmem, hgood _ hcopy⟩
  known hexact q hq := by
    rcases hknown hexact with halone | ⟨hold, hsub⟩
    · exact Or.inl (halone q hq)
    · exact (h.known hold q hq).imp_right (hsub q)

/-- Batches change the copies and nothing else. -/
theorem Follows.batches {exact : Prop} {view : Set PeerId} {d : PeerDirectory}
    (h : Follows good stored p exact view d) (good' : PeerId → Set SegmentId → Prop)
    (batches : List (List SegmentInventoryUpdate))
    (hgood : ∀ q ∈ view, q ∈ stored → ∀ copy, good q copy →
      good' q ((batchEffect batches.flatten q).apply copy)) :
    Follows good' stored p exact view
      (d.handleMessages (batches.map (.segmentInventoryBatch d.broadcastId))) := by
  rw [PeerDirectory.handleMessages_segmentInventoryBatch]
  refine ⟨(PeerDirectory.mem_applyUpdates _ d).mpr h.own, ?_, ?_⟩
  · intro q hq hqs
    obtain ⟨hmem, hcopy⟩ := h.shown q hq hqs
    obtain ⟨hmem', hinv⟩ := PeerDirectory.inventory_applyUpdates batches.flatten hmem
    refine ⟨hmem', ?_⟩
    rw [hinv]
    exact hgood q hq hqs _ hcopy
  · intro hexact q hq
    exact h.known hexact q ((PeerDirectory.mem_applyUpdates _ d).mp hq)

end Following

end OpenStreamGrid

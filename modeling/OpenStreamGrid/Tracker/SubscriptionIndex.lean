import OpenStreamGrid.Tracker.HubInvariant

/-!
# Where a subscription is indexed

The index of a broadcast holds its immediate and batched subscribers, and the
neighbor-view subscribers of each peer. A subscription belongs in exactly one of
these sets, the one its features call for. Every handler puts a socket there and
takes it out again, and what becomes empty is deleted.
-/

namespace OpenStreamGrid

/-- The sets of a broadcast's subscribers. -/
inductive Bucket where
  | immediate
  | batched
  | viewers (peerId : PeerId)
deriving DecidableEq

/-- The set that the features of a subscription call for. -/
def Subscription.bucket (subscription : Subscription) : Bucket :=
  if subscription.neighborView then .viewers subscription.peerId
  else if subscription.inventoryBatch then .batched
  else .immediate

namespace BroadcastSubscribers

variable {s : BroadcastSubscribers} {socket x : SocketId} {p : PeerId}

def bucket (s : BroadcastSubscribers) : Bucket → OrderedSet SocketId
  | .immediate => s.immediate
  | .batched => s.batched
  | .viewers peerId => s.viewersOf peerId

/-- No peer has an empty set of viewers. -/
def Tidy (s : BroadcastSubscribers) : Prop :=
  ∀ p sockets, s.viewers.get? p = some sockets → 0 < sockets.size

theorem not_mem_bucket_new (id : ℕ) (d : Bucket) : x ∉ (new id).bucket d := by
  cases d with
  | immediate => exact OrderedSet.not_mem_empty x
  | batched => exact OrderedSet.not_mem_empty x
  | viewers q => exact mem_viewersOf_new id

theorem mem_bucket_add {subscription : Subscription} {d : Bucket} :
    x ∈ (s.add socket subscription).bucket d ↔
      x ∈ s.bucket d ∨ d = subscription.bucket ∧ x = socket := by
  unfold Subscription.bucket
  cases d with
  | immediate =>
      change x ∈ (s.add socket subscription).immediate ↔ x ∈ s.immediate ∨ _
      unfold add
      split_ifs <;> simp
  | batched =>
      change x ∈ (s.add socket subscription).batched ↔ x ∈ s.batched ∨ _
      unfold add
      split_ifs <;> simp
  | viewers q =>
      refine mem_viewersOf_add.trans (or_congr Iff.rfl ?_)
      split_ifs with hview hbatch
      · simp [hview]
      · simp [hview]
      · simp [hview]

theorem mem_bucket_remove {d : Bucket} :
    x ∈ (s.remove socket p).bucket d ↔
      x ∈ s.bucket d ∧ ¬ (x = socket ∧ ∀ q, d = .viewers q → q = p) := by
  cases d with
  | immediate =>
      change x ∈ s.immediate.erase socket ↔ x ∈ s.immediate ∧ _
      simp
  | batched =>
      change x ∈ s.batched.erase socket ↔ x ∈ s.batched ∧ _
      simp
  | viewers q =>
      refine mem_viewersOf_remove.trans (and_congr Iff.rfl (not_congr ?_))
      constructor
      · rintro ⟨hq, hx⟩
        exact ⟨hx, fun q' hq' => (Bucket.viewers.inj hq').symm.trans hq⟩
      · rintro ⟨hx, hq⟩
        exact ⟨hq q rfl, hx⟩

theorem tidy_add (h : s.Tidy) (subscription : Subscription) :
    (s.add socket subscription).Tidy := by
  unfold add
  split_ifs
  · intro q sockets hq
    rw [OrderedMap.get?_set] at hq
    split_ifs at hq
    · obtain rfl := Option.some.inj hq
      exact OrderedSet.size_pos_of_mem (OrderedSet.mem_insert.mpr (Or.inr rfl))
    · exact h q sockets hq
  · exact h
  · exact h

theorem tidy_remove (h : s.Tidy) : (s.remove socket p).Tidy := by
  unfold remove
  intro q sockets hq
  dsimp only at hq
  cases hp : s.viewers.get? p with
  | none =>
      rw [hp] at hq
      exact h q sockets hq
  | some found =>
      rw [hp] at hq
      dsimp only at hq
      split_ifs at hq with hlast
      · rw [OrderedMap.get?_delete] at hq
        split_ifs at hq
        exact h q sockets hq
      · rw [OrderedMap.get?_set] at hq
        split_ifs at hq
        · obtain rfl := Option.some.inj hq
          exact Nat.pos_of_ne_zero hlast
        · exact h q sockets hq

theorem tidy_new (id : ℕ) : (new id).Tidy := by
  intro q sockets hq
  cases hq

/-- A record with a socket in one of its sets is not empty. -/
theorem isEmpty_of_mem {d : Bucket} (hx : x ∈ s.bucket d) : s.isEmpty = false := by
  by_contra hempty
  rw [Bool.not_eq_false] at hempty
  have hlisten : ¬ s.Listens x := (not_mem_of_isEmpty (q := "") hempty).2
  cases d with
  | immediate => exact hlisten (Or.inl hx)
  | batched => exact hlisten (Or.inr hx)
  | viewers q => exact (not_mem_of_isEmpty hempty).1 hx

end BroadcastSubscribers

namespace TrackerWebSocketHub

variable {h h' : TrackerWebSocketHub} {s x : SocketId} {b : BroadcastId} {d : Bucket}

/-- A set of the index. -/
def bucketAt (h : TrackerWebSocketHub) (b : BroadcastId) (d : Bucket) : OrderedSet SocketId :=
  (h.subscribersAt b).bucket d

/-- The socket has a subscription that is not empty, to this broadcast and for this set. -/
def BelongsIn (h : TrackerWebSocketHub) (s : SocketId) (b : BroadcastId) (d : Bucket) : Prop :=
  ∃ subscription, h.subscriptions.get? s = some subscription ∧
    subscription.broadcastId ≠ "" ∧ subscription.broadcastId = b ∧ subscription.bucket = d

/-- The index: every socket is in the set it belongs in and in no other, and nothing empty is
left. -/
structure Placed (h : TrackerWebSocketHub) : Prop where
  placed : ∀ s b d, s ∈ h.bucketAt b d ↔ h.BelongsIn s b d
  kept : ∀ b subscribers, h.subscribersByBroadcast.get? b = some subscribers →
    subscribers.isEmpty = false ∧ subscribers.Tidy

/-- The same, but for one socket, which is in no set. -/
structure PlacedBut (s : SocketId) (h : TrackerWebSocketHub) : Prop where
  placed : ∀ x b d, x ∈ h.bucketAt b d ↔ x ≠ s ∧ h.BelongsIn x b d
  kept : ∀ b subscribers, h.subscribersByBroadcast.get? b = some subscribers →
    subscribers.isEmpty = false ∧ subscribers.Tidy

/-- The index and the subscriptions are all that matters. -/
theorem Placed.congr (hp : h.Placed) (hsubs : h'.subscriptions = h.subscriptions)
    (hindex : h'.subscribersByBroadcast = h.subscribersByBroadcast) : h'.Placed where
  placed s b d := by
    unfold bucketAt subscribersAt BelongsIn
    rw [hindex, hsubs]
    exact hp.placed s b d
  kept b subscribers := by
    rw [hindex]
    exact hp.kept b subscribers

theorem not_belongsIn_empty (hsub : h.subscriptions.get? s = some EMPTY_SUBSCRIPTION) :
    ¬ h.BelongsIn s b d := by
  rintro ⟨subscription, hsome, hne, -⟩
  obtain rfl := Option.some.inj (hsub.symm.trans hsome)
  exact hne rfl

/-- A socket that is in no set and belongs in none. -/
theorem PlacedBut.placed_of_none (hp : PlacedBut s h) (hnone : ∀ b d, ¬ h'.BelongsIn s b d)
    (hothers : ∀ x, x ≠ s → h'.subscriptions.get? x = h.subscriptions.get? x)
    (hindex : h'.subscribersByBroadcast = h.subscribersByBroadcast) : h'.Placed where
  placed x b d := by
    have hbucket : h'.bucketAt b d = h.bucketAt b d := by
      unfold bucketAt subscribersAt
      rw [hindex]
    rw [hbucket, hp.placed]
    by_cases hx : x = s
    · rw [hx]
      exact iff_of_false (fun hmem => hmem.1 rfl) (hnone b d)
    · unfold BelongsIn
      rw [hothers x hx]
      exact and_iff_right hx
  kept b subscribers := by
    rw [hindex]
    exact hp.kept b subscribers

/-! ## Taking a socket out -/

/-- A socket without a subscription is in no set. -/
theorem Placed.but_of_none (hp : h.Placed) (hnone : ∀ b d, ¬ h.BelongsIn s b d) :
    PlacedBut s h where
  placed x b d := by
    rw [hp.placed]
    refine (and_iff_right_of_imp fun hbelongs => ?_).symm
    rintro rfl
    exact hnone b d hbelongs
  kept := hp.kept

/-- **Unindexing** takes a socket out of the one set it is in. -/
theorem Placed.unindexSubscription (hp : h.Placed) (s : SocketId) :
    PlacedBut s (h.unindexSubscription s) := by
  unfold TrackerWebSocketHub.unindexSubscription
  cases hsub : h.subscriptions.get? s with
  | none =>
      refine hp.but_of_none ?_
      rintro b d ⟨subscription, hsome, -⟩
      cases hsub.symm.trans hsome
  | some sub =>
      dsimp only
      split_ifs with hempty
      · refine hp.but_of_none ?_
        rintro b d ⟨subscription, hsome, hne, -⟩
        obtain rfl := Option.some.inj (hsub.symm.trans hsome)
        exact hne hempty
      have hmine : s ∈ h.bucketAt sub.broadcastId sub.bucket :=
        (hp.placed s _ _).mpr ⟨sub, hsub, hempty, rfl, rfl⟩
      cases hb : h.subscribersByBroadcast.get? sub.broadcastId with
      | none =>
          unfold bucketAt subscribersAt at hmine
          rw [hb] at hmine
          exact absurd hmine (BroadcastSubscribers.not_mem_bucket_new 0 _)
      | some subscribers =>
          dsimp only
          have hat : h.subscribersAt sub.broadcastId = subscribers := by
            rw [subscribersAt, hb, Option.getD_some]
          have htidy := (hp.kept _ _ hb).2
          -- What is left in the broadcast's sets, whether its record is deleted or kept.
          have hleft : ∀ x d, x ∈ (subscribers.remove s sub.peerId).bucket d ↔
              x ≠ s ∧ h.BelongsIn x sub.broadcastId d := by
            intro x d
            have hold : x ∈ subscribers.bucket d ↔ h.BelongsIn x sub.broadcastId d := by
              rw [← hp.placed, bucketAt, hat]
            rw [BroadcastSubscribers.mem_bucket_remove, hold, and_comm]
            refine and_congr_left fun hbelongs => not_congr (and_iff_left_of_imp ?_)
            rintro rfl q rfl
            obtain ⟨subscription, hsome, -, -, hbucket⟩ := hbelongs
            obtain rfl := Option.some.inj (hsub.symm.trans hsome)
            unfold Subscription.bucket at hbucket
            split_ifs at hbucket
            exact (Bucket.viewers.inj hbucket).symm
          have hother : ∀ b d, b ≠ sub.broadcastId → ¬ h.BelongsIn s b d := by
            rintro b d hne ⟨subscription, hsome, -, hbroadcast, -⟩
            obtain rfl := Option.some.inj (hsub.symm.trans hsome)
            exact hne hbroadcast.symm
          constructor
          · intro x b d
            by_cases hbroadcast : b = sub.broadcastId
            · subst hbroadcast
              refine Iff.trans ?_ (hleft x d)
              unfold bucketAt subscribersAt
              dsimp only
              split_ifs with hlast
              · rw [OrderedMap.get?_delete, if_pos rfl, Option.getD_none]
                refine iff_of_false (BroadcastSubscribers.not_mem_bucket_new 0 d) fun hmem => ?_
                exact absurd (BroadcastSubscribers.isEmpty_of_mem hmem) (by rw [hlast]; decide)
              · rw [OrderedMap.get?_set, if_pos rfl, Option.getD_some]
            · have hsame : ∀ index, index.get? b = h.subscribersByBroadcast.get? b →
                  (x ∈ bucketAt { h with subscribersByBroadcast := index } b d ↔
                    x ≠ s ∧ h.BelongsIn x b d) := by
                intro index hindex
                unfold bucketAt subscribersAt
                dsimp only
                rw [hindex]
                refine (hp.placed x b d).trans (and_iff_right_of_imp fun hbelongs => ?_).symm
                rintro rfl
                exact hother b d hbroadcast hbelongs
              split_ifs
              · exact hsame _ (by rw [OrderedMap.get?_delete, if_neg hbroadcast])
              · exact hsame _ (by rw [OrderedMap.get?_set, if_neg hbroadcast])
          · intro b found hfound
            dsimp only at hfound
            split_ifs at hfound with hlast
            · rw [OrderedMap.get?_delete] at hfound
              split_ifs at hfound
              exact hp.kept b found hfound
            · rw [OrderedMap.get?_set] at hfound
              split_ifs at hfound
              · obtain rfl := Option.some.inj hfound
                exact ⟨Bool.not_eq_true _ ▸ hlast, BroadcastSubscribers.tidy_remove htidy⟩
              · exact hp.kept b found hfound

/-! ## Putting a socket in -/

/-- **Indexing** puts a socket into the set it belongs in. -/
theorem Placed.setSubscription (hp : h.Placed) {sub : Subscription} (hb : sub.broadcastId ≠ "") :
    (h.setSubscription s sub).Placed := by
  have hbut := hp.unindexSubscription s
  obtain ⟨index, hindex⟩ := h.unindexSubscription_eq s
  unfold TrackerWebSocketHub.setSubscription
  rw [hindex] at hbut ⊢
  dsimp only
  -- The record that is extended: the broadcast's, or a new one.
  have hadded : ∀ (found : BroadcastSubscribers) (created : ℕ), found.Tidy →
      (∀ x d, x ∈ found.bucket d ↔ x ≠ s ∧ h.BelongsIn x sub.broadcastId d) →
      Placed { h with
        subscriptions := h.subscriptions.set s sub
        subscribersByBroadcast := index.set sub.broadcastId (found.add s sub)
        subscribersCreated := created } := by
    intro found created htidy hfound
    constructor
    · intro x b d
      have hbelongs : BelongsIn { h with
            subscriptions := h.subscriptions.set s sub
            subscribersByBroadcast := index.set sub.broadcastId (found.add s sub)
            subscribersCreated := created } x b d ↔
          (x ≠ s ∧ h.BelongsIn x b d) ∨ x = s ∧ sub.broadcastId = b ∧ sub.bucket = d := by
        unfold BelongsIn
        dsimp only
        rw [OrderedMap.get?_set]
        by_cases hx : x = s
        · rw [if_pos hx]
          constructor
          · rintro ⟨subscription, hsome, -, hrest⟩
            obtain rfl := Option.some.inj hsome
            exact Or.inr ⟨hx, hrest⟩
          · rintro (⟨hne, -⟩ | ⟨-, hrest⟩)
            · exact absurd hx hne
            · exact ⟨sub, rfl, hb, hrest⟩
        · rw [if_neg hx]
          simp [hx]
      rw [hbelongs]
      unfold bucketAt subscribersAt
      dsimp only
      rw [OrderedMap.get?_set]
      by_cases hbroadcast : b = sub.broadcastId
      · subst hbroadcast
        rw [if_pos rfl, Option.getD_some, BroadcastSubscribers.mem_bucket_add, hfound]
        refine or_congr Iff.rfl ?_
        constructor
        · rintro ⟨rfl, rfl⟩
          exact ⟨rfl, rfl, rfl⟩
        · rintro ⟨rfl, -, rfl⟩
          exact ⟨rfl, rfl⟩
      · rw [if_neg hbroadcast]
        refine (hbut.placed x b d).trans (or_iff_left ?_).symm
        rintro ⟨-, rfl, -⟩
        exact hbroadcast rfl
    · intro b record hrecord
      dsimp only at hrecord
      rw [OrderedMap.get?_set] at hrecord
      split_ifs at hrecord
      · obtain rfl := Option.some.inj hrecord
        refine ⟨?_, BroadcastSubscribers.tidy_add htidy sub⟩
        exact BroadcastSubscribers.isEmpty_of_mem
          (BroadcastSubscribers.mem_bucket_add.mpr (Or.inr ⟨rfl, rfl⟩))
      · exact hbut.kept b record hrecord
  have hfound := fun x d => hbut.placed x sub.broadcastId d
  unfold bucketAt subscribersAt at hfound
  dsimp only at hfound
  cases hget : index.get? sub.broadcastId with
  | none =>
      rw [hget, Option.getD_none] at hfound
      exact hadded _ _ (BroadcastSubscribers.tidy_new _) hfound
  | some found =>
      rw [hget, Option.getD_some] at hfound
      exact hadded _ _ (hbut.kept _ _ hget).2 hfound

/-! ## The handlers -/

theorem Placed.withStore (hp : h.Placed) (store : TrackerStore) :
    Placed { h with store := store } :=
  hp.congr rfl rfl

theorem Placed.removeSocket (hp : h.Placed) (s : SocketId) : (h.removeSocket s).Placed := by
  have hclose : (h.close s).Placed := hp.congr rfl rfl
  refine (hclose.unindexSubscription s).placed_of_none ?_ ?_ rfl
  · rintro b d ⟨subscription, hsome, -⟩
    unfold TrackerWebSocketHub.removeSocket at hsome
    rw [OrderedMap.get?_delete, if_pos rfl] at hsome
    cases hsome
  · intro x hx
    obtain ⟨index, hindex⟩ := (h.close s).unindexSubscription_eq s
    unfold TrackerWebSocketHub.removeSocket
    rw [hindex]
    exact (OrderedMap.get?_delete ..).trans (if_neg hx)

theorem Placed.dropSubscriber (hp : h.Placed) (s : SocketId) : (h.dropSubscriber s).Placed := by
  have hget : (h.dropSubscriber s).subscriptions.get? s = some EMPTY_SUBSCRIPTION :=
    (OrderedMap.get?_set ..).trans (if_pos rfl)
  refine (hp.unindexSubscription s).placed_of_none (fun b d => not_belongsIn_empty hget) ?_ rfl
  intro x hx
  obtain ⟨index, hindex⟩ := h.unindexSubscription_eq s
  unfold TrackerWebSocketHub.dropSubscriber
  rw [hindex]
  exact (OrderedMap.get?_set ..).trans (if_neg hx)

theorem Placed.dropSubscribers (sockets : List SocketId) : ∀ {h : TrackerWebSocketHub}, h.Placed →
    (sockets.foldl TrackerWebSocketHub.dropSubscriber h).Placed := by
  induction sockets with
  | nil => exact fun hp => hp
  | cons s rest ih => exact fun hp => ih (hp.dropSubscriber s)

theorem Placed.broadcastRemoved (hp : h.Placed) (b : BroadcastId) :
    (h.broadcastRemoved b).Placed := by
  unfold TrackerWebSocketHub.broadcastRemoved
  dsimp only
  exact Placed.dropSubscribers _ (hp.congr rfl rfl)

theorem Placed.peerJoined (hp : h.Placed) (b : BroadcastId) (peer : Peer) :
    (h.peerJoined b peer).Placed := by
  unfold TrackerWebSocketHub.peerJoined
  dsimp only
  split
  · exact hp.congr rfl rfl
  · exact hp.congr rfl rfl

theorem Placed.peerLeft (hp : h.Placed) (b : BroadcastId) (p : PeerId) :
    (h.peerLeft b p).Placed := by
  unfold TrackerWebSocketHub.peerLeft
  dsimp only
  split
  · exact hp.congr rfl rfl
  · exact hp.congr rfl rfl

theorem Placed.peersLeft (removed : List StalePeer) : ∀ {h : TrackerWebSocketHub}, h.Placed →
    (h.peersLeft removed).Placed := by
  induction removed with
  | nil => exact fun hp => hp
  | cons x rest ih => exact fun hp => ih (hp.peerLeft x.broadcastId x.peerId)

theorem Placed.publishInventory (hp : h.Placed) (m : InventoryMessage) :
    (h.publishInventory m).Placed := by
  unfold TrackerWebSocketHub.publishInventory queueInventory
  split
  · exact hp
  · dsimp only
    split_ifs
    · exact hp.congr rfl rfl
    · exact hp.congr rfl rfl

theorem Placed.subscribed (hp : h.Placed) {sub : Subscription} (hb : sub.broadcastId ≠ "")
    (out : Outgoing) : ((h.setSubscription s sub).deliver out).Placed :=
  (hp.setSubscription hb).congr rfl rfl

theorem Placed.handleSubscribe (hp : h.Placed) {p : PeerId} {features : Option (List String)}
    (hb : b ≠ "") (hok : h.handleSubscribe s b p features = .ok h') : h'.Placed := by
  unfold TrackerWebSocketHub.handleSubscribe at hok
  dsimp only at hok
  cases hlist : h.store.listPeers b none with
  | error e =>
      rw [hlist] at hok
      split_ifs at hok
      cases hseed : h.seededViews b with
      | none =>
          rw [hseed] at hok
          cases hok
      | some views =>
          rw [hseed] at hok
          obtain rfl := Except.ok.inj hok
          refine Placed.subscribed ?_ hb _
          exact hp.congr rfl rfl
  | ok peers =>
      rw [hlist] at hok
      split_ifs at hok
      · cases hseed : h.seededViews b with
        | none =>
            rw [hseed] at hok
            obtain rfl := Except.ok.inj hok
            exact hp.subscribed hb _
        | some views =>
            rw [hseed] at hok
            obtain rfl := Except.ok.inj hok
            refine Placed.subscribed ?_ hb _
            exact hp.congr rfl rfl
      · obtain rfl := Except.ok.inj hok
        exact hp.subscribed hb _

theorem Placed.handleReport (hp : h.Placed) {admitted : Bool} {t : Timestamp} {p : PeerId}
    {report : ReportSegmentsMessage} (hok : h.handleReport s admitted t b p report = .ok h') :
    h'.Placed := by
  unfold TrackerWebSocketHub.handleReport at hok
  dsimp only at hok
  split_ifs at hok
  split at hok
  · cases hok
  · obtain rfl := Except.ok.inj hok
    exact hp.withStore _
  · obtain rfl := Except.ok.inj hok
    exact (hp.withStore _).publishInventory _

/-- Every handler keeps the index. -/
theorem Handles.placed {e : HubEvent} (hh : Handles h e h') (hi : h.Indexed) (hp : h.Placed) :
    h'.Placed := by
  cases hh with
  | stored => exact hp.congr rfl rfl
  | joined => exact (hp.withStore _).peerJoined _ _
  | left => exact Placed.peersLeft _ (hp.withStore _)
  | removed => exact (hp.withStore _).broadcastRemoved _
  | @connected s claims hfresh =>
      have hnone : h.subscriptions.get? s = none :=
        OrderedMap.get?_eq_none_iff.mpr fun hmem => hfresh (hi.connected s hmem)
      have hbut : PlacedBut s h := by
        refine hp.but_of_none ?_
        rintro b d ⟨subscription, hsome, -⟩
        cases hnone.symm.trans hsome
      refine hbut.placed_of_none (fun b d => not_belongsIn_empty ?_) ?_ rfl
      · exact (OrderedMap.get?_set ..).trans (if_pos rfl)
      · exact fun x hx => (OrderedMap.get?_set ..).trans (if_neg hx)
  | closing => exact hp.congr rfl rfl
  | closed => exact hp.removeSocket _
  | subscribed hb _ hok => exact hp.handleSubscribe hb hok
  | reported hok => exact hp.handleReport hok

/-- Flushes only send. -/
theorem placed_flush : FlushInvariant fun h => h.Steady ∧ h.Placed where
  steady _ hh := hh.1
  waits h timers flushRequested hh :=
    ⟨steady_flush.waits h timers flushRequested hh.1, hh.2.congr rfl rfl⟩
  ends h b out hh hidle hquiet hnone :=
    ⟨steady_flush.ends h b out hh.1 hidle hquiet hnone, hh.2.congr rfl rfl⟩
  starts h b out pending subscribers hh hidle hquiet hpending hsubscribers :=
    ⟨steady_flush.starts h b out pending subscribers hh.1 hidle hquiet hpending hsubscribers,
      hh.2.congr rfl rfl⟩
  slice h b job immediates hh hjob hnone hothers := by
    refine ⟨steady_flush.slice h b job immediates hh.1 hjob hnone hothers, ?_⟩
    obtain ⟨sockets, ⟨-, heq⟩ | ⟨-, heq⟩⟩ :=
      sendSlice_cases { h with immediates := immediates } b job
    · rw [heq]
      exact hh.2.congr rfl rfl
    · rw [heq]
      exact hh.2.congr rfl rfl

theorem placed_new (perTurn size : ℕ) (random : Stream' Draw) (store : TrackerStore) :
    (TrackerWebSocketHub.new perTurn size random store).Placed where
  placed s b d := by
    refine iff_of_false (BroadcastSubscribers.not_mem_bucket_new 0 d) ?_
    rintro ⟨subscription, hsome, -⟩
    cases hsome
  kept b subscribers hsome := by cases hsome

/-- Between two handlers, in every reachable state, the index is in order. -/
theorem steady_placed (hr : system.Reachable (fun _ _ => True) h) : h.Steady ∧ h.Placed := by
  refine hr.invariant (fun h => h.Steady ∧ h.Placed) ?_ ?_
  · rintro h ⟨perTurn, size, random, store, rfl, hkeyed⟩
    exact ⟨steady_new perTurn size random hkeyed, placed_new perTurn size random store⟩
  · intro h e h' hh _ hstep
    cases hflushes : e.flushes with
    | true => exact placed_flush.step hh (step_flushes hflushes hstep)
    | false =>
        have hhandles := step_handles hh.1.keyed hflushes hstep
        exact ⟨hh.1.step hstep, hhandles.placed hh.1.indexed hh.2⟩

/-- **The index and the subscriptions agree in every reachable state.** A socket is in a set of a
broadcast exactly if it has a subscription to that broadcast whose features call for that set, and
it is a connected socket; no set of viewers and no broadcast's entry is empty. -/
theorem subscription_index_consistent (hr : system.Reachable (fun _ _ => True) h) :
    (∀ s b d, s ∈ h.bucketAt b d ↔ h.BelongsIn s b d) ∧
      (∀ s ∈ h.subscriptions, s ∈ h.sockets) ∧
      ∀ b subscribers, h.subscribersByBroadcast.get? b = some subscribers →
        subscribers.isEmpty = false ∧ subscribers.Tidy := by
  obtain ⟨hsteady, hplaced⟩ := steady_placed hr
  exact ⟨hplaced.placed, hsteady.indexed.connected, hplaced.kept⟩

theorem subscription_index_consistent_firstViewer :
    0 ∈ (endOf firstViewer).bucketAt "live" (.viewers "p") := by
  have hrun : system.run start firstViewer = some (endOf firstViewer) :=
    run_endOf (by decide +kernel)
  have h := subscription_index_consistent (TransitionSystem.reachable_of_run init_start hrun)
  exact (h.1 0 "live" (.viewers "p")).mpr
    ⟨⟨"live", "p", true, true⟩, by decide +kernel, by decide, rfl, rfl⟩

end TrackerWebSocketHub

end OpenStreamGrid

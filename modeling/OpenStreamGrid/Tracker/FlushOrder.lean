import OpenStreamGrid.Tracker.FlushTimers
import OpenStreamGrid.Tracker.FlushTrace

/-!
# Every batch once, in order

Timers, the flushing flag, the flush-requested flag and the scheduled slices
make up a small scheduler. Whatever the order of events, at most one chain of
slices runs for a broadcast, and the batches a socket receives come in the order
of their flushes, none twice under one subscription.
-/

namespace OpenStreamGrid

variable {rs : List Receipt} {m n : ℕ} {b : BroadcastId} {us : List SegmentInventoryUpdate}

/-! ## Receipts in order -/

/-- The flush was not received since the last subscription. -/
def Fresh (n : ℕ) (rs : List Receipt) : Prop :=
  ∀ later, later <:+ rs → Receipt.subscribed ∉ later → n ∉ flushesOf later

structure InOrder (rs : List Receipt) : Prop where
  sorted : (flushesOf rs).Pairwise (· ≤ ·)
  /-- Of what is received under one subscription, no two are the same flush. -/
  once : ∀ during, during <:+: rs → Receipt.subscribed ∉ during → (flushesOf during).Nodup

theorem inOrder_nil : InOrder [] where
  sorted := List.Pairwise.nil
  once during hduring _ := by
    rw [List.infix_nil.mp hduring]
    exact List.nodup_nil

theorem fresh_of_lt (hlt : ∀ m ∈ flushesOf rs, m < n) : Fresh n rs := by
  intro later hlater _ hn
  obtain ⟨b, us, hmem⟩ := mem_flushesOf.mp hn
  exact lt_irrefl n (hlt n (mem_flushesOf.mpr ⟨b, us, hlater.subset hmem⟩))

theorem Fresh.batch (hfresh : Fresh n rs) (hne : m ≠ n) : Fresh n (rs ++ [.batch b m us]) := by
  intro later hlater hsub
  rcases List.suffix_concat_iff.mp hlater with rfl | ⟨older, rfl, holder⟩
  · exact List.not_mem_nil
  · rw [flushesOf_append]
    intro hn
    rcases List.mem_append.mp hn with hn | hn
    · exact hfresh older holder (fun hmem => hsub (List.mem_append_left _ hmem)) hn
    · exact hne (List.mem_singleton.mp hn).symm

theorem fresh_subscribed : Fresh n (rs ++ [.subscribed]) := by
  intro later hlater hsub
  rcases List.suffix_concat_iff.mp hlater with rfl | ⟨older, rfl, -⟩
  · exact List.not_mem_nil
  · exact absurd (List.mem_append_right _ List.mem_cons_self) hsub

theorem InOrder.subscribed (horder : InOrder rs) : InOrder (rs ++ [.subscribed]) where
  sorted := by
    rw [flushesOf_append]
    exact (List.append_nil (flushesOf rs)).symm ▸ horder.sorted
  once during hduring hsub := by
    rcases List.infix_concat_iff.mp hduring with hsuffix | hinfix
    · rcases List.suffix_concat_iff.mp hsuffix with rfl | ⟨older, rfl, -⟩
      · exact List.nodup_nil
      · exact absurd (List.mem_append_right _ List.mem_cons_self) hsub
    · exact horder.once during hinfix hsub

/-- A later flush, or the same one to a socket that subscribed since. -/
theorem InOrder.batch (horder : InOrder rs) (hle : ∀ m ∈ flushesOf rs, m ≤ n)
    (hfresh : Fresh n rs) : InOrder (rs ++ [.batch b n us]) where
  sorted := by
    rw [flushesOf_append]
    refine List.pairwise_append.mpr ⟨horder.sorted, List.pairwise_singleton _ _, ?_⟩
    intro m hm k hk
    rw [List.mem_singleton.mp hk]
    exact hle m hm
  once during hduring hsub := by
    rcases List.infix_concat_iff.mp hduring with hsuffix | hinfix
    · rcases List.suffix_concat_iff.mp hsuffix with rfl | ⟨older, rfl, holder⟩
      · exact List.nodup_nil
      · have hold : Receipt.subscribed ∉ older := fun hmem => hsub (List.mem_append_left _ hmem)
        rw [flushesOf_append]
        refine List.nodup_append.mpr ⟨horder.once older holder.isInfix hold,
          List.nodup_singleton n, ?_⟩
        rintro m hm k hk rfl
        rw [List.mem_singleton.mp hk] at hm
        exact hfresh older holder hold hm
    · exact horder.once during hinfix hsub

namespace TrackerWebSocketHub

variable {h : TrackerWebSocketHub} {s : SocketId} {p : PeerId}

/-- A subscription is to the broadcast of the socket's session. -/
def OwnSubscriptions (h : TrackerWebSocketHub) : Prop :=
  ∀ s sub, h.subscriptions.get? s = some sub → sub.broadcastId ≠ "" →
    ∃ socket, h.sockets.get? s = some socket ∧ socket.claims = ⟨sub.broadcastId, sub.peerId⟩

/-- The session of the socket is one for the broadcast. -/
def SessionFor (h : TrackerWebSocketHub) (s : SocketId) (b : BroadcastId) : Prop :=
  ∃ socket, h.sockets.get? s = some socket ∧ socket.claims.broadcastId = b

theorem SessionFor.unique {b' : BroadcastId} (hs : h.SessionFor s b) (hs' : h.SessionFor s b') :
    b = b' := by
  obtain ⟨socket, hget, rfl⟩ := hs
  obtain ⟨socket', hget', rfl⟩ := hs'
  rw [Option.some.inj (hget.symm.trans hget')]

theorem OwnSubscriptions.viewer (hown : h.OwnSubscriptions) (hi : h.Indexed)
    (hs : s ∈ h.viewerSockets b p) : h.SessionFor s b := by
  obtain ⟨sub, hsub, -, rfl, -⟩ := (hi.viewers s b p).mp hs
  have hb : sub.broadcastId ≠ "" := by
    intro hempty
    rw [hempty] at hs
    have hnone := OrderedMap.get?_eq_none_iff.mpr hi.named
    rw [viewerSockets, hnone] at hs
    exact OrderedSet.not_mem_empty s hs
  obtain ⟨socket, hget, hclaims⟩ := hown s sub hsub hb
  exact ⟨socket, hget, by rw [hclaims]⟩

theorem OwnSubscriptions.listener (hown : h.OwnSubscriptions) (hi : h.Indexed)
    (hs : (h.subscribersAt b).Listens s) : h.SessionFor s b := by
  obtain ⟨sub, hsub, -, rfl⟩ := hi.listeners s b hs
  have hb : sub.broadcastId ≠ "" := by
    intro hempty
    have hnone := OrderedMap.get?_eq_none_iff.mpr hi.named
    rw [hempty, subscribersAt, hnone] at hs
    exact BroadcastSubscribers.not_listens_new 0 hs
  obtain ⟨socket, hget, hclaims⟩ := hown s sub hsub hb
  exact ⟨socket, hget, by rw [hclaims]⟩

theorem SessionFor.sends {h : TrackerWebSocketHub} {sockets : OrderedMap SocketId Socket}
    (hs : h.SessionFor s b) (hsends : Sends (fun _ => True) h { h with sockets := sockets }) :
    SessionFor { h with sockets := sockets } s b := by
  obtain ⟨socket, hget, rfl⟩ := hs
  obtain ⟨socket', -, hget', hclaims, -⟩ := hsends.grown s socket hget
  exact ⟨socket', hget', by rw [hclaims]⟩

theorem OwnSubscriptions.sends {sockets : OrderedMap SocketId Socket} (hown : h.OwnSubscriptions)
    (hsends : Sends (fun _ => True) h { h with sockets := sockets }) :
    OwnSubscriptions { h with sockets := sockets } := by
  intro s sub hsub hb
  obtain ⟨socket, hget, hclaims⟩ := hown s sub hsub hb
  obtain ⟨socket', -, hget', hclaims', -⟩ := hsends.grown s socket hget
  exact ⟨socket', hget', hclaims'.trans hclaims⟩

end TrackerWebSocketHub

namespace TracedHub

open TrackerWebSocketHub

/-- The slices that wait, and the one that runs. -/
def slices (t : TracedHub) : Option ScheduledSlice → List ScheduledSlice
  | none => t.queue
  | some running => running :: t.queue

/-- The rest of a flush: its sockets received nothing of a later flush, and
those whose turn is still to come not this one. -/
structure Pending (t : TracedHub) (slice : ScheduledSlice) : Prop where
  begun : slice.flush < t.flushes
  distinct : slice.job.viewerIds.Nodup
  latest : ∀ s n us, (s, Receipt.batch slice.broadcastId n us) ∈ t.log → n ≤ slice.flush
  unserved : ∀ p ∈ slice.job.viewerIds.drop slice.job.start,
    ∀ s ∈ t.hub.viewerSockets slice.broadcastId p, Fresh slice.flush (receiptsTo s t.log)

/-- What holds while `running` is about to send its slice, and between two
handlers, when none is. -/
structure Orderly (running : Option ScheduledSlice) (t : TracedHub) : Prop where
  sound : t.hub.Sound
  own : t.hub.OwnSubscriptions
  distinct : ((t.slices running).map ScheduledSlice.broadcastId).Nodup
  flushing : ∀ b, b ∈ t.hub.flushing ↔ ∃ slice ∈ t.slices running, slice.broadcastId = b
  immediates : ∀ b job, t.hub.immediates.get? b = some job ↔
    ∃ slice ∈ t.queue, slice.broadcastId = b ∧ slice.job = job
  pending : ∀ slice ∈ t.slices running, t.Pending slice
  received : ∀ s b n us, (s, Receipt.batch b n us) ∈ t.log →
    n < t.flushes ∧ t.hub.SessionFor s b
  inOrder : ∀ s, InOrder (receiptsTo s t.log)

variable {t t' : TracedHub} {running : Option ScheduledSlice} {s : SocketId} {p : PeerId}

theorem Pending.congr {slice : ScheduledSlice} (hp : t.Pending slice)
    (hindex : t'.hub.viewerSockets = t.hub.viewerSockets) (hflushes : t.flushes ≤ t'.flushes)
    (hlog : t'.log = t.log) : t'.Pending slice where
  begun := hp.begun.trans_le hflushes
  distinct := hp.distinct
  latest := by
    rw [hlog]
    exact hp.latest
  unserved := by
    rw [hlog, hindex]
    exact hp.unserved

/-- Before a socket gets flush `n`, all it got is of earlier flushes. -/
theorem Orderly.flushes_le (ho : Orderly running t) (hs : t.hub.SessionFor s b)
    (hle : ∀ m us, (s, Receipt.batch b m us) ∈ t.log → m ≤ n) :
    ∀ m ∈ flushesOf (receiptsTo s t.log), m ≤ n := by
  intro m hm
  obtain ⟨b', us, hmem⟩ := mem_flushesOf.mp hm
  have hlog := mem_receiptsTo.mp hmem
  obtain rfl := hs.unique (ho.received s b' m us hlog).2
  exact hle m us hlog

theorem Orderly.flushes_lt (ho : Orderly running t) :
    ∀ m ∈ flushesOf (receiptsTo s t.log), m < t.flushes := by
  intro m hm
  obtain ⟨b, us, hmem⟩ := mem_flushesOf.mp hm
  exact (ho.received s b m us (mem_receiptsTo.mp hmem)).1

/-! ## One slice -/

theorem mem_served {h : TrackerWebSocketHub} {job : FlushJob} (hp : p ∈ h.served b job) :
    p ∈ job.viewerIds.drop job.start ∧ p ∈ job.viewerIds.take (h.sliceEnd b job) := by
  unfold served at hp
  refine ⟨?_, List.mem_of_mem_drop hp⟩
  rw [List.drop_take] at hp
  exact List.mem_of_mem_take hp

/-- A viewer after the slice is not served by it. -/
theorem not_mem_served_of_drop {h : TrackerWebSocketHub} {job : FlushJob}
    (hnd : job.viewerIds.Nodup) (hp : p ∈ job.viewerIds.drop (h.sliceEnd b job)) :
    p ∉ h.served b job := by
  intro hserved
  have hsplit := (List.take_append_drop (h.sliceEnd b job) job.viewerIds).symm ▸ hnd
  exact (List.nodup_append.mp hsplit).2.2 p (mem_served hserved).2 p hp rfl

/-- The rest of the viewers is part of those that were to come. -/
theorem mem_drop_sliceEnd {h : TrackerWebSocketHub} {job : FlushJob}
    (hmore : h.isCurrent b job = true ∧ h.sliceEnd b job < job.viewerIds.length)
    (hp : p ∈ job.viewerIds.drop (h.sliceEnd b job)) : p ∈ job.viewerIds.drop job.start := by
  obtain ⟨hcurrent, hlt⟩ := hmore
  unfold sliceEnd at hlt hp
  rw [if_pos hcurrent] at hlt hp
  have hend : min (job.start + h.viewersPerFlushTurn) job.viewerIds.length
      = job.start + h.viewersPerFlushTurn := by omega
  rw [hend, ← List.drop_drop] at hp
  exact List.mem_of_mem_drop hp

/-- A slice goes to the viewers it serves; what remains is scheduled, or the
flush is over. -/
theorem sendSlice_cases (t : TracedHub) (b : BroadcastId) (job : FlushJob) (n : ℕ) :
    ∃ sockets, Sends (fun _ => True) t.hub { t.hub with sockets := sockets } ∧
      ((t.hub.isCurrent b job = true ∧ t.hub.sliceEnd b job < job.viewerIds.length) ∧
          t.sendSlice b job n =
            ({ t with
              hub := { t.hub with
                sockets := sockets
                immediates := t.hub.immediates.set b
                  { job with start := t.hub.sliceEnd b job } }
              queue := t.queue ++ [⟨b, n, { job with start := t.hub.sliceEnd b job }⟩]
              log := t.log ++
                t.hub.dispatchViewers b n job.updates (t.hub.served b job) }, false) ∨
        t.sendSlice b job n =
            ({ t with
              hub := { t.hub with
                sockets := sockets
                flushing := t.hub.flushing.erase b }
              log := t.log ++
                t.hub.dispatchViewers b n job.updates (t.hub.served b job) }, true)) := by
  refine ⟨(t.hub.deliver
    ((t.hub.served b job).flatMap (t.hub.viewerBatch b job.updates))).sockets, ?_, ?_⟩
  · exact ⟨(sends_deliver (fun _ _ => trivial) rfl).grown,
      (sends_deliver (fun _ _ => trivial) rfl).connected⟩
  unfold TracedHub.sendSlice TrackerWebSocketHub.sendSlice
  dsimp only
  by_cases hmore : t.hub.isCurrent b job = true ∧ t.hub.sliceEnd b job < job.viewerIds.length
  · rw [if_pos hmore]
    exact Or.inl ⟨hmore, rfl⟩
  · rw [if_neg hmore]
    exact Or.inr rfl

/-- Who receives a slice is a viewer it serves, and receives it once. -/
theorem receiptsTo_slice {job : FlushJob} (ho : Orderly (some ⟨b, n, job⟩) t) (s : SocketId) :
    receiptsTo s (t.hub.dispatchViewers b n job.updates (t.hub.served b job)) = [] ∨
      ∃ p ∈ t.hub.served b job, ∃ us, s ∈ t.hub.viewerSockets b p ∧
        receiptsTo s (t.hub.dispatchViewers b n job.updates (t.hub.served b job))
          = [.batch b n us] := by
  have hnd : job.viewerIds.Nodup := (ho.pending _ List.mem_cons_self).distinct
  have hserved : (t.hub.served b job).Nodup :=
    ((List.drop_sublist ..).trans (List.take_sublist ..)).nodup hnd
  rcases receiptsTo_viewer ho.sound.indexed job.updates hserved with hnone | ⟨p, hp, us, hs, -, heq⟩
  · exact Or.inl hnone
  · exact Or.inr ⟨p, hp, us, hs, heq⟩

/-- What a slice adds to the log keeps the receipts of every socket in order. -/
theorem Orderly.inOrder_slice {job : FlushJob} (ho : Orderly (some ⟨b, n, job⟩) t)
    (s : SocketId) : InOrder (receiptsTo s
      (t.log ++ t.hub.dispatchViewers b n job.updates (t.hub.served b job))) := by
  rw [receiptsTo_append]
  rcases receiptsTo_slice ho s with hnone | ⟨p, hp, us, hs, heq⟩
  · rw [hnone, List.append_nil]
    exact ho.inOrder s
  · rw [heq]
    have hpending := ho.pending _ List.mem_cons_self
    exact (ho.inOrder s).batch
      (ho.flushes_le (ho.own.viewer ho.sound.indexed hs) (hpending.latest s))
      (hpending.unserved p (mem_served hp).1 s hs)

/-- A viewer of `b'` that no slice of this turn serves received nothing new. -/
theorem receiptsTo_slice_of_unserved {job : FlushJob} (ho : Orderly (some ⟨b, n, job⟩) t)
    {b' : BroadcastId} (hs : s ∈ t.hub.viewerSockets b' p)
    (hp : b' = b → p ∉ t.hub.served b job) :
    receiptsTo s (t.hub.dispatchViewers b n job.updates (t.hub.served b job)) = [] := by
  rcases receiptsTo_slice ho s with hnone | ⟨q, hq, us, hsq, -⟩
  · exact hnone
  · obtain ⟨rfl, rfl⟩ := ho.sound.indexed.viewer_unique hs hsq
    exact absurd hq (hp rfl)

/-- The receipts of a slice are of its flush, for sessions of its broadcast. -/
theorem Orderly.new_of_slice {job : FlushJob} (ho : Orderly (some ⟨b, n, job⟩) t)
    {b' : BroadcastId} (hmem : (s, Receipt.batch b' m us) ∈
      t.hub.dispatchViewers b n job.updates (t.hub.served b job)) :
    b' = b ∧ m = n ∧ t.hub.SessionFor s b := by
  have hin := mem_receiptsTo.mpr hmem
  rcases receiptsTo_slice ho s with hnone | ⟨p, -, us', hs, heq⟩
  · rw [hnone] at hin
    exact absurd hin List.not_mem_nil
  · rw [heq, List.mem_singleton, Receipt.batch.injEq] at hin
    exact ⟨hin.1, hin.2.1, ho.own.viewer ho.sound.indexed hs⟩

/-- The hub once the viewers of this turn are served. -/
def served (t : TracedHub) (b : BroadcastId) (job : FlushJob) (n : ℕ)
    (sockets : OrderedMap SocketId Socket) : TracedHub :=
  { t with
    hub := { t.hub with sockets := sockets }
    log := t.log ++ t.hub.dispatchViewers b n job.updates (t.hub.served b job) }

theorem Orderly.not_mem_queue {job : FlushJob} (ho : Orderly (some ⟨b, n, job⟩) t)
    {slice : ScheduledSlice} (hmem : slice ∈ t.queue) : slice.broadcastId ≠ b := by
  intro heq
  have hin := List.mem_map_of_mem (f := ScheduledSlice.broadcastId) hmem
  rw [heq] at hin
  exact (List.nodup_cons.mp ho.distinct).1 hin

/-- The other flushes have nothing to do with the slice. -/
theorem Orderly.pending_queue {job : FlushJob} (ho : Orderly (some ⟨b, n, job⟩) t)
    (sockets : OrderedMap SocketId Socket) :
    ∀ slice ∈ t.queue, (t.served b job n sockets).Pending slice := by
  intro slice hslice
  have hother := ho.not_mem_queue hslice
  have hpending := ho.pending slice (List.mem_cons_of_mem _ hslice)
  refine ⟨hpending.begun, hpending.distinct, fun s m us hmem => ?_, fun p hp s hs => ?_⟩
  · rcases List.mem_append.mp hmem with hmem | hmem
    · exact hpending.latest s m us hmem
    · exact absurd (ho.new_of_slice hmem).1 hother
  · have hnone := receiptsTo_slice_of_unserved ho hs fun heq => absurd heq hother
    change Fresh _ (receiptsTo s (t.log ++ _))
    rw [receiptsTo_append, hnone, List.append_nil]
    exact hpending.unserved p hp s hs

/-- The viewers after the slice are still to be served. -/
theorem Orderly.pending_rest {job : FlushJob} (ho : Orderly (some ⟨b, n, job⟩) t)
    (sockets : OrderedMap SocketId Socket)
    (hmore : t.hub.isCurrent b job = true ∧ t.hub.sliceEnd b job < job.viewerIds.length) :
    (t.served b job n sockets).Pending ⟨b, n, { job with start := t.hub.sliceEnd b job }⟩ := by
  have hpending := ho.pending _ List.mem_cons_self
  refine ⟨hpending.begun, hpending.distinct, fun s m us hmem => ?_, fun p hp s hs => ?_⟩
  · rcases List.mem_append.mp hmem with hmem | hmem
    · exact hpending.latest s m us hmem
    · exact (ho.new_of_slice hmem).2.1.le
  · have hnone := receiptsTo_slice_of_unserved ho hs
      fun _ => not_mem_served_of_drop hpending.distinct hp
    change Fresh _ (receiptsTo s (t.log ++ _))
    rw [receiptsTo_append, hnone, List.append_nil]
    exact hpending.unserved p (mem_drop_sliceEnd hmore hp) s hs

theorem Orderly.received_slice {job : FlushJob} (ho : Orderly (some ⟨b, n, job⟩) t)
    {sockets : OrderedMap SocketId Socket}
    (hsends : Sends (fun _ => True) t.hub { t.hub with sockets := sockets }) :
    ∀ s b' m us, (s, Receipt.batch b' m us) ∈ (t.served b job n sockets).log →
      m < t.flushes ∧ SessionFor { t.hub with sockets := sockets } s b' := by
  intro s b' m us hmem
  rcases List.mem_append.mp hmem with hmem | hmem
  · obtain ⟨hlt, hs⟩ := ho.received s b' m us hmem
    exact ⟨hlt, SessionFor.sends hs hsends⟩
  · obtain ⟨rfl, rfl, hs⟩ := ho.new_of_slice hmem
    exact ⟨(ho.pending _ List.mem_cons_self).begun, SessionFor.sends hs hsends⟩

/-- After its slice, what is left of the running flush waits, or nothing does. -/
theorem Orderly.sendSlice {job : FlushJob} (ho : Orderly (some ⟨b, n, job⟩) t) :
    Orderly none (t.sendSlice b job n).1 := by
  have hsound := ho.sound.sendSlice b job
  obtain ⟨hbefore, hdistinct⟩ : b ∉ t.queue.map ScheduledSlice.broadcastId ∧
      (t.queue.map ScheduledSlice.broadcastId).Nodup := List.nodup_cons.mp ho.distinct
  have hflushing : ∀ b', b' ∈ t.hub.flushing ↔
      b' = b ∨ ∃ slice ∈ t.queue, slice.broadcastId = b' := by
    intro b'
    refine (ho.flushing b').trans ?_
    change (∃ slice ∈ _ :: t.queue, _) ↔ _
    simp [eq_comm]
  obtain ⟨sockets, hsends, ⟨hmore, heq⟩ | heq⟩ := t.sendSlice_cases b job n
  · have hhub : (t.hub.sendSlice b job).1 = _ := congrArg (fun x => x.1.hub) heq
    rw [hhub] at hsound
    rw [heq]
    refine ⟨hsound, ho.own.sends hsends, ?_, fun b' => ?_, fun b' job' => ?_, fun slice hmem => ?_,
      ho.received_slice hsends, ho.inOrder_slice⟩
    · change ((t.queue ++ [_]).map ScheduledSlice.broadcastId).Nodup
      rw [List.map_append]
      refine List.nodup_append.mpr ⟨hdistinct, List.nodup_singleton _, ?_⟩
      rintro x hx y hy rfl
      rw [List.mem_singleton.mp hy] at hx
      exact hbefore hx
    · refine (hflushing b').trans ?_
      change _ ↔ ∃ slice ∈ t.queue ++ [_], _
      simp [or_and_right, exists_or, or_comm, eq_comm]
    · change (t.hub.immediates.set b _).get? b' = some job' ↔ ∃ slice ∈ t.queue ++ [_], _
      rw [OrderedMap.get?_set]
      split_ifs with hb'
      · subst hb'
        constructor
        · intro hjob
          exact ⟨_, List.mem_append_right _ List.mem_cons_self, rfl, Option.some.inj hjob⟩
        · rintro ⟨slice, hmem, hb', rfl⟩
          rcases List.mem_append.mp hmem with hmem | hmem
          · exact absurd hb' (ho.not_mem_queue hmem)
          · rw [List.mem_singleton.mp hmem]
      · rw [ho.immediates]
        constructor
        · rintro ⟨slice, hmem, hslice⟩
          exact ⟨slice, List.mem_append_left _ hmem, hslice⟩
        · rintro ⟨slice, hmem, rfl, rfl⟩
          rcases List.mem_append.mp hmem with hmem | hmem
          · exact ⟨slice, hmem, rfl, rfl⟩
          · rw [List.mem_singleton.mp hmem] at hb'
            exact absurd rfl hb'
    · rcases List.mem_append.mp hmem with hmem | hmem
      · exact (ho.pending_queue sockets slice hmem).congr rfl le_rfl rfl
      · obtain rfl := List.mem_singleton.mp hmem
        exact (ho.pending_rest sockets hmore).congr rfl le_rfl rfl
  · have hhub : (t.hub.sendSlice b job).1 = _ := congrArg (fun x => x.1.hub) heq
    rw [hhub] at hsound
    rw [heq]
    refine ⟨hsound, ho.own.sends hsends, hdistinct, fun b' => ?_, ho.immediates,
      fun slice hmem => (ho.pending_queue sockets slice hmem).congr rfl le_rfl rfl,
      ho.received_slice hsends, ho.inOrder_slice⟩
    refine OrderedSet.mem_erase.trans ((and_congr_left' (hflushing b')).trans ?_)
    constructor
    · rintro ⟨rfl | hmem, hne⟩
      · exact absurd rfl hne
      · exact hmem
    · rintro ⟨slice, hmem, rfl⟩
      exact ⟨Or.inr ⟨slice, hmem, rfl⟩, ho.not_mem_queue hmem⟩

/-! ## Starting a flush -/

/-- What is pending, requested or timed does not matter to what was sent. -/
theorem Orderly.waits (ho : Orderly none t)
    (pendingInventory : OrderedMap BroadcastId (OrderedMap PeerId PendingInventory))
    (timers : List BroadcastId) (flushRequested : OrderedSet BroadcastId) :
    Orderly none { t with
      hub := { t.hub with
        pendingInventory := pendingInventory
        timers := timers
        flushRequested := flushRequested } } :=
  ⟨ho.sound.flushing _ _ _ _ _, ho.own, ho.distinct, ho.flushing, ho.immediates,
    fun slice hmem => (ho.pending slice hmem).congr rfl le_rfl rfl, ho.received, ho.inOrder⟩

/-- A new flush goes to sockets that listen to its broadcast. -/
theorem Orderly.dispatch (ho : Orderly none t) (hb : b ∉ t.hub.flushing) (out : Outgoing)
    (us : List SegmentInventoryUpdate) {sockets : OrderedSet SocketId}
    (hlisten : ∀ s ∈ sockets, (t.hub.subscribersAt b).Listens s) :
    Orderly none { t with
      hub := t.hub.deliver out
      flushes := t.flushes + 1
      log := t.log ++ t.hub.dispatch b t.flushes us sockets } := by
  have hnew : ∀ s b' m us',
      (s, Receipt.batch b' m us') ∈ t.hub.dispatch b t.flushes us sockets →
        b' = b ∧ m = t.flushes ∧ t.hub.SessionFor s b := by
    intro s b' m us' hmem
    have hin := mem_receiptsTo.mpr hmem
    rw [receiptsTo_dispatch] at hin
    split_ifs at hin with hs
    · rw [List.mem_singleton, Receipt.batch.injEq] at hin
      exact ⟨hin.1, hin.2.1, ho.own.listener ho.sound.indexed (hlisten s hs.1)⟩
    · exact absurd hin List.not_mem_nil
  have hsends : Sends (fun _ => True) t.hub
      { t.hub with sockets := (t.hub.deliver out).sockets } :=
    sends_deliver (fun _ _ => trivial) rfl
  refine ⟨ho.sound.deliver out, ho.own.sends hsends, ho.distinct, ho.flushing, ho.immediates,
    fun slice hslice => ?_, fun s b' m us' hmem => ?_, fun s => ?_⟩
  · have hpending := ho.pending slice hslice
    have hother : slice.broadcastId ≠ b := fun heq =>
      hb ((ho.flushing b).mpr ⟨slice, hslice, heq⟩)
    refine ⟨hpending.begun.trans (Nat.lt_succ_self _), hpending.distinct,
      fun s m us' hmem => ?_, fun p hp s hs => ?_⟩
    · rcases List.mem_append.mp hmem with hmem | hmem
      · exact hpending.latest s m us' hmem
      · exact absurd (hnew s _ m us' hmem).1 hother
    · -- a viewer does not listen
      have hnot : s ∉ sockets := fun hin =>
        ho.sound.indexed.not_listens hs b (hlisten s hin)
      change Fresh _ (receiptsTo s (t.log ++ _))
      rw [receiptsTo_append, receiptsTo_dispatch, if_neg fun hand => hnot hand.1, List.append_nil]
      exact hpending.unserved p hp s hs
  · rcases List.mem_append.mp hmem with hmem | hmem
    · obtain ⟨hlt, hs⟩ := ho.received s b' m us' hmem
      exact ⟨hlt.trans (Nat.lt_succ_self _), SessionFor.sends hs hsends⟩
    · obtain ⟨rfl, rfl, hs⟩ := hnew s b' m us' hmem
      exact ⟨Nat.lt_succ_self _, SessionFor.sends hs hsends⟩
  · change InOrder (receiptsTo s (t.log ++ _))
    rw [receiptsTo_append, receiptsTo_dispatch]
    split_ifs
    · exact (ho.inOrder s).batch (fun m hm => (ho.flushes_lt m hm).le) (fresh_of_lt ho.flushes_lt)
    · rw [List.append_nil]
      exact ho.inOrder s

/-- The first slice of a flush that no viewer of the broadcast has received. -/
theorem Orderly.begin (ho : Orderly none t) (hb : b ∉ t.hub.flushing) {job : FlushJob}
    (hnd : job.viewerIds.Nodup) (hn : n < t.flushes)
    (hlatest : ∀ s m us, (s, Receipt.batch b m us) ∈ t.log → m ≤ n)
    (hunserved : ∀ s p, s ∈ t.hub.viewerSockets b p → Fresh n (receiptsTo s t.log)) :
    Orderly (some ⟨b, n, job⟩)
      { t with hub := { t.hub with flushing := t.hub.flushing.insert b } } := by
  refine ⟨ho.sound.flushing _ _ _ _ _, ho.own, ?_, fun b' => ?_, ho.immediates,
    fun slice hmem => ?_, ho.received, ho.inOrder⟩
  · refine List.nodup_cons.mpr ⟨fun hmem => ?_, ho.distinct⟩
    obtain ⟨slice, hslice, heq⟩ := List.mem_map.mp hmem
    exact hb ((ho.flushing b).mpr ⟨slice, hslice, heq⟩)
  · refine OrderedSet.mem_insert.trans ((or_congr_left (ho.flushing b')).trans ?_)
    change _ ↔ ∃ slice ∈ _ :: t.queue, _
    simp [slices, or_comm, eq_comm]
  · rcases List.mem_cons.mp hmem with rfl | hmem
    · exact ⟨hn, hnd, hlatest, fun p _ s hs => hunserved s p hs⟩
    · exact (ho.pending slice hmem).congr rfl le_rfl rfl

theorem Orderly.startFlush (ho : Orderly none t) (hb : b ∉ t.hub.flushing) :
    Orderly none (t.startFlush b).1 := by
  have htaken : Orderly none { t with hub := t.hub.taken b } := ho.waits _ _ _
  unfold TracedHub.startFlush
  dsimp only
  split
  · rename_i pending subscribers _ hsubscribers
    have hat : t.hub.subscribersAt b = subscribers := by
      change t.hub.subscribersByBroadcast.get? b = some subscribers at hsubscribers
      rw [subscribersAt, hsubscribers, Option.getD_some]
    have hlisten : ∀ s ∈ subscribers.batched, (t.hub.subscribersAt b).Listens s :=
      fun s hs => hat ▸ Or.inr hs
    generalize (if subscribers.batched.size > 0 then
      sendBatch b (toUpdates pending).values subscribers.batched else []) = out
    have hsent := htaken.dispatch hb out (toUpdates pending).values hlisten
    split_ifs with hempty hnone
    · exact htaken
    · exact hsent
    · refine Orderly.sendSlice
        (hsent.begin hb subscribers.viewers.nodupKeys (Nat.lt_succ_self _) ?_ ?_)
      · intro s m us hmem
        exact Nat.lt_succ_iff.mp (hsent.received s b m us hmem).1
      · intro s p hs
        have hnot : s ∉ subscribers.batched := fun hin =>
          ho.sound.indexed.not_listens hs b (hlisten s hin)
        change Fresh _ (receiptsTo s (t.log ++ _))
        rw [receiptsTo_append, receiptsTo_dispatch, if_neg fun hand => hnot hand.1,
          List.append_nil]
        exact fresh_of_lt ho.flushes_lt
  · exact htaken

/-! ## Every step -/

theorem startFlush_hub (t : TracedHub) (b : BroadcastId) :
    (t.startFlush b).1.hub = (t.hub.startFlush b).1 ∧
      (t.startFlush b).2 = (t.hub.startFlush b).2 := by
  unfold TracedHub.startFlush TrackerWebSocketHub.startFlush
  dsimp only [taken]
  cases t.hub.pendingInventory.get? b with
  | none => exact ⟨rfl, rfl⟩
  | some pending =>
      cases t.hub.subscribersByBroadcast.get? b with
      | none => exact ⟨rfl, rfl⟩
      | some subscribers =>
          dsimp only
          generalize (if subscribers.batched.size > 0 then
            sendBatch b (toUpdates pending).values subscribers.batched else []) = out
          split_ifs <;> exact ⟨rfl, rfl⟩

theorem flushRequestedNext_hub (t : TracedHub) (b : BroadcastId) :
    (t.flushRequestedNext b).hub = t.hub.flushRequestedNext b := by
  unfold TracedHub.flushRequestedNext TrackerWebSocketHub.flushRequestedNext
  split_ifs
  · exact (startFlush_hub _ b).1
  · rfl

theorem sendViewerBatches_hub (t : TracedHub) (b : BroadcastId) (job : FlushJob) (n : ℕ) :
    (t.sendViewerBatches b job n).hub = t.hub.sendViewerBatches b job := by
  have hhub : (t.sendSlice b job n).1.hub = (t.hub.sendSlice b job).1 := rfl
  have hended : (t.sendSlice b job n).2 = (t.hub.sendSlice b job).2 := rfl
  unfold TracedHub.sendViewerBatches TrackerWebSocketHub.sendViewerBatches
  dsimp only
  rw [hended]
  split_ifs
  · rw [flushRequestedNext_hub, hhub]
  · exact hhub

theorem flushInventory_hub (t : TracedHub) (b : BroadcastId) :
    (t.flushInventory b).hub = t.hub.flushInventory b := by
  unfold TracedHub.flushInventory TrackerWebSocketHub.flushInventory
  obtain ⟨hhub, hended⟩ := t.startFlush_hub b
  dsimp only
  rw [hended]
  split_ifs
  · rfl
  · rw [flushRequestedNext_hub, hhub]
  · exact hhub

theorem not_mem_flushing_of_startFlush {h : TrackerWebSocketHub} (hsound : h.Sound)
    (hended : (h.startFlush b).2 = true) : b ∉ (h.startFlush b).1.flushing := by
  obtain ⟨out, -, ⟨heq, -⟩ | ⟨pending, subscribers, -, -, heq⟩⟩ := startFlush_cases hsound b
  · rw [heq] at hended
    cases hended
  · rw [heq] at hended ⊢
    exact not_mem_flushing_of_over hended

theorem Orderly.flushRequestedNext (ho : Orderly none t) (hb : b ∉ t.hub.flushing) :
    Orderly none (t.flushRequestedNext b) := by
  unfold TracedHub.flushRequestedNext
  split_ifs
  · exact Orderly.startFlush (ho.waits _ _ _) hb
  · exact ho

theorem Orderly.flushInventory (ho : Orderly none t) : Orderly none (t.flushInventory b) := by
  unfold TracedHub.flushInventory
  dsimp only
  split_ifs with hb hended
  · exact ho.waits _ _ _
  · refine (ho.startFlush hb).flushRequestedNext ?_
    rw [(t.startFlush_hub b).1]
    rw [(t.startFlush_hub b).2] at hended
    exact not_mem_flushing_of_startFlush ho.sound hended
  · exact ho.startFlush hb

theorem Orderly.sendViewerBatches {job : FlushJob} (ho : Orderly (some ⟨b, n, job⟩) t) :
    Orderly none (t.sendViewerBatches b job n) := by
  unfold TracedHub.sendViewerBatches
  dsimp only
  split_ifs with hended
  · exact ho.sendSlice.flushRequestedNext (not_mem_flushing_of_over hended)
  · exact ho.sendSlice

/-- The first call that waits for a broadcast starts to run. -/
theorem Orderly.dequeue (ho : Orderly none t) {slice : ScheduledSlice} (hslice : slice ∈ t.queue) :
    Orderly (some slice) { t with
      hub := { t.hub with immediates := t.hub.immediates.delete slice.broadcastId }
      queue := t.queue.erase slice } := by
  have hperm : t.queue.Perm (slice :: t.queue.erase slice) := List.perm_cons_erase hslice
  have hdistinct : ((slice :: t.queue.erase slice).map ScheduledSlice.broadcastId).Nodup :=
    (hperm.map _).nodup_iff.mp ho.distinct
  have hiff : ∀ other, other ∈ slice :: t.queue.erase slice ↔ other ∈ t.queue :=
    fun other => hperm.symm.mem_iff
  refine ⟨ho.sound.flushing _ _ _ _ _, ho.own, hdistinct, fun b => ?_, fun b job => ?_,
    fun other hother => (ho.pending other ((hiff other).mp hother)).congr rfl le_rfl rfl,
    ho.received, ho.inOrder⟩
  · refine (ho.flushing b).trans (exists_congr fun other => and_congr_left' ?_)
    exact (hiff other).symm
  · change (t.hub.immediates.delete _).get? b = some job ↔ ∃ other ∈ t.queue.erase slice, _
    rw [OrderedMap.get?_delete]
    split_ifs with hb
    · refine iff_of_false (by simp) ?_
      rintro ⟨other, hother, hb', -⟩
      have hin := List.mem_map_of_mem (f := ScheduledSlice.broadcastId) hother
      rw [hb', hb] at hin
      exact (List.nodup_cons.mp hdistinct).1 hin
    · rw [ho.immediates]
      refine exists_congr fun other => and_congr_left fun hother => ?_
      have hne : other ≠ slice := by
        rintro rfl
        exact hb hother.1.symm
      exact (List.mem_erase_of_ne hne).symm

/-- What runs no flush: at most one socket gets a subscription. -/
theorem Orderly.quiet (ho : Orderly none t) {h' : TrackerWebSocketHub} (hsound : h'.Sound)
    {P : WsServerMessage → Prop} (hsends : Sends P t.hub h')
    (himmediates : h'.immediates = t.hub.immediates) (hflushing : h'.flushing = t.hub.flushing)
    {subscriber : Option SocketId} (hresubscribes : ∀ x,
      h'.subscriptions.get? x = t.hub.subscriptions.get? x ∨
        (∀ sub, h'.subscriptions.get? x = some sub → sub = EMPTY_SUBSCRIPTION) ∨
          subscriber = some x ∧ ∃ sub socket, h'.subscriptions.get? x = some sub ∧
            t.hub.sockets.get? x = some socket ∧
              socket.claims = ⟨sub.broadcastId, sub.peerId⟩) :
    Orderly none { t with
      hub := h'
      log := t.log ++ subscriber.toList.map fun socket => (socket, .subscribed) } := by
  have hsession : ∀ s b, t.hub.SessionFor s b → h'.SessionFor s b := by
    rintro s b ⟨socket, hget, rfl⟩
    obtain ⟨socket', -, hget', hclaims, -⟩ := hsends.grown s socket hget
    exact ⟨socket', hget', by rw [hclaims]⟩
  have hreceipts : ∀ s, receiptsTo s
      (t.log ++ subscriber.toList.map fun socket => (socket, .subscribed))
        = receiptsTo s t.log ++ if subscriber = some s then [.subscribed] else [] := by
    intro s
    rw [receiptsTo_append, receiptsTo_map _ _ (by cases subscriber <;> simp)]
    simp
  have hbatches : ∀ s b n us, (s, Receipt.batch b n us) ∈
      t.log ++ subscriber.toList.map (fun socket => (socket, Receipt.subscribed)) →
        (s, Receipt.batch b n us) ∈ t.log := by
    intro s b n us hmem
    rcases List.mem_append.mp hmem with hmem | hmem
    · exact hmem
    · obtain ⟨x, -, heq⟩ := List.mem_map.mp hmem
      cases heq
  refine ⟨hsound, ?_, ho.distinct, fun b => ?_, fun b job => ?_, ?_, ?_, ?_⟩
  · intro s sub hsub hb
    rcases hresubscribes s with hkept | hlost | ⟨-, sub', socket, hsub', hget, hclaims⟩
    · rw [hkept] at hsub
      obtain ⟨socket, hget, hclaims⟩ := ho.own s sub hsub hb
      obtain ⟨socket', -, hget', hclaims', -⟩ := hsends.grown s socket hget
      exact ⟨socket', hget', hclaims'.trans hclaims⟩
    · exact absurd (by rw [hlost sub hsub]; rfl) hb
    · obtain rfl := Option.some.inj (hsub.symm.trans hsub')
      obtain ⟨socket', -, hget', hclaims', -⟩ := hsends.grown s socket hget
      exact ⟨socket', hget', hclaims'.trans hclaims⟩
  · change b ∈ h'.flushing ↔ _
    rw [hflushing]
    exact ho.flushing b
  · change h'.immediates.get? b = some job ↔ _
    rw [himmediates]
    exact ho.immediates b job
  · intro slice hslice
    have hpending := ho.pending slice hslice
    refine ⟨hpending.begun, hpending.distinct,
      fun s n us hmem => hpending.latest s n us (hbatches s _ n us hmem), fun p hp s hs => ?_⟩
    change Fresh _ (receiptsTo s (t.log ++ _))
    rw [hreceipts]
    split_ifs with hsubscriber
    · exact fresh_subscribed
    · -- it was a viewer before
      rw [List.append_nil]
      refine hpending.unserved p hp s ?_
      obtain ⟨sub, hsub, hview, hb⟩ := (hsound.indexed.viewers ..).mp hs
      rcases hresubscribes s with hkept | hlost | ⟨hnew, -⟩
      · exact (ho.sound.indexed.viewers ..).mpr ⟨sub, hkept ▸ hsub, hview, hb⟩
      · rw [hlost sub hsub] at hview
        cases hview
      · exact absurd hnew hsubscriber
  · exact fun s b n us hmem =>
      ⟨(ho.received s b n us (hbatches s b n us hmem)).1,
        hsession s b (ho.received s b n us (hbatches s b n us hmem)).2⟩
  · intro s
    change InOrder (receiptsTo s (t.log ++ _))
    rw [hreceipts]
    split_ifs
    · exact (ho.inOrder s).subscribed
    · rw [List.append_nil]
      exact ho.inOrder s

theorem Orderly.handles (ho : Orderly none t) (hsteady : t.hub.Steady) {e : HubEvent}
    {h' : TrackerWebSocketHub} (hh : Handles t.hub e h') :
    Orderly none { t with
      hub := h'
      log := t.log ++ (t.hub.subscriber e).toList.map fun socket => (socket, .subscribed) } :=
  have heff := hh.effect ho.sound
  ho.quiet (heff.sound hsteady).1 (hh.sends hsteady) heff.scheduling.1 heff.scheduling.2
    (hh.resubscribes ho.sound)

theorem step_of_handler (t : TracedHub) {e : HubEvent} (hflushes : e.flushes = false) :
    t.hubStep e = (t.hub.step e).map fun h =>
      { t with
        hub := h
        log := t.log ++ (t.hub.subscriber e).toList.map fun socket => (socket, .subscribed) } := by
  cases e with
  | batchTimer | flushTurn => cases hflushes
  | _ => rfl

/-- **A traced step is a step of the hub**, and keeps everything in order. -/
theorem Orderly.hubStep (ho : Orderly none t) (hsteady : t.hub.Steady) {e : HubEvent}
    (hstep : t.hubStep e = some t') : Orderly none t' ∧ t.hub.step e = some t'.hub := by
  cases hflushes : e.flushes with
  | false =>
      rw [step_of_handler t hflushes] at hstep
      obtain ⟨h', hhub, rfl⟩ := Option.map_eq_some_iff.mp hstep
      exact ⟨ho.handles hsteady (step_handles ho.sound.keyed hflushes hhub), hhub⟩
  | true =>
      cases e with
      | batchTimer b =>
          dsimp only [TracedHub.hubStep] at hstep
          split_ifs at hstep with hb
          obtain rfl := Option.some.inj hstep
          refine ⟨(ho.waits _ _ _).flushInventory, ?_⟩
          rw [flushInventory_hub]
          exact if_pos hb
      | flushTurn b =>
          dsimp only [TracedHub.hubStep] at hstep
          cases hfind : t.queue.find? fun slice => slice.broadcastId = b with
          | none =>
              rw [hfind] at hstep
              cases hstep
          | some slice =>
              rw [hfind] at hstep
              obtain rfl := Option.some.inj hstep
              obtain rfl : slice.broadcastId = b := by
                simpa using List.find?_some hfind
              have hslice := List.mem_of_find?_eq_some hfind
              refine ⟨(ho.dequeue hslice).sendViewerBatches, ?_⟩
              rw [sendViewerBatches_hub]
              dsimp only [TrackerWebSocketHub.step]
              rw [(ho.immediates slice.broadcastId slice.job).mpr ⟨slice, hslice, rfl, rfl⟩]
      | _ => cases hflushes

/-- Every step of the hub is a step of the trace. -/
theorem Orderly.exists_hubStep (ho : Orderly none t) {e : HubEvent} {h' : TrackerWebSocketHub}
    (hstep : t.hub.step e = some h') : ∃ t', t.hubStep e = some t' := by
  cases hflushes : e.flushes with
  | false =>
      rw [step_of_handler t hflushes, hstep]
      exact ⟨_, rfl⟩
  | true =>
      cases e with
      | batchTimer b =>
          dsimp only [TrackerWebSocketHub.step] at hstep
          split_ifs at hstep with hb
          exact ⟨_, if_pos hb⟩
      | flushTurn b =>
          dsimp only [TrackerWebSocketHub.step] at hstep
          cases hjob : t.hub.immediates.get? b with
          | none =>
              rw [hjob] at hstep
              cases hstep
          | some job =>
              obtain ⟨slice, hslice, hb, -⟩ := (ho.immediates b job).mp hjob
              have hfind : (t.queue.find? fun slice => slice.broadcastId = b).isSome = true :=
                List.find?_isSome.mpr ⟨slice, hslice, decide_eq_true hb⟩
              obtain ⟨found, hfound⟩ := Option.isSome_iff_exists.mp hfind
              dsimp only [TracedHub.hubStep]
              rw [hfound]
              exact ⟨_, rfl⟩
      | _ => cases hflushes

/-! ## Beside the hub -/

/-- What a request does beside the hub: records change, and an inventory may be published. -/
structure Beside (h h' : TrackerWebSocketHub) : Prop where
  steady : h'.Steady
  sends : Sends (fun m => isBatch m = false) h h'
  subscriptions : h'.subscriptions = h.subscriptions
  scheduling : h'.immediates = h.immediates ∧ h'.flushing = h.flushing
  keepsTimers : KeepsTimers h h'

theorem beside_store {h : TrackerWebSocketHub} {store : TrackerStore}
    (hsteady : TrackerWebSocketHub.Steady { h with store := store }) :
    Beside h { h with store := store } :=
  ⟨hsteady, .of_eq rfl, rfl, ⟨rfl, rfl⟩, .of_eq rfl rfl fun _ => id⟩

theorem Beside.publishInventory {h h' : TrackerWebSocketHub} (hb : Beside h h')
    (m : InventoryMessage) : Beside h (h'.publishInventory m) := by
  have hu := publishInventory_untouched h' m
  obtain ⟨out, timers, pendingInventory, -, heq, -⟩ := publishInventory_spec hb.steady.toSound m
  refine ⟨hb.steady.publishInventory m, hb.sends.trans (sends_publishInventory ?_), ?_,
    ⟨hu.immediates.trans hb.scheduling.1, hu.flushing.trans hb.scheduling.2⟩,
    hb.keepsTimers.trans (keepsTimers_publishInventory h' m)⟩
  · cases m <;> rfl
  · rw [heq]
    exact hb.subscriptions

theorem beside_of_step {h h' : TrackerWebSocketHub} {e : TrackerEvent} (hsteady : h.Steady)
    (he : ∀ event, e ≠ .hub event) (hstep : process.step h e = some h') : Beside h h' := by
  have hsame : Beside h h := beside_store hsteady
  cases e with
  | hub event => exact absurd rfl (he event)
  | restart => cases hstep
  | reportFailure now b p report =>
      obtain rfl := Option.some.inj hstep
      unfold withStore
      cases hreport : h.store.reportPeerFailure now b p report with
      | error _ => exact hsame
      | ok result =>
          have heff : StepEffect h (.closing 0) { h with store := result.1 } :=
            .stored _ (reportPeerFailure_inventories hreport)
          exact beside_store (heff.steady hsteady)
  | postSegments admitted now b p report =>
      dsimp only [process, lifetime] at hstep
      cases hpost : TrackerServer.postSegments h.store admitted now b p report with
      | error _ =>
          rw [hpost] at hstep
          exact Option.some.inj hstep ▸ hsame
      | ok result =>
          rw [hpost] at hstep
          obtain rfl := Option.some.inj hstep
          obtain ⟨peer, hreport⟩ := postSegments_ok hpost
          obtain ⟨old, hold, -, hupdated⟩ := TrackerStore.modifyPeer_updated hreport
          exact (beside_store (hsteady.withRecord hold hupdated rfl)).publishInventory _

theorem Orderly.beside (ho : Orderly none t) {h' : TrackerWebSocketHub} (hb : Beside t.hub h') :
    Orderly none { t with hub := h' } := by
  have hquiet := ho.quiet hb.steady.toSound hb.sends hb.scheduling.1 hb.scheduling.2
    (fun x => Or.inl (by rw [hb.subscriptions]) : ∀ x, _ ∨ _ ∨ none = some x ∧ _)
  rwa [Option.toList_none, List.map_nil, List.append_nil] at hquiet

end TracedHub

end OpenStreamGrid

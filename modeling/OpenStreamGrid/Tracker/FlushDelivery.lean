import OpenStreamGrid.Tracker.FlushOrder

/-!
# What a socket receives of the flushes

The receipts of the trace are the batches in the logs of the sockets, and every
run of the hub has a trace. So what is shown of the trace holds of the hub: no
batch is stuck, two chains of slices never run for one broadcast, and no batch
arrives out of order, or twice under one subscription.
-/

namespace OpenStreamGrid

namespace TracedHub

open TrackerWebSocketHub

variable {t t' : TracedHub} {s : SocketId} {b : BroadcastId} {n : ℕ}

/-! ## The trace is of what is sent -/

/-- The batches a socket was sent are those of its receipts. -/
def Logged (t : TracedHub) : Prop := ∀ s,
  (t.hub.sentTo s).filter isBatch = (receiptsTo s t.log).flatMap Receipt.messages

theorem filter_isBatch_messages (receipts : List Receipt) :
    (receipts.flatMap Receipt.messages).filter isBatch = receipts.flatMap Receipt.messages := by
  refine List.filter_eq_self.mpr fun m hm => ?_
  obtain ⟨r, -, hm⟩ := List.mem_flatMap.mp hm
  exact isBatch_of_mem_messages hm

/-- What is delivered is what the receipts say. -/
theorem Logged.deliver (hl : t.Logged) {out : Outgoing} {entries : List (SocketId × Receipt)}
    (hhub : t'.hub.sockets = (t.hub.deliver out).sockets) (hlog : t'.log = t.log ++ entries)
    (heach : ∀ s, (receiptsTo s entries).flatMap Receipt.messages
      = if t.hub.hasOpenSocket s = true then messagesTo s out else []) : t'.Logged := by
  intro s
  have hsent : t'.hub.sentTo s = (t.hub.deliver out).sentTo s := by
    unfold sentTo
    rw [hhub]
  rw [hsent, sentTo_deliver, hlog, receiptsTo_append, List.flatMap_append, List.filter_append,
    hl s, ← heach s, filter_isBatch_messages]

theorem Logged.congr (hl : t.Logged) (hhub : t'.hub.sockets = t.hub.sockets)
    (hlog : t'.log = t.log) : t'.Logged := by
  intro s
  unfold sentTo
  rw [hhub, hlog]
  exact hl s

theorem Logged.sendSlice (hl : t.Logged) (job : FlushJob) :
    (t.sendSlice b job n).1.Logged := by
  have hsent : (t.hub.sendSlice b job).1.sockets = (t.hub.deliver
      ((t.hub.served b job).flatMap (t.hub.viewerBatch b job.updates))).sockets := by
    unfold TrackerWebSocketHub.sendSlice
    dsimp only
    split_ifs <;> rfl
  exact hl.deliver hsent rfl fun s => messages_dispatchViewers job.updates _

theorem messages_dispatchBatched {h : TrackerWebSocketHub} (us : List SegmentInventoryUpdate)
    (batched : OrderedSet SocketId) (s : SocketId) :
    (receiptsTo s (h.dispatch b n us batched)).flatMap Receipt.messages
      = if h.hasOpenSocket s = true then
          messagesTo s (if batched.size > 0 then sendBatch b us batched else []) else [] := by
  rw [messages_dispatch]
  by_cases hsize : batched.size > 0
  · rw [if_pos hsize]
  · have hs : s ∉ batched := fun hin => hsize (OrderedSet.size_pos_of_mem hin)
    rw [if_neg hsize, messagesTo_sendBatch_eq n, if_neg hs]
    rfl

theorem Logged.startFlush (hl : t.Logged) : (t.startFlush b).1.Logged := by
  have htaken : TracedHub.Logged { t with hub := t.hub.taken b } := hl.congr rfl rfl
  unfold TracedHub.startFlush
  dsimp only
  split
  · rename_i pending subscribers _ _
    have hsent := messages_dispatchBatched (b := b) (n := t.flushes) (h := t.hub.taken b)
      (toUpdates pending).values subscribers.batched
    generalize (if subscribers.batched.size > 0 then
      sendBatch b (toUpdates pending).values subscribers.batched else []) = out at hsent ⊢
    have hdispatched : TracedHub.Logged
        { t with
          hub := (t.hub.taken b).deliver out
          flushes := t.flushes + 1
          log := t.log ++ (t.hub.taken b).dispatch b t.flushes (toUpdates pending).values
            subscribers.batched } := htaken.deliver rfl rfl hsent
    split_ifs
    · exact htaken
    · exact hdispatched
    · apply Logged.sendSlice
      exact hdispatched.congr rfl rfl
  · exact htaken

theorem Logged.flushRequestedNext (hl : t.Logged) : (t.flushRequestedNext b).Logged := by
  unfold TracedHub.flushRequestedNext
  split_ifs
  · apply Logged.startFlush
    exact hl.congr rfl rfl
  · exact hl

theorem Logged.flushInventory (hl : t.Logged) : (t.flushInventory b).Logged := by
  unfold TracedHub.flushInventory
  dsimp only
  split_ifs
  · exact hl.congr rfl rfl
  · exact hl.startFlush.flushRequestedNext
  · exact hl.startFlush

theorem Logged.sendViewerBatches (hl : t.Logged) (job : FlushJob) :
    (t.sendViewerBatches b job n).Logged := by
  unfold TracedHub.sendViewerBatches
  dsimp only
  split_ifs
  · exact (hl.sendSlice job).flushRequestedNext
  · exact hl.sendSlice job

theorem Logged.hubStep (hl : t.Logged) (hsteady : t.hub.Steady) {e : HubEvent}
    (hstep : t.hubStep e = some t') : t'.Logged := by
  cases hflushes : e.flushes with
  | false =>
      rw [step_of_handler t hflushes] at hstep
      obtain ⟨h', hhub, rfl⟩ := Option.map_eq_some_iff.mp hstep
      have hsends := (step_handles hsteady.keyed hflushes hhub).sends hsteady
      intro s
      have hsubscribed : (receiptsTo s ((t.hub.subscriber e).toList.map
          fun socket => (socket, Receipt.subscribed))).flatMap Receipt.messages = [] := by
        refine List.flatMap_eq_nil_iff.mpr fun r hr => ?_
        obtain ⟨x, -, heq⟩ := List.mem_map.mp (mem_receiptsTo.mp hr)
        rw [← (Prod.mk.inj heq).2]
        rfl
      rw [receiptsTo_append, List.flatMap_append, hsubscribed, List.append_nil, ← hl s]
      exact filter_isBatch_sentTo (hsends.mono fun m hm => hm.not_isBatch) s
  | true =>
      cases e with
      | batchTimer b =>
          dsimp only [TracedHub.hubStep] at hstep
          split_ifs at hstep
          obtain rfl := Option.some.inj hstep
          apply Logged.flushInventory
          exact hl.congr rfl rfl
      | flushTurn b =>
          dsimp only [TracedHub.hubStep] at hstep
          split at hstep
          · cases hstep
          · obtain rfl := Option.some.inj hstep
            apply Logged.sendViewerBatches
            exact hl.congr rfl rfl
      | _ => cases hflushes

/-! ## Every run -/

/-- What holds of a hub and its trace between two handlers. -/
structure Traced (t : TracedHub) : Prop where
  steady : t.hub.Steady
  orderly : Orderly none t
  armed : t.hub.Armed
  logged : t.Logged

theorem Traced.hubStep (ht : t.Traced) {e : HubEvent} (hstep : t.hubStep e = some t') :
    t'.Traced := by
  obtain ⟨horderly, hhub⟩ := ht.orderly.hubStep ht.steady hstep
  exact ⟨ht.steady.step hhub, horderly, ht.armed.step ht.steady hhub,
    ht.logged.hubStep ht.steady hstep⟩

theorem Traced.beside (ht : t.Traced) {h' : TrackerWebSocketHub} (hb : Beside t.hub h') :
    TracedHub.Traced { t with hub := h' } where
  steady := hb.steady
  orderly := ht.orderly.beside hb
  armed := ht.armed.keepsTimers hb.keepsTimers hb.scheduling.2
  logged s := (filter_isBatch_sentTo hb.sends s).trans (ht.logged s)

theorem step_cases (t : TracedHub) (e : TrackerEvent) : (∃ event, e = .hub event) ∨
    (∀ event, e ≠ .hub event) ∧
      t.step e = (process.step t.hub e).map fun h => { t with hub := h } := by
  cases e with
  | hub event => exact Or.inl ⟨event, rfl⟩
  | postSegments => exact Or.inr ⟨fun _ => nofun, rfl⟩
  | reportFailure => exact Or.inr ⟨fun _ => nofun, rfl⟩
  | restart => exact Or.inr ⟨fun _ => nofun, rfl⟩

/-- A step of the trace is one of the tracker. -/
theorem Traced.step (ht : t.Traced) {e : TrackerEvent} (hstep : t.step e = some t') :
    t'.Traced ∧ process.step t.hub e = some t'.hub := by
  rcases t.step_cases e with ⟨event, rfl⟩ | ⟨hbeside, heq⟩
  · exact ⟨ht.hubStep hstep, (ht.orderly.hubStep ht.steady hstep).2⟩
  · rw [heq] at hstep
    obtain ⟨h', hprocess, rfl⟩ := Option.map_eq_some_iff.mp hstep
    exact ⟨ht.beside (beside_of_step ht.steady hbeside hprocess), hprocess⟩

theorem traced_init (hinit : TracedHub.system.init t) : t.Traced := by
  obtain ⟨h, ⟨perTurn, size, random, store, rfl, hkeyed⟩, rfl⟩ := hinit
  have hsteady := steady_new perTurn size random hkeyed
  refine ⟨hsteady, ⟨hsteady.toSound, fun s sub hsub => ?_, List.nodup_nil, fun b => ?_,
    fun b job => ?_, fun slice hslice => ?_, fun s b n us hmem => ?_, fun s => ?_⟩,
    fun b hb => ?_, fun s => rfl⟩
  · cases hsub
  · refine iff_of_false (OrderedSet.not_mem_empty b) ?_
    rintro ⟨slice, hslice, -⟩
    exact absurd hslice List.not_mem_nil
  · refine iff_of_false (by rintro ⟨⟩) ?_
    rintro ⟨slice, hslice, -⟩
    exact absurd hslice List.not_mem_nil
  · exact absurd hslice List.not_mem_nil
  · exact absurd hmem List.not_mem_nil
  · exact inOrder_nil
  · exact absurd hb (OrderedMap.not_mem_empty b)

theorem traced (hr : TracedHub.system.Reachable (fun _ _ => True) t) : t.Traced :=
  hr.invariant Traced (fun _ => traced_init) fun _ _ _ ht _ hstep => (ht.step hstep).1

/-- A trace is a run of the tracker, -/
theorem reachable_hub (hr : TracedHub.system.Reachable (fun _ _ => True) t) :
    process.Reachable (fun _ _ => True) t.hub := by
  induction hr with
  | init hinit =>
      obtain ⟨h, hh, rfl⟩ := hinit
      exact .init hh
  | step hr _ hstep ih => exact .step ih trivial ((traced hr).step hstep).2

theorem Traced.exists_step (ht : t.Traced) {e : TrackerEvent} {h' : TrackerWebSocketHub}
    (hstep : process.step t.hub e = some h') : ∃ t', t.step e = some t' := by
  rcases t.step_cases e with ⟨event, rfl⟩ | ⟨-, heq⟩
  · exact ht.orderly.exists_hubStep hstep
  · rw [heq, hstep]
    exact ⟨_, rfl⟩

/-- and every run of the tracker has one. -/
theorem exists_trace {h : TrackerWebSocketHub} (hr : process.Reachable (fun _ _ => True) h) :
    ∃ t, TracedHub.system.Reachable (fun _ _ => True) t ∧ t.hub = h := by
  induction hr with
  | @init h hinit => exact ⟨⟨h, 0, [], []⟩, .init ⟨h, hinit, rfl⟩, rfl⟩
  | step _ _ hstep ih =>
      obtain ⟨t, ht, rfl⟩ := ih
      obtain ⟨t', hstep'⟩ := (traced ht).exists_step hstep
      have hhub := ((traced ht).step hstep').2
      exact ⟨t', .step ht trivial hstep', Option.some.inj (hhub.symm.trans hstep)⟩

/-- **Batches are neither stuck, nor sent by two chains of slices, nor received
out of order, or twice under one subscription**, whether their changes were reported
by messages or by requests. -/
theorem flushed_in_order (hr : TracedHub.system.Reachable (fun _ _ => True) t) :
    (∀ b ∈ t.hub.pendingInventory, b ∈ t.hub.timers ∨
        (∃ slice ∈ t.queue, slice.broadcastId = b) ∧ b ∈ t.hub.flushRequested) ∧
      (t.queue.map ScheduledSlice.broadcastId).Nodup ∧
      ∀ s, (t.hub.sentTo s).filter isBatch = (receiptsTo s t.log).flatMap Receipt.messages ∧
        InOrder (receiptsTo s t.log) := by
  have ht := traced hr
  refine ⟨fun b hb => ?_, ht.orderly.distinct, fun s => ⟨ht.logged s, ht.orderly.inOrder s⟩⟩
  exact (ht.armed b hb).imp_right fun hway => ⟨(ht.orderly.flushing b).mp hway.1, hway.2⟩

/-! ## A second copy -/

/-- Peer `p` has a neighbor-view socket and a batched one; a flush has served
the batched socket and the viewer before `p` when the batched socket subscribes
again, now with a neighbor view. The next report is a request. -/
def secondCopy : List TrackerEvent :=
  [.registerBroadcast 0 ⟨"live", "https://origin/live.m3u8", none⟩, joinLive "p", joinLive "q",
    .connected 0 ⟨"live", "q"⟩, viewLive 0 "q", .connected 1 ⟨"live", "p"⟩, viewLive 1 "p",
    .connected 2 ⟨"live", "p"⟩,
    .received 2 true 0 (.subscribe "live" "p" (some [WS_FEATURE_INVENTORY_BATCH])),
    .received 0 true 0 (.reportSegments "live" "q" ⟨some ["s"], none, none, none⟩),
    .batchTimer "live", viewLive 2 "p", .flushTurn "live"].map .hub ++
  [.postSegments true 0 "live" "q" ⟨["t"], none⟩]

def traceOf (events : List TrackerEvent) : TracedHub :=
  (TracedHub.system.run ⟨start, 0, [], []⟩ events).getD ⟨start, 0, [], []⟩

theorem reachable_traceOf {events : List TrackerEvent}
    (hrun : (TracedHub.system.run ⟨start, 0, [], []⟩ events).isSome = true) :
    TracedHub.system.Reachable (fun _ _ => True) (traceOf events) := by
  obtain ⟨t, ht⟩ := Option.isSome_iff_exists.mp hrun
  rw [traceOf, ht, Option.getD_some]
  exact TransitionSystem.reachable_of_run ⟨start, init_start, rfl⟩ ht

theorem flushed_in_order_secondCopy :
    ((traceOf secondCopy).queue.map ScheduledSlice.broadcastId).Nodup ∧
      InOrder (receiptsTo 2 (traceOf secondCopy).log) := by
  have hrun : TracedHub.system.Reachable (fun _ _ => True) (traceOf secondCopy) :=
    reachable_traceOf (by decide +kernel)
  exact ⟨(flushed_in_order hrun).2.1, ((flushed_in_order hrun).2.2 2).2⟩

/-- The batched socket gets the flush again as a viewer. -/
theorem received_twice : ¬ ∀ t, TracedHub.system.Reachable (fun _ _ => True) t →
    ∀ s, (flushesOf (receiptsTo s t.log)).Nodup := by
  intro hall
  have honce := hall (traceOf secondCopy) (reachable_traceOf (by decide +kernel)) 2
  have htwice : flushesOf (receiptsTo 2 (traceOf secondCopy).log) = [0, 0] := by decide +kernel
  rw [htwice] at honce
  exact absurd honce (by decide)

end TracedHub

end OpenStreamGrid

import OpenStreamGrid.Lib.RequestCoalescing

/-!
# Coalesced segment loads

The Node fetcher and the HLS plugin both share one load between the calls for a
segment. They differ in what a stop does, in the reason an abandoned load is
cancelled with and in the time limits of a load; in both, an abandoned load stays
in flight until it settles, and whoever joins it meanwhile is cancelled with it.
In the Node fetcher, a load whose origin or hash request takes too long also fails
with an abort error, and with it all who wait for it.
-/

namespace OpenStreamGrid

/-- Name and message of the error a signal is aborted with. -/
structure AbortReason where
  name : String
  message : String
deriving DecidableEq

/-- The bytes of a segment, or why it could not be loaded. -/
abbrev LoadResult := Except String (List UInt8)

abbrev SegmentLoads := Coalescing String AbortReason LoadResult

namespace SegmentFetcher

def stopReason : AbortReason := ⟨"Error", "Segment fetcher stopped"⟩

/-- Turns away who waits for a load in flight, and cancels it; a second stop does nothing. -/
def stop (s : SegmentLoads) : SegmentLoads :=
  if s.stopped.isSome then s
  else s.inFlight.values.foldl
    (fun s r => (s.rejectConsumers stopReason r).cancel stopReason r) (s.markStopped stopReason)

/-- What Node's HTTP client rejects with when the signal of a request is aborted. -/
def abortError : AbortReason := ⟨"AbortError", "The operation was aborted"⟩

/-- `fetchSegment`, and `fetchSegments`, whose calls have no signal. The origin
request is aborted by a timer, and the hash request by `AbortSignal.timeout`. -/
def coalescing : CoalescingService String AbortReason LoadResult where
  leaveReason reason := reason
  cutOff _ := abortError
  timeLimit := some ⟨"Error", "Origin request timed out"⟩
  stop := stop
  restarts := false

theorem fair_stop (s : SegmentLoads) (h : s.Fair) : (stop s).Fair := by
  unfold stop
  split_ifs
  · exact h
  suffices gen : ∀ (loads : List ℕ) (s : SegmentLoads), s.Fair → s.stopped.isSome →
      (loads.foldl (fun s r => (s.rejectConsumers stopReason r).cancel stopReason r) s).Fair from
    gen _ _ (h.markStopped stopReason) rfl
  intro loads
  induction loads with
  | nil => intro s h _; exact h
  | cons r rest ih =>
      intro s h hstopped
      have hsaw : ∀ id, s.Waits id r → (s.calls id).sawStop = true :=
        fun id hw => h.stopped hstopped id (h.known id r hw).1
      obtain ⟨hrejected, -⟩ := h.rejectConsumers stopReason hsaw
      refine ih _ (hrejected.cancel stopReason fun id hw => ?_) hstopped
      exact hrejected.stopped hstopped id (hrejected.known id r hw).1

end SegmentFetcher

namespace OpenStreamGridHlsPlugin

def stopReason : AbortReason := ⟨"AbortError", "Plugin detached"⟩

/-- Cancels the loads in flight; who waits for one learns of it when it settles. -/
def stopGrid (s : SegmentLoads) : SegmentLoads :=
  s.inFlight.values.foldl (fun s r => s.cancel stopReason r) (s.markStopped stopReason)

/-- `loadSegment`, whose calls all have a signal. `fetch` rejects with the reason
of its signal, and neither the origin nor the hash request has a time limit. -/
def coalescing : CoalescingService String AbortReason LoadResult where
  leaveReason _ := ⟨"AbortError", "All segment consumers aborted"⟩
  cutOff reason := reason
  timeLimit := none
  stop := stopGrid
  restarts := true

theorem fair_stopGrid (s : SegmentLoads) (h : s.Fair) : (stopGrid s).Fair := by
  suffices gen : ∀ (loads : List ℕ) (s : SegmentLoads), s.Fair → s.stopped.isSome →
      (loads.foldl (fun s r => s.cancel stopReason r) s).Fair from
    gen _ _ (h.markStopped stopReason) rfl
  intro loads
  induction loads with
  | nil => intro s h _; exact h
  | cons r rest ih =>
      intro s h hstopped
      refine ih _ (h.cancel stopReason fun id hw => ?_) hstopped
      exact h.stopped hstopped id (h.known id r hw).1

end OpenStreamGridHlsPlugin

/-- **Who is cancelled**: in both implementations, in every run in which no call
joins a load that the calls before it have abandoned, and no load reaches its time
limit while calls wait for it, a call is cancelled only by its own signal or by a
stop. -/
theorem cancelled_only_by_itself (s : SegmentLoads) :
    ((Coalescing.system SegmentFetcher.coalescing).Reachable Coalescing.Considerate s →
      s.SelfInflicted) ∧
    ((Coalescing.system OpenStreamGridHlsPlugin.coalescing).Reachable Coalescing.Considerate s →
      s.SelfInflicted) := by
  constructor
  · intro hr
    exact Coalescing.selfInflicted_of_reachable SegmentFetcher.fair_stop hr
  · intro hr
    exact Coalescing.selfInflicted_of_reachable OpenStreamGridHlsPlugin.fair_stopGrid hr

/-! ## Loads that are cancelled -/

/-- The loads after some events. -/
def loadsAfter (service : CoalescingService String AbortReason LoadResult)
    (events : List (Coalescing.Event String AbortReason LoadResult)) : SegmentLoads :=
  ((Coalescing.system service).run .new events).getD .new

/-- A viewer leaves before another one joins; the load is cancelled with a reason. -/
def lateJoin (reason : AbortReason) : List (Coalescing.Event String AbortReason LoadResult) :=
  [.call "segment-7.ts" true none none, .abort 0 ⟨"Error", "viewer seeked"⟩,
    .call "segment-7.ts" true none none, .settle 0 (.cancelled reason), .deliver 1]

/-- A viewer leaves after another one has joined, and the load succeeds. -/
def earlyJoin : List (Coalescing.Event String AbortReason LoadResult) :=
  [.call "segment-7.ts" true none none, .call "segment-7.ts" true none none,
    .abort 0 ⟨"Error", "viewer seeked"⟩, .settle 0 (.done (.ok [7])), .deliver 1]

/-- The second caller is cancelled, though its signal is not aborted and nothing was stopped. -/
theorem late_join_cancelled :
    (¬ ∀ s, (Coalescing.system SegmentFetcher.coalescing).Reachable (fun _ _ => True) s →
      s.SelfInflicted) ∧
    ¬ ∀ s, (Coalescing.system OpenStreamGridHlsPlugin.coalescing).Reachable (fun _ _ => True) s →
      s.SelfInflicted := by
  constructor
  · intro h
    have hrun : (Coalescing.system SegmentFetcher.coalescing).run .new
        (lateJoin ⟨"Error", "viewer seeked"⟩) = some (loadsAfter SegmentFetcher.coalescing
          (lateJoin ⟨"Error", "viewer seeked"⟩)) := rfl
    have hself := h _ (TransitionSystem.reachable_of_run rfl hrun) 1 _ rfl
    exact absurd hself (by decide +kernel)
  · intro h
    have hrun : (Coalescing.system OpenStreamGridHlsPlugin.coalescing).run .new
        (lateJoin ⟨"AbortError", "All segment consumers aborted"⟩)
          = some (loadsAfter OpenStreamGridHlsPlugin.coalescing
            (lateJoin ⟨"AbortError", "All segment consumers aborted"⟩)) := rfl
    have hself := h _ (TransitionSystem.reachable_of_run rfl hrun) 1 _ rfl
    exact absurd hself (by decide +kernel)

/-- The only caller waits until the origin request reaches its time limit. -/
def slowOrigin : List (Coalescing.Event String AbortReason LoadResult) :=
  [.call "segment-7.ts" true none none, .timeOut 0, .deliver 0]

/-- The caller gets an abort error, though nobody aborted anything. -/
theorem slow_origin_cancelled :
    ¬ ∀ s, (Coalescing.system SegmentFetcher.coalescing).Reachable (fun _ _ => True) s →
      s.SelfInflicted := by
  intro h
  have hrun : (Coalescing.system SegmentFetcher.coalescing).run .new slowOrigin
      = some (loadsAfter SegmentFetcher.coalescing slowOrigin) := rfl
  have hself := h _ (TransitionSystem.reachable_of_run rfl hrun) 0 SegmentFetcher.abortError rfl
  exact absurd hself (by decide +kernel)

/-- When the second caller joins before the first leaves, only the first is cancelled. -/
theorem cancelled_only_by_itself_earlyJoin :
    (loadsAfter SegmentFetcher.coalescing earlyJoin).SelfInflicted ∧
      (loadsAfter OpenStreamGridHlsPlugin.coalescing earlyJoin).SelfInflicted := by
  have hfetcher : (Coalescing.system SegmentFetcher.coalescing).run .new earlyJoin
      = some (loadsAfter SegmentFetcher.coalescing earlyJoin) := rfl
  have hplugin : (Coalescing.system OpenStreamGridHlsPlugin.coalescing).run .new earlyJoin
      = some (loadsAfter OpenStreamGridHlsPlugin.coalescing earlyJoin) := rfl
  constructor
  · exact (cancelled_only_by_itself _).1
      ((TransitionSystem.Reachable.init rfl).append_run (by decide +kernel) hfetcher)
  · exact (cancelled_only_by_itself _).2
      ((TransitionSystem.Reachable.init rfl).append_run (by decide +kernel) hplugin)

end OpenStreamGrid

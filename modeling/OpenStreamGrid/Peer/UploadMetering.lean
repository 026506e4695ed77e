import OpenStreamGrid.Lib.TokenBucket
import OpenStreamGrid.Peer.UploadLeases

/-!
# How fast the upload server is

All uploads draw on one token bucket, so what they write in any time is bounded by
a full bucket and what it gains in that time, however many there are and whenever
they wait for their clients.
-/

namespace OpenStreamGrid

namespace UploadServer

variable {o : UploadServerOptions} {speed : UploadSpeed} {bucket : BandwidthLimiter speed}
  {now later since last : ℚ≥0} {log granted : List (ℚ≥0 × ℕ)} {s s' : UploadServer o} {i : ℕ}
  {u v : PeerUpload}

/-! ## Logs -/

/-- The bytes that a log counts between two times. -/
def bytesIn (since last : ℚ≥0) (log : List (ℚ≥0 × ℕ)) : ℕ :=
  ((log.filter fun e => since ≤ e.1 ∧ e.1 ≤ last).map Prod.snd).sum

@[simp] theorem bytesIn_nil : bytesIn since last [] = 0 := rfl

@[simp] theorem bytesIn_append (log' : List (ℚ≥0 × ℕ)) :
    bytesIn since last (log ++ log') = bytesIn since last log + bytesIn since last log' := by
  unfold bytesIn
  rw [List.filter_append, List.map_append, List.sum_append]

theorem bytesIn_congr {last' : ℚ≥0} (h : ∀ e ∈ log, e.1 ≤ last ↔ e.1 ≤ last') :
    bytesIn since last log = bytesIn since last' log := by
  unfold bytesIn
  congr 2
  exact List.filter_congr fun e he => decide_eq_decide.mpr (and_congr_right fun _ => h e he)

theorem bytesIn_eq_zero (h : ∀ e ∈ log, ¬(since ≤ e.1 ∧ e.1 ≤ last)) :
    bytesIn since last log = 0 := by
  unfold bytesIn
  rw [List.filter_eq_nil_iff.mpr fun e he => by rw [decide_eq_true_iff]; exact h e he]
  rfl

theorem bytesIn_singleton_le (time : ℚ≥0) (bytes : ℕ) : bytesIn since last [(time, bytes)] ≤ bytes := by
  unfold bytesIn
  by_cases h : since ≤ time ∧ time ≤ last
  · rw [List.filter_cons_of_pos (by rwa [decide_eq_true_iff])]
    exact le_rfl
  · rw [List.filter_cons_of_neg (by rwa [decide_eq_true_iff])]
    exact Nat.zero_le _

/-! ## The bucket -/

theorem speed_nonneg (speed : UploadSpeed) : (0 : ℚ) ≤ speed := speed.property.le

theorem perMillisecond_pos (speed : UploadSpeed) : (0 : ℚ) < speed / 1000 :=
  div_pos speed.property (by norm_num)

def law (speed : UploadSpeed) : BucketLaw ℚ where
  capacity := speed
  rate := speed / 1000
  capacity_nonneg := speed_nonneg speed
  rate_pos := perMillisecond_pos speed

theorem refilledTokens_eq {time : ℚ} (h : bucket.lastRefill ≤ time) :
    bucket.refilledTokens time =
      (law speed).remaining time (some ⟨bucket.tokens, bucket.lastRefill⟩) := by
  unfold BandwidthLimiter.refilledTokens BucketLaw.remaining law
  rw [max_eq_right (sub_nonneg.mpr h)]
  dsimp only
  congr 2
  ring

/-- What was granted since any time, with what is left, is no more than a full bucket and what it
has gained. -/
structure Paced (now : ℚ≥0) (bucket : BandwidthLimiter speed) (granted : List (ℚ≥0 × ℕ)) :
    Prop where
  refilled : bucket.lastRefill ≤ now
  past : ∀ e ∈ granted, e.1 ≤ now
  taken : ∀ since ≤ now, (bytesIn since now granted : ℚ) + bucket.refilledTokens now ≤
    (law speed).capacity + (law speed).rate * ((now : ℚ) - since)
  window : ∀ since last, since ≤ last → (bytesIn since last granted : ℚ) ≤
    (law speed).capacity + (law speed).rate * ((last : ℚ) - since)

theorem refilledTokens_le : bucket.refilledTokens now ≤ (law speed).capacity := min_le_left _ _

theorem paced_new (speed : UploadSpeed) : Paced 0 (BandwidthLimiter.new speed 0) [] where
  refilled := le_rfl
  past _ h := absurd h List.not_mem_nil
  taken since hsince := by
    rw [bytesIn_nil, Nat.cast_zero, zero_add]
    exact refilledTokens_le.trans
      (le_add_of_nonneg_right ((law speed).gain_nonneg (NNRat.cast_le.mpr hsince)))
  window since last h := by
    rw [bytesIn_nil, Nat.cast_zero]
    exact add_nonneg (law speed).capacity_nonneg
      ((law speed).gain_nonneg (NNRat.cast_le.mpr h))

theorem Paced.elapse (h : Paced now bucket granted) (hle : now ≤ later) :
    Paced later bucket granted where
  refilled := h.refilled.trans (NNRat.cast_le.mpr hle)
  past e he := (h.past e he).trans hle
  taken since hsince := by
    have hsince' : (since : ℚ) ≤ later := NNRat.cast_le.mpr hsince
    rcases le_or_gt since now with hearly | hlate
    · have hsame : bytesIn since later granted = bytesIn since now granted :=
        bytesIn_congr fun e he => iff_of_true ((h.past e he).trans hle) (h.past e he)
      have htaken := h.taken since hearly
      have hgained := (law speed).remaining_le_add (b := some ⟨bucket.tokens, bucket.lastRefill⟩)
        (NNRat.cast_le.mpr hle : (now : ℚ) ≤ later)
      rw [← refilledTokens_eq h.refilled,
        ← refilledTokens_eq (h.refilled.trans (NNRat.cast_le.mpr hle))] at hgained
      rw [hsame]
      linarith
    · have hnone : bytesIn since later granted = 0 :=
        bytesIn_eq_zero fun e he hin => absurd (hin.1.trans (h.past e he)) (not_le.mpr hlate)
      rw [hnone, Nat.cast_zero, zero_add]
      exact refilledTokens_le.trans (le_add_of_nonneg_right ((law speed).gain_nonneg hsince'))
  window := h.window

/-- Bringing the bucket up to date makes no difference. -/
theorem Paced.refill (h : Paced now bucket granted) : Paced now (bucket.refill now) granted where
  refilled := le_rfl
  past := h.past
  taken since hsince := by
    have hsame : (bucket.refill now).refilledTokens now = bucket.refilledTokens now := by
      unfold BandwidthLimiter.refilledTokens BandwidthLimiter.refill
      dsimp only
      rw [sub_self, max_self, zero_div, zero_mul, add_zero]
      exact min_eq_right refilledTokens_le
    rw [hsame]
    exact h.taken since hsince
  window := h.window

theorem refilledTokens_of_fresh (h : bucket.lastRefill = now) :
    bucket.refilledTokens now = bucket.tokens := by
  unfold BandwidthLimiter.refilledTokens
  rw [h, sub_self, max_self, zero_div, zero_mul, add_zero]
  exact min_eq_right bucket.tokens_le

/-- **A grant** takes from the bucket what it lets the uploads write. -/
theorem Paced.spend (h : Paced now bucket granted) {bytes : ℕ}
    (hbytes : (bytes : ℚ) ≤ bucket.tokens) (hnow : bucket.lastRefill = now) :
    Paced now (bucket.spend bytes hbytes) (granted ++ [(now, bytes)]) := by
  have hpast : ∀ e ∈ granted ++ [(now, bytes)], e.1 ≤ now := fun e he => by
    rcases List.mem_append.mp he with he | he
    · exact h.past e he
    · exact (congrArg Prod.fst (List.mem_singleton.mp he)).le
  have htaken : ∀ since ≤ now, (bytesIn since now (granted ++ [(now, bytes)]) : ℚ) +
      (bucket.tokens - bytes) ≤
        (law speed).capacity + (law speed).rate * ((now : ℚ) - since) := by
    intro since hsince
    have hbefore := h.taken since hsince
    have hmost : (bytesIn since now [(now, bytes)] : ℚ) ≤ bytes :=
      Nat.cast_le.mpr (bytesIn_singleton_le now bytes)
    rw [refilledTokens_of_fresh hnow] at hbefore
    rw [bytesIn_append, Nat.cast_add]
    linarith
  refine ⟨h.refilled, hpast, fun since hsince => ?_, fun since last hle => ?_⟩
  · have hspent : (bucket.spend bytes hbytes).refilledTokens now = bucket.tokens - bytes :=
      refilledTokens_of_fresh hnow
    rw [hspent]
    exact htaken since hsince
  · rcases lt_or_ge last now with hearly | hlate
    · have hnew : bytesIn since last [(now, bytes)] = 0 := bytesIn_eq_zero fun e he hin => by
        obtain rfl := List.mem_singleton.mp he
        exact absurd hin.2 (not_le.mpr hearly)
      rw [bytesIn_append, hnew, Nat.add_zero]
      exact h.window since last hle
    rcases le_or_gt since now with hsince | hfuture
    · have hsame : bytesIn since last (granted ++ [(now, bytes)]) =
          bytesIn since now (granted ++ [(now, bytes)]) :=
        bytesIn_congr fun e he => iff_of_true ((hpast e he).trans hlate) (hpast e he)
      have hgain : (law speed).rate * ((now : ℚ) - since) ≤
          (law speed).rate * ((last : ℚ) - since) := by
        have := (law speed).rate_pos
        have : (now : ℚ) ≤ last := NNRat.cast_le.mpr hlate
        gcongr
      have hall := htaken since hsince
      rw [hsame]
      linarith
    · have hnone : bytesIn since last (granted ++ [(now, bytes)]) = 0 :=
        bytesIn_eq_zero fun e he hin => absurd (hin.1.trans (hpast e he)) (not_le.mpr hfuture)
      rw [hnone, Nat.cast_zero]
      exact add_nonneg (law speed).capacity_nonneg
        ((law speed).gain_nonneg (NNRat.cast_le.mpr hle))

/-! ## What was granted and what was written -/

/-- The chunk an upload has been granted and has not written. -/
def pendingOf (o : UploadServerOptions) (u : PeerUpload) : List (ℚ≥0 × ℕ) :=
  match u.phase with
  | .granted since =>
      [(since, ((u.data.drop u.offset).take (BandwidthLimiter.maximumChunkBytes o.speed)).length)]
  | _ => []

/-- Every byte that was written had been granted, at the same time. -/
structure Metered (now : ℚ≥0) (s : UploadServer o) : Prop where
  paced : Paced now s.bucket s.granted
  covered : ∀ since last, bytesIn since last s.written +
    bytesIn since last (s.uploads.flatMap (pendingOf o)) ≤ bytesIn since last s.granted
  prompt : ∀ u ∈ s.uploads, ∀ since, u.phase = .granted since → since = now

theorem metered_new (o : UploadServerOptions) : Metered 0 (new o) where
  paced := paced_new o.speed
  covered _ _ := le_rfl
  prompt _ h := absurd h List.not_mem_nil

theorem Metered.elapse (h : Metered now s) (hle : now ≤ later)
    (htimers : ∀ due ∈ s.timers, later ≤ due) : Metered later s where
  paced := h.paced.elapse hle
  covered := h.covered
  prompt u hu since hphase := by
    obtain rfl := h.prompt u hu since hphase
    exact le_antisymm hle (htimers since (List.mem_filterMap.mpr ⟨u, hu, by rw [hphase]⟩))

/-- An upload changes, with the logs. -/
theorem Metered.update (h : Metered now s) (hi : s.uploads[i]? = some u)
    (hprompt : ∀ since, v.phase = .granted since → since = now)
    {bucket : BandwidthLimiter o.speed} {granted written : List (ℚ≥0 × ℕ)}
    (hpaced : Paced now bucket granted)
    (hcovered : ∀ since last, bytesIn since last written +
        bytesIn since last (pendingOf o v) + bytesIn since last s.granted ≤
      bytesIn since last s.written + bytesIn since last (pendingOf o u) +
        bytesIn since last granted)
    (cache : SegmentCache) (activeConnections : ℤ) (uploadedBytes : ℕ) :
    Metered now ({ s with
      cache, bucket, activeConnections, granted, written, uploadedBytes }.setUpload i v) := by
  obtain ⟨before, after, hsplit, hset⟩ := exists_split hi
  have hall := h.covered
  have huploads := h.prompt
  rw [hsplit] at hall huploads
  unfold setUpload
  dsimp only
  rw [hset]
  refine ⟨hpaced, fun since last => ?_, fun w hw => ?_⟩
  · have hbefore := hall since last
    have hchange := hcovered since last
    simp only [List.flatMap_append, List.flatMap_cons, bytesIn_append] at hbefore ⊢
    omega
  · rcases List.mem_append.mp hw with hw | hw
    · exact huploads w (List.mem_append_left _ hw)
    · rcases List.mem_cons.mp hw with rfl | hw
      · exact hprompt
      · exact huploads w (List.mem_append_right _ (List.mem_cons_of_mem _ hw))

/-- An upload that has nothing pending. -/
theorem Metered.rest (h : Metered now s) (hi : s.uploads[i]? = some u)
    (hphase : ∀ since, v.phase ≠ .granted since) {bucket : BandwidthLimiter o.speed}
    (hpaced : Paced now bucket s.granted) (cache : SegmentCache) (activeConnections : ℤ) :
    Metered now ({ s with cache, bucket, activeConnections }.setUpload i v) := by
  refine h.update hi (fun since heq => absurd heq (hphase since)) hpaced (fun since last => ?_)
    cache activeConnections s.uploadedBytes
  have hnone : pendingOf o v = [] := by
    unfold pendingOf
    split
    · exact absurd ‹_› (hphase _)
    · rfl
  rw [hnone, bytesIn_nil]
  omega

theorem Metered.finish (h : Metered now s) (hi : s.uploads[i]? = some v) :
    Metered now (s.finish i u) :=
  h.rest hi (fun _ => UploadPhase.noConfusion) h.paced _ _

theorem Metered.consume (h : Metered now s) (hi : s.uploads[i]? = some v)
    (hreads : s.cache.leasedBytes u.lease = u.data) : Metered now (s.consume now i u) := by
  unfold UploadServer.consume
  dsimp only
  split_ifs with hgranted
  · refine h.update hi (fun since heq => (UploadPhase.granted.inj heq).symm)
      (h.paced.refill.spend hgranted rfl) (fun since last => ?_) s.cache s.activeConnections
      s.uploadedBytes
    have hpending : pendingOf o { u with phase := .granted now } =
        [(now, (s.chunk u).length)] := by
      unfold pendingOf chunk
      rw [hreads]
    rw [hpending, bytesIn_append]
    omega
  · exact h.rest hi (fun _ => UploadPhase.noConfusion) h.paced.refill s.cache s.activeConnections

theorem Metered.writeLimited (h : Metered now s) (hi : s.uploads[i]? = some v)
    (hreads : s.cache.leasedBytes u.lease = u.data) : Metered now (s.writeLimited now i u) := by
  unfold UploadServer.writeLimited
  split_ifs
  · exact h.consume hi hreads
  · exact h.finish hi

/-- A chunk that was granted is written. -/
theorem Metered.write (h : Metered now s) (hi : s.uploads[i]? = some u) {since : ℚ≥0}
    (hphase : u.phase = .granted since) (hreads : s.cache.leasedBytes u.lease = u.data)
    (hnext : ∀ since, v.phase ≠ .granted since) (uploadedBytes : ℕ) :
    Metered now ({ s with
      uploadedBytes
      written := s.written ++ [(now, (s.chunk u).length)] }.setUpload i v) := by
  obtain rfl := h.prompt u (List.mem_of_getElem? hi) since hphase
  refine h.update hi (fun since heq => absurd heq (hnext since)) h.paced (fun first last => ?_)
    s.cache s.activeConnections uploadedBytes
  have hbefore : pendingOf o u = [(since, (s.chunk u).length)] := by
    unfold pendingOf chunk
    rw [hphase, hreads]
  have hafter : pendingOf o v = [] := by
    unfold pendingOf
    split
    · exact absurd ‹_› (hnext _)
    · rfl
  rw [hbefore, hafter, bytesIn_append, bytesIn_nil]
  omega

theorem Metered.writeChunk (h : Metered now s) (hi : s.uploads[i]? = some u) {since : ℚ≥0}
    (hphase : u.phase = .granted since) (hreads : s.cache.leasedBytes u.lease = u.data)
    (canContinue : Bool) : Metered now (s.writeChunk now i u canContinue) := by
  unfold UploadServer.writeChunk
  split_ifs
  · exact h.finish hi
  · have hwritten := h.write (v := { u with phase := .consuming now }) hi hphase hreads
      (fun _ => UploadPhase.noConfusion) (s.uploadedBytes + (s.chunk u).length)
    have hloop := hwritten.writeLimited (u := { u with
      body := u.body ++ s.chunk u
      offset := u.offset + BandwidthLimiter.maximumChunkBytes o.speed })
      (getElem?_setUpload hi) hreads
    rw [writeLimited_setUpload] at hloop
    exact hloop
  · exact h.write hi hphase hreads (fun _ => UploadPhase.noConfusion) _

theorem Metered.serve (h : Metered now s) (head : Bool) (segmentName : String) (date : ℚ) :
    Metered now (s.serve now head segmentName date) := by
  unfold UploadServer.serve
  dsimp only
  cases (s.cache.lease o.cache segmentName date).2 with
  | none => exact { h with }
  | some lease =>
      have happend (u : PeerUpload) (hphase : u.phase = .consuming now) : Metered now { s with
          cache := (s.cache.lease o.cache segmentName date).1
          activeConnections := s.activeConnections + 1
          uploads := s.uploads ++ [u] } := by
        refine ⟨h.paced, fun since last => ?_, fun v hv => ?_⟩
        · have hnone : pendingOf o u = [] := by
            unfold pendingOf
            rw [hphase]
          rw [List.flatMap_append, List.flatMap_singleton, hnone, List.append_nil]
          exact h.covered since last
        · rcases List.mem_append.mp hv with hv | hv
          · exact h.prompt v hv
          · obtain rfl := List.mem_singleton.mp hv
            rw [hphase]
            exact fun since heq => nomatch heq
      cases head with
      | true => exact (happend _ rfl).finish List.getElem?_concat_length
      | false => exact (happend _ rfl).writeLimited List.getElem?_concat_length rfl

theorem Metered.handle (h : Metered now s) (r : UploadRequest) : Metered now (s.handle now r) := by
  have hanswer (answer : UploadAnswer) : Metered now (s.answer answer) := { h with }
  unfold UploadServer.handle
  cases r.pathname with
  | none => exact hanswer _
  | some pathname =>
      dsimp only
      by_cases hpreflight : r.method = "OPTIONS" ∧ "/segments/".toList <+: pathname.toList
      · rw [if_pos hpreflight]
        exact hanswer _
      rw [if_neg hpreflight]
      by_cases hhealth : r.method = "GET" ∧ pathname = "/health"
      · rw [if_pos hhealth]
        exact { h with }
      rw [if_neg hhealth]
      cases segmentPath? pathname with
      | none => exact hanswer _
      | some encoded =>
          dsimp only
          split_ifs
          · exact hanswer _
          · exact hanswer _
          · exact hanswer _
          · cases decodeURIComponent encoded with
            | none => exact hanswer _
            | some segmentName =>
                dsimp only
                split_ifs
                · exact h.serve _ segmentName r.now
                · exact hanswer _

/-! ## Runs -/

theorem Metered.step (h : Metered now s) (hsound : Sound o now s) {event : UploadServerEvent}
    (hstep : s.step now event = some s') : Metered now s' := by
  cases event with
  | cache event =>
      cases event with
      | get | has | lease | clear | evictExpired | set =>
          obtain rfl := Option.some.inj hstep
          exact { h with }
      | release handle =>
          obtain ⟨-, hs'⟩ := Option.ite_none_left_eq_some.mp hstep
          obtain rfl := Option.some.inj hs'
          exact { h with }
  | request r =>
      obtain rfl := Option.some.inj hstep
      exact h.handle r
  | wake i =>
      obtain ⟨u, hi, hstep⟩ := Option.bind_eq_some_iff.mp hstep
      cases hphase : u.phase with
      | consuming due =>
          rw [hphase] at hstep
          obtain ⟨-, hs'⟩ := Option.ite_none_right_eq_some.mp hstep
          obtain rfl := Option.some.inj hs'
          exact h.consume hi (hsound.leasedBytes hi (hphase ▸ UploadPhase.noConfusion))
      | granted | draining | finished =>
          rw [hphase] at hstep
          cases hstep
  | resume i canContinue =>
      obtain ⟨u, hi, hstep⟩ := Option.bind_eq_some_iff.mp hstep
      cases hphase : u.phase with
      | granted since =>
          rw [hphase] at hstep
          obtain rfl := Option.some.inj hstep
          have hread := hsound.leasedBytes hi (hphase ▸ UploadPhase.noConfusion)
          exact h.writeChunk hi hphase hread canContinue
      | consuming | draining | finished =>
          rw [hphase] at hstep
          cases hstep
  | drained i =>
      obtain ⟨u, hi, hstep⟩ := Option.bind_eq_some_iff.mp hstep
      cases hphase : u.phase with
      | draining due =>
          rw [hphase] at hstep
          obtain rfl := Option.some.inj hstep
          have hread := hsound.leasedBytes hi (hphase ▸ UploadPhase.noConfusion)
          exact h.writeLimited hi hread
      | consuming | granted | finished =>
          rw [hphase] at hstep
          cases hstep
  | stalled i =>
      obtain ⟨u, hi, hstep⟩ := Option.bind_eq_some_iff.mp hstep
      cases hphase : u.phase with
      | draining due =>
          rw [hphase] at hstep
          obtain ⟨-, hs'⟩ := Option.ite_none_right_eq_some.mp hstep
          obtain rfl := Option.some.inj hs'
          have hread := hsound.leasedBytes hi (hphase ▸ UploadPhase.noConfusion)
          exact h.writeLimited hi hread
      | consuming | granted | finished =>
          rw [hphase] at hstep
          cases hstep
  | destroyed i =>
      obtain ⟨u, hi, hstep⟩ := Option.bind_eq_some_iff.mp hstep
      obtain ⟨-, hs'⟩ := Option.ite_none_right_eq_some.mp hstep
      obtain rfl := Option.some.inj hs'
      exact h.update (v := { u with destroyed := true }) hi (h.prompt u (List.mem_of_getElem? hi))
        h.paced (fun _ _ => le_rfl) s.cache s.activeConnections s.uploadedBytes

theorem metered_of_reachable {t : Timed (UploadServer o)} (hr : (system o).Reachable t) :
    Sound o t.clock t.state ∧ Metered t.clock t.state := by
  refine hr.invariant (fun now s => Sound o now s ∧ Metered now s) ?_ ?_ ?_
  · rintro s rfl
    exact ⟨sound_new o, metered_new o⟩
  · exact fun _ _ _ _ h hstep => ⟨h.1.step hstep, h.2.step h.1 hstep⟩
  · exact fun _ _ _ h hle htimers => ⟨h.1.elapse hle htimers, h.2.elapse hle htimers⟩

/-- **In any time all uploads together write no more than a second's worth of bytes and what the
upload speed allows in that time.** -/
theorem uploads_keep_speed {t : Timed (UploadServer o)} (hr : (system o).Reachable t)
    {since last : ℚ≥0} (hle : since ≤ last) :
    (bytesIn since last t.state.written : ℚ) ≤
      o.speed.val + o.speed.val / 1000 * ((last : ℚ) - since) := by
  have h := (metered_of_reachable hr).2
  have hcovered : bytesIn since last t.state.written ≤ bytesIn since last t.state.granted :=
    (Nat.le_add_right _ _).trans (h.covered since last)
  exact (Nat.cast_le.mpr hcovered).trans (h.paced.window since last hle)

/-- The bound is met: two bytes at once and a third half a second later. -/
theorem replacedMeanwhile_keeps_speed : ∃ t : Timed (UploadServer smallOptions),
    (system smallOptions).toTransitionSystem.run ⟨0, new smallOptions⟩ replacedMeanwhile = some t ∧
      t.state.written = [(0, 2), (500, 1)] ∧ (bytesIn 0 500 t.state.written : ℚ) ≤ 3 := by
  obtain ⟨t, ht⟩ : ∃ t, (system smallOptions).toTransitionSystem.run ⟨0, new smallOptions⟩
      replacedMeanwhile = some t := Option.isSome_iff_exists.mp (by decide +kernel)
  have hstate : ((system smallOptions).toTransitionSystem.run ⟨0, new smallOptions⟩
      replacedMeanwhile).map (fun t => t.state.written) = some [(0, 2), (500, 1)] := by
    decide +kernel
  rw [ht, Option.map_some, Option.some.injEq] at hstate
  refine ⟨t, ht, hstate, ?_⟩
  have hbound := uploads_keep_speed (TimedSystem.reachable_of_run rfl ht) (by norm_num : (0 : ℚ≥0) ≤ 500)
  have hspeed : (smallOptions.speed.val : ℚ) = 2 := rfl
  rw [hspeed] at hbound
  refine hbound.trans ?_
  norm_num

end UploadServer

end OpenStreamGrid

import OpenStreamGrid.Peer.UploadServer

/-!
# Uploads and their leases

Every upload in progress holds one of the slots and a lease of its own, so that
what it writes is what was stored under its name, although the segment may be
evicted or replaced in the meantime. When it is over, slot and lease are free.
-/

namespace OpenStreamGrid

namespace UploadServer

variable {o : UploadServerOptions} {now later : ℚ≥0} {s s' : UploadServer o} {i : ℕ}
  {u v : PeerUpload} {cache cache' : SegmentCache} {stores stores' : List (String × List UInt8)}

/-! ## The invariant -/

/-- How far the upload has got. -/
def sent (o : UploadServerOptions) (u : PeerUpload) : ℕ :=
  match u.phase with
  | .draining _ => u.offset + BandwidthLimiter.maximumChunkBytes o.speed
  | _ => u.offset

structure UploadSound (o : UploadServerOptions) (now : ℚ≥0) (cache : SegmentCache)
    (stores : List (String × List UInt8)) (u : PeerUpload) : Prop where
  lease : u.lease < cache.granted
  held : (cache.handles u.lease).released = decide (u.phase = .finished)
  entry : (cache.handles u.lease).entry < cache.created
  data : (cache.objects (cache.handles u.lease).entry).stored = u.data
  stored : (u.segmentName, u.data) ∈ stores
  contentLength : u.contentLength = u.data.length
  written : u.phase ≠ .finished → u.body = u.data.take (sent o u)
  isPrefix : u.body <+: u.data
  /-- Unless the client has gone, it gets everything. -/
  complete : u.phase = .finished → u.destroyed = false → u.head = false → u.body = u.data
  headless : u.head = true → u.phase = .finished ∧ u.body = []
  ended : u.ended = decide (u.phase = .finished)
  stall : ∀ due, u.phase = .draining due → now ≤ due ∧ due ≤ now + o.stallTimeoutMs

structure Sound (o : UploadServerOptions) (now : ℚ≥0) (s : UploadServer o) : Prop where
  owned : SegmentCache.Owned o.cache s.cache
  limit : s.cache.totalBytes ≤ o.cache.maxBytes
  active : s.activeConnections = (s.uploads.countP PeerUpload.unfinished : ℕ)
  few : s.activeConnections ≤ (o.maxConnections : ℕ)
  leases : (s.uploads.map PeerUpload.lease).Nodup
  uploads : ∀ u ∈ s.uploads, UploadSound o now s.cache s.stores u
  counted : s.uploadedBytes = (s.uploads.map fun u => u.body.length).sum
  live : ∀ name id, s.cache.entries.get? name = some id →
    (name, (s.cache.objects id).stored) ∈ s.stores

theorem sound_new (o : UploadServerOptions) : Sound o 0 (new o) where
  owned := SegmentCache.owned_new
  limit := Int.natCast_nonneg _
  active := rfl
  few := Int.natCast_nonneg _
  leases := List.nodup_nil
  uploads _ h := absurd h List.not_mem_nil
  counted := rfl
  live _ _ h := nomatch h

theorem UploadSound.elapse (h : UploadSound o now cache stores u) (hle : now ≤ later)
    (hdue : ∀ due, u.phase = .draining due → later ≤ due) : UploadSound o later cache stores u :=
  { h with
    stall := fun due hphase =>
      ⟨hdue due hphase, (h.stall due hphase).2.trans (by gcongr)⟩ }

theorem Sound.elapse (h : Sound o now s) (hle : now ≤ later)
    (htimers : ∀ due ∈ s.timers, later ≤ due) : Sound o later s :=
  { h with
    uploads := fun u hu => (h.uploads u hu).elapse hle fun due hphase =>
      htimers due (List.mem_filterMap.mpr ⟨u, hu, by rw [hphase]⟩) }

/-! ## The cache in use -/

theorem UploadSound.keeps {kept : LeaseId → Prop} {fresh : String → List UInt8 → Prop}
    (h : UploadSound o now cache stores u) (hkeeps : SegmentCache.Keeps kept fresh cache cache')
    (hkept : kept u.lease) (hstores : stores ⊆ stores') : UploadSound o now cache' stores' u := by
  have hhandle := hkeeps.handles u.lease h.lease hkept
  exact { h with
    lease := h.lease.trans_le hkeeps.granted
    held := by
      rw [hhandle]
      exact h.held
    entry := by
      rw [hhandle]
      exact h.entry.trans_le hkeeps.created
    data := by
      rw [hhandle, hkeeps.stored _ h.entry]
      exact h.data
    stored := hstores h.stored }

/-- An entry of the cache after an operation was stored under its name. -/
theorem Sound.live_of_keeps {kept : LeaseId → Prop} {fresh : String → List UInt8 → Prop}
    (h : Sound o now s) (hkeeps : SegmentCache.Keeps kept fresh s.cache cache')
    (hstores : s.stores ⊆ stores') (hfresh : ∀ name data, fresh name data → (name, data) ∈ stores') :
    ∀ name id, cache'.entries.get? name = some id → (name, (cache'.objects id).stored) ∈ stores' := by
  intro name id hget
  rcases hkeeps.live name id hget with hold | hnew
  · rw [hkeeps.stored id (h.owned.live name id hold).1]
    exact hstores (h.live name id hold)
  · exact hfresh name _ hnew

theorem Sound.withCache {kept : LeaseId → Prop} {fresh : String → List UInt8 → Prop}
    (h : Sound o now s) (hkeeps : SegmentCache.Keeps kept fresh s.cache cache')
    (howned : SegmentCache.Owned o.cache cache' ∧ cache'.totalBytes ≤ o.cache.maxBytes)
    (hkept : ∀ u ∈ s.uploads, kept u.lease) (hstores : s.stores ⊆ stores')
    (hfresh : ∀ name data, fresh name data → (name, data) ∈ stores') :
    Sound o now { s with cache := cache', stores := stores' } :=
  { h with
    owned := howned.1
    limit := howned.2
    uploads := fun u hu => (h.uploads u hu).keeps hkeeps (hkept u hu) hstores
    live := h.live_of_keeps hkeeps hstores hfresh }

theorem Sound.useCache (h : Sound o now s) {event : SegmentCache.CacheEvent}
    (hstep : s.useCache event = some s') : Sound o now s' := by
  have hkeeps := SegmentCache.step_keeps o.cache s.cache event
  have howned := h.owned.step h.limit event
  have hother (hrelease : ∀ released, event ≠ .release released)
      (hset : ∀ name data, ¬ event.Stores o.cache s.cache name data) :
      Sound o now { s with cache := s.cache.step o.cache event } :=
    h.withCache hkeeps howned (fun u _ released heq => absurd heq (hrelease released))
      (List.Subset.refl _) fun name data hstores => absurd hstores (hset name data)
  cases event with
  | get | has | lease | clear | evictExpired =>
      obtain rfl := Option.some.inj hstep
      exact hother (fun _ heq => nomatch heq) fun _ _ hstores => hstores
  | release handle =>
      obtain ⟨hmem, hs'⟩ := Option.ite_none_left_eq_some.mp hstep
      obtain rfl := Option.some.inj hs'
      refine h.withCache hkeeps howned (fun u hu released heq => ?_) (List.Subset.refl _)
        fun name data hstores => hstores.elim
      obtain rfl := SegmentCache.CacheEvent.release.inj heq
      exact fun hsame => hmem (List.mem_map.mpr ⟨u, hu, hsame⟩)
  | set segmentName data date uninitialised =>
      obtain rfl := Option.some.inj hstep
      refine h.withCache hkeeps howned (fun u _ released heq => nomatch heq) ?_ ?_
      · split_ifs
        · exact List.subset_append_left _ _
        · exact List.Subset.refl _
      · rintro name stored ⟨haccepted, rfl, rfl⟩
        rw [if_pos haccepted]
        exact List.mem_append_right _ (List.mem_singleton_self _)

/-! ## An upload in the list -/

theorem exists_split {α : Type*} {xs : List α} {a : α} (hi : xs[i]? = some a) :
    ∃ before after, xs = before ++ a :: after ∧ ∀ b, xs.set i b = before ++ b :: after := by
  obtain ⟨hlt, rfl⟩ := List.getElem?_eq_some_iff.mp hi
  refine ⟨xs.take i, xs.drop (i + 1), ?_, fun b => ?_⟩
  · rw [← List.drop_eq_getElem_cons hlt, List.take_append_drop]
  · exact List.set_eq_take_append_cons_drop.trans (if_pos hlt)

theorem set_concat {α : Type*} {xs : List α} {a b : α} :
    (xs ++ [a]).set xs.length b = xs ++ [b] := by
  rw [List.set_append_right _ _ le_rfl, Nat.sub_self]
  rfl

theorem leases_ne_of_split {before after : List PeerUpload}
    (hnodup : ((before ++ u :: after).map PeerUpload.lease).Nodup) :
    ∀ v ∈ before ++ after, v.lease ≠ u.lease := by
  rw [List.map_append, List.map_cons, List.nodup_middle] at hnodup
  obtain ⟨hfresh, -⟩ := List.nodup_cons.mp hnodup
  rw [← List.map_append] at hfresh
  exact fun v hv heq => hfresh (List.mem_map.mpr ⟨v, hv, heq⟩)

/-- What a lease reads while its upload is in progress. -/
theorem Sound.leasedBytes (h : Sound o now s) (hi : s.uploads[i]? = some u)
    (hgoing : u.phase ≠ .finished) : s.cache.leasedBytes u.lease = u.data := by
  have hu := h.uploads u (List.mem_of_getElem? hi)
  have hopen : (s.cache.handles u.lease).released = false := by
    rw [hu.held, decide_eq_false hgoing]
  rw [(h.owned.ownsBuffers h.limit).leased u.lease hu.lease hopen, hu.data]

/-- An upload goes on, and may have written more. -/
theorem Sound.update (h : Sound o now s) (hi : s.uploads[i]? = some u)
    (hgoing : u.phase ≠ .finished) (hgoing' : v.phase ≠ .finished) (hlease : v.lease = u.lease)
    (hv : UploadSound o now s.cache s.stores v) {bytes : ℕ}
    (hbytes : bytes + u.body.length = s.uploadedBytes + v.body.length)
    (bucket : BandwidthLimiter o.speed) (granted written : List (ℚ≥0 × ℕ)) :
    Sound o now ({ s with bucket, granted, written, uploadedBytes := bytes }.setUpload i v) := by
  obtain ⟨before, after, hsplit, hset⟩ := exists_split hi
  have hcounted := h.counted
  have hactive := h.active
  have hleases := h.leases
  have huploads := h.uploads
  rw [hsplit] at hcounted hactive hleases huploads
  unfold setUpload
  dsimp only
  rw [hset]
  exact {
    owned := h.owned
    limit := h.limit
    active := by
      have hu : u.unfinished = true := decide_eq_true hgoing
      have hv : v.unfinished = true := decide_eq_true hgoing'
      rw [hactive, List.countP_append, List.countP_cons, List.countP_append, List.countP_cons, hu,
        hv]
    few := h.few
    leases := by
      rw [List.map_append, List.map_cons] at hleases ⊢
      rwa [hlease]
    uploads := fun w hw => by
      rcases List.mem_append.mp hw with hw | hw
      · exact huploads w (List.mem_append_left _ hw)
      · rcases List.mem_cons.mp hw with rfl | hw
        · exact hv
        · exact huploads w (List.mem_append_right _ (List.mem_cons_of_mem _ hw))
    counted := by
      simp only [List.map_append, List.map_cons, List.sum_append, List.sum_cons] at hcounted ⊢
      omega
    live := h.live }

theorem UploadSound.finished (h : UploadSound o now cache stores u) {head : Bool}
    (hcomplete : u.destroyed = false → head = false → u.body = u.data)
    (hheadless : head = true → u.body = []) :
    UploadSound o now (cache.release o.cache u.lease) stores
      { u with head, phase := .finished, ended := true } := by
  have hkeeps := SegmentCache.release_keeps o.cache cache u.lease
  have hentry := SegmentCache.entry_release o.cache cache u.lease
  exact {
    lease := h.lease.trans_le hkeeps.granted
    held := (SegmentCache.released_release h.lease).2
    entry := by
      rw [hentry]
      exact h.entry.trans_le hkeeps.created
    data := by
      rw [hentry, hkeeps.stored _ h.entry]
      exact h.data
    stored := h.stored
    contentLength := h.contentLength
    written := fun hgoing => absurd rfl hgoing
    isPrefix := h.isPrefix
    complete := fun _ => hcomplete
    headless := fun htrue => ⟨rfl, hheadless htrue⟩
    ended := rfl
    stall := fun _ hphase => nomatch hphase }

/-- **The end of an upload**: its lease and its slot are free. -/
theorem Sound.finish (h : Sound o now s) (hi : s.uploads[i]? = some u)
    (hgoing : u.phase ≠ .finished) (head : Bool)
    (hcomplete : u.destroyed = false → head = false → u.body = u.data)
    (hheadless : head = true → u.body = []) : Sound o now (s.finish i { u with head }) := by
  obtain ⟨before, after, hsplit, hset⟩ := exists_split hi
  have hu := h.uploads u (List.mem_of_getElem? hi)
  have hkeeps := SegmentCache.release_keeps o.cache s.cache u.lease
  obtain ⟨howned, htotal⟩ := h.owned.release u.lease
  have hcounted := h.counted
  have hactive := h.active
  have hleases := h.leases
  have huploads := h.uploads
  rw [hsplit] at hcounted hactive hleases huploads
  have hothers := leases_ne_of_split hleases
  unfold UploadServer.finish setUpload
  dsimp only
  rw [hset]
  exact {
    owned := howned
    limit := htotal.trans h.limit
    active := by
      have hu : u.unfinished = true := decide_eq_true hgoing
      have hfinished : PeerUpload.unfinished
          { u with head, phase := .finished, ended := true } = false := rfl
      rw [hactive, List.countP_append, List.countP_cons, List.countP_append, List.countP_cons, hu,
        hfinished, if_pos rfl, if_neg Bool.false_ne_true]
      push_cast
      ring
    few := (sub_le_self _ zero_le_one).trans h.few
    leases := by
      rwa [List.map_append, List.map_cons] at hleases ⊢
    uploads := fun w hw => by
      have hother (hmem : w ∈ before ++ after) :
          UploadSound o now (s.cache.release o.cache u.lease) s.stores w := by
        refine (huploads w ?_).keeps hkeeps (hothers w hmem) (List.Subset.refl _)
        exact (List.mem_append.mp hmem).elim (List.mem_append_left _)
          fun hw => List.mem_append_right _ (List.mem_cons_of_mem _ hw)
      rcases List.mem_append.mp hw with hw | hw
      · exact hother (List.mem_append_left _ hw)
      · rcases List.mem_cons.mp hw with rfl | hw
        · exact hu.finished hcomplete hheadless
        · exact hother (List.mem_append_right _ hw)
    counted := by
      simp only [List.map_append, List.map_cons, List.sum_append, List.sum_cons] at hcounted ⊢
      exact hcounted
    live := h.live_of_keeps hkeeps (List.Subset.refl _) fun _ _ hfalse => hfalse.elim }

/-! ## The loop -/

/-- An upload is at another place of its loop, and may have written more. -/
theorem Sound.proceed (h : Sound o now s) (hi : s.uploads[i]? = some u)
    (hgoing : u.phase ≠ .finished) {phase : UploadPhase} {offset : ℕ}
    {body : List UInt8} {destroyed : Bool} (hphase : phase ≠ .finished)
    (hbody : body = u.data.take (sent o { u with phase, offset }))
    (hstall : ∀ due, phase = .draining due → now ≤ due ∧ due ≤ now + o.stallTimeoutMs)
    {bytes : ℕ} (hbytes : bytes + u.body.length = s.uploadedBytes + body.length)
    (bucket : BandwidthLimiter o.speed) (granted written : List (ℚ≥0 × ℕ)) :
    Sound o now ({ s with bucket, granted, written, uploadedBytes := bytes }.setUpload i
      { u with phase, offset, body, destroyed }) := by
  have hu := h.uploads u (List.mem_of_getElem? hi)
  refine h.update (v := { u with phase, offset, body, destroyed }) hi hgoing hphase rfl ?_ hbytes
    bucket granted written
  exact {
    lease := hu.lease
    held := by
      rw [hu.held, decide_eq_false hgoing, decide_eq_false hphase]
    entry := hu.entry
    data := hu.data
    stored := hu.stored
    contentLength := hu.contentLength
    written := fun _ => hbody
    isPrefix := hbody ▸ List.take_prefix _ _
    complete := fun hfinished => absurd hfinished hphase
    headless := fun htrue => absurd (hu.headless htrue).1 hgoing
    ended := by
      rw [hu.ended, decide_eq_false hgoing, decide_eq_false hphase]
    stall := hstall }

theorem Sound.consume (h : Sound o now s) (hi : s.uploads[i]? = some u)
    (hgoing : u.phase ≠ .finished) (hsent : sent o u = u.offset) :
    Sound o now (s.consume now i u) := by
  have hbody : u.body = u.data.take u.offset :=
    hsent ▸ (h.uploads u (List.mem_of_getElem? hi)).written hgoing
  have hwaits {phase : UploadPhase} (hphase : phase ≠ .finished)
      (hsent' : sent o { u with phase } = u.offset) (hstall : ∀ due, phase ≠ .draining due)
      (bucket : BandwidthLimiter o.speed) (granted : List (ℚ≥0 × ℕ)) :
      Sound o now ({ s with bucket, granted }.setUpload i { u with phase }) :=
    h.proceed hi hgoing hphase (hbody.trans (by rw [hsent']))
      (fun due heq => absurd heq (hstall due)) rfl bucket granted s.written
  unfold UploadServer.consume
  dsimp only
  split_ifs
  · exact hwaits UploadPhase.noConfusion rfl (fun _ => UploadPhase.noConfusion) _ _
  · exact hwaits UploadPhase.noConfusion rfl (fun _ => UploadPhase.noConfusion) _ _

theorem Sound.writeLimited (h : Sound o now s) (hi : s.uploads[i]? = some u)
    (hgoing : u.phase ≠ .finished) (hsent : sent o u = u.offset) :
    Sound o now (s.writeLimited now i u) := by
  have hu := h.uploads u (List.mem_of_getElem? hi)
  unfold UploadServer.writeLimited
  split_ifs with hmore
  · exact h.consume hi hgoing hsent
  · refine h.finish hi hgoing u.head (fun hdestroyed _ => ?_) fun hhead => (hu.headless hhead).2
    rw [h.leasedBytes hi hgoing] at hmore
    have hdone : u.data.length ≤ u.offset := not_lt.mp fun hlt => hmore ⟨hlt, hdestroyed⟩
    rw [hu.written hgoing, hsent, List.take_of_length_le hdone]

/-- What the loop does depends on the upload it is given, not on the one in the list. -/
theorem writeLimited_setUpload : (s.setUpload i v).writeLimited now i u = s.writeLimited now i u := by
  unfold UploadServer.writeLimited UploadServer.consume UploadServer.finish setUpload chunk
  dsimp only
  rw [List.set_set, List.set_set, List.set_set]

theorem getElem?_setUpload (hi : s.uploads[i]? = some u) : (s.setUpload i v).uploads[i]? = some v :=
  List.getElem?_set_self (List.getElem?_eq_some_iff.mp hi).1

/-- The loop goes on at some offset, with what was written up to there. -/
theorem Sound.continues (h : Sound o now s) (hi : s.uploads[i]? = some u)
    (hgoing : u.phase ≠ .finished) {offset : ℕ} {body : List UInt8}
    (hbody : body = u.data.take offset) {bytes : ℕ}
    (hbytes : bytes + u.body.length = s.uploadedBytes + body.length)
    (written : List (ℚ≥0 × ℕ)) (destroyed : Bool) :
    Sound o now ({ s with written, uploadedBytes := bytes }.writeLimited now i
      { u with offset, body, destroyed }) := by
  have hnext : Sound o now ({ s with written, uploadedBytes := bytes }.setUpload i
      { u with phase := .consuming now, offset, body, destroyed }) :=
    h.proceed hi hgoing UploadPhase.noConfusion hbody (fun _ => UploadPhase.noConfusion)
      hbytes s.bucket s.granted written
  have hloop := hnext.writeLimited (getElem?_setUpload hi) UploadPhase.noConfusion rfl
  rw [writeLimited_setUpload] at hloop
  exact hloop

theorem Sound.writeChunk (h : Sound o now s) (hi : s.uploads[i]? = some u)
    (hgoing : u.phase ≠ .finished) (hsent : sent o u = u.offset)
    (canContinue : Bool) : Sound o now (s.writeChunk now i u canContinue) := by
  have hu := h.uploads u (List.mem_of_getElem? hi)
  -- What is written now are the next bytes of the data.
  have hbody : u.body ++ s.chunk u =
      u.data.take (u.offset + BandwidthLimiter.maximumChunkBytes o.speed) := by
    unfold chunk
    rw [h.leasedBytes hi hgoing, hu.written hgoing, hsent, ← List.take_add]
  have hbytes : s.uploadedBytes + (s.chunk u).length + u.body.length =
      s.uploadedBytes + (u.body ++ s.chunk u).length := by
    rw [List.length_append]
    omega
  unfold UploadServer.writeChunk
  split_ifs with hdestroyed
  · refine h.finish hi hgoing u.head (fun hfalse => ?_) fun hhead => (hu.headless hhead).2
    rw [hdestroyed] at hfalse
    cases hfalse
  · exact h.continues hi hgoing hbody hbytes _ _
  · exact h.proceed hi hgoing UploadPhase.noConfusion hbody
      (fun due heq => by
        obtain rfl := UploadPhase.draining.inj heq
        exact ⟨le_self_add, le_rfl⟩) hbytes s.bucket s.granted _

/-- After the wait for a client, which may be gone. -/
theorem Sound.nextChunk (h : Sound o now s) (hi : s.uploads[i]? = some u)
    (hgoing : u.phase ≠ .finished)
    (hsent : sent o u = u.offset + BandwidthLimiter.maximumChunkBytes o.speed)
    (destroyed : Bool) : Sound o now (s.nextChunk now i { u with destroyed }) := by
  have hbody : u.body = u.data.take (u.offset + BandwidthLimiter.maximumChunkBytes o.speed) :=
    hsent ▸ (h.uploads u (List.mem_of_getElem? hi)).written hgoing
  exact h.continues hi hgoing hbody rfl s.written destroyed

/-! ## Requests -/

theorem Sound.answer (h : Sound o now s) (answer : UploadAnswer) : Sound o now (s.answer answer) :=
  { h with }

theorem Sound.health (h : Sound o now s) (r : UploadRequest) : Sound o now (s.health r) := by
  have hsized := h.owned.step h.limit (.evictExpired fun _ => r.now)
  have hcounted := hsized.1.step hsized.2 (.evictExpired fun _ => r.now)
  have htrims := (SegmentCache.trims_evictExpired o.cache s.cache fun _ => r.now).trans
    (SegmentCache.trims_evictExpired o.cache _ fun _ => r.now)
  have hcache := h.withCache (htrims.keeps (fun _ => True) fun _ _ => False) hcounted
    (fun _ _ => trivial) (List.Subset.refl _) fun _ _ hfalse => hfalse.elim
  exact hcache.answer _

/-- A new upload takes a slot and a lease. -/
theorem Sound.append (h : Sound o now s) (hfree : s.activeConnections < (o.maxConnections : ℕ))
    (hu : UploadSound o now s.cache s.stores u) (hgoing : u.phase ≠ .finished) (hbody : u.body = [])
    (hfresh : ∀ v ∈ s.uploads, v.lease ≠ u.lease) :
    Sound o now { s with
      activeConnections := s.activeConnections + 1
      uploads := s.uploads ++ [u] } :=
  { h with
    active := by
      have hunfinished : u.unfinished = true := decide_eq_true hgoing
      rw [List.countP_append, List.countP_singleton, hunfinished, if_pos rfl, h.active]
      push_cast
      rfl
    few := hfree
    leases := by
      rw [List.map_append, List.nodup_append]
      refine ⟨h.leases, List.nodup_singleton _, fun lease hmem other hother => ?_⟩
      obtain ⟨v, hv, rfl⟩ := List.mem_map.mp hmem
      obtain rfl := List.mem_singleton.mp hother
      exact hfresh v hv
    uploads := fun v hv => by
      rcases List.mem_append.mp hv with hv | hv
      · exact h.uploads v hv
      · obtain rfl := List.mem_singleton.mp hv
        exact hu
    counted := by
      rw [List.map_append, List.sum_append, List.map_singleton, List.sum_singleton, hbody,
        List.length_nil, Nat.add_zero]
      exact h.counted }

theorem Sound.serve (h : Sound o now s) (hfree : s.activeConnections < (o.maxConnections : ℕ))
    (head : Bool) (segmentName : String) (date : ℚ) :
    Sound o now (s.serve now head segmentName date) := by
  have hkeeps := SegmentCache.lease_keeps o.cache s.cache segmentName date
  have howned := h.owned.lease segmentName date
  have hcache := h.withCache hkeeps ⟨howned.1, howned.2.trans h.limit⟩ (fun _ _ => trivial)
    (List.Subset.refl _) fun _ _ hfalse => hfalse.elim
  have hgrants := SegmentCache.lease_grants h.owned segmentName date
  unfold UploadServer.serve
  dsimp only
  generalize s.cache.lease o.cache segmentName date = leased at *
  cases hleased : leased.2 with
  | none => exact hcache.answer _
  | some lease =>
      obtain ⟨hlease, hgranted, id, hhandle, hid, hget⟩ := hgrants lease hleased
      have hlt : lease < leased.1.granted := by
        rw [hgranted, hlease]
        exact Nat.lt_succ_self _
      have hreads : (leased.1.objects id).stored = leased.1.leasedBytes lease := by
        have hread := (hcache.owned.ownsBuffers hcache.limit).leased lease hlt (by rw [hhandle])
        rw [hread, hhandle]
      dsimp only
      generalize hcontent : (if ".m4s".toList <:+ segmentName.toList then "video/iso.segment"
        else "video/mp2t") = contentType
      have hsound : UploadSound o now leased.1 s.stores ⟨segmentName, false, lease,
          leased.1.leasedBytes lease, contentType, (leased.1.leasedBytes lease).length, 0,
          .consuming now, [], false, false⟩ := {
        lease := hlt
        held := by rw [hhandle]; rfl
        entry := by
          rw [hhandle]
          exact hid.trans_le hkeeps.created
        data := by
          rw [hhandle]
          exact hreads
        stored := by
          rw [← hreads, hkeeps.stored id hid]
          exact h.live segmentName id hget
        contentLength := rfl
        written := fun _ => List.take_zero.symm
        isPrefix := List.nil_prefix
        complete := fun hfinished => nomatch hfinished
        headless := fun hfalse => nomatch hfalse
        ended := rfl
        stall := fun _ hphase => nomatch hphase }
      have hfresh : ∀ v ∈ s.uploads, v.lease ≠ lease := fun v hv heq => by
        have hearlier := (h.uploads v hv).lease
        rw [heq, hlease] at hearlier
        exact lt_irrefl _ hearlier
      have happend := hcache.append hfree hsound UploadPhase.noConfusion rfl hfresh
      cases head with
      | false =>
          exact happend.writeLimited List.getElem?_concat_length UploadPhase.noConfusion rfl
      | true =>
          have hend := happend.finish List.getElem?_concat_length UploadPhase.noConfusion true
            (fun _ hfalse => nomatch hfalse) fun _ => rfl
          unfold UploadServer.finish setUpload at hend ⊢
          dsimp only at hend ⊢
          rwa [set_concat] at hend ⊢

theorem Sound.handle (h : Sound o now s) (r : UploadRequest) : Sound o now (s.handle now r) := by
  unfold UploadServer.handle
  cases r.pathname with
  | none => exact h.answer _
  | some pathname =>
      dsimp only
      by_cases hpreflight : r.method = "OPTIONS" ∧ "/segments/".toList <+: pathname.toList
      · rw [if_pos hpreflight]
        exact h.answer _
      rw [if_neg hpreflight]
      by_cases hhealth : r.method = "GET" ∧ pathname = "/health"
      · rw [if_pos hhealth]
        exact h.health r
      rw [if_neg hhealth]
      cases segmentPath? pathname with
      | none => exact h.answer _
      | some encoded =>
          dsimp only
          split_ifs with _ _ hbusy
          · exact h.answer _
          · exact h.answer _
          · exact h.answer _
          · cases decodeURIComponent encoded with
            | none => exact h.answer _
            | some segmentName =>
                dsimp only
                split_ifs
                · exact h.serve (not_le.mp hbusy) _ segmentName r.now
                · exact h.answer _

/-! ## Runs -/

theorem Sound.step (h : Sound o now s) {event : UploadServerEvent}
    (hstep : s.step now event = some s') : Sound o now s' := by
  cases event with
  | cache event => exact h.useCache hstep
  | request r =>
      obtain rfl := Option.some.inj hstep
      exact h.handle r
  | wake i =>
      obtain ⟨u, hi, hstep⟩ := Option.bind_eq_some_iff.mp hstep
      cases hphase : u.phase with
      | consuming due =>
          rw [hphase] at hstep
          obtain ⟨-, hs'⟩ := Option.ite_none_right_eq_some.mp hstep
          obtain rfl := Option.some.inj hs'
          have hgoing : u.phase ≠ .finished := hphase ▸ UploadPhase.noConfusion
          refine h.consume hi hgoing ?_
          unfold sent
          rw [hphase]
      | granted | draining | finished =>
          rw [hphase] at hstep
          cases hstep
  | resume i canContinue =>
      obtain ⟨u, hi, hstep⟩ := Option.bind_eq_some_iff.mp hstep
      cases hphase : u.phase with
      | granted since =>
          rw [hphase] at hstep
          obtain rfl := Option.some.inj hstep
          have hgoing : u.phase ≠ .finished := hphase ▸ UploadPhase.noConfusion
          refine h.writeChunk hi hgoing ?_ canContinue
          unfold sent
          rw [hphase]
      | consuming | draining | finished =>
          rw [hphase] at hstep
          cases hstep
  | drained i =>
      obtain ⟨u, hi, hstep⟩ := Option.bind_eq_some_iff.mp hstep
      cases hphase : u.phase with
      | draining due =>
          rw [hphase] at hstep
          obtain rfl := Option.some.inj hstep
          have hgoing : u.phase ≠ .finished := hphase ▸ UploadPhase.noConfusion
          refine h.nextChunk hi hgoing ?_ u.destroyed
          unfold sent
          rw [hphase]
      | consuming | granted | finished =>
          rw [hphase] at hstep
          cases hstep
  | stalled i =>
      obtain ⟨u, hi, hstep⟩ := Option.bind_eq_some_iff.mp hstep
      cases hphase : u.phase with
      | draining due =>
          rw [hphase] at hstep
          obtain ⟨-, hs'⟩ := Option.ite_none_right_eq_some.mp hstep
          obtain rfl := Option.some.inj hs'
          have hgoing : u.phase ≠ .finished := hphase ▸ UploadPhase.noConfusion
          refine h.nextChunk hi hgoing ?_ true
          unfold sent
          rw [hphase]
      | consuming | granted | finished =>
          rw [hphase] at hstep
          cases hstep
  | destroyed i =>
      obtain ⟨u, hi, hstep⟩ := Option.bind_eq_some_iff.mp hstep
      obtain ⟨hunfinished, hs'⟩ := Option.ite_none_right_eq_some.mp hstep
      obtain rfl := Option.some.inj hs'
      have hgoing : u.phase ≠ .finished := of_decide_eq_true hunfinished
      have hu := h.uploads u (List.mem_of_getElem? hi)
      exact h.proceed hi hgoing hgoing (hu.written hgoing) hu.stall rfl
        s.bucket s.granted s.written

/-- What holds of an upload and its response. -/
structure Serves (o : UploadServerOptions) (now : ℚ≥0) (s : UploadServer o) (u : PeerUpload) :
    Prop where
  /-- The lease is held as long as the upload goes on. -/
  lease : (s.cache.handles u.lease).released = true ↔ u.phase = .finished
  stored : (u.segmentName, u.data) ∈ s.stores
  contentLength : u.contentLength = u.data.length
  isPrefix : u.body <+: u.data
  complete : u.phase = .finished → u.destroyed = false → u.head = false → u.body = u.data
  headless : u.head = true → u.body = []
  stall : ∀ due, u.phase = .draining due → now ≤ due ∧ due ≤ now + o.stallTimeoutMs

theorem UploadSound.serves (h : UploadSound o now s.cache s.stores u) : Serves o now s u where
  lease := by
    rw [h.held]
    exact decide_eq_true_iff
  stored := h.stored
  contentLength := h.contentLength
  isPrefix := h.isPrefix
  complete := h.complete
  headless hhead := (h.headless hhead).2
  stall := h.stall

theorem sound_of_reachable {t : Timed (UploadServer o)} (hr : (system o).Reachable t) :
    Sound o t.clock t.state := by
  refine hr.invariant (fun now s => Sound o now s) ?_ ?_ ?_
  · rintro s rfl
    exact sound_new o
  · exact fun _ _ _ _ h hstep => h.step hstep
  · exact fun _ _ _ h hle htimers => h.elapse hle htimers

/-- One slot, two bytes a second, and a cache for three bytes. -/
def smallOptions : UploadServerOptions where
  cache := ⟨4, none, ⟨16, 4, 64⟩⟩
  speed := ⟨2, by norm_num⟩
  maxConnections := ⟨1, one_pos⟩
  authorizationToken := none
  stallTimeoutMs := ⟨10, by norm_num⟩

def getSegment : UploadRequest := ⟨"GET", some "/segments/a.ts", none, true, 0⟩

/-- The segment is replaced while it is uploaded, and a second request has to wait. -/
def replacedMeanwhile : List (TimedLabel UploadServerEvent) :=
  [.event (.cache (.set "a.ts" [1, 2, 3] 0 fun _ => 0)), .event (.request getSegment),
    .event (.cache (.set "a.ts" [7, 8, 9] 0 fun _ => 0)), .event (.resume 0 true),
    .event (.request getSegment), .elapse (500 : ℕ), .event (.wake 0), .event (.resume 0 true)]

end UploadServer

end OpenStreamGrid

import Mathlib
import OpenStreamGrid.Common.SegmentFraming

/-!
# Upload pacing

The token bucket both senders of the Node peer draw their uploads from. Its
capacity is one second of the upload speed. `writeLimited` of the HTTP server
cuts a segment into chunks by that speed, `serveSegment` of the data channels
into chunks of a fixed size, and a request above the capacity is never granted.
-/

namespace OpenStreamGrid

/-- What the `BandwidthLimiter` constructor accepts, in bytes per second. -/
abbrev UploadSpeed := {bytesPerSecond : ℚ // 0 < bytesPerSecond}

/-- An upload limit in bits per second. Both transports divide it by eight. -/
abbrev UploadBitrate := {bitsPerSecond : ℚ // 0 < bitsPerSecond}

def UploadBitrate.speed (bitrate : UploadBitrate) : UploadSpeed :=
  ⟨bitrate.val / 8, div_pos bitrate.property (by norm_num)⟩

/-- The bucket, with the time in milliseconds it was last refilled at. -/
structure BandwidthLimiter (speed : UploadSpeed) where
  tokens : ℚ
  lastRefill : ℚ
  tokens_nonneg : 0 ≤ tokens
  tokens_le : tokens ≤ speed

/-- `performance.now()` at each turn of a wait loop. -/
structure AdvancingClock where
  reading : ℕ → ℚ
  monotone : Monotone reading
  unbounded : ∀ time, ∃ turn, time ≤ reading turn

namespace BandwidthLimiter

def MAX_CHUNK_BYTES : ℕ := 64 * 1024

def maximumChunkBytes (speed : UploadSpeed) : ℕ := max 1 (min MAX_CHUNK_BYTES ⌊speed.val⌋₊)

variable {speed : UploadSpeed}

/-- The constructor: the bucket starts full. -/
def new (speed : UploadSpeed) (now : ℚ) : BandwidthLimiter speed :=
  ⟨speed, now, speed.property.le, le_rfl⟩

def refilledTokens (l : BandwidthLimiter speed) (now : ℚ) : ℚ :=
  min speed.val (l.tokens + max 0 (now - l.lastRefill) / 1000 * speed.val)

theorem refilledTokens_nonneg (l : BandwidthLimiter speed) (now : ℚ) :
    0 ≤ l.refilledTokens now := by
  have hspeed := speed.property
  have htokens := l.tokens_nonneg
  apply le_min hspeed.le
  have hgain : 0 ≤ max 0 (now - l.lastRefill) / 1000 * speed.val :=
    mul_nonneg (div_nonneg (le_max_left _ _) (by norm_num)) hspeed.le
  linarith

def refill (l : BandwidthLimiter speed) (now : ℚ) : BandwidthLimiter speed where
  tokens := l.refilledTokens now
  lastRefill := now
  tokens_nonneg := l.refilledTokens_nonneg now
  tokens_le := min_le_left _ _

def spend (l : BandwidthLimiter speed) (bytes : ℕ) (h : (bytes : ℚ) ≤ l.tokens) :
    BandwidthLimiter speed where
  tokens := l.tokens - bytes
  lastRefill := l.lastRefill
  tokens_nonneg := sub_nonneg.mpr h
  tokens_le := (sub_le_self _ (Nat.cast_nonneg _)).trans l.tokens_le

/-- How long `consume` waits before it looks again. -/
def waitMs (l : BandwidthLimiter speed) (bytes : ℕ) : ℚ :=
  max 1 ((bytes - l.tokens) / speed * 1000)

/-- `consume` of a caller that does not abort it, with the turn of the clock after it. Every
turn of its loop takes one reading. -/
def consume (reading : ℕ → ℚ) (bytes : ℕ) :
    ℕ → BandwidthLimiter speed × ℕ → Option (BandwidthLimiter speed × ℕ)
  | 0, _ => none
  | fuel + 1, (l, turn) =>
      if h : (bytes : ℚ) ≤ (l.refill (reading turn)).tokens then
        some ((l.refill (reading turn)).spend bytes h, turn + 1)
      else consume reading bytes fuel (l.refill (reading turn), turn + 1)

/-- The loop of both senders: each chunk goes out once its length is granted. -/
def sendPaced (reading : ℕ → ℚ) (fuel : ℕ) :
    List (List UInt8) → BandwidthLimiter speed × ℕ →
      Option (List (List UInt8) × BandwidthLimiter speed × ℕ)
  | [], s => some ([], s)
  | chunk :: chunks, s => do
      let s ← consume reading chunk.length fuel s
      let (sent, s) ← sendPaced reading fuel chunks s
      return (chunk :: sent, s)

end BandwidthLimiter

/-- The chunks `serveSegment` of a data channel asks the limiter for. -/
def WebRtcTransport.pacedChunks (data : List UInt8) : List (List UInt8) :=
  slices MAX_DATA_CHANNEL_CHUNK_BYTES data

/-- The chunks `writeLimited` of the upload server asks the limiter for. -/
def UploadServer.pacedChunks (speed : UploadSpeed) (data : List UInt8) : List (List UInt8) :=
  slices (BandwidthLimiter.maximumChunkBytes speed) data

namespace BandwidthLimiter

variable {speed : UploadSpeed} {reading : ℕ → ℚ} {bytes fuel turn : ℕ}
variable {l : BandwidthLimiter speed}

/-! ## The wait loop -/

theorem consume_granted (h : (bytes : ℚ) ≤ (l.refill (reading turn)).tokens) :
    consume reading bytes (fuel + 1) (l, turn) =
      some ((l.refill (reading turn)).spend bytes h, turn + 1) := dif_pos h

theorem consume_waiting (h : ¬ (bytes : ℚ) ≤ (l.refill (reading turn)).tokens) :
    consume reading bytes (fuel + 1) (l, turn) =
      consume reading bytes fuel (l.refill (reading turn), turn + 1) := dif_neg h

/-- What a bucket can never hold is never granted. -/
theorem consume_eq_none (h : speed.val < bytes) (s : BandwidthLimiter speed × ℕ) :
    consume reading bytes fuel s = none := by
  induction fuel generalizing s with
  | zero => rfl
  | succ fuel ih =>
      obtain ⟨l, turn⟩ := s
      have hshort : ¬ (bytes : ℚ) ≤ (l.refill (reading turn)).tokens := by
        intro hle
        exact absurd ((hle.trans (l.refill (reading turn)).tokens_le)) (not_le.mpr h)
      rw [consume_waiting hshort]
      exact ih _

theorem consume_mono {fuel' : ℕ} {s t : BandwidthLimiter speed × ℕ} (hle : fuel ≤ fuel')
    (h : consume reading bytes fuel s = some t) : consume reading bytes fuel' s = some t := by
  induction fuel generalizing s fuel' with
  | zero => cases h
  | succ fuel ih =>
      obtain ⟨l, turn⟩ := s
      obtain ⟨more, rfl⟩ : ∃ more, fuel' = more + 1 := ⟨fuel' - 1, by omega⟩
      by_cases hgranted : (bytes : ℚ) ≤ (l.refill (reading turn)).tokens
      · rw [consume_granted hgranted] at h ⊢
        exact h
      · rw [consume_waiting hgranted] at h ⊢
        exact ih (by omega) h

theorem refilledTokens_mono {now later : ℚ} (h : now ≤ later) :
    l.refilledTokens now ≤ l.refilledTokens later := by
  have hspeed := speed.property.le
  unfold refilledTokens
  gcongr

/-- The wait `consume` asks its timer for is long enough for what the bucket can hold. -/
theorem le_refilledTokens_waitMs (hfit : (bytes : ℚ) ≤ speed) :
    (bytes : ℚ) ≤ l.refilledTokens (l.lastRefill + l.waitMs bytes) := by
  have hspeed := speed.property
  have hwait : (bytes - l.tokens) / speed * 1000 ≤ l.waitMs bytes := le_max_right _ _
  have helapsed : l.waitMs bytes ≤ max 0 (l.lastRefill + l.waitMs bytes - l.lastRefill) := by
    rw [add_sub_cancel_left]
    exact le_max_right _ _
  apply le_min hfit
  have hgain : bytes - l.tokens ≤
      max 0 (l.lastRefill + l.waitMs bytes - l.lastRefill) / 1000 * speed.val := by
    have hscaled := mul_le_mul_of_nonneg_right (hwait.trans helapsed)
      (div_pos hspeed (by norm_num : (0 : ℚ) < 1000)).le
    calc (bytes : ℚ) - l.tokens = (bytes - l.tokens) / speed * 1000 * (speed.val / 1000) := by
          field_simp
      _ ≤ _ := hscaled
      _ = _ := by ring
  linarith

/-- Refilling on the way loses nothing of a later refill, unless the bucket runs over. -/
theorem refilledTokens_refill {now : ℚ} (later : ℚ) (hroom : (l.refill now).tokens < speed.val) :
    l.refilledTokens later ≤ (l.refill now).refilledTokens later := by
  have htokens : (l.refill now).tokens =
      l.tokens + max 0 (now - l.lastRefill) / 1000 * speed.val := by
    rcases min_choice speed.val (l.tokens + max 0 (now - l.lastRefill) / 1000 * speed.val)
      with hfull | hrest
    · exact absurd hfull hroom.ne
    · exact hrest
  have helapsed : max 0 (later - l.lastRefill) ≤
      max 0 (now - l.lastRefill) + max 0 (later - now) := by
    apply max_le
    · exact add_nonneg (le_max_left _ _) (le_max_left _ _)
    · have hfirst := le_max_right 0 (now - l.lastRefill)
      have hsecond := le_max_right 0 (later - now)
      linarith
  have hscaled := mul_le_mul_of_nonneg_right helapsed
    (div_pos speed.property (by norm_num : (0 : ℚ) < 1000)).le
  apply min_le_min_left
  rw [htokens]
  show _ ≤ _ + max 0 (later - now) / 1000 * speed.val
  linarith

/-- A turn at which the bucket would have gained enough ends the wait, or an earlier one does. -/
theorem consume_of_gained (hfit : (bytes : ℚ) ≤ speed) (turns : ℕ)
    (hgained : (bytes : ℚ) ≤ l.refilledTokens (reading (turn + turns))) :
    ∃ fuel t, consume reading bytes fuel (l, turn) = some t := by
  induction turns generalizing l turn with
  | zero => exact ⟨1, _, consume_granted hgained⟩
  | succ turns ih =>
      by_cases hgranted : (bytes : ℚ) ≤ (l.refill (reading turn)).tokens
      · exact ⟨1, _, consume_granted hgranted⟩
      · have hroom : (l.refill (reading turn)).tokens < speed.val :=
          (not_le.mp hgranted).trans_le hfit
        have hlater := hgained.trans (refilledTokens_refill _ hroom)
        rw [← Nat.add_assoc, Nat.add_right_comm] at hlater
        obtain ⟨fuel, t, ht⟩ := ih hlater
        exact ⟨fuel + 1, t, (consume_waiting hgranted).trans ht⟩

theorem consume_terminates (clock : AdvancingClock) (hfit : (bytes : ℚ) ≤ speed)
    (s : BandwidthLimiter speed × ℕ) :
    ∃ fuel t, consume clock.reading bytes fuel s = some t := by
  obtain ⟨l, turn⟩ := s
  obtain ⟨last, hlast⟩ := clock.unbounded (l.lastRefill + l.waitMs bytes)
  apply consume_of_gained hfit last
  calc (bytes : ℚ) ≤ l.refilledTokens (l.lastRefill + l.waitMs bytes) :=
        le_refilledTokens_waitMs hfit
    _ ≤ _ := refilledTokens_mono (hlast.trans (clock.monotone (by omega)))

/-! ## The upload loop -/

theorem sendPaced_mono {fuel' : ℕ} {chunks : List (List UInt8)}
    {s : BandwidthLimiter speed × ℕ} {sent : List (List UInt8) × BandwidthLimiter speed × ℕ}
    (hle : fuel ≤ fuel') (h : sendPaced reading fuel chunks s = some sent) :
    sendPaced reading fuel' chunks s = some sent := by
  induction chunks generalizing s sent with
  | nil => exact h
  | cons chunk chunks ih =>
      obtain ⟨t, ht, hrest⟩ := Option.bind_eq_some_iff.mp h
      obtain ⟨more, hmore, hsent⟩ := Option.bind_eq_some_iff.mp hrest
      apply Option.bind_eq_some_iff.mpr
      exact ⟨t, consume_mono hle ht, Option.bind_eq_some_iff.mpr ⟨more, ih hmore, hsent⟩⟩

theorem sendPaced_terminates (clock : AdvancingClock) {chunks : List (List UInt8)}
    (hfit : ∀ chunk ∈ chunks, (chunk.length : ℚ) ≤ speed) (s : BandwidthLimiter speed × ℕ) :
    ∃ fuel t, sendPaced clock.reading fuel chunks s = some (chunks, t) := by
  induction chunks generalizing s with
  | nil => exact ⟨0, s, rfl⟩
  | cons chunk chunks ih =>
      obtain ⟨hfirst, hrest⟩ := List.forall_mem_cons.mp hfit
      obtain ⟨fuel, t, ht⟩ := consume_terminates clock hfirst s
      obtain ⟨fuel', t', ht'⟩ := ih hrest t
      refine ⟨max fuel fuel', t', Option.bind_eq_some_iff.mpr ⟨t, ?_, ?_⟩⟩
      · exact consume_mono (le_max_left _ _) ht
      · exact Option.bind_eq_some_iff.mpr
          ⟨_, sendPaced_mono (le_max_right _ _) ht', rfl⟩

/-- One chunk above the capacity keeps the whole upload waiting. -/
theorem sendPaced_eq_none {chunk : List UInt8} {chunks : List (List UInt8)} (hmem : chunk ∈ chunks)
    (hover : speed.val < chunk.length) (s : BandwidthLimiter speed × ℕ) :
    sendPaced reading fuel chunks s = none := by
  induction chunks generalizing s with
  | nil => cases hmem
  | cons first chunks ih =>
      rcases List.mem_cons.mp hmem with rfl | hrest
      · show (consume reading chunk.length fuel s).bind _ = none
        rw [consume_eq_none hover, Option.bind_none]
      · show (consume reading first.length fuel s).bind _ = none
        rw [Option.bind_eq_none_iff]
        intro t _
        show (sendPaced reading fuel chunks t).bind _ = none
        rw [ih hrest t, Option.bind_none]

/-- What a request needs to be granted, and what an upload alone on the limiter does then. -/
structure Progresses (speed : UploadSpeed) (chunks : List (List UInt8)) : Prop where
  fits : ∀ chunk ∈ chunks, (chunk.length : ℚ) ≤ speed
  finishes : ∀ (clock : AdvancingClock) (s : BandwidthLimiter speed × ℕ),
    ∃ fuel t, sendPaced clock.reading fuel chunks s = some (chunks, t)

theorem progresses_iff_fits {chunks : List (List UInt8)} :
    Progresses speed chunks ↔ ∀ chunk ∈ chunks, (chunk.length : ℚ) ≤ speed :=
  ⟨fun h => h.fits, fun h => ⟨h, fun clock => sendPaced_terminates clock h⟩⟩

end BandwidthLimiter

/-! ## The chunks of the two senders -/

/-- The slices of a list fit where the first one does. -/
theorem forall_slices_length_le {α : Type*} {n : ℕ} (hn : 0 < n) {xs : List α} {limit : ℚ}
    (hlimit : 0 < limit) :
    (∀ slice ∈ slices n xs, (slice.length : ℚ) ≤ limit) ↔ ((min n xs.length : ℕ) : ℚ) ≤ limit := by
  constructor
  · intro h
    rcases eq_or_ne xs [] with rfl | hne
    · rw [List.length_nil, Nat.min_zero, Nat.cast_zero]
      exact hlimit.le
    · rw [slices_of_ne_nil hn hne] at h
      have hfirst := h _ List.mem_cons_self
      rwa [List.length_take] at hfirst
  · intro h slice hslice
    obtain ⟨k, -, rfl⟩ := List.mem_map.mp hslice
    refine le_trans (Nat.cast_le.mpr ?_) h
    rw [List.length_take, List.length_drop]
    omega

namespace BandwidthLimiter

theorem maximumChunkBytes_pos (speed : UploadSpeed) : 0 < maximumChunkBytes speed :=
  Nat.lt_of_lt_of_le Nat.one_pos (le_max_left _ _)

/-- The chunks the limiter itself suggests fit as soon as the speed is a byte in a second. -/
theorem maximumChunkBytes_le (speed : UploadSpeed) (h : 1 ≤ speed.val) :
    (maximumChunkBytes speed : ℚ) ≤ speed := by
  have hfloor : maximumChunkBytes speed ≤ ⌊speed.val⌋₊ :=
    max_le (Nat.le_floor (by rwa [Nat.cast_one])) (min_le_right _ _)
  exact (Nat.cast_le.mpr hfloor).trans (Nat.floor_le speed.property.le)

theorem maximumChunkBytes_of_lt (speed : UploadSpeed) (h : speed.val < 1) :
    maximumChunkBytes speed = 1 := by
  unfold maximumChunkBytes
  rw [Nat.floor_eq_zero.mpr h, Nat.min_zero]
  rfl

end BandwidthLimiter

/-- Over a data channel an upload goes on exactly where a chunk, or the segment if it is
shorter, is no more than the upload limit lets through in a second. Over HTTP it goes on exactly
where that is a byte at least, or there is nothing to send. -/
theorem uploads_progress_iff (bitrate : UploadBitrate) (data : List UInt8) :
    (BandwidthLimiter.Progresses bitrate.speed (WebRtcTransport.pacedChunks data) ↔
      ((min (16 * 1024) data.length : ℕ) : ℚ) ≤ bitrate / 8) ∧
    (BandwidthLimiter.Progresses bitrate.speed (UploadServer.pacedChunks bitrate.speed data) ↔
      data.length = 0 ∨ 8 ≤ bitrate.val) := by
  have hspeed := bitrate.speed.property
  constructor
  · rw [BandwidthLimiter.progresses_iff_fits]
    exact forall_slices_length_le (by decide) hspeed
  · rw [BandwidthLimiter.progresses_iff_fits, UploadServer.pacedChunks,
      forall_slices_length_le (BandwidthLimiter.maximumChunkBytes_pos _) hspeed]
    have hbyte : 1 ≤ bitrate.speed.val ↔ 8 ≤ bitrate.val := by
      show 1 ≤ bitrate.val / 8 ↔ _
      rw [le_div_iff₀ (by norm_num), one_mul]
    rw [← hbyte]
    rcases le_or_gt 1 bitrate.speed.val with hfast | hslow
    · apply iff_of_true _ (Or.inr hfast)
      have hmin : ((min (BandwidthLimiter.maximumChunkBytes bitrate.speed) data.length : ℕ) : ℚ) ≤
          BandwidthLimiter.maximumChunkBytes bitrate.speed := Nat.cast_le.mpr (min_le_left _ _)
      exact hmin.trans (BandwidthLimiter.maximumChunkBytes_le _ hfast)
    · rw [BandwidthLimiter.maximumChunkBytes_of_lt _ hslow]
      constructor
      · intro hle
        have hempty : min 1 data.length < 1 := by
          exact_mod_cast hle.trans_lt hslow
        left
        omega
      · rintro (hempty | hfast)
        · rw [hempty, Nat.min_zero, Nat.cast_zero]
          exact hspeed.le
        · exact absurd hfast (not_le.mpr hslow)

/-- At 100 kbit/s a full chunk of a data channel is more than the bucket ever holds, and the
upload waits on every clock. -/
theorem pacedChunks_never_granted :
    ¬ BandwidthLimiter.Progresses (UploadBitrate.speed ⟨100000, by norm_num⟩)
      (WebRtcTransport.pacedChunks (List.replicate (16 * 1024) 0)) ∧
    ∀ (reading : ℕ → ℚ) (fuel : ℕ)
      (s : BandwidthLimiter (UploadBitrate.speed ⟨100000, by norm_num⟩) × ℕ),
      BandwidthLimiter.sendPaced reading fuel
        (WebRtcTransport.pacedChunks (List.replicate (16 * 1024) 0)) s = none := by
  have hnil : List.replicate (16 * 1024) (0 : UInt8) ≠ [] := by
    apply List.ne_nil_of_length_pos
    rw [List.length_replicate]
    norm_num
  have hmem : (List.replicate (16 * 1024) 0).take MAX_DATA_CHANNEL_CHUNK_BYTES ∈
      WebRtcTransport.pacedChunks (List.replicate (16 * 1024) 0) := by
    rw [WebRtcTransport.pacedChunks, slices_of_ne_nil (by decide) hnil]
    exact List.mem_cons_self
  have hover : (UploadBitrate.speed ⟨100000, by norm_num⟩).val <
      ((List.replicate (16 * 1024) (0 : UInt8)).take MAX_DATA_CHANNEL_CHUNK_BYTES).length := by
    rw [List.length_take, List.length_replicate]
    show (100000 : ℚ) / 8 < ((min (16 * 1024) (16 * 1024) : ℕ) : ℚ)
    norm_num
  constructor
  · intro h
    exact absurd (h.fits _ hmem) (not_le.mpr hover)
  · intro reading fuel s
    exact BandwidthLimiter.sendPaced_eq_none hmem hover s

end OpenStreamGrid

import Mathlib.Algebra.Order.Floor.Ring
import Mathlib.Data.Rat.Floor
import Mathlib.Tactic.Linarith
import Mathlib.Tactic.FieldSimp
import OpenStreamGrid.Common.SegmentFraming

/-!
# Transfer timers

How long a transfer between two browsers may take, and how long the sender's own
pacing makes it take. Both sides put their timer at what the segment takes at the
sender's bitrate and their negotiation timeout on top, but at two minutes at most,
and the pacing knows no such cap. Numbers are read exactly.
-/

namespace OpenStreamGrid

namespace BrowserWebRtcPeer

def DEFAULT_TIMEOUT_MS : ℕ := 15000

def DEFAULT_MAX_UPLOAD_BITRATE : ℕ := 1000000

def MAX_TRANSFER_TIMEOUT_MS : ℕ := 120000

/-- What the constructor asks of its numbers. -/
abbrev PositiveInteger := {value : ℕ // 0 < value ∧ value ≤ maxSafeInteger}

/-- The options of a peer its timers and its pacing read. -/
structure TransferOptions where
  timeoutMs : PositiveInteger := ⟨DEFAULT_TIMEOUT_MS, by decide⟩
  maxUploadBitrate : PositiveInteger := ⟨DEFAULT_MAX_UPLOAD_BITRATE, by decide⟩

def transferTimeoutMs (byteLength bitrate negotiationTimeoutMs : ℕ) : ℤ :=
  min MAX_TRANSFER_TIMEOUT_MS
    (max negotiationTimeoutMs (⌈(byteLength * 8 * 1000 : ℚ) / bitrate⌉ + negotiationTimeoutMs))

/-- The bitrate `requestSegment` counts with. -/
def requestBitrate (advertisedUploadBitrate : JsNumber) : ℕ :=
  match advertisedUploadBitrate.safeInteger? with
  | some bitrate => if 0 < bitrate then bitrate.toNat else DEFAULT_MAX_UPLOAD_BITRATE
  | none => DEFAULT_MAX_UPLOAD_BITRATE

/-- When `limitUpload` is over, with a timer that is exact. -/
def limitUpload (maxUploadBitrate : ℕ) (startedAt : ℚ) (sentBytes : ℕ) (now : ℚ) : ℚ :=
  let expectedMs := (sentBytes * 8 * 1000 : ℚ) / maxUploadBitrate
  let delayMs := expectedMs - (now - startedAt)
  if delayMs ≤ 0 then now else now + delayMs

/-- The loop of `serveSegment` over a link that adds no delay: when each chunk is sent, and
when the loop is over. -/
def sendChunks (maxUploadBitrate : ℕ) (startedAt : ℚ) :
    List (List UInt8) → (sentBytes : ℕ) → (now : ℚ) → List ℚ × ℚ
  | [], _, now => ([], now)
  | chunk :: chunks, sentBytes, now =>
      let rest := sendChunks maxUploadBitrate startedAt chunks (sentBytes + chunk.length)
        (limitUpload maxUploadBitrate startedAt (sentBytes + chunk.length) now)
      (now :: rest.1, rest.2)

/-- A segment that is sent from a time on. -/
def sendSegment (maxUploadBitrate : ℕ) (startedAt : ℚ) (data : List UInt8) : List ℚ × ℚ :=
  sendChunks maxUploadBitrate startedAt (slices MAX_DATA_CHANNEL_CHUNK_BYTES data) 0 startedAt

/-- How long the pacing makes the sender take over a segment. -/
def pacingMs (sender : TransferOptions) (startedAt : ℚ) (data : List UInt8) : ℚ :=
  (sendSegment sender.maxUploadBitrate startedAt data).2 - startedAt

/-- What `serveSegment` arms its timer with as it starts to send. -/
def uploadTimeoutMs (sender : TransferOptions) (data : List UInt8) : ℤ :=
  transferTimeoutMs data.length sender.maxUploadBitrate sender.timeoutMs

/-- What `requestSegment` arms its timer with at the metadata of the segment. -/
def requestTimeoutMs (requester : TransferOptions) (advertisedUploadBitrate : JsNumber)
    (data : List UInt8) : ℤ :=
  transferTimeoutMs data.length (requestBitrate advertisedUploadBitrate) requester.timeoutMs

/-! ## The pacing -/

section Pacing

variable {bitrate sentBytes : ℕ} {startedAt : ℚ}

/-- What a number of bytes takes at a bitrate. -/
def durationMs (bitrate bytes : ℕ) : ℚ := (bytes * 8 * 1000 : ℚ) / bitrate

theorem durationMs_add (bitrate bytes bytes' : ℕ) :
    durationMs bitrate (bytes + bytes') = durationMs bitrate bytes + durationMs bitrate bytes' := by
  unfold durationMs
  rw [← add_div]
  congr 1
  push_cast
  ring

theorem durationMs_nonneg (bitrate bytes : ℕ) : 0 ≤ durationMs bitrate bytes :=
  div_nonneg (by positivity) (Nat.cast_nonneg _)

/-- After each chunk the sender is exactly where its bitrate puts it. -/
theorem limitUpload_eq (bytes : ℕ) :
    limitUpload bitrate startedAt (sentBytes + bytes) (startedAt + durationMs bitrate sentBytes) =
      startedAt + durationMs bitrate (sentBytes + bytes) := by
  have hbytes := durationMs_nonneg bitrate bytes
  have hdelay : durationMs bitrate (sentBytes + bytes) -
      (startedAt + durationMs bitrate sentBytes - startedAt) = durationMs bitrate bytes := by
    rw [durationMs_add]
    ring
  show (if durationMs bitrate (sentBytes + bytes) -
      (startedAt + durationMs bitrate sentBytes - startedAt) ≤ 0 then _ else _ + (_ - _)) = _
  rw [hdelay]
  split_ifs with hdone
  · rw [durationMs_add, le_antisymm hdone hbytes, add_zero]
  · rw [durationMs_add, add_assoc]
    show _ + (_ + (durationMs bitrate (sentBytes + bytes) - _)) = _
    rw [hdelay]

theorem sendChunks_finish (chunks : List (List UInt8)) :
    (sendChunks bitrate startedAt chunks sentBytes (startedAt + durationMs bitrate sentBytes)).2 =
      startedAt + durationMs bitrate (sentBytes + chunks.flatten.length) := by
  induction chunks generalizing sentBytes with
  | nil => rfl
  | cons chunk chunks ih =>
      show (sendChunks bitrate startedAt chunks (sentBytes + chunk.length)
        (limitUpload bitrate startedAt (sentBytes + chunk.length) _)).2 = _
      rw [limitUpload_eq, ih, List.flatten_cons, List.length_append, Nat.add_assoc]

theorem sendSegment_finish (data : List UInt8) :
    (sendSegment bitrate startedAt data).2 = startedAt + durationMs bitrate data.length := by
  have hstart : startedAt = startedAt + durationMs bitrate 0 := by
    simp [durationMs]
  unfold sendSegment
  nth_rewrite 2 [hstart]
  rw [sendChunks_finish, flatten_slices (by decide), Nat.zero_add]

/-- The chunk sent last goes out no earlier than one chunk before the loop is over. -/
theorem exists_sent_ge {longest : ℕ} {chunks : List (List UInt8)} (hne : chunks ≠ [])
    (hlength : ∀ chunk ∈ chunks, chunk.length ≤ longest) :
    ∃ time ∈ (sendChunks bitrate startedAt chunks sentBytes
        (startedAt + durationMs bitrate sentBytes)).1,
      startedAt + durationMs bitrate (sentBytes + chunks.flatten.length) ≤
        time + durationMs bitrate longest := by
  induction chunks generalizing sentBytes with
  | nil => exact absurd rfl hne
  | cons chunk chunks ih =>
      obtain ⟨hfirst, hrest⟩ := List.forall_mem_cons.mp hlength
      rcases eq_or_ne chunks [] with rfl | hmore
      · refine ⟨_, List.mem_cons_self, ?_⟩
        have hle : durationMs bitrate chunk.length ≤ durationMs bitrate longest := by
          unfold durationMs
          gcongr
        rw [List.flatten_cons, List.flatten_nil, List.append_nil, durationMs_add]
        linarith
      · obtain ⟨time, hmem, htime⟩ := @ih (sentBytes + chunk.length) hmore hrest
        refine ⟨time, ?_, ?_⟩
        · apply List.mem_cons_of_mem
          rwa [limitUpload_eq]
        · rwa [List.flatten_cons, List.length_append, ← Nat.add_assoc]

end Pacing

theorem pacingMs_eq (sender : TransferOptions) (startedAt : ℚ) (data : List UInt8) :
    pacingMs sender startedAt data = durationMs sender.maxUploadBitrate data.length := by
  rw [pacingMs, sendSegment_finish, add_sub_cancel_left]

/-! ## The timers -/

/-- The bitrate a peer advertises is the one its requesters count with. -/
theorem requestBitrate_advertised (sender : TransferOptions) :
    requestBitrate (.finite (sender.maxUploadBitrate : ℕ)) = sender.maxUploadBitrate := by
  obtain ⟨bitrate, hpos, hsafe⟩ := sender.maxUploadBitrate
  unfold requestBitrate
  rw [JsNumber.safeInteger?_natCast hsafe]
  exact if_pos (Int.natCast_pos.mpr hpos)

theorem transferTimeoutMs_le (byteLength bitrate negotiationTimeoutMs : ℕ) :
    ((transferTimeoutMs byteLength bitrate negotiationTimeoutMs : ℤ) : ℚ) ≤
      MAX_TRANSFER_TIMEOUT_MS := by
  show ((min _ _ : ℤ) : ℚ) ≤ _
  rw [Int.cast_min]
  exact min_le_left _ _

/-- A timer runs longer than the segment takes at the bitrate, unless the cap cuts it off. -/
theorem durationMs_lt_transferTimeoutMs {byteLength bitrate negotiationTimeoutMs : ℕ}
    (hnegotiation : 0 < negotiationTimeoutMs) :
    durationMs bitrate byteLength < transferTimeoutMs byteLength bitrate negotiationTimeoutMs ↔
      durationMs bitrate byteLength < MAX_TRANSFER_TIMEOUT_MS := by
  have hceil : durationMs bitrate byteLength ≤ ⌈durationMs bitrate byteLength⌉ := Int.le_ceil _
  have hpositive : (0 : ℚ) < negotiationTimeoutMs := Nat.cast_pos.mpr hnegotiation
  have hallowed : durationMs bitrate byteLength < (max (negotiationTimeoutMs : ℤ)
      (⌈durationMs bitrate byteLength⌉ + negotiationTimeoutMs) : ℤ) := by
    rw [Int.cast_max, lt_max_iff]
    right
    push_cast
    linarith
  show _ < ((min _ _ : ℤ) : ℚ) ↔ _
  rw [Int.cast_min, lt_min_iff]
  exact and_iff_left hallowed

theorem durationMs_lt_cap (sender : TransferOptions) (byteLength : ℕ) :
    durationMs sender.maxUploadBitrate byteLength < MAX_TRANSFER_TIMEOUT_MS ↔
      byteLength * 8 < 120 * sender.maxUploadBitrate.val := by
  have hbitrate : (0 : ℚ) < (sender.maxUploadBitrate : ℕ) :=
    Nat.cast_pos.mpr sender.maxUploadBitrate.property.1
  have hcap : (MAX_TRANSFER_TIMEOUT_MS : ℚ) = 120 * 1000 := by norm_num [MAX_TRANSFER_TIMEOUT_MS]
  unfold durationMs
  rw [div_lt_iff₀ hbitrate, hcap, ← @Nat.cast_lt ℚ]
  push_cast
  constructor
  · intro h
    linarith
  · intro h
    linarith

/-- The pacing alone stays below the timers of both sides exactly where it stays below the
cap, two minutes. -/
theorem pacing_within_timeouts_iff (sender requester : TransferOptions) (startedAt : ℚ)
    (data : List UInt8) :
    (pacingMs sender startedAt data < uploadTimeoutMs sender data ∧
      pacingMs sender startedAt data <
        requestTimeoutMs requester (.finite (sender.maxUploadBitrate : ℕ)) data) ↔
    data.length * 8 < 120 * sender.maxUploadBitrate.val := by
  rw [pacingMs_eq, requestTimeoutMs, requestBitrate_advertised, uploadTimeoutMs,
    durationMs_lt_transferTimeoutMs sender.timeoutMs.property.1,
    durationMs_lt_transferTimeoutMs requester.timeoutMs.property.1, and_self]
  exact durationMs_lt_cap sender data.length

/-- With the defaults a segment of the largest size takes longer than either timer runs, and
its last chunk goes out when both have fired. -/
theorem default_pacing_exceeds_timeouts :
    ¬ pacingMs {} 0 (List.replicate (16 * 1024 * 1024) 0) <
      uploadTimeoutMs {} (List.replicate (16 * 1024 * 1024) 0) ∧
    ¬ pacingMs {} 0 (List.replicate (16 * 1024 * 1024) 0) <
      requestTimeoutMs {} (.finite DEFAULT_MAX_UPLOAD_BITRATE)
        (List.replicate (16 * 1024 * 1024) 0) ∧
    ∃ sentAt ∈ (sendSegment DEFAULT_MAX_UPLOAD_BITRATE 0
      (List.replicate (16 * 1024 * 1024) 0)).1, (MAX_TRANSFER_TIMEOUT_MS : ℚ) < sentAt := by
  have hlength : (List.replicate (16 * 1024 * 1024) (0 : UInt8)).length = 16 * 1024 * 1024 :=
    List.length_replicate
  generalize List.replicate (16 * 1024 * 1024) (0 : UInt8) = data at hlength ⊢
  have htakes : durationMs DEFAULT_MAX_UPLOAD_BITRATE data.length = 134217728 / 1000 := by
    rw [durationMs, hlength, DEFAULT_MAX_UPLOAD_BITRATE]
    norm_num
  have hpacing : (MAX_TRANSFER_TIMEOUT_MS : ℚ) ≤ pacingMs {} 0 data := by
    rw [(pacingMs_eq {} 0 data).trans htakes, MAX_TRANSFER_TIMEOUT_MS]
    norm_num
  refine ⟨not_lt.mpr ((transferTimeoutMs_le _ _ _).trans hpacing),
    not_lt.mpr ((transferTimeoutMs_le _ _ _).trans hpacing), ?_⟩
  · have hslices : slices MAX_DATA_CHANNEL_CHUNK_BYTES data ≠ [] := by
      intro hnil
      have hflat := flatten_slices (by decide : 0 < MAX_DATA_CHANNEL_CHUNK_BYTES) data
      rw [hnil, List.flatten_nil] at hflat
      rw [← hflat, List.length_nil] at hlength
      norm_num at hlength
    have hchunk : ∀ chunk ∈ slices MAX_DATA_CHANNEL_CHUNK_BYTES data,
        chunk.length ≤ MAX_DATA_CHANNEL_CHUNK_BYTES := by
      intro chunk hchunk
      obtain ⟨k, -, rfl⟩ := List.mem_map.mp hchunk
      exact List.length_take_le _ _
    obtain ⟨sentAt, hmem, hlate⟩ := @exists_sent_ge DEFAULT_MAX_UPLOAD_BITRATE 0 0 _ _
      hslices hchunk
    rw [flatten_slices (by decide), Nat.zero_add, htakes] at hlate
    have hone : durationMs DEFAULT_MAX_UPLOAD_BITRATE MAX_DATA_CHANNEL_CHUNK_BYTES =
        131072 / 1000 := by
      norm_num [durationMs, DEFAULT_MAX_UPLOAD_BITRATE, MAX_DATA_CHANNEL_CHUNK_BYTES]
    have hzero : (0 : ℚ) + durationMs DEFAULT_MAX_UPLOAD_BITRATE 0 = 0 := by norm_num [durationMs]
    rw [hzero] at hmem
    refine ⟨sentAt, hmem, ?_⟩
    rw [hone] at hlate
    norm_num [MAX_TRANSFER_TIMEOUT_MS]
    linarith

end BrowserWebRtcPeer

end OpenStreamGrid

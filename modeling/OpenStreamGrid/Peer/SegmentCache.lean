import OpenStreamGrid.Peer.BufferPool
import Mathlib.Data.Rat.Defs

/-!
# The segment cache

A least-recently-used cache with limits on bytes and age. Its data is in buffers
of a pool; a lease pins the data of an entry until it is released, although the
entry may be evicted, replaced or cleared in the meantime.
-/

namespace OpenStreamGrid

structure CacheEntry where
  data : ViewId
  storedAt : ℚ
  allocatedBytes : ℕ
  leases : ℤ
  evicted : Bool
  /-- The bytes that were stored. -/
  stored : List UInt8
deriving DecidableEq

abbrev EntryId := ℕ
abbrev LeaseId := ℕ

structure CacheLease where
  entry : EntryId
  released : Bool
deriving DecidableEq

structure CacheOptions where
  maxBytes : ℕ
  /-- Absent if entries do not expire. -/
  ttlMs : Option ℚ
  limits : PoolLimits

structure SegmentCache where
  entries : OrderedMap String EntryId
  /-- Every entry there was. -/
  objects : EntryId → CacheEntry
  created : ℕ
  /-- Every lease there was. -/
  handles : LeaseId → CacheLease
  granted : ℕ
  totalBytes : ℤ
  bufferPool : BufferPool

namespace SegmentCache

def new : SegmentCache :=
  ⟨∅, fun _ => ⟨0, 0, 0, 0, true, []⟩, 0, fun _ => ⟨0, true⟩, 0, 0, .new⟩

def update (s : SegmentCache) (id : EntryId) (f : CacheEntry → CacheEntry) : SegmentCache :=
  { s with objects := Function.update s.objects id (f (s.objects id)) }

def releaseBuffer (o : CacheOptions) (s : SegmentCache) (id : EntryId) : SegmentCache :=
  { s with bufferPool := s.bufferPool.release o.limits (s.objects id).data }

/-- Removes what is stored under a name, if anything is. -/
def remove (o : CacheOptions) (s : SegmentCache) (segmentName : String) : SegmentCache :=
  match s.entries.get? segmentName with
  | none => s
  | some id =>
      let s := { s with
        entries := s.entries.delete segmentName
        totalBytes := s.totalBytes - (s.objects id).allocatedBytes }
      let s := s.update id fun entry => { entry with evicted := true }
      if (s.objects id).leases = 0 then s.releaseBuffer o id else s

def isExpired (o : CacheOptions) (entry : CacheEntry) (now : ℚ) : Bool :=
  o.ttlMs.any fun ttlMs => ttlMs ≤ now - entry.storedAt

/-- Finds what is stored under a name and makes it the most recently used. -/
def touch (o : CacheOptions) (s : SegmentCache) (segmentName : String) (now : ℚ) :
    SegmentCache × Option EntryId :=
  match s.entries.get? segmentName with
  | none => (s, none)
  | some id =>
      if isExpired o (s.objects id) now then (s.remove o segmentName, none)
      else ({ s with entries := (s.entries.delete segmentName).set segmentName id }, some id)

/-- A copy of the bytes. -/
def get (o : CacheOptions) (s : SegmentCache) (segmentName : String) (now : ℚ) :
    SegmentCache × Option (List UInt8) :=
  let touched := s.touch o segmentName now
  (touched.1, touched.2.map fun id => touched.1.bufferPool.read (touched.1.objects id).data)

def has (o : CacheOptions) (s : SegmentCache) (segmentName : String) (now : ℚ) :
    SegmentCache × Bool :=
  match s.entries.get? segmentName with
  | none => (s, false)
  | some id =>
      if isExpired o (s.objects id) now then (s.remove o segmentName, false) else (s, true)

def lease (o : CacheOptions) (s : SegmentCache) (segmentName : String) (now : ℚ) :
    SegmentCache × Option LeaseId :=
  let touched := s.touch o segmentName now
  let s := touched.1
  match touched.2 with
  | none => (s, none)
  | some id =>
      let s := s.update id fun entry => { entry with leases := entry.leases + 1 }
      ({ s with
          handles := Function.update s.handles s.granted ⟨id, false⟩
          granted := s.granted + 1 }, some s.granted)

/-- The `release` of a lease. -/
def release (o : CacheOptions) (s : SegmentCache) (handle : LeaseId) : SegmentCache :=
  if s.granted ≤ handle ∨ (s.handles handle).released = true then s
  else
    let id := (s.handles handle).entry
    let s := { s with handles := Function.update s.handles handle ⟨id, true⟩ }
    let s := s.update id fun entry => { entry with leases := entry.leases - 1 }
    if (s.objects id).evicted = true ∧ (s.objects id).leases = 0 then s.releaseBuffer o id else s

/-- Removes the oldest entries while there are too many bytes, at most so many. -/
def evictOldest (o : CacheOptions) : ℕ → SegmentCache → SegmentCache
  | 0, s => s
  | rounds + 1, s =>
      if s.totalBytes ≤ o.maxBytes then s
      else
        match s.entries.keys.head? with
        | none => s
        | some oldestKey => evictOldest o rounds (s.remove o oldestKey)

/-- A new entry under a name that has none. -/
def insert (s : SegmentCache) (segmentName : String) (entry : CacheEntry) : SegmentCache :=
  { s with
    entries := s.entries.set segmentName s.created
    objects := Function.update s.objects s.created entry
    created := s.created + 1
    totalBytes := s.totalBytes + entry.allocatedBytes }

def set (o : CacheOptions) (s : SegmentCache) (segmentName : String) (data : List UInt8) (now : ℚ)
    (uninitialised : ℕ → UInt8) : SegmentCache × Bool :=
  if data.length = 0 ∨ o.maxBytes < data.length then (s, false)
  else
    let s := s.remove o segmentName
    let pooled := s.bufferPool.copy o.limits uninitialised data
    let allocatedBytes := pooled.1.allocationSize pooled.2
    if o.maxBytes < allocatedBytes then
      ({ s with bufferPool := pooled.1.release o.limits pooled.2 }, false)
    else
      let s := { s with bufferPool := pooled.1 }.insert segmentName
        ⟨pooled.2, now, allocatedBytes, 0, false, data⟩
      (evictOldest o s.entries.size s, true)

def clear (o : CacheOptions) (s : SegmentCache) : SegmentCache :=
  s.entries.keys.foldl (fun s segmentName => s.remove o segmentName) s

/-- `now` is what the clock shows when the entry of a name is looked at. -/
def evictExpired (o : CacheOptions) (s : SegmentCache) (now : String → ℚ) : SegmentCache :=
  if o.ttlMs.isNone then s
  else s.entries.keys.foldl (fun s segmentName => (s.has o segmentName (now segmentName)).1) s

inductive CacheEvent where
  | get (segmentName : String) (now : ℚ)
  | has (segmentName : String) (now : ℚ)
  | lease (segmentName : String) (now : ℚ)
  | release (handle : LeaseId)
  | set (segmentName : String) (data : List UInt8) (now : ℚ) (uninitialised : ℕ → UInt8)
  /-- `size`, `bytes` and `keys`. -/
  | evictExpired (now : String → ℚ)
  | clear

def step (o : CacheOptions) (s : SegmentCache) : CacheEvent → SegmentCache
  | .get segmentName now => (s.get o segmentName now).1
  | .has segmentName now => (s.has o segmentName now).1
  | .lease segmentName now => (s.lease o segmentName now).1
  | .release handle => s.release o handle
  | .set segmentName data now uninitialised => (s.set o segmentName data now uninitialised).1
  | .evictExpired now => s.evictExpired o now
  | .clear => s.clear o

def run (o : CacheOptions) (events : List CacheEvent) : SegmentCache :=
  events.foldl (step o) new

/-! ## Who uses a buffer -/

/-- The entry is live, or evicted with leases on it. -/
def Uses (s : SegmentCache) (id : EntryId) : Prop :=
  (∃ segmentName, s.entries.get? segmentName = some id) ∨
    ∃ handle, handle < s.granted ∧ s.handles handle = ⟨id, false⟩

def backing (s : SegmentCache) (id : EntryId) : BackingId :=
  (s.bufferPool.views (s.objects id).data).backing

/-- What a lease gives access to. -/
def leasedBytes (s : SegmentCache) (handle : LeaseId) : List UInt8 :=
  s.bufferPool.read (s.objects (s.handles handle).entry).data

end SegmentCache

end OpenStreamGrid

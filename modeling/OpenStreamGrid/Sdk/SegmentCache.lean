import OpenStreamGrid.Lib.OrderedMap

/-!
# The browser's segment cache

A least-recently-used cache with a limit on its bytes. The order of the map
below is the linked list of the source from its tail, the entry evicted first,
to its head. What is stored under a name is the data of the latest `set`, or
nothing.
-/

namespace OpenStreamGrid

namespace Sdk

structure SegmentCache where
  nodes : OrderedMap String (List UInt8)
  totalBytes : ℤ
  maxBytes : ℕ

namespace SegmentCache

def new (maxBytes : ℕ) : SegmentCache := ⟨∅, 0, maxBytes⟩

def has (c : SegmentCache) (segmentName : String) : Bool := (c.nodes.get? segmentName).isSome

/-- Move an entry to the end that is evicted last. -/
def bumpToFront (c : SegmentCache) (segmentName : String) (data : List UInt8) : SegmentCache :=
  { c with nodes := (c.nodes.delete segmentName).set segmentName data }

/-- Retrieve a segment, which makes it the most recently used. -/
def get (c : SegmentCache) (segmentName : String) : SegmentCache × Option (List UInt8) :=
  match c.nodes.get? segmentName with
  | none => (c, none)
  | some data => (c.bumpToFront segmentName data, some data)

def evict (c : SegmentCache) (segmentName : String) : SegmentCache :=
  match c.nodes.get? segmentName with
  | none => c
  | some data =>
      { c with
        nodes := c.nodes.delete segmentName
        totalBytes := c.totalBytes - data.length }

/-- Evict the given entries in turn while the cache is over its limit. -/
def evictWhileOver (c : SegmentCache) : List String → SegmentCache
  | [] => c
  | segmentName :: rest =>
      if c.totalBytes > c.maxBytes then evictWhileOver (c.evict segmentName) rest else c

/-- Store a segment; refuses an empty one and one that is larger than the cache. -/
def set (c : SegmentCache) (segmentName : String) (data : List UInt8) : SegmentCache × Bool :=
  if data.length = 0 ∨ data.length > c.maxBytes then (c, false)
  else
    let replaced : ℤ := ((c.nodes.get? segmentName).map fun old => (old.length : ℤ)).getD 0
    let stored : SegmentCache :=
      { c with
        nodes := (c.nodes.delete segmentName).set segmentName data
        totalBytes := c.totalBytes - replaced + data.length }
    (stored.evictWhileOver stored.nodes.keys, true)

/-! ## What is stored -/

variable {c : SegmentCache} {segmentName other : String} {data stored : List UInt8}

@[simp] theorem get?_bumpToFront (h : c.nodes.get? segmentName = some data) (other : String) :
    (c.bumpToFront segmentName data).nodes.get? other = c.nodes.get? other := by
  show ((c.nodes.delete segmentName).set segmentName data).get? other = _
  rw [OrderedMap.get?_set, OrderedMap.get?_delete]
  split_ifs with hother
  · rw [hother, h]
  · rfl

/-- A retrieval returns what is stored. -/
@[simp] theorem get_snd (c : SegmentCache) (segmentName : String) :
    (c.get segmentName).2 = c.nodes.get? segmentName := by
  unfold get
  cases c.nodes.get? segmentName <;> rfl

/-- A retrieval changes the order alone. -/
@[simp] theorem get?_get (c : SegmentCache) (segmentName other : String) :
    (c.get segmentName).1.nodes.get? other = c.nodes.get? other := by
  unfold get
  cases h : c.nodes.get? segmentName with
  | none => rfl
  | some data => exact get?_bumpToFront h other

theorem get?_evict (h : (c.evict segmentName).nodes.get? other = some stored) :
    c.nodes.get? other = some stored := by
  unfold evict at h
  cases hname : c.nodes.get? segmentName with
  | none =>
      rw [hname] at h
      exact h
  | some data =>
      rw [hname] at h
      change (c.nodes.delete segmentName).get? other = some stored at h
      rw [OrderedMap.get?_delete] at h
      split_ifs at h
      exact h

theorem get?_evictWhileOver : ∀ {names : List String} {c : SegmentCache},
    (c.evictWhileOver names).nodes.get? other = some stored →
      c.nodes.get? other = some stored := by
  intro names
  induction names with
  | nil => intro c h; exact h
  | cons name rest ih =>
      intro c h
      unfold evictWhileOver at h
      split_ifs at h
      · exact get?_evict (ih h)
      · exact h

/-- A cache that refuses a segment stays as it was. -/
theorem set_refused (h : (c.set segmentName data).2 = false) : (c.set segmentName data).1 = c := by
  unfold set at h ⊢
  split_ifs with hsize
  · rfl
  · rw [if_neg hsize] at h
    exact absurd h.symm Bool.false_ne_true

/-- **What is stored after a `set`** is its data, under its name, or was stored before. -/
theorem get?_set (h : (c.set segmentName data).1.nodes.get? other = some stored) :
    (other = segmentName ∧ stored = data) ∨ c.nodes.get? other = some stored := by
  unfold set at h
  split_ifs at h with hsize
  · exact Or.inr h
  · have hstored := get?_evictWhileOver h
    change ((c.nodes.delete segmentName).set segmentName data).get? other = some stored at hstored
    rw [OrderedMap.get?_set, OrderedMap.get?_delete] at hstored
    split_ifs at hstored with hother
    · exact Or.inl ⟨hother, (Option.some.inj hstored).symm⟩
    · exact Or.inr hstored

theorem has_of_set (hother : other ≠ segmentName)
    (h : (c.set segmentName data).1.has other = true) : c.has other = true := by
  obtain ⟨stored, hstored⟩ := Option.isSome_iff_exists.mp h
  rcases get?_set hstored with ⟨rfl, -⟩ | hold
  · exact absurd rfl hother
  · exact Option.isSome_iff_exists.mpr ⟨stored, hold⟩

end SegmentCache

end Sdk

end OpenStreamGrid

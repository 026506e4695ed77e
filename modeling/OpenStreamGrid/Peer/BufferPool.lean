import Mathlib.Algebra.Ring.Nat
import OpenStreamGrid.Lib.OrderedMap

/-!
# The buffer pool

Backing buffers are reused by size class. A buffer that is handed out is a view
of a backing buffer; releasing the view puts its backing on a free list, unless
the list or the pool is full. `Sound held` says what the pool guarantees while
the views in `held` have not been released: each has a backing of its own that
is on no free list.
-/

namespace OpenStreamGrid

/-- The constructor asks for positive integers; nothing here depends on it. -/
structure PoolLimits where
  maxPooledBufferBytes : ℕ
  maxRetainedPerBucket : ℕ
  maxRetainedBytes : ℕ
deriving DecidableEq

namespace PoolLimits

/-- Doubles the bucket until the size fits, at most so often. -/
def doubleBucket (size : ℕ) : ℕ → ℕ → ℕ
  | 0, bucket => bucket
  | rounds + 1, bucket =>
      if bucket < size then doubleBucket size rounds (bucket * 2) else bucket

def bucketSize (limits : PoolLimits) (size : ℕ) : ℕ :=
  if limits.maxPooledBufferBytes < size then size else doubleBucket size size 1

theorem le_doubleBucket (size : ℕ) : ∀ rounds bucket : ℕ, size ≤ bucket * 2 ^ rounds →
    size ≤ doubleBucket size rounds bucket := by
  intro rounds
  induction rounds with
  | zero =>
      intro bucket h
      rwa [pow_zero, mul_one] at h
  | succ rounds ih =>
      intro bucket h
      unfold doubleBucket
      split_ifs with hsmall
      · apply ih
        rwa [mul_assoc, ← pow_succ']
      · exact Nat.not_lt.mp hsmall

theorem le_bucketSize (limits : PoolLimits) (size : ℕ) : size ≤ limits.bucketSize size := by
  unfold bucketSize
  split_ifs
  · exact le_rfl
  · apply le_doubleBucket
    rw [one_mul]
    exact Nat.lt_two_pow_self.le

end PoolLimits

abbrev BackingId := ℕ
abbrev ViewId := ℕ

/-- The first bytes of a backing buffer. -/
structure BufferView where
  backing : BackingId
  byteLength : ℕ
deriving DecidableEq

/-- The pool with the memory its buffers are in. -/
structure BufferPool where
  backings : BackingId → List UInt8
  /-- Backing buffers allocated so far. -/
  allocated : ℕ
  views : ViewId → BufferView
  /-- Views handed out so far. -/
  viewed : ℕ
  /-- The free lists by size. -/
  available : OrderedMap ℕ (List BackingId)
  /-- The backing buffers of views that are to return. -/
  leases : OrderedMap ViewId BackingId
  retainedBytes : ℤ

namespace BufferPool

def new : BufferPool := ⟨fun _ => [], 0, fun _ => ⟨0, 0⟩, 0, ∅, ∅, 0⟩

def read (p : BufferPool) (view : ViewId) : List UInt8 :=
  (p.backings (p.views view).backing).take (p.views view).byteLength

/-- The last buffer of a free list, or a new one with whatever is in the memory. -/
def takeBacking (uninitialised : ℕ → UInt8) (p : BufferPool) (bucketSize : ℕ) :
    BufferPool × BackingId :=
  match ((p.available.get? bucketSize).getD []).getLast? with
  | some reused =>
      ({ p with
          available := p.available.set bucketSize
            ((p.available.get? bucketSize).getD []).dropLast
          retainedBytes := p.retainedBytes - (p.backings reused).length }, reused)
  | none =>
      ({ p with
          backings := Function.update p.backings p.allocated
            ((List.range bucketSize).map uninitialised)
          allocated := p.allocated + 1 }, p.allocated)

/-- A new view of a backing buffer, to return to the pool or not. -/
def lend (p : BufferPool) (backing : BackingId) (size : ℕ) (pooled : Bool) : BufferPool × ViewId :=
  ({ p with
      views := Function.update p.views p.viewed ⟨backing, size⟩
      viewed := p.viewed + 1
      leases := if pooled then p.leases.set p.viewed backing else p.leases }, p.viewed)

/-- For a positive size. -/
def acquire (limits : PoolLimits) (uninitialised : ℕ → UInt8) (p : BufferPool) (size : ℕ) :
    BufferPool × ViewId :=
  let taken := p.takeBacking uninitialised (limits.bucketSize size)
  taken.1.lend taken.2 size (limits.bucketSize size ≤ limits.maxPooledBufferBytes)

def write (p : BufferPool) (view : ViewId) (source : List UInt8) : BufferPool :=
  let backing := (p.views view).backing
  { p with
    backings := Function.update p.backings backing
      (source ++ (p.backings backing).drop source.length) }

def copy (limits : PoolLimits) (uninitialised : ℕ → UInt8) (p : BufferPool)
    (source : List UInt8) : BufferPool × ViewId :=
  let acquired := p.acquire limits uninitialised source.length
  (acquired.1.write acquired.2 source, acquired.2)

def release (limits : PoolLimits) (p : BufferPool) (view : ViewId) : BufferPool :=
  match p.leases.get? view with
  | none => p
  | some backing =>
      let p := { p with leases := p.leases.delete view }
      let bucketSize : ℕ := (p.backings backing).length
      let retained := (p.available.get? bucketSize).getD []
      if limits.maxRetainedPerBucket ≤ retained.length ∨
          (limits.maxRetainedBytes : ℤ) < p.retainedBytes + bucketSize then p
      else
        { p with
          backings := Function.update p.backings backing (List.replicate bucketSize 0)
          available := p.available.set bucketSize (retained ++ [backing])
          retainedBytes := p.retainedBytes + bucketSize }

def allocationSize (p : BufferPool) (view : ViewId) : ℕ :=
  match p.leases.get? view with
  | some backing => (p.backings backing).length
  | none => (p.views view).byteLength

/-! ## What the pool guarantees -/

/-- The buffer is on a free list. -/
def Free (p : BufferPool) (backing : BackingId) : Prop :=
  ∃ size retained, p.available.get? size = some retained ∧ backing ∈ retained

/-- Bytes of the free buffers. -/
def freeBytes (p : BufferPool) : ℕ :=
  p.available.sumValues fun retained => (retained.map fun b => (p.backings b).length).sum

structure Sound (limits : PoolLimits) (p : BufferPool) (held : ViewId → Prop) : Prop where
  /-- A held view lies within an allocated buffer. -/
  inside : ∀ v, held v → v < p.viewed ∧ (p.views v).backing < p.allocated ∧
    (p.views v).byteLength ≤ (p.backings (p.views v).backing).length
  apart : ∀ v w, held v → held w → (p.views v).backing = (p.views w).backing → v = w
  used : ∀ v, held v → ¬ p.Free (p.views v).backing
  leased : ∀ v b, p.leases.get? v = some b → held v ∧ (p.views v).backing = b
  sized : ∀ size retained, p.available.get? size = some retained → ∀ b ∈ retained,
    b < p.allocated ∧ (p.backings b).length = size
  once : ∀ size retained, p.available.get? size = some retained → retained.Nodup
  perBucket : ∀ size retained, p.available.get? size = some retained →
    retained.length ≤ limits.maxRetainedPerBucket
  retained : p.retainedBytes = p.freeBytes
  total : p.retainedBytes ≤ limits.maxRetainedBytes

variable {limits : PoolLimits} {p : BufferPool} {held : ViewId → Prop} {view : ViewId}

theorem sound_new : Sound limits new fun _ => False where
  inside v h := h.elim
  apart v w h := h.elim
  used v h := h.elim
  leased v b h := by cases h
  sized size retained h := by cases h
  once size retained h := by cases h
  perBucket size retained h := by cases h
  retained := rfl
  total := Int.natCast_nonneg _

/-- Fewer views are held, none of them to return. -/
theorem Sound.mono (h : p.Sound limits held) {held' : ViewId → Prop} (hsub : ∀ v, held' v → held v)
    (hleased : ∀ v b, p.leases.get? v = some b → held' v) : p.Sound limits held' where
  inside v hv := h.inside v (hsub v hv)
  apart v w hv hw := h.apart v w (hsub v hv) (hsub w hw)
  used v hv := h.used v (hsub v hv)
  leased v b hb := ⟨hleased v b hb, (h.leased v b hb).2⟩
  sized := h.sized
  once := h.once
  perBucket := h.perBucket
  retained := h.retained
  total := h.total

theorem freeBytes_congr {p p' : BufferPool} (havailable : p'.available = p.available)
    (hlength : ∀ b, p.Free b → (p'.backings b).length = (p.backings b).length) :
    p'.freeBytes = p.freeBytes := by
  unfold freeBytes OrderedMap.sumValues
  rw [havailable]
  congr 1
  refine List.map_congr_left fun retained hretained => ?_
  congr 1
  refine List.map_congr_left fun b hb => hlength b ?_
  obtain ⟨size, hsize⟩ := OrderedMap.mem_values_iff.mp hretained
  exact ⟨size, retained, hsize, hb⟩

/-! ## Acquiring -/

/-- A backing buffer was taken off the pool: no held view is in it and no free list has it. -/
structure Takes (p p' : BufferPool) (held : ViewId → Prop) (backing : BackingId) (size : ℕ) :
    Prop where
  views : p'.views = p.views
  viewed : p'.viewed = p.viewed
  leases : p'.leases = p.leases
  allocated : backing < p'.allocated
  length : (p'.backings backing).length = size
  unfree : ¬ p'.Free backing
  unused : ∀ v, held v → (p.views v).backing ≠ backing
  kept : ∀ v, held v → p'.backings (p.views v).backing = p.backings (p.views v).backing

theorem Sound.takeReused (h : p.Sound limits held) {size : ℕ} {retained : List BackingId}
    {reused : BackingId} (hget : p.available.get? size = some (retained ++ [reused])) :
    let p' := { p with
      available := p.available.set size retained
      retainedBytes := p.retainedBytes - (p.backings reused).length }
    p'.Sound limits held ∧ p.Takes p' held reused size := by
  intro p'
  have hget' : ∀ size' list, p'.available.get? size' = some list →
      ∃ list', p.available.get? size' = some list' ∧ list.Sublist list' := by
    intro size' list hlist
    dsimp only [p'] at hlist
    rw [OrderedMap.get?_set] at hlist
    split_ifs at hlist with hsize
    · obtain rfl := Option.some.inj hlist
      rw [hsize]
      exact ⟨_, hget, List.sublist_append_left _ _⟩
    · exact ⟨list, hlist, List.Sublist.refl list⟩
  have hfree : ∀ b, p'.Free b → p.Free b := by
    rintro b ⟨size', list, hlist, hb⟩
    obtain ⟨list', hlist', hsub⟩ := hget' size' list hlist
    exact ⟨size', list', hlist', hsub.subset hb⟩
  have hreused : reused ∈ retained ++ [reused] := List.mem_append_right _ (List.mem_singleton_self _)
  have hfreed : p.Free reused := ⟨size, _, hget, hreused⟩
  obtain ⟨hallocated, hlength⟩ := h.sized size _ hget reused hreused
  have hsum : p'.freeBytes + (p.backings reused).length = p.freeBytes := by
    have hset := OrderedMap.sumValues_set_of_get?
      (fun list : List BackingId => (list.map fun b => (p.backings b).length).sum)
      (b := retained) hget
    rw [List.map_append, List.sum_append, List.map_singleton, List.sum_singleton] at hset
    have hbytes : p'.freeBytes = (p.available.set size retained).sumValues
      (fun list : List BackingId => (list.map fun b => (p.backings b).length).sum) := rfl
    have hbytes' : p.freeBytes = p.available.sumValues
      (fun list : List BackingId => (list.map fun b => (p.backings b).length).sum) := rfl
    omega
  constructor
  · refine ⟨h.inside, h.apart, fun v hv hb => h.used v hv (hfree _ hb), h.leased, ?_, ?_, ?_, ?_, ?_⟩
    · intro size' list hlist b hb
      obtain ⟨list', hlist', hsub⟩ := hget' size' list hlist
      exact h.sized size' list' hlist' b (hsub.subset hb)
    · intro size' list hlist
      obtain ⟨list', hlist', hsub⟩ := hget' size' list hlist
      exact hsub.nodup (h.once size' list' hlist')
    · intro size' list hlist
      obtain ⟨list', hlist', hsub⟩ := hget' size' list hlist
      exact le_trans hsub.length_le (h.perBucket size' list' hlist')
    · have hretained := h.retained
      show p.retainedBytes - _ = _
      omega
    · have htotal := h.total
      show p.retainedBytes - _ ≤ _
      omega
  · refine ⟨rfl, rfl, rfl, hallocated, hlength, ?_, ?_, fun v hv => rfl⟩
    · rintro ⟨size', list, hlist, hb⟩
      obtain ⟨list', hlist', hsub⟩ := hget' size' list hlist
      -- the free lists hold buffers of their own sizes only, so this is the list it was on
      obtain rfl : size' = size := (h.sized size' list' hlist' reused (hsub.subset hb)).2.symm.trans
        hlength
      dsimp only [p'] at hlist
      rw [OrderedMap.get?_set, if_pos rfl] at hlist
      obtain rfl := Option.some.inj hlist
      exact (List.nodup_append.mp (h.once size' _ hget)).2.2 reused hb reused
        (List.mem_singleton_self _) rfl
    · rintro v hv rfl
      exact h.used v hv hfreed

theorem Sound.takeNew (h : p.Sound limits held) (bytes : List UInt8) :
    let p' := { p with
      backings := Function.update p.backings p.allocated bytes
      allocated := p.allocated + 1 }
    p'.Sound limits held ∧ p.Takes p' held p.allocated bytes.length := by
  intro p'
  have hold : ∀ b, b < p.allocated → p'.backings b = p.backings b := fun b hb =>
    Function.update_of_ne hb.ne _ _
  have hfree : ∀ b, p.Free b → b < p.allocated := by
    rintro b ⟨size, list, hlist, hb⟩
    exact (h.sized size list hlist b hb).1
  constructor
  · refine ⟨fun v hv => ?_, h.apart, h.used, h.leased, ?_, h.once, h.perBucket, ?_, h.total⟩
    · obtain ⟨hviewed, hallocated, hlength⟩ := h.inside v hv
      refine ⟨hviewed, Nat.lt_succ_of_lt hallocated, ?_⟩
      show (p.views v).byteLength ≤ (p'.backings (p.views v).backing).length
      rw [hold _ hallocated]
      exact hlength
    · intro size list hlist b hb
      obtain ⟨hallocated, hlength⟩ := h.sized size list hlist b hb
      refine ⟨Nat.lt_succ_of_lt hallocated, ?_⟩
      rw [hold b hallocated]
      exact hlength
    · have hbytes : p'.freeBytes = p.freeBytes :=
        freeBytes_congr rfl fun b hb => by rw [hold b (hfree b hb)]
      rw [hbytes]
      exact h.retained
  · refine ⟨rfl, rfl, rfl, Nat.lt_succ_self _, ?_, fun hb => ?_, fun v hv => ?_, fun v hv => ?_⟩
    · show (Function.update p.backings p.allocated bytes p.allocated).length = bytes.length
      rw [Function.update_self]
    · exact lt_irrefl _ (hfree p.allocated hb)
    · exact (h.inside v hv).2.1.ne
    · exact hold _ (h.inside v hv).2.1

theorem Sound.takeBacking (h : p.Sound limits held) (uninitialised : ℕ → UInt8) (size : ℕ) :
    (p.takeBacking uninitialised size).1.Sound limits held ∧
      p.Takes (p.takeBacking uninitialised size).1 held (p.takeBacking uninitialised size).2
        size := by
  unfold BufferPool.takeBacking
  cases hlast : ((p.available.get? size).getD []).getLast? with
  | none =>
      have hnew := h.takeNew ((List.range size).map uninitialised)
      rw [List.length_map, List.length_range] at hnew
      exact hnew
  | some reused =>
      cases hget : p.available.get? size with
      | none =>
          rw [hget] at hlast
          cases hlast
      | some list =>
          rw [hget, Option.getD_some] at hlast
          have hsplit : list = list.dropLast ++ [reused] :=
            (List.dropLast_append_getLast? reused hlast).symm
          rw [hsplit] at hget
          exact h.takeReused hget

/-- A view is handed out of a buffer that is not in use. -/
theorem Sound.lend (h : p.Sound limits held) {backing : BackingId} {size : ℕ} (pooled : Bool)
    (hallocated : backing < p.allocated) (hsize : size ≤ (p.backings backing).length)
    (hunfree : ¬ p.Free backing) (hunused : ∀ v, held v → (p.views v).backing ≠ backing) :
    (p.lend backing size pooled).1.Sound limits fun v => held v ∨ v = p.viewed := by
  have hnew : (p.lend backing size pooled).1.views p.viewed = ⟨backing, size⟩ :=
    Function.update_self ..
  have hold : ∀ v, held v → (p.lend backing size pooled).1.views v = p.views v := fun v hv =>
    Function.update_of_ne (h.inside v hv).1.ne _ _
  refine ⟨?_, ?_, ?_, ?_, h.sized, h.once, h.perBucket, h.retained, h.total⟩
  · rintro v (hv | rfl)
    · obtain ⟨hviewed, hinside⟩ := h.inside v hv
      rw [hold v hv]
      exact ⟨Nat.lt_succ_of_lt hviewed, hinside⟩
    · rw [hnew]
      exact ⟨Nat.lt_succ_self _, hallocated, hsize⟩
  · rintro v w (hv | rfl) (hw | rfl) hvw
    · rw [hold v hv, hold w hw] at hvw
      exact h.apart v w hv hw hvw
    · rw [hold v hv, hnew] at hvw
      exact absurd hvw (hunused v hv)
    · rw [hold w hw, hnew] at hvw
      exact absurd hvw.symm (hunused w hw)
    · rfl
  · rintro v (hv | rfl)
    · rw [hold v hv]
      exact h.used v hv
    · rw [hnew]
      exact hunfree
  · intro v b hb
    have hcases : (v = p.viewed ∧ b = backing) ∨ p.leases.get? v = some b := by
      cases pooled with
      | false => exact Or.inr hb
      | true =>
          have hset : (p.leases.set p.viewed backing).get? v = some b := hb
          rw [OrderedMap.get?_set] at hset
          split_ifs at hset with hv
          · exact Or.inl ⟨hv, (Option.some.inj hset).symm⟩
          · exact Or.inr hset
    rcases hcases with ⟨rfl, rfl⟩ | hleased
    · rw [hnew]
      exact ⟨Or.inr rfl, rfl⟩
    · obtain ⟨hv, hbacking⟩ := h.leased v b hleased
      rw [hold v hv]
      exact ⟨Or.inl hv, hbacking⟩

/-- What a caller gets: a new view of the size, and the views it holds as they were. -/
structure Grants (p p' : BufferPool) (held : ViewId → Prop) (size : ℕ) : Prop where
  viewed : p'.viewed = p.viewed + 1
  byteLength : (p'.views p.viewed).byteLength = size
  reads : ∀ v, held v → p'.read v = p.read v

/-- **Acquiring** hands out a view of a buffer that no held view is in. -/
theorem Sound.acquire (h : p.Sound limits held) (uninitialised : ℕ → UInt8) (size : ℕ) :
    (p.acquire limits uninitialised size).2 = p.viewed ∧
    (p.acquire limits uninitialised size).1.Sound limits (fun v => held v ∨ v = p.viewed) ∧
    p.Grants (p.acquire limits uninitialised size).1 held size := by
  obtain ⟨hsound, htakes⟩ := h.takeBacking uninitialised (limits.bucketSize size)
  unfold BufferPool.acquire
  dsimp only
  generalize hpooled : decide (limits.bucketSize size ≤ limits.maxPooledBufferBytes) = pooled
  generalize p.takeBacking uninitialised (limits.bucketSize size) = taken at hsound htakes ⊢
  have hfits : size ≤ (taken.1.backings taken.2).length := by
    rw [htakes.length]
    exact limits.le_bucketSize size
  have hlent := hsound.lend pooled htakes.allocated hfits htakes.unfree fun v hv => by
    rw [htakes.views]
    exact htakes.unused v hv
  rw [htakes.viewed] at hlent
  refine ⟨htakes.viewed, hlent, ?_, ?_, fun v hv => ?_⟩
  · show taken.1.viewed + 1 = _
    rw [htakes.viewed]
  · show (Function.update taken.1.views taken.1.viewed ⟨taken.2, size⟩ p.viewed).byteLength = size
    rw [htakes.viewed, Function.update_self]
  · have hview : (taken.1.lend taken.2 size pooled).1.views v = p.views v := by
      show Function.update taken.1.views taken.1.viewed ⟨taken.2, size⟩ v = p.views v
      rw [Function.update_of_ne, htakes.views]
      rw [htakes.viewed]
      exact (h.inside v hv).1.ne
    unfold BufferPool.read
    rw [hview]
    show (taken.1.backings (p.views v).backing).take _ = _
    rw [htakes.kept v hv]

/-! ## Writing -/

/-- Other contents of the same lengths. -/
theorem Sound.setBackings (h : p.Sound limits held) {backings : BackingId → List UInt8}
    (hlength : ∀ b, (backings b).length = (p.backings b).length) :
    { p with backings := backings }.Sound limits held where
  inside v hv := by
    obtain ⟨hviewed, hallocated, hinside⟩ := h.inside v hv
    refine ⟨hviewed, hallocated, ?_⟩
    show _ ≤ (backings (p.views v).backing).length
    rw [hlength]
    exact hinside
  apart := h.apart
  used := h.used
  leased := h.leased
  sized size retained hget b hb := by
    show _ ∧ (backings b).length = size
    rw [hlength]
    exact h.sized size retained hget b hb
  once := h.once
  perBucket := h.perBucket
  retained := by
    have hbytes : { p with backings := backings }.freeBytes = p.freeBytes :=
      freeBytes_congr rfl fun b _ => hlength b
    rw [hbytes]
    exact h.retained
  total := h.total

theorem length_update (p : BufferPool) (backing : BackingId) {bytes : List UInt8}
    (h : bytes.length = (p.backings backing).length) (b : BackingId) :
    (Function.update p.backings backing bytes b).length = (p.backings b).length := by
  by_cases hb : b = backing
  · rw [hb, Function.update_self, h]
  · rw [Function.update_of_ne hb]

/-- A view that is written reads as written, and no other held view is touched. -/
theorem Sound.write (h : p.Sound limits held) (hview : held view) {source : List UInt8}
    (hlength : source.length = (p.views view).byteLength) :
    (p.write view source).Sound limits held ∧ (p.write view source).read view = source ∧
    ∀ v, held v → v ≠ view → (p.write view source).read v = p.read v := by
  obtain ⟨-, -, hinside⟩ := h.inside view hview
  rw [← hlength] at hinside
  refine ⟨h.setBackings (p.length_update _ ?_), ?_, fun v hv hne => ?_⟩
  · rw [List.length_append, List.length_drop]
    omega
  · unfold BufferPool.read BufferPool.write
    dsimp only
    rw [Function.update_self, ← hlength, List.take_left]
  · unfold BufferPool.read BufferPool.write
    dsimp only
    rw [Function.update_of_ne fun heq => hne (h.apart v view hv hview heq)]

/-- **A copy** is held apart from what is held already. -/
theorem Sound.copy (h : p.Sound limits held) (uninitialised : ℕ → UInt8) (source : List UInt8) :
    (p.copy limits uninitialised source).2 = p.viewed ∧
    (p.copy limits uninitialised source).1.viewed = p.viewed + 1 ∧
    (p.copy limits uninitialised source).1.Sound limits (fun v => held v ∨ v = p.viewed) ∧
    (p.copy limits uninitialised source).1.read p.viewed = source ∧
    ∀ v, held v → (p.copy limits uninitialised source).1.read v = p.read v := by
  obtain ⟨hview, hsound, hgrants⟩ := h.acquire uninitialised source.length
  unfold BufferPool.copy
  dsimp only
  rw [hview]
  obtain ⟨hwritten, hread, hothers⟩ := hsound.write (Or.inr rfl) hgrants.byteLength.symm
  refine ⟨rfl, hgrants.viewed, hwritten, hread, fun v hv => ?_⟩
  rw [hothers v (Or.inl hv) (h.inside v hv).1.ne]
  exact hgrants.reads v hv

/-! ## Releasing -/

/-- A buffer in use by no held view goes on the free list of its size. -/
theorem Sound.retain (h : p.Sound limits held) {backing : BackingId} {size : ℕ}
    (hallocated : backing < p.allocated) (hlength : (p.backings backing).length = size)
    (hunfree : ¬ p.Free backing) (hunused : ∀ v, held v → (p.views v).backing ≠ backing)
    (hbucket : ((p.available.get? size).getD []).length < limits.maxRetainedPerBucket)
    (htotal : p.retainedBytes + size ≤ limits.maxRetainedBytes) :
    { p with
      available := p.available.set size ((p.available.get? size).getD [] ++ [backing])
      retainedBytes := p.retainedBytes + size }.Sound limits held := by
  generalize hp' : { p with
    available := p.available.set size ((p.available.get? size).getD [] ++ [backing])
    retainedBytes := p.retainedBytes + size } = p'
  have hmem : ∀ size' list, p'.available.get? size' = some list →
      (size' = size ∧ list = (p.available.get? size).getD [] ++ [backing]) ∨
        p.available.get? size' = some list := by
    intro size' list hlist
    rw [← hp'] at hlist
    dsimp only at hlist
    rw [OrderedMap.get?_set] at hlist
    split_ifs at hlist with hsize
    · exact Or.inl ⟨hsize, (Option.some.inj hlist).symm⟩
    · exact Or.inr hlist
  have hold : ∀ b ∈ (p.available.get? size).getD [], ∃ list,
      p.available.get? size = some list ∧ b ∈ list := by
    intro b hb
    cases hget : p.available.get? size with
    | none =>
        rw [hget] at hb
        cases hb
    | some list =>
        rw [hget] at hb
        exact ⟨list, rfl, hb⟩
  have hsum : p'.freeBytes = p.freeBytes + size := by
    rw [← hp']
    show (p.available.set size _).sumValues
      (fun list : List BackingId => (list.map fun b => (p.backings b).length).sum) = _
    cases hget : p.available.get? size with
    | none =>
        rw [OrderedMap.sumValues_set_of_not_mem _ (OrderedMap.get?_eq_none_iff.mp hget)]
        show _ + (p.backings backing).length = _
        rw [hlength]
        rfl
    | some list =>
        have hset := OrderedMap.sumValues_set_of_get?
          (fun list : List BackingId => (list.map fun b => (p.backings b).length).sum)
          (b := list ++ [backing]) hget
        have hbytes : p.freeBytes = p.available.sumValues
          (fun list : List BackingId => (list.map fun b => (p.backings b).length).sum) := rfl
        rw [List.map_append, List.sum_append, List.map_singleton, List.sum_singleton,
          hlength] at hset
        rw [Option.getD_some]
        omega
  have hfields : p'.views = p.views ∧ p'.viewed = p.viewed ∧ p'.backings = p.backings ∧
      p'.allocated = p.allocated ∧ p'.leases = p.leases ∧
      p'.retainedBytes = p.retainedBytes + size := by
    rw [← hp']
    exact ⟨rfl, rfl, rfl, rfl, rfl, rfl⟩
  obtain ⟨hviews, hviewed, hbackings, hallocated', hleases, hretained⟩ := hfields
  refine ⟨?_, ?_, ?_, ?_, ?_, ?_, ?_, ?_, ?_⟩
  · rw [hviews, hviewed, hbackings, hallocated']
    exact h.inside
  · rw [hviews]
    exact h.apart
  · rw [hviews]
    rintro v hv ⟨size', list, hlist, hb⟩
    rcases hmem size' list hlist with ⟨rfl, rfl⟩ | hlist
    · rcases List.mem_append.mp hb with hb | hb
      · obtain ⟨list, hget, hb⟩ := hold _ hb
        exact h.used v hv ⟨_, list, hget, hb⟩
      · exact hunused v hv (List.mem_singleton.mp hb)
    · exact h.used v hv ⟨size', list, hlist, hb⟩
  · rw [hviews, hleases]
    exact h.leased
  · rw [hbackings, hallocated']
    intro size' list hlist b hb
    rcases hmem size' list hlist with ⟨rfl, rfl⟩ | hlist
    · rcases List.mem_append.mp hb with hb | hb
      · obtain ⟨list, hget, hb⟩ := hold _ hb
        exact h.sized _ list hget b hb
      · rw [List.mem_singleton.mp hb]
        exact ⟨hallocated, hlength⟩
    · exact h.sized size' list hlist b hb
  · intro size' list hlist
    rcases hmem size' list hlist with ⟨rfl, rfl⟩ | hlist
    · refine List.Nodup.append ?_ (List.nodup_singleton _) ?_
      · cases hget : p.available.get? size' with
        | none => exact List.nodup_nil
        | some list => exact h.once _ list hget
      · refine List.disjoint_singleton.mpr fun hb => ?_
        obtain ⟨list, hget, hb⟩ := hold _ hb
        exact hunfree ⟨_, list, hget, hb⟩
    · exact h.once size' list hlist
  · intro size' list hlist
    rcases hmem size' list hlist with ⟨rfl, rfl⟩ | hlist
    · rw [List.length_append]
      exact hbucket
    · exact h.perBucket size' list hlist
  · have := h.retained
    rw [hretained, hsum]
    omega
  · rw [hretained]
    exact htotal

/-- **Releasing** a held view leaves the others as they were; its buffer may be reused. -/
theorem Sound.release (h : p.Sound limits held) (hview : held view) :
    (p.release limits view).Sound limits (fun v => held v ∧ v ≠ view) ∧
    (p.release limits view).viewed = p.viewed ∧
    ∀ v, held v → v ≠ view → (p.release limits view).read v = p.read v := by
  unfold BufferPool.release
  cases hleased : p.leases.get? view with
  | none =>
      refine ⟨h.mono (fun v hv => hv.1) fun v b hb => ⟨(h.leased v b hb).1, ?_⟩, rfl,
        fun v _ _ => rfl⟩
      rintro rfl
      rw [hleased] at hb
      cases hb
  | some backing =>
      obtain ⟨-, rfl⟩ := h.leased view backing hleased
      have hdropped : { p with leases := p.leases.delete view }.Sound limits
          fun v => held v ∧ v ≠ view := by
        refine ⟨fun v hv => h.inside v hv.1, fun v w hv hw => h.apart v w hv.1 hw.1,
          fun v hv => h.used v hv.1, fun v b hb => ?_, h.sized, h.once, h.perBucket, h.retained,
          h.total⟩
        have hdeleted : (p.leases.delete view).get? v = some b := hb
        rw [OrderedMap.get?_delete] at hdeleted
        split_ifs at hdeleted with hv
        obtain ⟨hheld, hbacking⟩ := h.leased v b hdeleted
        exact ⟨⟨hheld, hv⟩, hbacking⟩
      dsimp only
      split_ifs with hfull
      · exact ⟨hdropped, rfl, fun v _ _ => rfl⟩
      obtain ⟨hbucket, htotal⟩ := not_or.mp hfull
      obtain ⟨-, hallocated, -⟩ := h.inside view hview
      have hunused : ∀ v, held v ∧ v ≠ view → (p.views v).backing ≠ (p.views view).backing :=
        fun v hv heq => hv.2 (h.apart v view hv.1 hview heq)
      have hretained := hdropped.retain hallocated rfl (h.used view hview) hunused
        (Nat.not_le.mp hbucket) (not_lt.mp htotal)
      refine ⟨hretained.setBackings (p.length_update _ List.length_replicate), rfl,
        fun v hv hne => ?_⟩
      unfold BufferPool.read
      dsimp only
      rw [Function.update_of_ne (hunused v ⟨hv, hne⟩)]

end BufferPool

end OpenStreamGrid

import Mathlib.Algebra.Order.Ring.Nat
import Mathlib.Data.PNat.Notation
import OpenStreamGrid.Peer.BufferPool

/-!
# What the pool allocates

The cache counts its bytes by `allocationSize`, which knows the backing buffer
of a view that is to return and takes any other view for its own buffer. A length
that is pooled by itself may have a size class that is not: its buffer is as large
as the class, and nothing says so.
-/

namespace OpenStreamGrid

namespace PoolLimits

variable {limits : PoolLimits}

/-- The bytes a copy of so many bytes takes up: its size class where buffers of that size are
pooled. -/
def allocatedBytes (limits : PoolLimits) (size : ℕ) : ℕ :=
  if limits.bucketSize size ≤ limits.maxPooledBufferBytes then limits.bucketSize size else size

/-- The length is above the pooled sizes, or its size class is among them. -/
def Predictable (limits : PoolLimits) (size : ℕ) : Prop :=
  limits.maxPooledBufferBytes < size ∨ ∃ k : ℕ, size ≤ 2 ^ k ∧ 2 ^ k ≤ limits.maxPooledBufferBytes

/-- Doubling stops at the least power of two that is large enough. -/
theorem doubleBucket_least (size : ℕ) : ∀ rounds k : ℕ, (∀ i : ℕ, size ≤ 2 ^ i → k ≤ i) →
    size ≤ 2 ^ k * 2 ^ rounds →
    ∃ j : ℕ, doubleBucket size rounds (2 ^ k) = 2 ^ j ∧ size ≤ 2 ^ j ∧
      ∀ i : ℕ, size ≤ 2 ^ i → j ≤ i := by
  -- No smaller exponent is large enough, and as many rounds as bytes are more than it takes.
  intro rounds
  induction rounds with
  | zero =>
      intro k hleast hsize
      rw [pow_zero, mul_one] at hsize
      exact ⟨k, rfl, hsize, hleast⟩
  | succ rounds ih =>
      intro k hleast hsize
      unfold doubleBucket
      split_ifs with hsmall
      · rw [← pow_succ]
        apply ih
        · intro i hi
          exact (Nat.pow_lt_pow_iff_right one_lt_two).mp (hsmall.trans_le hi)
        · rwa [pow_succ, mul_assoc, ← pow_succ']
      · exact ⟨k, rfl, Nat.not_lt.mp hsmall, hleast⟩

theorem bucketSize_of_le {size : ℕ} (h : size ≤ limits.maxPooledBufferBytes) :
    ∃ j : ℕ, limits.bucketSize size = 2 ^ j ∧ size ≤ 2 ^ j ∧ ∀ i : ℕ, size ≤ 2 ^ i → j ≤ i := by
  have hleast := doubleBucket_least size size 0 (fun i _ => Nat.zero_le i) (by
    rw [pow_zero, one_mul]
    exact Nat.lt_two_pow_self.le)
  unfold bucketSize
  rw [if_neg (Nat.not_lt.mpr h)]
  exact hleast

/-- What is said of a length is what its buffer takes up. -/
theorem allocatedBytes_eq_iff (size : ℕ) :
    limits.allocatedBytes size = limits.bucketSize size ↔ limits.Predictable size := by
  unfold allocatedBytes Predictable
  rcases Nat.lt_or_ge limits.maxPooledBufferBytes size with hlarge | hsmall
  · have hbucket : limits.bucketSize size = size := if_pos hlarge
    rw [hbucket, ite_self]
    exact iff_of_true rfl (Or.inl hlarge)
  · -- The class is the least power of two: if it is not pooled, none that is large enough is.
    obtain ⟨j, hj, hsize, hleast⟩ := limits.bucketSize_of_le hsmall
    rw [hj]
    split_ifs with hpooled
    · exact iff_of_true rfl (Or.inr ⟨j, hsize, hpooled⟩)
    · refine iff_of_false (fun heq => ?_) ?_
      · rw [← heq] at hpooled
        exact hpooled hsmall
      · rintro (hlarge | ⟨k, hk, hpooled'⟩)
        · exact absurd hsmall (Nat.not_le.mpr hlarge)
        · have hjk : 2 ^ j ≤ 2 ^ k := Nat.pow_le_pow_right Nat.two_pos (hleast k hk)
          exact hpooled (hjk.trans hpooled')

/-- Every length is predictable for the powers of two, and for no other limit. -/
theorem predictable_forall_iff (hmax : 0 < limits.maxPooledBufferBytes) :
    (∀ size : ℕ, 0 < size → limits.Predictable size) ↔
      ∃ k : ℕ, limits.maxPooledBufferBytes = 2 ^ k := by
  constructor
  · intro h
    rcases h _ hmax with hlt | ⟨k, hle, hge⟩
    · exact absurd hlt (lt_irrefl _)
    · exact ⟨k, le_antisymm hle hge⟩
  · rintro ⟨k, hk⟩ size -
    rcases Nat.lt_or_ge limits.maxPooledBufferBytes size with hlarge | hsmall
    · exact Or.inl hlarge
    · exact Or.inr ⟨k, hk ▸ hsmall, hk.ge⟩

end PoolLimits

namespace BufferPool

variable {limits : PoolLimits} {p q : BufferPool} {held : ViewId → Prop} {view : ViewId} {size : ℕ}

/-! ## Buffers and views stay as they are -/

/-- Bytes of the buffer that backs a view. -/
def backingBytes (p : BufferPool) (view : ViewId) : ℕ := (p.backings (p.views view).backing).length

/-- There may be more buffers and views, and those there are have their sizes. -/
structure Extends (p q : BufferPool) : Prop where
  viewed : p.viewed ≤ q.viewed
  allocated : p.allocated ≤ q.allocated
  views : ∀ v, v < p.viewed → q.views v = p.views v
  lengths : ∀ b, b < p.allocated → (q.backings b).length = (p.backings b).length

theorem Extends.refl (p : BufferPool) : Extends p p :=
  ⟨le_rfl, le_rfl, fun _ _ => rfl, fun _ _ => rfl⟩

theorem Extends.trans {r : BufferPool} (h : Extends p q) (h' : Extends q r) : Extends p r where
  viewed := h.viewed.trans h'.viewed
  allocated := h.allocated.trans h'.allocated
  views v hv := (h'.views v (hv.trans_le h.viewed)).trans (h.views v hv)
  lengths b hb := (h'.lengths b (hb.trans_le h.allocated)).trans (h.lengths b hb)

theorem extends_takeBacking (p : BufferPool) (uninitialised : ℕ → UInt8) (bucketSize : ℕ) :
    Extends p (p.takeBacking uninitialised bucketSize).1 := by
  unfold takeBacking
  cases ((p.available.get? bucketSize).getD []).getLast? with
  | none =>
      refine ⟨le_rfl, Nat.le_succ _, fun _ _ => rfl, fun b hb => ?_⟩
      show (Function.update p.backings p.allocated _ b).length = _
      rw [Function.update_of_ne hb.ne]
  | some reused => exact ⟨le_rfl, le_rfl, fun _ _ => rfl, fun _ _ => rfl⟩

theorem extends_lend (p : BufferPool) (backing : BackingId) (size : ℕ) (pooled : Bool) :
    Extends p (p.lend backing size pooled).1 :=
  ⟨Nat.le_succ _, le_rfl, fun _ hv => Function.update_of_ne hv.ne _ _, fun _ _ => rfl⟩

theorem extends_acquire (limits : PoolLimits) (p : BufferPool) (uninitialised : ℕ → UInt8) (size : ℕ) :
    Extends p (p.acquire limits uninitialised size).1 :=
  (p.extends_takeBacking uninitialised _).trans (extends_lend _ _ _ _)

theorem extends_write {source : List UInt8} (hfits : source.length ≤ p.backingBytes view) :
    Extends p (p.write view source) := by
  refine ⟨le_rfl, le_rfl, fun _ _ => rfl, fun b _ => p.length_update _ ?_ b⟩
  rw [List.length_append, List.length_drop]
  unfold backingBytes at hfits
  omega

theorem extends_release (p : BufferPool) (view : ViewId) : Extends p (p.release limits view) := by
  unfold release
  cases p.leases.get? view with
  | none => exact .refl p
  | some backing =>
      dsimp only
      split_ifs with hfull
      · exact ⟨le_rfl, le_rfl, fun _ _ => rfl, fun _ _ => rfl⟩
      · exact ⟨le_rfl, le_rfl, fun _ _ => rfl,
          fun b _ => p.length_update _ List.length_replicate b⟩

/-! ## Views that are handed out -/

/-- A view as it was handed out for so many bytes and has not been released since. -/
structure Lent (limits : PoolLimits) (p : BufferPool) (view : ViewId) (size : ℕ) : Prop where
  viewed : view < p.viewed
  allocated : (p.views view).backing < p.allocated
  byteLength : (p.views view).byteLength = size
  length : p.backingBytes view = limits.bucketSize size
  /-- It is to return if buffers of that size are pooled. -/
  lease : p.leases.get? view =
    if limits.bucketSize size ≤ limits.maxPooledBufferBytes then some (p.views view).backing
    else none

theorem Lent.allocationSize (h : p.Lent limits view size) :
    p.allocationSize view = limits.allocatedBytes size := by
  unfold BufferPool.allocationSize PoolLimits.allocatedBytes
  rw [h.lease]
  split_ifs
  · exact h.length
  · exact h.byteLength

/-- It stays so for as long as it is to return, or not, as before. -/
theorem Lent.extends (h : p.Lent limits view size) (hextends : Extends p q)
    (hlease : q.leases.get? view = p.leases.get? view) : q.Lent limits view size := by
  have hview : q.views view = p.views view := hextends.views view h.viewed
  refine ⟨h.viewed.trans_le hextends.viewed, ?_, ?_, ?_, ?_⟩
  · rw [hview]
    exact h.allocated.trans_le hextends.allocated
  · rw [hview]
    exact h.byteLength
  · unfold backingBytes
    rw [hview, hextends.lengths _ h.allocated]
    exact h.length
  · rw [hlease, hview]
    exact h.lease

theorem leases_takeBacking (p : BufferPool) (uninitialised : ℕ → UInt8) (bucketSize : ℕ) :
    (p.takeBacking uninitialised bucketSize).1.leases = p.leases := by
  unfold takeBacking
  cases ((p.available.get? bucketSize).getD []).getLast? <;> rfl

theorem viewed_takeBacking (p : BufferPool) (uninitialised : ℕ → UInt8) (bucketSize : ℕ) :
    (p.takeBacking uninitialised bucketSize).1.viewed = p.viewed := by
  unfold takeBacking
  cases ((p.available.get? bucketSize).getD []).getLast? <;> rfl

theorem leases_acquire_of_ne (hview : view ≠ p.viewed) (uninitialised : ℕ → UInt8) (size : ℕ) :
    (p.acquire limits uninitialised size).1.leases.get? view = p.leases.get? view := by
  unfold BufferPool.acquire BufferPool.lend
  dsimp only
  rw [leases_takeBacking, viewed_takeBacking]
  split_ifs with hpooled
  · rw [OrderedMap.get?_set, if_neg hview]
  · rfl

theorem lent_lend {backing : BackingId} (hallocated : backing < p.allocated)
    (hlength : (p.backings backing).length = limits.bucketSize size)
    (hfresh : p.leases.get? p.viewed = none) :
    (p.lend backing size (limits.bucketSize size ≤ limits.maxPooledBufferBytes)).1.Lent limits
      p.viewed size := by
  generalize hlend : p.lend backing size (limits.bucketSize size ≤ limits.maxPooledBufferBytes) =
    lent
  have hview : lent.1.views p.viewed = ⟨backing, size⟩ := by
    rw [← hlend]
    exact Function.update_self ..
  have hbackings : lent.1.backings = p.backings := hlend ▸ rfl
  refine ⟨?_, ?_, ?_, ?_, ?_⟩
  · rw [← hlend]
    exact Nat.lt_succ_self _
  · rw [hview, ← hlend]
    exact hallocated
  · rw [hview]
  · unfold backingBytes
    rw [hview, hbackings]
    exact hlength
  · rw [hview, ← hlend]
    unfold BufferPool.lend
    dsimp only
    split_ifs with hpooled hpooled' hpooled'
    · rw [OrderedMap.get?_set, if_pos rfl]
    · exact absurd (of_decide_eq_true hpooled) hpooled'
    · exact absurd (decide_eq_true hpooled') hpooled
    · exact hfresh

/-- Nothing is to return for a view that is not there yet. -/
theorem Sound.lease_viewed (h : p.Sound limits held) : p.leases.get? p.viewed = none := by
  cases hleased : p.leases.get? p.viewed with
  | none => rfl
  | some b => exact absurd (h.inside _ (h.leased _ b hleased).1).1 (lt_irrefl _)

theorem Sound.lent_acquire (h : p.Sound limits held) (uninitialised : ℕ → UInt8) (size : ℕ) :
    (p.acquire limits uninitialised size).1.Lent limits (p.acquire limits uninitialised size).2
      size := by
  obtain ⟨hsound, htakes⟩ := h.takeBacking uninitialised (limits.bucketSize size)
  exact lent_lend htakes.allocated htakes.length hsound.lease_viewed

/-- Writing what fits makes no difference to who has what. -/
theorem Lent.write (h : p.Lent limits view size) {source : List UInt8}
    (hsource : source.length ≤ size) : (p.write view source).Lent limits view size := by
  refine h.extends (extends_write ?_) rfl
  rw [h.length]
  exact hsource.trans (limits.le_bucketSize size)

theorem Sound.lent_copy (h : p.Sound limits held) (uninitialised : ℕ → UInt8)
    (source : List UInt8) :
    (p.copy limits uninitialised source).1.Lent limits (p.copy limits uninitialised source).2
      source.length :=
  (h.lent_acquire uninitialised source.length).write le_rfl

theorem Sound.allocationSize_copy (h : p.Sound limits held) (uninitialised : ℕ → UInt8)
    (source : List UInt8) :
    (p.copy limits uninitialised source).1.allocationSize (p.copy limits uninitialised source).2 =
      limits.allocatedBytes source.length :=
  (h.lent_copy uninitialised source).allocationSize

theorem release_of_not_held (h : p.Sound limits held) (hview : ¬ held view) :
    p.release limits view = p := by
  unfold BufferPool.release
  cases hleased : p.leases.get? view with
  | none => rfl
  | some b => exact absurd (h.leased view b hleased).1 hview

theorem leases_release_of_ne {v : ViewId} (hv : v ≠ view) :
    (p.release limits view).leases.get? v = p.leases.get? v := by
  unfold BufferPool.release
  cases p.leases.get? view with
  | none => rfl
  | some b =>
      dsimp only
      split_ifs with hfull
      all_goals
        show (p.leases.delete view).get? v = p.leases.get? v
        rw [OrderedMap.get?_delete, if_neg hv]

/-! ## Calls -/

inductive PoolCall where
  | acquire (size : ℕ) (uninitialised : ℕ → UInt8)
  | copy (source : List UInt8) (uninitialised : ℕ → UInt8)
  | release (view : ViewId)

/-- A call with no bytes to hand out throws. -/
def step (limits : PoolLimits) (p : BufferPool) : PoolCall → BufferPool
  | .acquire size uninitialised =>
      if size = 0 then p else (p.acquire limits uninitialised size).1
  | .copy source uninitialised =>
      if source.length = 0 then p else (p.copy limits uninitialised source).1
  | .release view => p.release limits view

def run (limits : PoolLimits) (p : BufferPool) (calls : List PoolCall) : BufferPool :=
  calls.foldl (step limits) p

theorem Sound.extends_copy (h : p.Sound limits held) (uninitialised : ℕ → UInt8)
    (source : List UInt8) : Extends p (p.copy limits uninitialised source).1 := by
  refine (extends_acquire limits p uninitialised source.length).trans
    (extends_write ?_)
  rw [(h.lent_acquire uninitialised source.length).length]
  exact limits.le_bucketSize source.length

/-- **One call.** The pool stays sound and grows, and a view stays as it was handed out unless
the call releases it. -/
theorem Sound.step (h : p.Sound limits held) (call : PoolCall) :
    (∃ held', (p.step limits call).Sound limits held') ∧ Extends p (p.step limits call) ∧
      ∀ view size, call ≠ .release view → p.Lent limits view size →
        (p.step limits call).Lent limits view size := by
  cases call with
  | acquire size' uninitialised =>
      unfold BufferPool.step
      dsimp only
      split_ifs with hempty
      · exact ⟨⟨held, h⟩, .refl p, fun _ _ _ hlent => hlent⟩
      · have hextends := extends_acquire limits p uninitialised size'
        refine ⟨⟨_, (h.acquire uninitialised size').2.1⟩, hextends, fun view size _ hlent => ?_⟩
        exact hlent.extends hextends (leases_acquire_of_ne hlent.viewed.ne uninitialised size')
  | copy source uninitialised =>
      unfold BufferPool.step
      dsimp only
      split_ifs with hempty
      · exact ⟨⟨held, h⟩, .refl p, fun _ _ _ hlent => hlent⟩
      · have hextends := h.extends_copy uninitialised source
        refine ⟨⟨_, (h.copy uninitialised source).2.2.1⟩, hextends, fun view size _ hlent => ?_⟩
        exact hlent.extends hextends
          (leases_acquire_of_ne hlent.viewed.ne uninitialised source.length)
  | release released =>
      refine ⟨?_, p.extends_release released, fun view size hne hlent => ?_⟩
      · by_cases hheld : held released
        · exact ⟨_, (h.release hheld).1⟩
        refine ⟨held, ?_⟩
        show (p.release limits released).Sound limits held
        rw [release_of_not_held h hheld]
        exact h
      · have hview : view ≠ released := fun heq => hne (heq ▸ rfl)
        exact hlent.extends (p.extends_release released) (leases_release_of_ne hview)

theorem Sound.run (calls : List PoolCall) : ∀ {p : BufferPool} {held : ViewId → Prop},
    p.Sound limits held →
    (∃ held', (p.run limits calls).Sound limits held') ∧ Extends p (p.run limits calls) ∧
      ∀ view size, .release view ∉ calls → p.Lent limits view size →
        (p.run limits calls).Lent limits view size := by
  induction calls with
  | nil =>
      intro p held h
      exact ⟨⟨held, h⟩, .refl p, fun _ _ _ hlent => hlent⟩
  | cons call calls ih =>
      intro p held h
      obtain ⟨⟨_, hsound⟩, hextends, hkeeps⟩ := h.step call
      obtain ⟨hsound', hextends', hkeeps'⟩ := ih hsound
      refine ⟨hsound', hextends.trans hextends', fun view size hcalls hlent => ?_⟩
      rw [List.mem_cons, not_or] at hcalls
      obtain ⟨hcall, hcalls⟩ := hcalls
      exact hkeeps' view size hcalls (hkeeps view size (Ne.symm hcall) hlent)

/-! ## Releasing into the bucket -/

/-- The limits permit that the buffer of a view is kept. -/
structure Permits (limits : PoolLimits) (p : BufferPool) (view : ViewId) : Prop where
  pooled : p.backingBytes view ≤ limits.maxPooledBufferBytes
  perBucket : ((p.available.get? (p.backingBytes view)).getD []).length <
    limits.maxRetainedPerBucket
  total : p.retainedBytes + p.backingBytes view ≤ limits.maxRetainedBytes

/-- A view that is released puts its buffer at the end of the bucket of its length. -/
theorem Lent.release_available (h : p.Lent limits view size) (hpermits : p.Permits limits view) :
    (p.release limits view).available.get? (limits.bucketSize size) =
      some ((p.available.get? (limits.bucketSize size)).getD [] ++ [(p.views view).backing]) := by
  obtain ⟨hpooled, hperBucket, htotal⟩ := hpermits
  rw [h.length] at hpooled hperBucket htotal
  have hlease : p.leases.get? view = some (p.views view).backing := by
    rw [h.lease, if_pos hpooled]
  have hlength : (p.backings (p.views view).backing).length = limits.bucketSize size := h.length
  unfold BufferPool.release
  rw [hlease]
  dsimp only
  rw [hlength, if_neg]
  · dsimp only
    rw [OrderedMap.get?_set, if_pos rfl]
  · rw [not_or, Nat.not_le, not_lt]
    exact ⟨hperBucket, htotal⟩

theorem acquire_view (p : BufferPool) (uninitialised : ℕ → UInt8) (size : ℕ) :
    (p.acquire limits uninitialised size).1.views (p.acquire limits uninitialised size).2 =
      ⟨(p.takeBacking uninitialised (limits.bucketSize size)).2, size⟩ :=
  Function.update_self ..

/-- The view an acquire hands out is in the last buffer of the bucket of its length. -/
theorem acquire_backing {retained : List BackingId} {backing : BackingId}
    (h : p.available.get? (limits.bucketSize size) = some (retained ++ [backing]))
    (uninitialised : ℕ → UInt8) :
    ((p.acquire limits uninitialised size).1.views
      (p.acquire limits uninitialised size).2).backing = backing := by
  have htaken : (p.takeBacking uninitialised (limits.bucketSize size)).2 = backing := by
    unfold takeBacking
    rw [h, Option.getD_some, List.getLast?_concat]
  rw [acquire_view]
  exact htaken

/-- A free buffer is in the bucket of its length, and in no other. -/
theorem Sound.bucket_of_free (h : p.Sound limits held) {backing : BackingId}
    (hfree : p.Free backing) :
    ∃ retained, p.available.get? (p.backings backing).length = some retained ∧
      backing ∈ retained := by
  obtain ⟨size, retained, hget, hmem⟩ := hfree
  obtain ⟨-, hlength⟩ := h.sized size retained hget backing hmem
  rw [hlength]
  exact ⟨retained, hget, hmem⟩

/-! ## The prediction -/

/-- A view is handed out for so many bytes, by `acquire` or as a copy. -/
def HandsOut (limits : PoolLimits) (p : BufferPool) (size : ℕ) (q : BufferPool) (view : ViewId) :
    Prop :=
  (∃ uninitialised, p.acquire limits uninitialised size = (q, view)) ∨
    ∃ uninitialised source, source.length = size ∧ p.copy limits uninitialised source = (q, view)

theorem HandsOut.lent (h : HandsOut limits p size q view) (hsound : p.Sound limits held) :
    (∃ held', q.Sound limits held') ∧ q.Lent limits view size := by
  rcases h with ⟨uninitialised, hacquire⟩ | ⟨uninitialised, source, rfl, hcopy⟩
  · have hlent := hsound.lent_acquire uninitialised size
    have hsound' := (hsound.acquire uninitialised size).2.1
    rw [hacquire] at hlent hsound'
    exact ⟨⟨_, hsound'⟩, hlent⟩
  · have hlent := hsound.lent_copy uninitialised source
    have hsound' := (hsound.copy uninitialised source).2.2.1
    rw [hcopy] at hlent hsound'
    exact ⟨⟨_, hsound'⟩, hlent⟩

/-- What is released goes back where a request for as many bytes looks for it. -/
structure Refiles (limits : PoolLimits) (p : BufferPool) (view : ViewId) (size : ℕ) : Prop where
  /-- The next request takes it. -/
  next : ∀ uninitialised, (((p.release limits view).acquire limits uninitialised size).1.views
    ((p.release limits view).acquire limits uninitialised size).2).backing =
      (p.views view).backing
  /-- As long as nobody has taken it, it is in the list that requests take the last buffer of. -/
  later : ∀ calls, ((p.release limits view).run limits calls).Free (p.views view).backing →
    ∃ retained last, ((p.release limits view).run limits calls).available.get?
        (limits.bucketSize size) = some (retained ++ [last]) ∧
      (p.views view).backing ∈ retained ++ [last] ∧
      ∀ uninitialised, ((((p.release limits view).run limits calls).acquire limits
        uninitialised size).1.views (((p.release limits view).run limits calls).acquire limits
          uninitialised size).2).backing = last

theorem Lent.refiles (h : p.Lent limits view size) (hsound : p.Sound limits held)
    (hpermits : p.Permits limits view) : p.Refiles limits view size := by
  refine ⟨acquire_backing (h.release_available hpermits), fun calls hfree => ?_⟩
  obtain ⟨⟨_, hreleased⟩, hextends, -⟩ := hsound.step (.release view)
  obtain ⟨⟨_, hlater⟩, hextends', -⟩ := hreleased.run calls
  obtain ⟨retained, hget, hmem⟩ := hlater.bucket_of_free hfree
  -- It was cleared and may have been lent again meanwhile, but its length is what it was.
  rw [(hextends.trans hextends').lengths _ h.allocated] at hget
  have hlength : (p.backings (p.views view).backing).length = limits.bucketSize size := h.length
  rw [hlength] at hget
  have hsplit := List.dropLast_append_getLast (List.ne_nil_of_mem hmem)
  rw [← hsplit] at hget hmem
  exact ⟨_, _, hget, hmem, acquire_backing hget⟩

/-- What the pool says of a view until it is released, and where it puts its buffer then. -/
structure Accounted (limits : PoolLimits) (p : BufferPool) (view : ViewId) (size : ℕ) : Prop where
  allocation : p.allocationSize view = p.backingBytes view
  refiles : p.Permits limits view → p.Refiles limits view size

/-- **The pool predicts its allocation**, at any time and until the view is released, for exactly
the lengths that are not pooled and those whose size class is. -/
theorem allocation_predicted_iff (limits : PoolLimits) (before : List PoolCall) (size : ℕ+) :
    (∀ p view after, HandsOut limits (new.run limits before) size p view →
      .release view ∉ after → (p.run limits after).Accounted limits view size) ↔
    limits.Predictable size := by
  have hnew : Sound limits new fun _ => False := sound_new
  obtain ⟨⟨held, hsound⟩, -, -⟩ := hnew.run before
  rw [← PoolLimits.allocatedBytes_eq_iff]
  constructor
  · intro h
    -- One acquire with nothing after it tells.
    have hlent := hsound.lent_acquire (fun _ => 0) size
    have haccounted := h _ _ [] (Or.inl ⟨fun _ => 0, rfl⟩) List.not_mem_nil
    rw [← hlent.allocationSize, ← hlent.length]
    exact haccounted.allocation
  · intro hpredictable p view after hhands hafter
    obtain ⟨⟨_, hsound'⟩, hlent⟩ := hhands.lent hsound
    obtain ⟨⟨_, hlater⟩, -, hkeeps⟩ := hsound'.run after
    have hlent' := hkeeps view size hafter hlent
    refine ⟨?_, hlent'.refiles hlater⟩
    rw [hlent'.allocationSize, hlent'.length, hpredictable]

/-- With buffers of up to six bytes pooled, five bytes are in a buffer of eight that the pool takes
for one of five. -/
theorem allocation_not_predicted :
    ¬ (∀ p view after, HandsOut ⟨6, 8, 64⟩ (new.run ⟨6, 8, 64⟩ []) 5 p view →
      .release view ∉ after → (p.run ⟨6, 8, 64⟩ after).Accounted ⟨6, 8, 64⟩ view 5) := by
  intro h
  have haccounted := h _ _ [] (Or.inl ⟨fun _ => 0, rfl⟩) List.not_mem_nil
  exact absurd haccounted.allocation (by decide)

end BufferPool

end OpenStreamGrid

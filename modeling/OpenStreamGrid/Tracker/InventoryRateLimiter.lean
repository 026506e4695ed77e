import OpenStreamGrid.Common.Types
import OpenStreamGrid.Lib.OrderedMap
import OpenStreamGrid.Lib.TokenBucket
import OpenStreamGrid.Lib.TransitionSystem
import Mathlib.Algebra.BigOperators.Group.List.Basic
import Mathlib.Algebra.Order.Field.Rat
import Mathlib.Data.Rat.Floor

/-!
# The inventory rate limiter

A bucket of segment-ID characters for each peer, refilled by what the wall clock
says has passed. Every so many charges the buckets that have been idle for a fixed
time are forgotten: they are full again where a bucket fills in that time and the
clock does not step backwards.
-/

namespace OpenStreamGrid

def INVENTORY_CHARACTERS_PER_SECOND : ℕ := 16 * 1024
def INVENTORY_BURST_CHARACTERS : ℕ := 256 * 1024

/-- Buckets idle this long are full again and can be forgotten. -/
def IDLE_BUCKET_MS : ℤ :=
  ⌈(INVENTORY_BURST_CHARACTERS : ℚ) / INVENTORY_CHARACTERS_PER_SECOND * 1000⌉

def SWEEP_EVERY_CONSUMES : ℕ := 1024

structure InventoryBucket where
  characters : ℚ
  updatedAt : ℚ
deriving DecidableEq

/-- A limiter's configuration. -/
structure InventoryRates where
  charactersPerSecond : ℚ
  burstCharacters : ℚ
  charactersPerSecond_pos : 0 < charactersPerSecond
  burstCharacters_pos : 0 < burstCharacters

/-- Token bucket of reported segment-ID characters per broadcast peer. -/
structure InventoryRateLimiter where
  rates : InventoryRates
  buckets : OrderedMap String InventoryBucket
  consumesSinceSweep : ℕ

/-- The IDs of a report, with the clock reading of its charge. -/
structure InventoryCharge where
  broadcastId : BroadcastId
  peerId : PeerId
  segmentLists : List (List SegmentId)
  now : ℚ

namespace InventoryRateLimiter

def new (rates : InventoryRates) : InventoryRateLimiter := ⟨rates, ∅, 0⟩

def sweep (l : InventoryRateLimiter) (now : ℚ) : InventoryRateLimiter :=
  if l.consumesSinceSweep + 1 < SWEEP_EVERY_CONSUMES then
    { l with consumesSinceSweep := l.consumesSinceSweep + 1 }
  else
    { l with
      consumesSinceSweep := 0
      buckets := l.buckets.entries.foldl
        (fun kept entry =>
          if now - entry.2.updatedAt ≥ IDLE_BUCKET_MS then kept.delete entry.1 else kept)
        l.buckets }

def charactersOf (segmentLists : List (List SegmentId)) : ℕ :=
  (segmentLists.map fun segments => (segments.map utf16Length).sum).sum

def key (broadcastId : BroadcastId) (peerId : PeerId) : String :=
  broadcastId ++ "\n" ++ peerId

/-- Charges the IDs in the segment lists; false (charging nothing) when over the limit. -/
def consume (l : InventoryRateLimiter) (charge : InventoryCharge) :
    InventoryRateLimiter × Bool :=
  let characters := charactersOf charge.segmentLists
  let now := charge.now
  let l := l.sweep now
  let key := key charge.broadcastId charge.peerId
  let bucket := (l.buckets.get? key).getD ⟨l.rates.burstCharacters, now⟩
  -- A clock that has stepped back takes characters out.
  let refilled := min l.rates.burstCharacters
    (bucket.characters + (now - bucket.updatedAt) / 1000 * l.rates.charactersPerSecond)
  if characters > refilled then
    ({ l with buckets := l.buckets.set key ⟨refilled, now⟩ }, false)
  else
    ({ l with buckets := l.buckets.set key ⟨refilled - characters, now⟩ }, true)

def answers (l : InventoryRateLimiter) : List InventoryCharge → List Bool
  | [] => []
  | charge :: charges => (l.consume charge).2 :: answers (l.consume charge).1 charges

/-- The limiter after some charges. -/
def after (rates : InventoryRates) (charges : List InventoryCharge) : InventoryRateLimiter :=
  charges.foldl (fun l charge => (l.consume charge).1) (new rates)

end InventoryRateLimiter

/-! ## The buckets that are kept -/

/-- A bucket's law, in milliseconds. -/
def InventoryRates.law (rates : InventoryRates) : BucketLaw ℚ where
  capacity := rates.burstCharacters
  rate := rates.charactersPerSecond / 1000
  capacity_nonneg := rates.burstCharacters_pos.le
  rate_pos := div_pos rates.charactersPerSecond_pos (by norm_num)

def InventoryBucket.rated (bucket : InventoryBucket) : RateBucket ℚ :=
  ⟨bucket.characters, bucket.updatedAt⟩

namespace InventoryCharge

def key (charge : InventoryCharge) : String :=
  InventoryRateLimiter.key charge.broadcastId charge.peerId

def amount (charge : InventoryCharge) : ℚ := InventoryRateLimiter.charactersOf charge.segmentLists

def byKey (charge : InventoryCharge) : Charge String ℚ := ⟨charge.key, charge.amount, charge.now⟩

def byPeer (charge : InventoryCharge) : Charge (BroadcastId × PeerId) ℚ :=
  ⟨(charge.broadcastId, charge.peerId), charge.amount, charge.now⟩

theorem amount_nonneg (charge : InventoryCharge) : 0 ≤ charge.amount := Nat.cast_nonneg _

end InventoryCharge

namespace InventoryRateLimiter

variable {l : InventoryRateLimiter} {now : ℚ} {k : String} {c : InventoryCharge}

/-- The stored buckets. -/
def stored (l : InventoryRateLimiter) (k : String) : Option (RateBucket ℚ) :=
  (l.buckets.get? k).map InventoryBucket.rated

@[simp] theorem rates_sweep (l : InventoryRateLimiter) (now : ℚ) :
    (l.sweep now).rates = l.rates := by
  unfold sweep
  split_ifs <;> rfl

theorem stored_new (rates : InventoryRates) : (new rates).stored = fun _ => none := rfl

/-- The sweep forgets buckets, and only idle ones. -/
theorem get?_sweep (l : InventoryRateLimiter) (now : ℚ) (k : String) :
    (l.sweep now).buckets.get? k = l.buckets.get? k ∨
    (l.sweep now).buckets.get? k =
      (l.buckets.get? k).filter fun b => decide (¬ now - b.updatedAt ≥ IDLE_BUCKET_MS) := by
  unfold sweep
  split_ifs
  · exact Or.inl rfl
  · exact Or.inr (OrderedMap.get?_foldl_deleteIf l.buckets
      (fun entry => now - entry.2.updatedAt ≥ IDLE_BUCKET_MS) k)

theorem stored_of_sweep {b : RateBucket ℚ} (h : (l.sweep now).stored k = some b) :
    l.stored k = some b := by
  unfold stored at h ⊢
  rcases get?_sweep l now k with hsame | hfiltered
  · rwa [hsame] at h
  · obtain ⟨bucket, hbucket, hrated⟩ := Option.map_eq_some_iff.mp h
    rw [hfiltered, Option.filter_eq_some_iff] at hbucket
    rw [hbucket.1, Option.map_some, hrated]

theorem consumesSinceSweep_sweep (l : InventoryRateLimiter) (now : ℚ) :
    (l.sweep now).consumesSinceSweep =
      if l.consumesSinceSweep + 1 < SWEEP_EVERY_CONSUMES then l.consumesSinceSweep + 1 else 0 := by
  unfold sweep
  split_ifs <;> rfl

theorem swept_of_forgotten {b : RateBucket ℚ} (h : l.stored k = some b)
    (hforgotten : (l.sweep now).stored k = none) :
    SWEEP_EVERY_CONSUMES ≤ l.consumesSinceSweep + 1 := by
  by_contra hfew
  have hsame : l.sweep now = { l with consumesSinceSweep := l.consumesSinceSweep + 1 } :=
    if_pos (not_le.mp hfew)
  rw [hsame] at hforgotten
  exact absurd (hforgotten.symm.trans h) (by simp)

theorem idle_of_forgotten {b : RateBucket ℚ} (h : l.stored k = some b)
    (hforgotten : (l.sweep now).stored k = none) : IDLE_BUCKET_MS ≤ now - b.updatedAt := by
  obtain ⟨bucket, hbucket, rfl⟩ := Option.map_eq_some_iff.mp h
  have hnone := Option.map_eq_none_iff.mp hforgotten
  rcases get?_sweep l now k with hsame | hfiltered
  · rw [hsame, hbucket] at hnone
    exact absurd hnone (by simp)
  · by_contra hrecent
    change ¬ _ ≤ now - bucket.updatedAt at hrecent
    rw [hfiltered, hbucket, Option.filter_some_pos (by simpa using hrecent)] at hnone
    exact absurd hnone (by simp)

/-- What the charged bucket is refilled to. -/
theorem refilled_eq (l : InventoryRateLimiter) (now : ℚ) (found : Option InventoryBucket) :
    min l.rates.burstCharacters
      ((found.getD ⟨l.rates.burstCharacters, now⟩).characters
        + (now - (found.getD ⟨l.rates.burstCharacters, now⟩).updatedAt) / 1000
          * l.rates.charactersPerSecond)
      = l.rates.law.remaining now (found.map InventoryBucket.rated) := by
  cases found with
  | none =>
      show min l.rates.burstCharacters (l.rates.burstCharacters + (now - now) / 1000 * _) = _
      rw [sub_self, zero_div, zero_mul, add_zero, min_self]
      rfl
  | some b =>
      have hgain : (now - b.updatedAt) / 1000 * l.rates.charactersPerSecond
          = l.rates.charactersPerSecond / 1000 * (now - b.updatedAt) := by ring
      exact congrArg (fun gain => min l.rates.burstCharacters (b.characters + gain)) hgain

/-- What the sweep leaves of the charged bucket. -/
def found (l : InventoryRateLimiter) (c : InventoryCharge) : Option (RateBucket ℚ) :=
  (l.sweep c.now).stored c.key

def withBucket (l : InventoryRateLimiter) (k : String) (b : RateBucket ℚ) :
    InventoryRateLimiter :=
  { l with buckets := l.buckets.set k ⟨b.level, b.updatedAt⟩ }

theorem consume_eq (l : InventoryRateLimiter) (c : InventoryCharge) :
    l.consume c = ((l.sweep c.now).withBucket c.key
        (l.rates.law.charge c.now c.amount (l.found c)).1,
      (l.rates.law.charge c.now c.amount (l.found c)).2) := by
  have hrefilled := refilled_eq (l.sweep c.now) c.now ((l.sweep c.now).buckets.get? c.key)
  rw [rates_sweep] at hrefilled
  have hremaining : l.rates.law.remaining c.now (l.found c) = _ := hrefilled.symm
  unfold consume withBucket
  dsimp only
  rw [rates_sweep]
  rcases le_or_gt c.amount (l.rates.law.remaining c.now (l.found c)) with hle | hlt
  · rw [BucketLaw.charge_of_le hle]
    rw [hremaining] at hle ⊢
    exact if_neg (not_lt.mpr hle)
  · rw [BucketLaw.charge_of_lt hlt]
    rw [hremaining] at hlt ⊢
    exact if_pos hlt

@[simp] theorem rates_consume (l : InventoryRateLimiter) (c : InventoryCharge) :
    (l.consume c).1.rates = l.rates := by
  rw [consume_eq]
  exact rates_sweep l c.now

/-- A charge, on what the sweep has left. -/
theorem stored_consume (l : InventoryRateLimiter) (c : InventoryCharge) :
    (l.consume c).1.stored = l.rates.law.chargeKey (l.sweep c.now).stored c.byKey := by
  rw [consume_eq]
  funext k
  by_cases hk : k = c.key
  · subst hk
    show _ = l.rates.law.chargeKey (l.sweep c.now).stored c.byKey c.byKey.key
    rw [BucketLaw.chargeKey_self]
    exact congrArg (Option.map InventoryBucket.rated) ((OrderedMap.get?_set ..).trans (if_pos rfl))
  · refine Eq.trans ?_ (BucketLaw.chargeKey_of_ne hk).symm
    exact congrArg (Option.map InventoryBucket.rated) ((OrderedMap.get?_set ..).trans (if_neg hk))

/-- A refused charge takes nothing: it leaves what a charge of no IDs leaves. -/
theorem consume_refused (h : (l.consume c).2 = false) :
    (l.consume c).1 = (l.consume { c with segmentLists := [] }).1 := by
  let nothing : InventoryCharge := { c with segmentLists := [] }
  have hzero : nothing.amount = 0 := Nat.cast_zero
  rw [consume_eq] at h
  have hlt : l.rates.law.remaining c.now (l.found c) < c.amount := by
    by_contra hle
    rw [BucketLaw.charge_of_le (not_lt.mp hle)] at h
    exact absurd h (by simp)
  have hcharge : (l.rates.law.charge c.now c.amount (l.found c)).1
      = (l.rates.law.charge c.now nothing.amount (l.found c)).1 := by
    rw [BucketLaw.charge_of_lt hlt, hzero]
    rcases le_or_gt 0 (l.rates.law.remaining c.now (l.found c)) with hnonneg | hneg
    · rw [BucketLaw.charge_of_le hnonneg, sub_zero]
    · rw [BucketLaw.charge_of_lt hneg]
  show (l.consume c).1 = (l.consume nothing).1
  rw [consume_eq l c, consume_eq l nothing]
  exact congrArg ((l.sweep c.now).withBucket c.key) hcharge

end InventoryRateLimiter

/-! ## What the clock readings tell -/

/-- The readings of the clock so far: how many charges there were, when each bucket was
charged last, and whether a sweep has found it idle since. -/
structure ChargeReadings where
  charges : ℕ
  last : String → Option ℚ
  idled : String → Bool

namespace ChargeReadings

def start : ChargeReadings := ⟨0, fun _ => none, fun _ => false⟩

/-- A bucket is found idle by a charge that sweeps, or was before. -/
def foundIdle (r : ChargeReadings) (now : ℚ) (k : String) : Bool :=
  r.idled k || (decide ((r.charges + 1) % SWEEP_EVERY_CONSUMES = 0) &&
    (r.last k).any fun since => decide (IDLE_BUCKET_MS ≤ now - since))

def next (r : ChargeReadings) (c : InventoryCharge) : ChargeReadings where
  charges := r.charges + 1
  last := Function.update r.last c.key (some c.now)
  idled := Function.update (r.foundIdle c.now) c.key false

/-- The clock reads no earlier than at the last charge of the bucket, and a bucket that
was found idle since has had the time to fill. -/
def Timely (rates : InventoryRates) (r : ChargeReadings) (c : InventoryCharge) : Prop :=
  ∀ since, r.last c.key = some since → since ≤ c.now ∧
    (r.foundIdle c.now c.key = true →
      rates.burstCharacters ≤ (c.now - since) / 1000 * rates.charactersPerSecond)

/-- Readings up to some time, which do not step backwards. -/
structure Sorted (latest : ℚ) (r : ChargeReadings) : Prop where
  past : ∀ {k since}, r.last k = some since → since ≤ latest
  idle : ∀ {k since}, r.last k = some since → r.idled k = true →
    (IDLE_BUCKET_MS : ℚ) ≤ latest - since

namespace Sorted

variable {rates : InventoryRates} {r : ChargeReadings} {c : InventoryCharge} {latest : ℚ}

theorem start (latest : ℚ) : Sorted latest start where
  past h := by cases h
  idle h := by cases h

theorem foundIdle (h : Sorted latest r) {now : ℚ} (hnow : latest ≤ now) {k : String} {since : ℚ}
    (hlast : r.last k = some since) (hidle : r.foundIdle now k = true) :
    (IDLE_BUCKET_MS : ℚ) ≤ now - since := by
  rcases Bool.or_eq_true_iff.mp hidle with hbefore | hswept
  · have hsince := h.idle hlast hbefore
    linarith
  · rw [hlast] at hswept
    exact of_decide_eq_true (Bool.and_eq_true_iff.mp hswept).2

theorem timely (h : Sorted latest r) (hnow : latest ≤ c.now)
    (hfills : rates.burstCharacters ≤ IDLE_BUCKET_MS / 1000 * rates.charactersPerSecond) :
    Timely rates r c := by
  refine fun since hlast => ⟨(h.past hlast).trans hnow, fun hidle => hfills.trans ?_⟩
  have hpos := rates.charactersPerSecond_pos
  have hidled := h.foundIdle hnow hlast hidle
  gcongr

theorem next (h : Sorted latest r) (hnow : latest ≤ c.now) : Sorted c.now (r.next c) where
  past {k since} hlast := by
    change Function.update r.last c.key (some c.now) k = some since at hlast
    rw [Function.update_apply] at hlast
    split_ifs at hlast with hk
    · exact (Option.some.inj hlast).ge
    · exact (h.past hlast).trans hnow
  idle {k since} hlast hidle := by
    change Function.update r.last c.key (some c.now) k = some since at hlast
    change Function.update (r.foundIdle c.now) c.key false k = true at hidle
    rw [Function.update_apply] at hlast hidle
    split_ifs at hlast hidle with hk
    exact h.foundIdle hnow hlast hidle

end Sorted

end ChargeReadings

/-! ## Runs beside a limiter that keeps every bucket -/

/-- A limiter, the buckets as they would be had none been forgotten, and the readings
of the clock. -/
structure InventoryRun where
  limiter : InventoryRateLimiter
  unswept : String → Option (RateBucket ℚ)
  readings : ChargeReadings

namespace InventoryRun

open InventoryRateLimiter

def start (rates : InventoryRates) : InventoryRun := ⟨.new rates, fun _ => none, .start⟩

def next (rates : InventoryRates) (s : InventoryRun) (c : InventoryCharge) : InventoryRun :=
  ⟨(s.limiter.consume c).1, rates.law.chargeKey s.unswept c.byKey, s.readings.next c⟩

def system (rates : InventoryRates) : TransitionSystem InventoryRun InventoryCharge where
  init s := s = start rates
  step s c := some (next rates s c)

/-- The readings before a charge, and its own, are timely. -/
def Timely (rates : InventoryRates) (s : InventoryRun) (c : InventoryCharge) : Prop :=
  s.readings.Timely rates c

/-- Every bucket the limiter has is the one that would have been kept, and the others
were found idle. -/
structure Follows (rates : InventoryRates) (s : InventoryRun) : Prop where
  rates_eq : s.limiter.rates = rates
  counted : s.limiter.consumesSinceSweep = s.readings.charges % SWEEP_EVERY_CONSUMES
  kept : ∀ {k b}, s.limiter.stored k = some b → s.unswept k = some b
  idled : ∀ {k b}, s.unswept k = some b → s.limiter.stored k = none → s.readings.idled k = true
  read : ∀ k, s.readings.last k = (s.unswept k).map RateBucket.updatedAt
  bounded : ∀ {k b}, s.unswept k = some b → 0 ≤ b.level ∧ b.level ≤ rates.burstCharacters

variable {rates : InventoryRates} {s : InventoryRun} {c : InventoryCharge}

/-- A gain in the limiter's units. -/
theorem gain_eq (rates : InventoryRates) (since now : ℚ) :
    rates.law.rate * (now - since) = (now - since) / 1000 * rates.charactersPerSecond := by
  show rates.charactersPerSecond / 1000 * (now - since) = _
  ring

theorem remaining_some (rates : InventoryRates) (now : ℚ) (b : RateBucket ℚ) :
    rates.law.remaining now (some b) = min rates.burstCharacters
      (b.level + (now - b.updatedAt) / 1000 * rates.charactersPerSecond) :=
  congrArg (fun gain => min rates.burstCharacters (b.level + gain)) (gain_eq rates b.updatedAt now)

theorem Follows.start (rates : InventoryRates) : Follows rates (start rates) where
  rates_eq := rfl
  counted := rfl
  kept h := absurd h (by simp [InventoryRun.start, stored_new])
  idled h := absurd h (by simp [InventoryRun.start])
  read _ := rfl
  bounded h := absurd h (by simp [InventoryRun.start])

namespace Follows

/-- What a sweep has left of a bucket, or found idle. -/
theorem foundIdle (h : Follows rates s) {now : ℚ} {k : String} {b : RateBucket ℚ}
    (hb : s.unswept k = some b) (hforgotten : (s.limiter.sweep now).stored k = none) :
    s.readings.foundIdle now k = true := by
  refine Bool.or_eq_true_iff.mpr ?_
  cases hstored : s.limiter.stored k with
  | none => exact Or.inl (h.idled hb hstored)
  | some kept =>
      obtain rfl := Option.some.inj (hb.symm.trans (h.kept hstored))
      have hswept := swept_of_forgotten hstored hforgotten
      rw [h.counted] at hswept
      have hlt := Nat.mod_lt s.readings.charges (show SWEEP_EVERY_CONSUMES > 0 by decide)
      have hcount : (s.readings.charges + 1) % SWEEP_EVERY_CONSUMES = 0 := by
        unfold SWEEP_EVERY_CONSUMES at hswept hlt ⊢
        omega
      refine Or.inr (Bool.and_eq_true_iff.mpr ⟨decide_eq_true hcount, ?_⟩)
      rw [h.read, hb]
      exact decide_eq_true (idle_of_forgotten hstored hforgotten)

/-- A timely charge finds its bucket refilled, and full if it was forgotten. -/
theorem refilled (h : Follows rates s) (hok : Timely rates s c) {b : RateBucket ℚ}
    (hb : s.unswept c.key = some b) :
    0 ≤ b.level + (c.now - b.updatedAt) / 1000 * rates.charactersPerSecond ∧
    (s.limiter.found c = none →
      rates.burstCharacters ≤ b.level + (c.now - b.updatedAt) / 1000 * rates.charactersPerSecond) := by
  have hlast : s.readings.last c.key = some b.updatedAt := by rw [h.read, hb, Option.map_some]
  obtain ⟨hpast, hfull⟩ := hok b.updatedAt hlast
  have hlevel := (h.bounded hb).1
  constructor
  · have hgain := rates.law.gain_nonneg hpast
    rw [gain_eq] at hgain
    exact add_nonneg hlevel hgain
  · intro hforgotten
    exact (hfull (h.foundIdle hb hforgotten)).trans (le_add_of_nonneg_left hlevel)

/-- The charged bucket has as much left as the one that would have been kept. -/
theorem remaining_eq (h : Follows rates s) (hok : Timely rates s c) :
    rates.law.remaining c.now (s.limiter.found c) = rates.law.remaining c.now (s.unswept c.key) := by
  cases hfound : s.limiter.found c with
  | some b => rw [h.kept (stored_of_sweep hfound)]
  | none =>
      cases hunswept : s.unswept c.key with
      | none => rfl
      | some b =>
          -- forgotten, but full again
          rw [remaining_some, min_eq_left ((h.refilled hok hunswept).2 hfound)]
          rfl

theorem remaining_nonneg (h : Follows rates s) (hok : Timely rates s c) :
    0 ≤ rates.law.remaining c.now (s.unswept c.key) := by
  cases hunswept : s.unswept c.key with
  | none => exact rates.burstCharacters_pos.le
  | some b =>
      rw [remaining_some]
      exact le_min rates.burstCharacters_pos.le (h.refilled hok hunswept).1

/-- A charge answers as it would had no bucket been forgotten. -/
theorem answer (h : Follows rates s) (hok : Timely rates s c) :
    (s.limiter.consume c).2 = rates.law.answer s.unswept c.byKey := by
  rw [consume_eq, h.rates_eq, BucketLaw.charge_congr (h.remaining_eq hok)]
  rfl

theorem next (h : Follows rates s) (hok : Timely rates s c) : Follows rates (s.next rates c) where
  rates_eq := (rates_consume s.limiter c).trans h.rates_eq
  counted := by
    show (s.limiter.consume c).1.consumesSinceSweep = (s.readings.charges + 1) % _
    have hsweep : (s.limiter.consume c).1.consumesSinceSweep
        = (s.limiter.sweep c.now).consumesSinceSweep := by rw [consume_eq]; rfl
    rw [hsweep, consumesSinceSweep_sweep, h.counted]
    unfold SWEEP_EVERY_CONSUMES
    split_ifs <;> omega
  kept := by
    intro k b hb
    change (s.limiter.consume c).1.stored k = some b at hb
    rw [stored_consume, h.rates_eq] at hb
    show rates.law.chargeKey s.unswept c.byKey k = some b
    by_cases hk : k = c.byKey.key
    · subst hk
      rw [BucketLaw.chargeKey_self] at hb ⊢
      have hcharge : rates.law.charge c.now c.amount (s.limiter.found c)
          = rates.law.charge c.now c.amount (s.unswept c.key) :=
        BucketLaw.charge_congr (h.remaining_eq hok)
      exact (congrArg (fun charged => some charged.1) hcharge).symm.trans hb
    · rw [BucketLaw.chargeKey_of_ne hk] at hb ⊢
      exact h.kept (stored_of_sweep hb)
  idled := by
    intro k b hb hforgotten
    change rates.law.chargeKey s.unswept c.byKey k = some b at hb
    change (s.limiter.consume c).1.stored k = none at hforgotten
    rw [stored_consume, h.rates_eq] at hforgotten
    show Function.update (s.readings.foundIdle c.now) c.key false k = true
    by_cases hk : k = c.byKey.key
    · subst hk
      rw [BucketLaw.chargeKey_self] at hforgotten
      cases hforgotten
    · rw [BucketLaw.chargeKey_of_ne hk] at hb hforgotten
      exact (Function.update_of_ne hk _ _).trans (h.foundIdle hb hforgotten)
  read := by
    intro k
    show Function.update s.readings.last c.key (some c.now) k
      = (rates.law.chargeKey s.unswept c.byKey k).map RateBucket.updatedAt
    by_cases hk : k = c.byKey.key
    · subst hk
      rw [BucketLaw.chargeKey_self, Option.map_some, BucketLaw.updatedAt_charge]
      exact Function.update_self _ _ _
    · rw [BucketLaw.chargeKey_of_ne hk]
      exact (Function.update_of_ne hk _ _).trans (h.read k)
  bounded := by
    intro k b hb
    change rates.law.chargeKey s.unswept c.byKey k = some b at hb
    by_cases hk : k = c.byKey.key
    · subst hk
      rw [BucketLaw.chargeKey_self] at hb
      obtain rfl := Option.some.inj hb
      exact ⟨BucketLaw.level_charge_nonneg (h.remaining_nonneg hok),
        BucketLaw.level_charge_le c.amount_nonneg⟩
    · rw [BucketLaw.chargeKey_of_ne hk] at hb
      exact h.bounded hb

end Follows

/-- The run after some charges. -/
def after (rates : InventoryRates) (charges : List InventoryCharge) : InventoryRun :=
  charges.foldl (next rates) (start rates)

theorem run_eq (rates : InventoryRates) (s : InventoryRun) (charges : List InventoryCharge) :
    (system rates).run s charges = some (charges.foldl (next rates) s) :=
  (system rates).run_eq_foldl (fun _ _ => rfl) charges s

theorem limiter_foldl (charges : List InventoryCharge) (s : InventoryRun) :
    (charges.foldl (next rates) s).limiter
      = charges.foldl (fun l charge => (l.consume charge).1) s.limiter := by
  induction charges generalizing s with
  | nil => rfl
  | cons c charges ih => exact ih _

theorem Follows.foldl {charges : List InventoryCharge} : ∀ {s : InventoryRun}, Follows rates s →
    (system rates).RunOk (Timely rates) s charges →
    Follows rates (charges.foldl (InventoryRun.next rates) s) ∧
      answers s.limiter charges
        = rates.law.answers s.unswept (charges.map InventoryCharge.byKey) := by
  induction charges with
  | nil => exact fun h _ => ⟨h, rfl⟩
  | cons c charges ih =>
      rintro s h ⟨hok, hrest⟩
      obtain ⟨hfollows, hanswers⟩ := ih (h.next hok) (hrest _ rfl)
      refine ⟨hfollows, ?_⟩
      show (s.limiter.consume c).2 :: _ = rates.law.answer s.unswept c.byKey :: _
      rw [h.answer hok]
      exact congrArg _ hanswers

/-! ## A clock that does not step backwards -/

theorem runOk_of_latest {charges : List InventoryCharge}
    (hfills : rates.burstCharacters ≤ IDLE_BUCKET_MS / 1000 * rates.charactersPerSecond) :
    ∀ {latest : ℚ} {s : InventoryRun}, s.readings.Sorted latest → (∀ c ∈ charges, latest ≤ c.now) →
      charges.Pairwise (fun c c' => c.now ≤ c'.now) →
      (system rates).RunOk (Timely rates) s charges := by
  induction charges with
  | nil => exact fun _ _ _ => trivial
  | cons c charges ih =>
      intro latest s h hlater hsorted
      obtain ⟨hfirst, hrest⟩ := List.pairwise_cons.mp hsorted
      have hnow := hlater c List.mem_cons_self
      refine ⟨h.timely hnow hfills, fun s' hstep => ?_⟩
      obtain rfl := Option.some.inj hstep
      exact ih (h.next hnow) hfirst hrest

/-- With a clock that does not step backwards and a bucket that fills in the idle
time, every charge is timely. -/
theorem runOk_of_sorted {charges : List InventoryCharge}
    (hfills : rates.burstCharacters ≤ IDLE_BUCKET_MS / 1000 * rates.charactersPerSecond)
    (hsorted : charges.Pairwise fun c c' => c.now ≤ c'.now) :
    (system rates).RunOk (Timely rates) (InventoryRun.start rates) charges := by
  cases charges with
  | nil => trivial
  | cons c charges =>
      refine runOk_of_latest hfills (.start c.now) (fun c' hc' => ?_) hsorted
      rcases List.mem_cons.mp hc' with rfl | hmem
      · exact le_rfl
      · exact (List.pairwise_cons.mp hsorted).1 c' hmem

/-- What a limiter that keeps every bucket accepts of a peer. -/
theorem accepted_le (rates : InventoryRates) (kept : String → Option (RateBucket ℚ))
    {stretch : List InventoryCharge} {since finish : ℚ} (hle : since ≤ finish)
    (hsorted : stretch.Pairwise fun c c' => c.now ≤ c'.now)
    (hwithin : ∀ c ∈ stretch, since ≤ c.now ∧ c.now ≤ finish) (b : BroadcastId) (p : PeerId) :
    acceptedFor (b, p) (stretch.map InventoryCharge.byPeer)
        (rates.law.answers kept (stretch.map InventoryCharge.byKey))
      ≤ rates.burstCharacters + (finish - since) / 1000 * rates.charactersPerSecond := by
  let keyOf (peer : BroadcastId × PeerId) : String := InventoryRateLimiter.key peer.1 peer.2
  have hkeys : (stretch.map InventoryCharge.byPeer).map
      (fun c => (⟨keyOf c.key, c.amount, c.now⟩ : Charge String ℚ))
        = stretch.map InventoryCharge.byKey := List.map_map ..
  have hmerge := acceptedFor_le_map keyOf (b, p) (stretch.map InventoryCharge.byPeer)
    (rates.law.answers kept (stretch.map InventoryCharge.byKey)) (by
      intro c hc
      obtain ⟨c', -, rfl⟩ := List.mem_map.mp hc
      exact c'.amount_nonneg)
  rw [hkeys] at hmerge
  have hbound : acceptedFor (keyOf (b, p)) (stretch.map InventoryCharge.byKey)
      (rates.law.answers kept (stretch.map InventoryCharge.byKey))
      ≤ rates.law.capacity + rates.law.rate * (finish - since) := by
    refine BucketLaw.acceptedFor_le hle (List.pairwise_map.mpr hsorted) fun c hc => ?_
    obtain ⟨c', hc', rfl⟩ := List.mem_map.mp hc
    exact hwithin c' hc'
  rw [gain_eq] at hbound
  exact hmerge.trans hbound

/-- **The limiter is sound in a run of timely charges.** Its levels stay in bounds, a
refused charge takes nothing, forgetting buckets changes no answer, and a peer takes at
most a burst and what the rate allows. -/
theorem inventory_rate_sound (rates : InventoryRates) (charges : List InventoryCharge)
    (hok : (system rates).RunOk (Timely rates) (InventoryRun.start rates) charges) :
    (∀ earlier, earlier <+: charges → ∀ k b,
      (InventoryRateLimiter.after rates earlier).buckets.get? k = some b →
        0 ≤ b.characters ∧ b.characters ≤ rates.burstCharacters) ∧
    (∀ earlier, earlier <+: charges → ∀ c,
      ((InventoryRateLimiter.after rates earlier).consume c).2 = false →
        ((InventoryRateLimiter.after rates earlier).consume c).1 =
          ((InventoryRateLimiter.after rates earlier).consume { c with segmentLists := [] }).1) ∧
    answers (.new rates) charges
      = rates.law.answers (fun _ => none) (charges.map InventoryCharge.byKey) ∧
    (∀ earlier stretch, charges = earlier ++ stretch →
      stretch.Pairwise (fun c c' => c.now ≤ c'.now) → ∀ since finish, since ≤ finish →
      (∀ c ∈ stretch, since ≤ c.now ∧ c.now ≤ finish) → ∀ b p,
      acceptedFor (b, p) (stretch.map InventoryCharge.byPeer)
          (answers (InventoryRateLimiter.after rates earlier) stretch)
        ≤ rates.burstCharacters + (finish - since) / 1000 * rates.charactersPerSecond) := by
  have hlimiter : ∀ earlier, InventoryRateLimiter.after rates earlier
      = (earlier.foldl (InventoryRun.next rates) (InventoryRun.start rates)).limiter :=
    fun earlier => (limiter_foldl earlier (InventoryRun.start rates)).symm
  refine ⟨?_, fun earlier _ c => consume_refused, ((Follows.start rates).foldl hok).2, ?_⟩
  · rintro earlier ⟨later, rfl⟩ k b hb
    rw [hlimiter] at hb
    have hfollows := ((Follows.start rates).foldl (TransitionSystem.runOk_append.mp hok).1).1
    exact hfollows.bounded (hfollows.kept (congrArg (Option.map InventoryBucket.rated) hb))
  · rintro earlier stretch rfl hsorted since finish hle hwithin b p
    obtain ⟨hearlier, hstretch⟩ := TransitionSystem.runOk_append.mp hok
    have hfollows := ((Follows.start rates).foldl hearlier).1
    have hanswers := (hfollows.foldl (hstretch _ (run_eq rates _ earlier))).2
    rw [hlimiter, hanswers]
    exact accepted_le rates _ hle hsorted hwithin b p

/-- The rates of a limiter built without arguments. -/
def defaultRates : InventoryRates where
  charactersPerSecond := INVENTORY_CHARACTERS_PER_SECOND
  burstCharacters := INVENTORY_BURST_CHARACTERS
  charactersPerSecond_pos := by decide +kernel
  burstCharacters_pos := by decide +kernel

/-- Two reports a second apart. -/
theorem inventory_rate_sound_pair :
    (InventoryRateLimiter.after defaultRates
        [⟨"b", "p", [["s1"]], 0⟩, ⟨"b", "p", [["s2"]], 1000⟩]).buckets.get?
          (InventoryRateLimiter.key "b" "p") = some ⟨262142, 1000⟩ ∧
      (0 : ℚ) ≤ 262142 ∧ 262142 ≤ defaultRates.burstCharacters := by
  have hstored : (InventoryRateLimiter.after defaultRates
      [⟨"b", "p", [["s1"]], 0⟩, ⟨"b", "p", [["s2"]], 1000⟩]).buckets.get?
        (InventoryRateLimiter.key "b" "p") = some ⟨262142, 1000⟩ := by decide +kernel
  exact ⟨hstored, (inventory_rate_sound defaultRates
    [⟨"b", "p", [["s1"]], 0⟩, ⟨"b", "p", [["s2"]], 1000⟩]
    (runOk_of_sorted (by decide +kernel) (by decide +kernel))).1 _ (List.prefix_refl _) _ _ hstored⟩

/-- The clock steps back by seventeen seconds, and the bucket is overdrawn. -/
theorem overdrawn_after_step_back :
    ¬ ∀ k b, (InventoryRateLimiter.after defaultRates
        [⟨"b", "p", [["s1"]], 1000000⟩, ⟨"b", "p", [["s2"]], 983000⟩]).buckets.get? k = some b →
      0 ≤ b.characters ∧ b.characters ≤ defaultRates.burstCharacters := by
  intro h
  have hstored : (InventoryRateLimiter.after defaultRates
      [⟨"b", "p", [["s1"]], 1000000⟩, ⟨"b", "p", [["s2"]], 983000⟩]).buckets.get?
        (InventoryRateLimiter.key "b" "p") = some ⟨-16386, 983000⟩ := by decide +kernel
  exact absurd (h _ _ hstored).1 (by decide +kernel)

end InventoryRun

end OpenStreamGrid

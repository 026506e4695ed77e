import OpenStreamGrid.Lib.OrderedMap
import OpenStreamGrid.Lib.TokenBucket
import Mathlib.Algebra.Order.Field.Rat
import Mathlib.Data.Rat.Floor
import Mathlib.Tactic.NormNum
import Mathlib.Tactic.Positivity

/-!
# The request rate limiter

A bucket of requests for each client address. A bucket is refilled when its
address makes a request, and every thousandth request forgets the buckets that
have been idle for twice the time a bucket takes to fill.
-/

namespace OpenStreamGrid

structure TokenBucket where
  tokens : ℚ
  lastRefillMs : ℚ
deriving DecidableEq

/-- A limiter's configuration. -/
structure IpRates where
  requestsPerSecond : ℚ
  burst : ℚ
  one_le_requestsPerSecond : 1 ≤ requestsPerSecond
  one_le_burst : 1 ≤ burst

/-- In-memory token-bucket limiter keyed by the direct client address. -/
structure IpRateLimiter where
  rates : IpRates
  buckets : OrderedMap String TokenBucket
  operations : ℕ

/-- A request with the clock reading it is charged at. -/
structure IpRequest where
  clientIp : String
  nowMs : ℚ
deriving DecidableEq

namespace IpRateLimiter

def new (rates : IpRates) : IpRateLimiter := ⟨rates, ∅, 0⟩

def forgetIdle (l : IpRateLimiter) (nowMs : ℚ) : IpRateLimiter :=
  let operations := l.operations + 1
  if operations % 1000 = 0 then
    let idleCutoff := nowMs - max 60000 (l.rates.burst / l.rates.requestsPerSecond * 2000)
    { l with
      operations
      buckets := l.buckets.entries.foldl
        (fun kept entry => if entry.2.lastRefillMs < idleCutoff then kept.delete entry.1 else kept)
        l.buckets }
  else { l with operations }

/-- The rest of `consume`: seconds to wait, or nothing for an accepted request. -/
def charge (l : IpRateLimiter) (request : IpRequest) : IpRateLimiter × Option ℤ :=
  let bucket := (l.buckets.get? request.clientIp).getD ⟨l.rates.burst, request.nowMs⟩
  let elapsedSeconds := max 0 (request.nowMs - bucket.lastRefillMs) / 1000
  let tokens := min l.rates.burst (bucket.tokens + elapsedSeconds * l.rates.requestsPerSecond)
  if tokens ≥ 1 then
    ({ l with buckets := l.buckets.set request.clientIp ⟨tokens - 1, request.nowMs⟩ }, none)
  else
    ({ l with buckets := l.buckets.set request.clientIp ⟨tokens, request.nowMs⟩ },
      some (max 1 ⌈(1 - tokens) / l.rates.requestsPerSecond⌉))

def consume (l : IpRateLimiter) (request : IpRequest) : IpRateLimiter × Option ℤ :=
  (l.forgetIdle request.nowMs).charge request

/-- The limiter after some requests. -/
def after (rates : IpRates) (requests : List IpRequest) : IpRateLimiter :=
  requests.foldl (fun l request => (l.consume request).1) (new rates)

def answers (l : IpRateLimiter) : List IpRequest → List (Option ℤ)
  | [] => []
  | request :: requests => (l.consume request).2 :: answers (l.consume request).1 requests

/-- The answers of a limiter that forgets no bucket. -/
def unsweptAnswers (l : IpRateLimiter) : List IpRequest → List (Option ℤ)
  | [] => []
  | request :: requests => (l.charge request).2 :: unsweptAnswers (l.charge request).1 requests

/-- The requests of an address accepted between two times. -/
def acceptedBetween (clientIp : String) (since finish : ℚ) (requests : List IpRequest)
    (answers : List (Option ℤ)) : ℕ :=
  (requests.zip answers).countP fun x =>
    decide ((x.1.clientIp = clientIp ∧ x.2.isNone) ∧ since ≤ x.1.nowMs ∧ x.1.nowMs ≤ finish)

end IpRateLimiter

/-! ## The stored buckets -/

theorem IpRates.burst_pos (rates : IpRates) : 0 < rates.burst :=
  zero_lt_one.trans_le rates.one_le_burst

theorem IpRates.requestsPerSecond_pos (rates : IpRates) : 0 < rates.requestsPerSecond :=
  zero_lt_one.trans_le rates.one_le_requestsPerSecond

/-- A bucket's law, in milliseconds. -/
def IpRates.law (rates : IpRates) : BucketLaw ℚ where
  capacity := rates.burst
  rate := rates.requestsPerSecond / 1000
  capacity_nonneg := rates.burst_pos.le
  rate_pos := div_pos rates.requestsPerSecond_pos (by norm_num)

def TokenBucket.rated (bucket : TokenBucket) : RateBucket ℚ :=
  ⟨bucket.tokens, bucket.lastRefillMs⟩

def IpRequest.toCharge (request : IpRequest) : Charge String ℚ :=
  ⟨request.clientIp, 1, request.nowMs⟩

namespace IpRateLimiter

variable {l u : IpRateLimiter} {request : IpRequest} {last : ℚ}

def stored (l : IpRateLimiter) (clientIp : String) : Option (RateBucket ℚ) :=
  (l.buckets.get? clientIp).map TokenBucket.rated

/-- What a limiter answers where so many tokens are left. -/
def verdict (rates : IpRates) (tokens : ℚ) : Option ℤ :=
  if 1 ≤ tokens then none else some (max 1 ⌈(1 - tokens) / rates.requestsPerSecond⌉)

@[simp] theorem rates_forgetIdle (l : IpRateLimiter) (nowMs : ℚ) :
    (l.forgetIdle nowMs).rates = l.rates := by
  unfold forgetIdle
  dsimp only
  split_ifs <;> rfl

theorem get?_forgetIdle (l : IpRateLimiter) (nowMs : ℚ) (clientIp : String) :
    (l.forgetIdle nowMs).buckets.get? clientIp = l.buckets.get? clientIp ∨
    (l.forgetIdle nowMs).buckets.get? clientIp =
      (l.buckets.get? clientIp).filter fun b => decide (¬ b.lastRefillMs <
        nowMs - max 60000 (l.rates.burst / l.rates.requestsPerSecond * 2000)) := by
  unfold forgetIdle
  dsimp only
  split_ifs
  · exact Or.inr (OrderedMap.get?_foldl_deleteIf l.buckets (fun entry => entry.2.lastRefillMs <
      nowMs - max 60000 (l.rates.burst / l.rates.requestsPerSecond * 2000)) clientIp)
  · exact Or.inl rfl

theorem stored_of_forgetIdle {nowMs : ℚ} {k : String} {b : RateBucket ℚ}
    (h : (l.forgetIdle nowMs).stored k = some b) : l.stored k = some b := by
  unfold stored at h ⊢
  rcases get?_forgetIdle l nowMs k with hsame | hfiltered
  · rwa [hsame] at h
  · obtain ⟨bucket, hbucket, hrated⟩ := Option.map_eq_some_iff.mp h
    rw [hfiltered, Option.filter_eq_some_iff] at hbucket
    rw [hbucket.1, Option.map_some, hrated]

/-- A forgotten bucket has had time to fill twice. -/
theorem idle_of_forgetIdle {nowMs : ℚ} {k : String} {b : RateBucket ℚ}
    (h : l.stored k = some b) (hforgotten : (l.forgetIdle nowMs).stored k = none) :
    l.rates.burst / l.rates.requestsPerSecond * 2000 < nowMs - b.updatedAt := by
  obtain ⟨bucket, hbucket, rfl⟩ := Option.map_eq_some_iff.mp h
  have hnone := Option.map_eq_none_iff.mp hforgotten
  rcases get?_forgetIdle l nowMs k with hsame | hfiltered
  · rw [hsame, hbucket] at hnone
    exact absurd hnone (by simp)
  · have hidle : bucket.lastRefillMs <
        nowMs - max 60000 (l.rates.burst / l.rates.requestsPerSecond * 2000) := by
      by_contra hrecent
      rw [hfiltered, hbucket, Option.filter_some_pos (by simpa using hrecent)] at hnone
      exact absurd hnone (by simp)
    have hmax := le_max_right 60000 (l.rates.burst / l.rates.requestsPerSecond * 2000)
    show _ < nowMs - bucket.lastRefillMs
    linarith

/-- Only full buckets are forgotten. -/
theorem forgets_forgetIdle {nowMs : ℚ} (h : l.rates.law.Forgets last l.stored u.stored)
    (hlast : last ≤ nowMs) :
    l.rates.law.Forgets nowMs (l.forgetIdle nowMs).stored u.stored := by
  refine h.sweep hlast stored_of_forgetIdle fun {k b} hb hforgotten => ?_
  have hidle := idle_of_forgetIdle hb hforgotten
  have hlevel := h.nonneg (h.kept_of_stored hb)
  have hrate := l.rates.requestsPerSecond_pos
  have hburst := l.rates.burst_pos
  have hgain : l.rates.law.rate * (l.rates.burst / l.rates.requestsPerSecond * 2000)
      ≤ l.rates.law.rate * (nowMs - b.updatedAt) :=
    mul_le_mul_of_nonneg_left hidle.le l.rates.law.rate_pos.le
  have hfilled : l.rates.law.rate * (l.rates.burst / l.rates.requestsPerSecond * 2000)
      = 2 * l.rates.burst := by
    show l.rates.requestsPerSecond / 1000 * _ = _
    field_simp
    norm_num
  show l.rates.burst ≤ _
  linarith

/-! ## A charge -/

/-- No bucket is refilled in the future of the request. -/
def Past (l : IpRateLimiter) (nowMs : ℚ) : Prop :=
  ∀ k b, l.stored k = some b → b.updatedAt ≤ nowMs

/-- What the charged bucket is refilled to. -/
theorem refilled_eq (h : l.Past request.nowMs) :
    min l.rates.burst
      (((l.buckets.get? request.clientIp).getD ⟨l.rates.burst, request.nowMs⟩).tokens
        + max 0 (request.nowMs - ((l.buckets.get? request.clientIp).getD
            ⟨l.rates.burst, request.nowMs⟩).lastRefillMs) / 1000 * l.rates.requestsPerSecond)
      = l.rates.law.remaining request.nowMs (l.stored request.clientIp) := by
  unfold stored
  cases hget : l.buckets.get? request.clientIp with
  | none =>
      show min l.rates.burst (l.rates.burst + max 0 (request.nowMs - request.nowMs) / 1000 * _) = _
      rw [sub_self, max_self, zero_div, zero_mul, add_zero, min_self]
      rfl
  | some bucket =>
      have hstored : l.stored request.clientIp = some bucket.rated :=
        congrArg (Option.map TokenBucket.rated) hget
      have hpast : 0 ≤ request.nowMs - bucket.lastRefillMs := sub_nonneg.mpr (h _ _ hstored)
      have hgain : max 0 (request.nowMs - bucket.lastRefillMs) / 1000 * l.rates.requestsPerSecond
          = l.rates.requestsPerSecond / 1000 * (request.nowMs - bucket.lastRefillMs) := by
        rw [max_eq_right hpast]
        ring
      exact congrArg (fun gain => min l.rates.burst (bucket.tokens + gain)) hgain

def withBucket (l : IpRateLimiter) (k : String) (b : RateBucket ℚ) : IpRateLimiter :=
  { l with buckets := l.buckets.set k ⟨b.level, b.updatedAt⟩ }

theorem charge_eq (h : l.Past request.nowMs) :
    l.charge request = (l.withBucket request.clientIp
        (l.rates.law.charge request.nowMs 1 (l.stored request.clientIp)).1,
      verdict l.rates (l.rates.law.remaining request.nowMs (l.stored request.clientIp))) := by
  unfold charge verdict
  dsimp only
  rw [refilled_eq h]
  rcases le_or_gt 1 (l.rates.law.remaining request.nowMs (l.stored request.clientIp)) with hle | hlt
  · rw [if_pos hle, if_pos hle, BucketLaw.charge_of_le hle]
    rfl
  · rw [if_neg (not_le.mpr hlt), if_neg (not_le.mpr hlt), BucketLaw.charge_of_lt hlt]
    rfl

theorem stored_charge (h : l.Past request.nowMs) :
    (l.charge request).1.stored = l.rates.law.chargeKey l.stored request.toCharge := by
  rw [charge_eq h]
  funext k
  by_cases hk : k = request.toCharge.key
  · subst hk
    rw [BucketLaw.chargeKey_self]
    exact congrArg (Option.map TokenBucket.rated) ((OrderedMap.get?_set ..).trans (if_pos rfl))
  · rw [BucketLaw.chargeKey_of_ne hk]
    exact congrArg (Option.map TokenBucket.rated) ((OrderedMap.get?_set ..).trans (if_neg hk))

@[simp] theorem rates_charge (l : IpRateLimiter) (request : IpRequest) :
    (l.charge request).1.rates = l.rates := by
  unfold charge
  dsimp only
  split_ifs <;> rfl

theorem Past.charge (h : l.Past request.nowMs) : (l.charge request).1.Past request.nowMs := by
  intro k b hb
  rw [stored_charge h] at hb
  by_cases hk : k = request.toCharge.key
  · subst hk
    rw [BucketLaw.chargeKey_self] at hb
    obtain rfl := Option.some.inj hb
    exact BucketLaw.updatedAt_charge.le
  · rw [BucketLaw.chargeKey_of_ne hk] at hb
    exact h k b hb

theorem verdict_isNone (rates : IpRates) (tokens : ℚ) :
    (verdict rates tokens).isNone = decide (1 ≤ tokens) := by
  unfold verdict
  split_ifs with h <;> simp [h]

/-- A charge is accepted as the law accepts it. -/
theorem isNone_charge (h : l.Past request.nowMs) :
    (l.charge request).2.isNone = l.rates.law.answer l.stored request.toCharge := by
  rw [charge_eq h, verdict_isNone, Bool.eq_iff_iff, decide_eq_true_eq]
  exact BucketLaw.charge_accepted.symm

/-! ## Beside a limiter that forgets no bucket -/

/-- `l` has all of the buckets of `u` but some that are full. -/
structure Alike (last : ℚ) (l u : IpRateLimiter) : Prop where
  rates : l.rates = u.rates
  forgets : u.rates.law.Forgets last l.stored u.stored

namespace Alike

theorem new (rates : IpRates) (last : ℚ) :
    Alike last (IpRateLimiter.new rates) (IpRateLimiter.new rates) :=
  ⟨rfl, .empty rates.law last⟩

theorem past (h : Alike last l u) {nowMs : ℚ} (hlast : last ≤ nowMs) : u.Past nowMs :=
  fun _ _ hb => (h.forgets.past hb).trans hlast

theorem later (h : Alike last l u) {nowMs : ℚ} (hlast : last ≤ nowMs) : Alike nowMs l u :=
  ⟨h.rates, h.forgets.sweep hlast (fun hb => hb)
    fun hb hnone => absurd (hb.symm.trans hnone) (by simp)⟩

/-- A request that the sweep may precede is answered as one that it does not. -/
theorem consume (h : Alike last l u) (hlast : last ≤ request.nowMs) :
    Alike request.nowMs (l.consume request).1 (u.charge request).1 ∧
      (l.consume request).2 = (u.charge request).2 := by
  have hforgets : u.rates.law.Forgets request.nowMs (l.forgetIdle request.nowMs).stored u.stored := by
    have hswept := forgets_forgetIdle (u := u) (by rw [h.rates]; exact h.forgets) hlast
    rwa [h.rates] at hswept
  have hrates : (l.forgetIdle request.nowMs).rates = u.rates := (rates_forgetIdle ..).trans h.rates
  have hpast : (l.forgetIdle request.nowMs).Past request.nowMs :=
    fun _ _ hb => hforgets.past (hforgets.kept_of_stored hb)
  have hupast := h.past hlast
  refine ⟨⟨?_, ?_⟩, ?_⟩
  · exact (rates_charge ..).trans (hrates.trans (rates_charge ..).symm)
  · rw [rates_charge, stored_charge hupast]
    unfold IpRateLimiter.consume
    rw [stored_charge hpast, hrates]
    exact hforgets.charge (c := request.toCharge)
  · unfold IpRateLimiter.consume
    rw [charge_eq hpast, charge_eq hupast, hrates, hforgets.remaining_eq le_rfl]

end Alike

/-- Requests with a non-decreasing clock from a time on. -/
def InOrder (last : ℚ) (requests : List IpRequest) : Prop :=
  requests.Pairwise (fun x y => x.nowMs ≤ y.nowMs) ∧ ∀ x ∈ requests, last ≤ x.nowMs

theorem InOrder.cons {requests : List IpRequest} (h : InOrder last (request :: requests)) :
    last ≤ request.nowMs ∧ InOrder request.nowMs requests :=
  ⟨h.2 request List.mem_cons_self, (List.pairwise_cons.mp h.1).2, (List.pairwise_cons.mp h.1).1⟩

theorem Alike.answers {requests : List IpRequest} (h : Alike last l u)
    (hordered : InOrder last requests) : l.answers requests = u.unsweptAnswers requests := by
  induction requests generalizing last l u with
  | nil => rfl
  | cons request requests ih =>
      obtain ⟨hlast, hrest⟩ := hordered.cons
      obtain ⟨hnext, hanswer⟩ := h.consume hlast
      show _ :: _ = _ :: _
      rw [hanswer, ih hnext hrest]

/-- Which requests a limiter that forgets no bucket accepts. -/
theorem isNone_unsweptAnswers {requests : List IpRequest} (hpast : u.Past last)
    (hordered : InOrder last requests) :
    (u.unsweptAnswers requests).map Option.isNone
      = u.rates.law.answers u.stored (requests.map IpRequest.toCharge) := by
  induction requests generalizing last u with
  | nil => rfl
  | cons request requests ih =>
      obtain ⟨hlast, hrest⟩ := hordered.cons
      have hnow : u.Past request.nowMs := fun k b hb => (hpast k b hb).trans hlast
      show _ :: _ = _ :: _
      rw [isNone_charge hnow, ih hnow.charge hrest, rates_charge, stored_charge hnow]

/-- What is accepted between two times, as a sum over the charges. -/
theorem acceptedBetween_eq (clientIp : String) (since finish : ℚ) :
    ∀ (requests : List IpRequest) (answers : List (Option ℤ)),
      (acceptedBetween clientIp since finish requests answers : ℚ)
        = acceptedIn since finish clientIp (requests.map IpRequest.toCharge)
          (answers.map Option.isNone)
  | [], _ => rfl
  | _ :: _, [] => rfl
  | request :: requests, answer :: answers => by
      have hrest := acceptedBetween_eq clientIp since finish requests answers
      unfold acceptedBetween at hrest ⊢
      rw [List.zip_cons_cons, List.countP_cons, Nat.cast_add, hrest]
      show _ = (if _ then (1 : ℚ) else 0) + acceptedIn since finish clientIp _ _
      rw [add_comm]
      congr 1
      by_cases hcounted : (request.clientIp = clientIp ∧ answer.isNone) ∧ since ≤ request.nowMs
          ∧ request.nowMs ≤ finish
      · rw [if_pos (decide_eq_true hcounted)]
        exact (if_pos hcounted).symm
      · rw [if_neg (by simpa using hcounted)]
        exact (if_neg hcounted).symm

theorem acceptedBetween_le {requests : List IpRequest} (hpast : u.Past last)
    (hordered : InOrder last requests) (clientIp : String) {since finish : ℚ}
    (hle : since ≤ finish) :
    acceptedBetween clientIp since finish requests (u.unsweptAnswers requests)
      ≤ u.rates.burst + u.rates.requestsPerSecond * ((finish - since) / 1000) := by
  rw [acceptedBetween_eq, isNone_unsweptAnswers hpast hordered]
  refine (BucketLaw.acceptedIn_le hle (List.pairwise_map.mpr hordered.1)).trans (le_of_eq ?_)
  show u.rates.burst + u.rates.requestsPerSecond / 1000 * (finish - since) = _
  ring

/-! ## Waiting as told -/

/-- The requests of others leave a bucket as it is. -/
theorem stored_foldl_charge {requests : List IpRequest} {clientIp : String}
    (hpast : u.Past last) (hordered : InOrder last requests)
    (hothers : ∀ x ∈ requests, x.clientIp ≠ clientIp) :
    (requests.foldl (fun u request => (u.charge request).1) u).stored clientIp
      = u.stored clientIp := by
  induction requests generalizing last u with
  | nil => rfl
  | cons request requests ih =>
      obtain ⟨hlast, hrest⟩ := hordered.cons
      have hnow : u.Past request.nowMs := fun k b hb => (hpast k b hb).trans hlast
      have hne : clientIp ≠ request.toCharge.key :=
        Ne.symm (hothers request List.mem_cons_self)
      refine (ih hnow.charge hrest fun x hx => hothers x (List.mem_cons_of_mem _ hx)).trans ?_
      rw [stored_charge hnow, BucketLaw.chargeKey_of_ne hne]

theorem Alike.foldl {requests : List IpRequest} {finish : ℚ} (h : Alike last l u)
    (hordered : InOrder last requests) (hlast : last ≤ finish)
    (hfinish : ∀ x ∈ requests, x.nowMs ≤ finish) :
    Alike finish (requests.foldl (fun l request => (l.consume request).1) l)
      (requests.foldl (fun u request => (u.charge request).1) u) := by
  induction requests generalizing last l u with
  | nil => exact h.later hlast
  | cons request requests ih =>
      obtain ⟨hlast, hrest⟩ := hordered.cons
      exact ih (h.consume hlast).1 hrest (hfinish request List.mem_cons_self) fun x hx =>
        hfinish x (List.mem_cons_of_mem _ hx)

/-- A refusal says how long to wait at most. -/
theorem verdict_of_wait {rates : IpRates} {tokens : ℚ} {seconds : ℤ}
    (h : verdict rates tokens = some seconds) :
    tokens < 1 ∧ 1 ≤ tokens + rates.requestsPerSecond * seconds := by
  unfold verdict at h
  split_ifs at h with htokens
  have hseconds : ⌈(1 - tokens) / rates.requestsPerSecond⌉ ≤ seconds :=
    (le_max_right _ _).trans (Option.some.inj h).le
  have hceil := (Int.le_ceil ((1 - tokens) / rates.requestsPerSecond)).trans
    (Int.cast_le.mpr hseconds)
  rw [div_le_iff₀ rates.requestsPerSecond_pos] at hceil
  exact ⟨not_le.mp htokens, by linarith⟩

theorem rates_foldl_charge (requests : List IpRequest) (u : IpRateLimiter) :
    (requests.foldl (fun u request => (u.charge request).1) u).rates = u.rates := by
  induction requests generalizing u with
  | nil => rfl
  | cons request requests ih => exact (ih _).trans (rates_charge u request)

/-- Who comes back when it was told to is accepted, whatever the others did. -/
theorem Alike.accepted_after_wait {first again : IpRequest} {seconds : ℤ}
    {between : List IpRequest} (h : Alike last l u) (hlast : last ≤ first.nowMs)
    (hrefused : (l.consume first).2 = some seconds)
    (hagain : again = ⟨first.clientIp, first.nowMs + seconds * 1000⟩)
    (hordered : InOrder first.nowMs between)
    (hothers : ∀ x ∈ between, x.clientIp ≠ first.clientIp)
    (hbefore : ∀ x ∈ between, x.nowMs ≤ again.nowMs) (hwait : first.nowMs ≤ again.nowMs) :
    ((between.foldl (fun l request => (l.consume request).1) (l.consume first).1).consume
      again).2 = none := by
  have hnow : u.Past first.nowMs := h.past hlast
  obtain ⟨hnext, hanswer⟩ := h.consume hlast
  let tokens := u.rates.law.remaining first.nowMs (u.stored first.clientIp)
  -- what the refusal says about the bucket it leaves
  have hverdict : verdict u.rates tokens = some seconds :=
    (congrArg Prod.snd (charge_eq hnow)).symm.trans (hanswer.symm.trans hrefused)
  obtain ⟨hempty, hfilled⟩ := verdict_of_wait hverdict
  have hleft : (u.charge first).1.stored first.clientIp = some ⟨tokens, first.nowMs⟩ := by
    rw [stored_charge hnow]
    show u.rates.law.chargeKey u.stored first.toCharge first.toCharge.key = _
    rw [BucketLaw.chargeKey_self]
    exact congrArg (fun charged => some charged.1) (BucketLaw.charge_of_lt hempty)
  -- and that bucket when the wait is over
  have hlater := hnext.foldl hordered hwait hbefore
  have hrates : (between.foldl (fun u request => (u.charge request).1) (u.charge first).1).rates
      = u.rates := (rates_foldl_charge ..).trans (rates_charge u first)
  have hkept : (between.foldl (fun u request => (u.charge request).1) (u.charge first).1).stored
      again.clientIp = some ⟨tokens, first.nowMs⟩ := by
    rw [hagain]
    exact (stored_foldl_charge hnow.charge hordered hothers).trans hleft
  have hgain : u.rates.law.rate * (again.nowMs - first.nowMs)
      = u.rates.requestsPerSecond * seconds := by
    rw [hagain]
    show u.rates.requestsPerSecond / 1000 * (first.nowMs + seconds * 1000 - first.nowMs) = _
    ring
  rw [(hlater.consume le_rfl).2, charge_eq (hlater.past le_rfl), hrates, hkept]
  refine if_pos (le_min u.rates.one_le_burst ?_)
  show 1 ≤ tokens + u.rates.law.rate * (again.nowMs - first.nowMs)
  rw [hgain]
  exact hfilled

theorem exists_inOrder {requests : List IpRequest}
    (hsorted : requests.Pairwise fun x y => x.nowMs ≤ y.nowMs) :
    ∃ last, InOrder last requests := by
  cases requests with
  | nil => exact ⟨0, hsorted, fun _ hx => absurd hx List.not_mem_nil⟩
  | cons request requests =>
      refine ⟨request.nowMs, hsorted, fun x hx => ?_⟩
      rcases List.mem_cons.mp hx with rfl | hmem
      · exact le_rfl
      · exact (List.pairwise_cons.mp hsorted).1 x hmem

/-- **The limiter bounds the rate of every address.** In any time it accepts at most a
burst and what the rate allows; it answers as one that forgets no bucket; and who
waits as long as it was told is accepted. -/
theorem ip_rate_bounded (rates : IpRates) (requests : List IpRequest)
    (hsorted : requests.Pairwise fun x y => x.nowMs ≤ y.nowMs) :
    (∀ clientIp since finish, since ≤ finish →
      acceptedBetween clientIp since finish requests ((new rates).answers requests)
        ≤ rates.burst + rates.requestsPerSecond * ((finish - since) / 1000)) ∧
    (new rates).answers requests = (new rates).unsweptAnswers requests ∧
    (∀ earlier between later first again seconds,
      requests = earlier ++ first :: (between ++ again :: later) →
      ((after rates earlier).consume first).2 = some seconds →
      again = ⟨first.clientIp, first.nowMs + seconds * 1000⟩ →
      (∀ x ∈ between, x.clientIp ≠ first.clientIp) →
      ((after rates (earlier ++ first :: between)).consume again).2 = none) := by
  obtain ⟨last, hordered⟩ := exists_inOrder hsorted
  have hnew := Alike.new rates last
  have hanswers := hnew.answers hordered
  refine ⟨fun clientIp since finish hle => ?_, hanswers, ?_⟩
  · rw [hanswers]
    exact acceptedBetween_le (hnew.past le_rfl) hordered clientIp hle
  · rintro earlier between later first again seconds rfl hrefused hagain hothers
    obtain ⟨hpairs, hstart⟩ := hordered
    obtain ⟨hearlier, hrest, hbefore⟩ := List.pairwise_append.mp hpairs
    obtain ⟨hfirst, htail⟩ := List.pairwise_cons.mp hrest
    obtain ⟨hbetween, -, hmiddle⟩ := List.pairwise_append.mp htail
    have hlast : last ≤ first.nowMs := hstart first (by simp)
    have halike : Alike first.nowMs (after rates earlier) _ := hnew.foldl
      ⟨hearlier, fun x hx => hstart x (List.mem_append_left _ hx)⟩ hlast
      fun x hx => hbefore x hx first List.mem_cons_self
    have hsplit : after rates (earlier ++ first :: between)
        = between.foldl (fun l request => (l.consume request).1)
          ((after rates earlier).consume first).1 := List.foldl_append ..
    rw [hsplit]
    exact halike.accepted_after_wait le_rfl hrefused hagain
      ⟨hbetween, fun x hx => hfirst x (List.mem_append_left _ hx)⟩ hothers
      (fun x hx => hmiddle x hx again List.mem_cons_self) (hfirst again (by simp))

/-- One request a second, and a second one at once. -/
theorem ip_rate_bounded_pair :
    acceptedBetween "a" 0 1000 [⟨"a", 0⟩, ⟨"a", 0⟩, ⟨"a", 1000⟩]
        ((new ⟨1, 1, le_rfl, le_rfl⟩).answers [⟨"a", 0⟩, ⟨"a", 0⟩, ⟨"a", 1000⟩])
      ≤ (1 : ℚ) + 1 * ((1000 - 0) / 1000) :=
  (ip_rate_bounded ⟨1, 1, le_rfl, le_rfl⟩ [⟨"a", 0⟩, ⟨"a", 0⟩, ⟨"a", 1000⟩]
    (by decide +kernel)).1 "a" 0 1000 (by decide +kernel)

end IpRateLimiter

end OpenStreamGrid

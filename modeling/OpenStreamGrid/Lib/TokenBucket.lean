import Mathlib.Algebra.Order.Ring.Defs
import Mathlib.Tactic.Linarith
import Mathlib.Tactic.Ring

/-!
# Token buckets

A bucket gains tokens at a constant rate up to its capacity, and a charge takes
some out where there are enough. A bucket is only brought up to date when it is
charged, by the time that has passed since; a bucket that nobody has touched is
a full one. The clock is read at every charge and may step backwards; the
results that need a clock that does not say so.
-/

namespace OpenStreamGrid

/-- The level of a bucket at the time it was last brought up to date. -/
structure RateBucket (K : Type*) where
  level : K
  updatedAt : K
deriving DecidableEq

/-- What a bucket holds when it is full, and what it gains in a unit of time. -/
structure BucketLaw (K : Type*) [Zero K] [LE K] [LT K] where
  capacity : K
  rate : K
  capacity_nonneg : 0 ≤ capacity
  rate_pos : 0 < rate

namespace BucketLaw

variable {K : Type*} [CommRing K] [LinearOrder K]

section Operations

variable (law : BucketLaw K)

/-- What can be taken at a time. -/
def remaining (now : K) : Option (RateBucket K) → K
  | none => law.capacity
  | some b => min law.capacity (b.level + law.rate * (now - b.updatedAt))

/-- A charge takes the whole amount, or nothing where there is less. -/
def charge (now amount : K) (b : Option (RateBucket K)) : RateBucket K × Bool :=
  if amount ≤ law.remaining now b then (⟨law.remaining now b - amount, now⟩, true)
  else (⟨law.remaining now b, now⟩, false)

end Operations

variable {law : BucketLaw K} {now later amount : K} {b b' : Option (RateBucket K)}

/-! ## A charge -/

theorem remaining_le_capacity : law.remaining now b ≤ law.capacity := by
  cases b with
  | none => exact le_rfl
  | some b => exact min_le_left _ _

theorem charge_of_le (h : amount ≤ law.remaining now b) :
    law.charge now amount b = (⟨law.remaining now b - amount, now⟩, true) := if_pos h

theorem charge_of_lt (h : law.remaining now b < amount) :
    law.charge now amount b = (⟨law.remaining now b, now⟩, false) := if_neg (not_le.mpr h)

theorem charge_accepted : (law.charge now amount b).2 = true ↔ amount ≤ law.remaining now b := by
  rcases le_or_gt amount (law.remaining now b) with h | h
  · rw [charge_of_le h]
    exact iff_of_true rfl h
  · rw [charge_of_lt h]
    exact iff_of_false Bool.false_ne_true (not_le.mpr h)

/-- What a charge does depends on nothing but what it finds. -/
theorem charge_congr (h : law.remaining now b = law.remaining now b') :
    law.charge now amount b = law.charge now amount b' := by
  unfold charge
  rw [h]

/-- A charge brings its bucket up to date. -/
theorem updatedAt_charge : (law.charge now amount b).1.updatedAt = now := by
  unfold charge
  split_ifs <;> rfl

/-- A bucket gains what the clock says, whichever way the clock went, and loses what is taken. -/
theorem level_charge_add_le {b : RateBucket K} (now amount : K) :
    (law.charge now amount (some b)).1.level +
        (if (law.charge now amount (some b)).2 = true then amount else 0) ≤
      b.level + law.rate * (now - b.updatedAt) := by
  have hle : law.remaining now (some b) ≤ b.level + law.rate * (now - b.updatedAt) :=
    min_le_right _ _
  rcases le_or_gt amount (law.remaining now (some b)) with h | h
  · rw [charge_of_le h, if_pos rfl]
    show law.remaining now (some b) - amount + amount ≤ _
    rwa [sub_add_cancel]
  · rw [charge_of_lt h, if_neg Bool.false_ne_true, add_zero]
    exact hle

variable [IsStrictOrderedRing K]

theorem level_charge_le (hamount : 0 ≤ amount) :
    (law.charge now amount b).1.level ≤ law.capacity := by
  have hle : law.remaining now b ≤ law.capacity := remaining_le_capacity
  rcases le_or_gt amount (law.remaining now b) with h | h
  · rw [charge_of_le h]
    show law.remaining now b - amount ≤ law.capacity
    linarith
  · rw [charge_of_lt h]
    exact hle

theorem level_charge_nonneg (h : 0 ≤ law.remaining now b) :
    0 ≤ (law.charge now amount b).1.level := by
  rcases le_or_gt amount (law.remaining now b) with hle | hlt
  · rw [charge_of_le hle]
    exact sub_nonneg.mpr hle
  · rw [charge_of_lt hlt]
    exact h

/-! ## The passage of time -/

theorem gain_nonneg (law : BucketLaw K) (h : now ≤ later) : 0 ≤ law.rate * (later - now) :=
  mul_nonneg law.rate_pos.le (sub_nonneg.mpr h)

theorem remaining_mono (h : now ≤ later) : law.remaining now b ≤ law.remaining later b := by
  cases b with
  | none => exact le_rfl
  | some b =>
      have hgain := law.gain_nonneg h
      apply min_le_min_left
      linarith

/-- No bucket gains more than the rate allows. -/
theorem remaining_le_add (h : now ≤ later) :
    law.remaining later b ≤ law.remaining now b + law.rate * (later - now) := by
  have hgain := law.gain_nonneg h
  cases b with
  | none =>
      show law.capacity ≤ law.capacity + _
      linarith
  | some b =>
      show min _ _ ≤ min _ _ + _
      rw [← min_add_add_right]
      apply min_le_min
      · linarith
      · apply le_of_eq
        ring

/-- Bringing a bucket up to date on the way makes no difference. -/
theorem remaining_updated (h : now ≤ later) :
    law.remaining later (some ⟨law.remaining now b, now⟩) = law.remaining later b := by
  have hgain := law.gain_nonneg h
  show min law.capacity (law.remaining now b + law.rate * (later - now)) = _
  cases b with
  | none =>
      apply min_eq_left
      show law.capacity ≤ law.capacity + _
      linarith
  | some b =>
      have hsum : b.level + law.rate * (now - b.updatedAt) + law.rate * (later - now) =
          b.level + law.rate * (later - b.updatedAt) := by ring
      have hfull : law.capacity ≤ law.capacity + law.rate * (later - now) := by linarith
      show min _ (min _ _ + _) = min _ _
      rw [← min_add_add_right, hsum, ← min_assoc, min_eq_left hfull]

/-! ## Two buckets that no later charge tells apart -/

/-- From a time on, one bucket has as much left as the other. -/
def AlikeFrom (law : BucketLaw K) (since : K) (b b' : Option (RateBucket K)) : Prop :=
  ∀ now, since ≤ now → law.remaining now b = law.remaining now b'

omit [IsStrictOrderedRing K] in
theorem AlikeFrom.refl (since : K) (b : Option (RateBucket K)) : law.AlikeFrom since b b :=
  fun _ _ => rfl

omit [IsStrictOrderedRing K] in
theorem AlikeFrom.mono {since : K} (h : law.AlikeFrom since b b') (hlater : since ≤ later) :
    law.AlikeFrom later b b' := fun t ht => h t (hlater.trans ht)

/-- A bucket that is full again can be forgotten. -/
theorem AlikeFrom.forget {since : K} (h : law.capacity ≤ law.remaining since b) :
    law.AlikeFrom since none b := by
  intro t ht
  exact le_antisymm (h.trans (remaining_mono ht)) remaining_le_capacity

end BucketLaw

/-! ## Buckets by key -/

/-- A charge, with the time its clock reads. -/
structure Charge (κ K : Type*) where
  key : κ
  amount : K
  now : K
deriving DecidableEq

/-- What the answers to some charges have let one key take. -/
def acceptedFor {κ K : Type*} [DecidableEq κ] [Zero K] [Add K] (key : κ) :
    List (Charge κ K) → List Bool → K
  | c :: charges, accepted :: answers =>
      (if c.key = key ∧ accepted = true then c.amount else 0) + acceptedFor key charges answers
  | _, _ => 0

/-- What it takes between two times. -/
def acceptedIn {κ K : Type*} [DecidableEq κ] [Zero K] [Add K] [LE K] [DecidableLE K]
    (since finish : K) (key : κ) : List (Charge κ K) → List Bool → K
  | c :: charges, accepted :: answers =>
      (if (c.key = key ∧ accepted = true) ∧ since ≤ c.now ∧ c.now ≤ finish then c.amount else 0)
        + acceptedIn since finish key charges answers
  | _, _ => 0

theorem acceptedIn_eq_acceptedFor {κ K : Type*} [DecidableEq κ] [Zero K] [Add K] [LE K]
    [DecidableLE K] {since finish : K} {key : κ} :
    ∀ {charges : List (Charge κ K)} {answers : List Bool},
      (∀ c ∈ charges, since ≤ c.now ∧ c.now ≤ finish) →
      acceptedIn since finish key charges answers = acceptedFor key charges answers
  | [], _, _ => rfl
  | _ :: _, [], _ => rfl
  | c :: charges, accepted :: answers, hwithin => by
      have hrest : acceptedIn since finish key charges answers = acceptedFor key charges answers :=
        acceptedIn_eq_acceptedFor fun c' hc' => hwithin c' (List.mem_cons_of_mem c hc')
      have hc := hwithin c List.mem_cons_self
      unfold acceptedIn acceptedFor
      rw [hrest]
      simp only [hc, and_self, and_true]

/-- A key that stands for another takes at least as much. -/
theorem acceptedFor_le_map {κ κ' K : Type*} [DecidableEq κ] [DecidableEq κ'] [AddCommMonoid K]
    [PartialOrder K] [IsOrderedAddMonoid K] (f : κ → κ') (key : κ) :
    ∀ (charges : List (Charge κ K)) (answers : List Bool), (∀ c ∈ charges, 0 ≤ c.amount) →
      acceptedFor key charges answers ≤
        acceptedFor (f key) (charges.map fun c => ⟨f c.key, c.amount, c.now⟩) answers
  | [], _, _ => by simp [acceptedFor]
  | _ :: _, [], _ => by simp [acceptedFor]
  | c :: charges, accepted :: answers, hamounts => by
      have hrest := acceptedFor_le_map f key charges answers fun c' hc' =>
        hamounts c' (List.mem_cons_of_mem c hc')
      have hamount := hamounts c List.mem_cons_self
      refine add_le_add ?_ hrest
      split_ifs with hkey hfkey
      · exact le_rfl
      · exact absurd ⟨congrArg f hkey.1, hkey.2⟩ hfkey
      · exact hamount
      · exact le_rfl

namespace BucketLaw

variable {κ K : Type*} [DecidableEq κ] [CommRing K] [LinearOrder K]

section Operations

variable (law : BucketLaw K)

/-- A limiter that keeps every bucket. -/
def chargeKey (s : κ → Option (RateBucket K)) (c : Charge κ K) : κ → Option (RateBucket K) :=
  Function.update s c.key (some (law.charge c.now c.amount (s c.key)).1)

def answer (s : κ → Option (RateBucket K)) (c : Charge κ K) : Bool :=
  (law.charge c.now c.amount (s c.key)).2

def answers (s : κ → Option (RateBucket K)) : List (Charge κ K) → List Bool
  | [] => []
  | c :: charges => law.answer s c :: answers (law.chargeKey s c) charges

end Operations

variable {law : BucketLaw K} {s : κ → Option (RateBucket K)} {key : κ} {charges : List (Charge κ K)}

theorem chargeKey_self (s : κ → Option (RateBucket K)) (c : Charge κ K) :
    law.chargeKey s c c.key = some (law.charge c.now c.amount (s c.key)).1 :=
  Function.update_self ..

theorem chargeKey_of_ne {c : Charge κ K} (h : key ≠ c.key) : law.chargeKey s c key = s key :=
  Function.update_of_ne h ..

variable [IsStrictOrderedRing K]

/-- What a key takes in a charge is gone from what is left to it. -/
theorem taken_add_remaining_le (law : BucketLaw K) (s : κ → Option (RateBucket K)) (key : κ)
    (c : Charge κ K) :
    (if c.key = key ∧ law.answer s c = true then c.amount else 0) +
      max 0 (law.remaining c.now (law.chargeKey s c key)) ≤
      max 0 (law.remaining c.now (s key)) := by
  by_cases hkey : c.key = key
  · subst hkey
    rw [chargeKey_self, answer]
    rcases le_or_gt c.amount (law.remaining c.now (s c.key)) with hle | hlt
    · rw [charge_of_le hle, if_pos ⟨rfl, rfl⟩]
      have hleft : law.remaining c.now (some ⟨law.remaining c.now (s c.key) - c.amount, c.now⟩) ≤
          law.remaining c.now (s c.key) - c.amount + law.rate * (c.now - c.now) := min_le_right _ _
      rw [sub_self, mul_zero, add_zero] at hleft
      have hmost : max 0 (law.remaining c.now
          (some ⟨law.remaining c.now (s c.key) - c.amount, c.now⟩)) ≤
          law.remaining c.now (s c.key) - c.amount :=
        max_le (sub_nonneg.mpr hle) hleft
      exact (by linarith : _ ≤ law.remaining c.now (s c.key)).trans (le_max_right _ _)
    · rw [charge_of_lt hlt, if_neg (fun h => Bool.false_ne_true h.2), zero_add,
        remaining_updated le_rfl]
  · rw [if_neg (fun h => hkey h.1), zero_add, chargeKey_of_ne (Ne.symm hkey)]

omit [IsStrictOrderedRing K] in
theorem acceptedIn_of_later {since finish : K} {answers : List Bool}
    (hlater : ∀ c ∈ charges, finish < c.now) : acceptedIn since finish key charges answers = 0 := by
  induction charges generalizing answers with
  | nil => rfl
  | cons c charges ih =>
      cases answers with
      | nil => rfl
      | cons accepted answers =>
          have hc := hlater c List.mem_cons_self
          unfold acceptedIn
          rw [if_neg fun h => absurd h.2.2 (not_le.mpr hc), zero_add]
          exact ih fun c' hc' => hlater c' (List.mem_cons_of_mem c hc')

/-- While the clock does not step backwards, a key takes at most what was left to it and
what it has gained since. -/
theorem acceptedIn_le_remaining {since finish : K} (hle : since ≤ finish)
    (hsorted : charges.Pairwise fun c c' => c.now ≤ c'.now) (hstart : ∀ c ∈ charges, since ≤ c.now)
    {from' : K} (hfrom : from' ≤ since) :
    acceptedIn from' finish key charges (law.answers s charges) ≤
      max 0 (law.remaining since (s key)) + law.rate * (finish - since) := by
  induction charges generalizing s since with
  | nil => exact add_nonneg (le_max_left _ _) (law.gain_nonneg hle)
  | cons c charges ih =>
      obtain ⟨hfirst, hrest⟩ := List.pairwise_cons.mp hsorted
      have hc := hstart c List.mem_cons_self
      rcases le_or_gt c.now finish with hend | hend
      · have hlater := @ih (law.chargeKey s c) c.now hend hrest hfirst (hfrom.trans hc)
        have htaken := law.taken_add_remaining_le s key c
        have hgained : max 0 (law.remaining c.now (s key)) ≤
            max 0 (law.remaining since (s key)) + law.rate * (c.now - since) :=
          max_le (add_nonneg (le_max_left _ _) (law.gain_nonneg hc))
            ((remaining_le_add hc).trans (by gcongr; exact le_max_right _ _))
        have hsum : law.rate * (c.now - since) + law.rate * (finish - c.now) =
            law.rate * (finish - since) := by ring
        have hwindow : ((c.key = key ∧ law.answer s c = true) ∧ from' ≤ c.now ∧ c.now ≤ finish) ↔
            c.key = key ∧ law.answer s c = true :=
          and_iff_left ⟨hfrom.trans hc, hend⟩
        show (if _ then _ else _) + acceptedIn from' finish key charges
          (law.answers (law.chargeKey s c) charges) ≤ _
        simp only [hwindow]
        linarith
      · rw [acceptedIn_of_later fun c' hc' => ?_]
        · exact add_nonneg (le_max_left _ _) (law.gain_nonneg hle)
        · rcases List.mem_cons.mp hc' with rfl | hmem
          · exact hend
          · exact hend.trans_le (hfirst c' hmem)

/-- **In any time in which the clock does not step backwards, a key takes at most a full
bucket and what a bucket gains in that time.** -/
theorem acceptedIn_le {since finish : K} (hle : since ≤ finish)
    (hsorted : charges.Pairwise fun c c' => c.now ≤ c'.now) :
    acceptedIn since finish key charges (law.answers s charges) ≤
      law.capacity + law.rate * (finish - since) := by
  induction charges generalizing s with
  | nil => exact add_nonneg law.capacity_nonneg (law.gain_nonneg hle)
  | cons c charges ih =>
      rcases lt_or_ge c.now since with hearly | hstart
      · -- before the window: the bound does not depend on what is charged
        show (if _ then _ else _) + acceptedIn since finish key charges
          (law.answers (law.chargeKey s c) charges) ≤ _
        rw [if_neg fun h => absurd h.2.1 (not_le.mpr hearly), zero_add]
        exact ih (List.pairwise_cons.mp hsorted).2
      · have hall : ∀ c' ∈ c :: charges, since ≤ c'.now := by
          intro c' hc'
          rcases List.mem_cons.mp hc' with rfl | hmem
          · exact hstart
          · exact hstart.trans ((List.pairwise_cons.mp hsorted).1 c' hmem)
        exact (acceptedIn_le_remaining hle hsorted hall le_rfl).trans
          (add_le_add_left (max_le law.capacity_nonneg remaining_le_capacity) _)

theorem acceptedFor_le {since finish : K} (hle : since ≤ finish)
    (hsorted : charges.Pairwise fun c c' => c.now ≤ c'.now)
    (hwithin : ∀ c ∈ charges, since ≤ c.now ∧ c.now ≤ finish) :
    acceptedFor key charges (law.answers s charges) ≤
      law.capacity + law.rate * (finish - since) := by
  rw [← acceptedIn_eq_acceptedFor hwithin]
  exact acceptedIn_le hle hsorted

/-! ## Forgetting full buckets -/

/-- What is stored of the buckets that would be kept: all but some that are full. -/
structure Forgets (law : BucketLaw K) (last : K) (stored kept : κ → Option (RateBucket K)) :
    Prop where
  kept_of_stored : ∀ {k b}, stored k = some b → kept k = some b
  nonneg : ∀ {k b}, kept k = some b → 0 ≤ b.level
  past : ∀ {k b}, kept k = some b → b.updatedAt ≤ last
  full : ∀ {k b}, kept k = some b → stored k = none →
    law.capacity ≤ b.level + law.rate * (last - b.updatedAt)

namespace Forgets

variable {last now : K} {stored swept kept : κ → Option (RateBucket K)} {k : κ}

omit [DecidableEq κ] [IsStrictOrderedRing K] in
theorem empty (law : BucketLaw K) (last : K) :
    law.Forgets last (fun _ : κ => none) fun _ => none where
  kept_of_stored h := absurd h (by simp)
  nonneg h := absurd h (by simp)
  past h := absurd h (by simp)
  full h := absurd h (by simp)

omit [DecidableEq κ] in
theorem remaining_eq (h : law.Forgets last stored kept) (hlast : last ≤ now) (k : κ) :
    law.remaining now (stored k) = law.remaining now (kept k) := by
  cases hstored : stored k with
  | some b => rw [h.kept_of_stored hstored]
  | none =>
      cases hkept : kept k with
      | none => rfl
      | some b =>
          have hfull := h.full hkept hstored
          have hgain := law.gain_nonneg hlast
          have hsum : law.rate * (last - b.updatedAt) + law.rate * (now - last) =
              law.rate * (now - b.updatedAt) := by ring
          have hnow : law.capacity ≤ b.level + law.rate * (now - b.updatedAt) := by linarith
          exact (min_eq_left hnow).symm

omit [DecidableEq κ] in
theorem remaining_nonneg (h : law.Forgets last stored kept) (hlast : last ≤ now) (k : κ) :
    0 ≤ law.remaining now (kept k) := by
  cases hkept : kept k with
  | none => exact law.capacity_nonneg
  | some b =>
      have hlevel := h.nonneg hkept
      have hgain := law.gain_nonneg ((h.past hkept).trans hlast)
      exact le_min law.capacity_nonneg (by linarith)

omit [DecidableEq κ] in
/-- Time passes, and some full buckets are forgotten. -/
theorem sweep (h : law.Forgets last stored kept) (hlast : last ≤ now)
    (hstored : ∀ {k b}, swept k = some b → stored k = some b)
    (hfull : ∀ {k b}, stored k = some b → swept k = none →
      law.capacity ≤ b.level + law.rate * (now - b.updatedAt)) :
    law.Forgets now swept kept where
  kept_of_stored hb := h.kept_of_stored (hstored hb)
  nonneg := h.nonneg
  past hb := (h.past hb).trans hlast
  full := by
    intro k b hb hforgotten
    cases hget : stored k with
    | some b' =>
        obtain rfl := Option.some.inj ((h.kept_of_stored hget).symm.trans hb)
        exact hfull hget hforgotten
    | none =>
        have hold := h.full hb hget
        have hgain := law.gain_nonneg hlast
        have hsum : law.rate * (last - b.updatedAt) + law.rate * (now - last) =
            law.rate * (now - b.updatedAt) := by ring
        linarith

/-- A charge finds as much in what is stored. -/
theorem charge {c : Charge κ K} (h : law.Forgets c.now stored kept) :
    law.Forgets c.now (law.chargeKey stored c) (law.chargeKey kept c) := by
  have hsame : law.charge c.now c.amount (stored c.key) = law.charge c.now c.amount (kept c.key) :=
    charge_congr (h.remaining_eq le_rfl c.key)
  have hnonneg := h.remaining_nonneg le_rfl c.key
  refine ⟨?_, ?_, ?_, ?_⟩
  all_goals intro k b hb
  all_goals by_cases hk : k = c.key
  · subst hk
    rw [chargeKey_self, hsame] at hb
    rw [chargeKey_self]
    exact hb
  · rw [chargeKey_of_ne hk] at hb ⊢
    exact h.kept_of_stored hb
  · subst hk
    rw [chargeKey_self] at hb
    obtain rfl := Option.some.inj hb
    exact level_charge_nonneg hnonneg
  · rw [chargeKey_of_ne hk] at hb
    exact h.nonneg hb
  · subst hk
    rw [chargeKey_self] at hb
    obtain rfl := Option.some.inj hb
    exact updatedAt_charge.le
  · rw [chargeKey_of_ne hk] at hb
    exact h.past hb
  · subst hk
    rw [chargeKey_self]
    exact fun hnone => absurd hnone (by simp)
  · rw [chargeKey_of_ne hk] at hb ⊢
    exact h.full hb

end Forgets

end BucketLaw

end OpenStreamGrid

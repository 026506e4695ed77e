import OpenStreamGrid.Lib.TokenBucket
import OpenStreamGrid.Tracker.SocketConfinement

/-!
# Message budgets

A socket's messages are charged to its budget before they are read. However the
clock moves, the tracker reads at most a burst of them and what the rate has
given since the first, over every run and whatever else happens in it.
-/

namespace OpenStreamGrid

/-- The budget of a socket as a bucket, with times in milliseconds. -/
def messageLaw : BucketLaw ℚ where
  capacity := MESSAGE_BURST
  rate := MESSAGE_RATE_PER_SECOND / 1000
  capacity_nonneg := by norm_num
  rate_pos := by norm_num [MESSAGE_RATE_PER_SECOND]

def MessageBudget.bucket (budget : MessageBudget) : RateBucket ℚ :=
  ⟨budget.tokens, (budget.updatedAt : ℚ)⟩

namespace MessageHub

variable {m m' : MessageHub} {s : SocketId} {e : MessageHubEvent} {es : List MessageHubEvent}

/-! ## One message -/

/-- The budget is a bucket from which every message takes a token. -/
theorem consumeMessageBudget_charge {budget : MessageBudget}
    (hget : m.messageBudgets.get? s = some budget) (now : Timestamp) :
    ∃ budget' : MessageBudget,
      m.consumeMessageBudget s now =
        ({ m with messageBudgets := m.messageBudgets.set s budget' },
          (messageLaw.charge (now : ℚ) 1 (some budget.bucket)).2) ∧
      budget'.bucket = (messageLaw.charge (now : ℚ) 1 (some budget.bucket)).1 := by
  have hremaining : messageLaw.remaining (now : ℚ) (some budget.bucket) =
      min (MESSAGE_BURST : ℚ)
        (budget.tokens + ((now - budget.updatedAt : ℤ) : ℚ) / 1000 * MESSAGE_RATE_PER_SECOND) := by
    have hgain : messageLaw.rate * ((now : ℚ) - (budget.updatedAt : ℚ)) =
        ((now - budget.updatedAt : ℤ) : ℚ) / 1000 * MESSAGE_RATE_PER_SECOND := by
      show (MESSAGE_RATE_PER_SECOND : ℚ) / 1000 * _ = _
      push_cast
      ring
    show min (MESSAGE_BURST : ℚ) (budget.tokens + _) = _
    rw [show messageLaw.rate * ((now : ℚ) - budget.bucket.updatedAt) = _ from hgain]
  unfold consumeMessageBudget
  rw [hget]
  dsimp only
  rw [← hremaining]
  by_cases htokens : messageLaw.remaining (now : ℚ) (some budget.bucket) < 1
  · rw [if_pos htokens, BucketLaw.charge_of_lt htokens]
    exact ⟨_, rfl, rfl⟩
  · rw [if_neg htokens, BucketLaw.charge_of_le (not_lt.mp htokens)]
    exact ⟨_, rfl, rfl⟩

/-- What the clock said when a text of the socket was read, if this event is one
that is. -/
def readAt (m : MessageHub) (s : SocketId) : MessageHubEvent → Option Timestamp
  | .message x false clock _ =>
      if x = s ∧ (m.consumeMessageBudget s clock.budget).2 = true then some clock.budget else none
  | _ => none

/-- Every reading of the clock for a text of the socket that was read, along a run. -/
def readings (s : SocketId) : MessageHub → List MessageHubEvent → List Timestamp
  | _, [] => []
  | m, e :: es =>
      match m.step e with
      | none => []
      | some m' => (m.readAt s e).toList ++ readings s m' es

theorem readings_cons (hstep : m.step e = some m') :
    readings s m (e :: es) = (m.readAt s e).toList ++ readings s m' es := by
  show (match m.step e with
    | none => []
    | some m' => (m.readAt s e).toList ++ readings s m' es) = _
  rw [hstep]

/-! ## One step -/

theorem Accepts.messageBudgets {data : Except String JsValue} (h : Accepts m s data m') :
    m'.messageBudgets = m.messageBudgets := by
  cases h <;> rfl

theorem messageBudgets_handleMessage (clock : ClockReadings) (data : Except String JsValue) :
    (m.handleMessage s clock data).1.messageBudgets = m.messageBudgets := by
  have hcases := m.handleMessage_cases s clock data
  generalize m.handleMessage s clock data = handled at hcases ⊢
  cases hcases with
  | refused => rfl
  | accepted h => exact h.messageBudgets

/-- A text costs its socket what the budget says, and no other socket anything. -/
theorem messageBudgets_onMessage (x : SocketId) (isBinary : Bool) (clock : ClockReadings)
    (data : Except String JsValue) :
    (m.onMessage x isBinary clock data).messageBudgets =
      if isBinary then m.messageBudgets
      else (m.consumeMessageBudget x clock.budget).1.messageBudgets := by
  unfold onMessage
  by_cases hbinary : isBinary = true
  · rw [if_pos hbinary, if_pos hbinary]
    rfl
  · rw [if_neg hbinary, if_neg hbinary]
    generalize m.consumeMessageBudget x clock.budget = consumed
    obtain ⟨m₁, within⟩ := consumed
    cases within with
    | false => rfl
    | true =>
        have hhandled := messageBudgets_handleMessage (m := m₁) (s := x) clock data
        dsimp only
        generalize m₁.handleMessage x clock data = handled at hhandled ⊢
        obtain ⟨m₂, refusal⟩ := handled
        cases refusal <;> exact hhandled

/-- The sockets of the budgets have connected. -/
def Budgeted (m : MessageHub) : Prop := ∀ s, s ∈ m.messageBudgets → (m.hub.claimsOf s).isSome

theorem claimsOf_step (hr : system.Reachable (fun _ _ => True) m) (hstep : m.step e = some m')
    (hs : (m.hub.claimsOf s).isSome) : (m'.hub.claimsOf s).isSome := by
  obtain ⟨claims, hclaims⟩ := Option.isSome_iff_exists.mp hs
  exact Option.isSome_iff_exists.mpr ⟨claims, session_step hr hstep hclaims⟩

/-- What an event does to the budget of a socket. -/
inductive BudgetStep (m m' : MessageHub) (s : SocketId) (e : MessageHubEvent) : Prop where
  | untouched (hget : m'.messageBudgets.get? s = m.messageBudgets.get? s)
      (hread : m.readAt s e = none)
  | granted (now : Timestamp) (hfresh : m.hub.claimsOf s = none)
      (hconnected : (m'.hub.claimsOf s).isSome)
      (hget : m'.messageBudgets.get? s = some ⟨MESSAGE_BURST, now⟩) (hread : m.readAt s e = none)
  | dropped (hget : m'.messageBudgets.get? s = none) (hread : m.readAt s e = none)
  | charged {budget budget' : MessageBudget} {now : Timestamp}
      (hget : m.messageBudgets.get? s = some budget)
      (hget' : m'.messageBudgets.get? s = some budget')
      (hbucket : budget'.bucket = (messageLaw.charge (now : ℚ) 1 (some budget.bucket)).1)
      (hread : m.readAt s e =
        if (messageLaw.charge (now : ℚ) 1 (some budget.bucket)).2 = true then some now else none)

theorem consumeMessageBudget_of_none {now : Timestamp} (hget : m.messageBudgets.get? s = none) :
    m.consumeMessageBudget s now = (m, false) := by
  unfold consumeMessageBudget
  rw [hget]

theorem get?_messageBudgets_consume_of_ne {x : SocketId} (hx : s ≠ x) (now : Timestamp) :
    (m.consumeMessageBudget x now).1.messageBudgets.get? s = m.messageBudgets.get? s := by
  cases hget : m.messageBudgets.get? x with
  | none => rw [consumeMessageBudget_of_none hget]
  | some budget =>
      obtain ⟨budget', heq, -⟩ := consumeMessageBudget_charge hget now
      rw [heq]
      show (m.messageBudgets.set x budget').get? s = _
      rw [OrderedMap.get?_set, if_neg hx]

theorem budgetStep_message {x : SocketId} {isBinary : Bool} {clock : ClockReadings}
    {data : Except String JsValue} :
    BudgetStep m (m.onMessage x isBinary clock data) s (.message x isBinary clock data) := by
  have hbudgets := messageBudgets_onMessage (m := m) x isBinary clock data
  cases isBinary with
  | true => exact .untouched (congrArg (OrderedMap.get? · s) hbudgets) rfl
  | false =>
      rw [if_neg Bool.false_ne_true] at hbudgets
      by_cases hx : x = s
      · subst hx
        cases hget : m.messageBudgets.get? x with
        | none =>
            rw [consumeMessageBudget_of_none hget] at hbudgets
            refine .untouched (congrArg (OrderedMap.get? · x) hbudgets) (if_neg ?_)
            rw [consumeMessageBudget_of_none hget]
            exact fun h => Bool.false_ne_true h.2
        | some budget =>
            obtain ⟨budget', heq, hbucket⟩ :=
              consumeMessageBudget_charge hget clock.budget
            refine .charged hget (?_ : _ = some budget') hbucket ?_
            · rw [hbudgets, heq]
              show (m.messageBudgets.set x budget').get? x = _
              rw [OrderedMap.get?_set, if_pos rfl]
            · show (if _ then _ else _) = _
              rw [heq]
              simp only [true_and]
      · refine .untouched ?_ (if_neg fun h => hx h.1)
        rw [hbudgets, get?_messageBudgets_consume_of_ne (Ne.symm hx)]

theorem budgetStep (hstep : m.step e = some m') : BudgetStep m m' s e := by
  cases e with
  | hub e =>
      unfold step at hstep
      dsimp only at hstep
      split_ifs at hstep
      obtain ⟨hub, -, rfl⟩ := Option.map_eq_some_iff.mp hstep
      exact .untouched rfl rfl
  | connected x claims now =>
      obtain ⟨hub, hhub, rfl⟩ := Option.map_eq_some_iff.mp hstep
      by_cases hx : s = x
      · subst hx
        unfold TrackerWebSocketHub.step at hhub
        dsimp only at hhub
        split_ifs at hhub with hcond
        obtain rfl := Option.some.inj hhub
        refine .granted now ?_ ?_ ?_ rfl
        · unfold TrackerWebSocketHub.claimsOf
          rw [OrderedMap.get?_eq_none_iff.mpr fun h => hcond (Or.inl h)]
          rfl
        · unfold TrackerWebSocketHub.claimsOf
          rw [OrderedMap.get?_set, if_pos rfl]
          rfl
        · show (m.messageBudgets.set s _).get? s = _
          rw [OrderedMap.get?_set, if_pos rfl]
      · refine .untouched ?_ rfl
        show (m.messageBudgets.set x _).get? s = _
        rw [OrderedMap.get?_set, if_neg hx]
  | message x isBinary clock data =>
      unfold step at hstep
      dsimp only at hstep
      split_ifs at hstep
      obtain rfl := Option.some.inj hstep
      exact budgetStep_message
  | closed x =>
      obtain ⟨hub, -, rfl⟩ := Option.map_eq_some_iff.mp hstep
      by_cases hx : s = x
      · subst hx
        refine .dropped ?_ rfl
        show (m.messageBudgets.delete s).get? s = none
        rw [OrderedMap.get?_delete, if_pos rfl]
      · refine .untouched ?_ rfl
        show (m.messageBudgets.delete x).get? s = _
        rw [OrderedMap.get?_delete, if_neg hx]

theorem budgeted_of_reachable (hr : system.Reachable (fun _ _ => True) m) : m.Budgeted := by
  induction hr with
  | init h0 =>
      obtain ⟨perTurn, size, random, store, rates, rfl, -⟩ := h0
      exact fun s hs => absurd hs (OrderedMap.not_mem_empty s)
  | @step m m' e hr _ hstep ih =>
      intro s hs
      rw [OrderedMap.mem_iff_isSome] at hs
      cases budgetStep (s := s) hstep with
      | untouched hget _ =>
          rw [hget, ← OrderedMap.mem_iff_isSome] at hs
          exact claimsOf_step hr hstep (ih s hs)
      | granted _ _ hconnected _ _ => exact hconnected
      | dropped hget _ =>
          rw [hget] at hs
          cases hs
      | charged hget _ _ _ =>
          exact claimsOf_step hr hstep (ih s (OrderedMap.mem_of_get? hget))

/-! ## Runs -/

/-- A socket that is gone has no more messages read. -/
theorem readings_of_none (hr : system.Reachable (fun _ _ => True) m)
    (hs : (m.hub.claimsOf s).isSome) (hget : m.messageBudgets.get? s = none)
    (hrun : system.run m es = some m') : readings s m es = [] := by
  induction es generalizing m with
  | nil => rfl
  | cons e es ih =>
      obtain ⟨m₁, hstep, hrest⟩ := (TransitionSystem.run_cons_eq_some system).mp hrun
      have hr₁ : system.Reachable (fun _ _ => True) m₁ := .step hr trivial hstep
      have hs₁ := claimsOf_step hr hstep hs
      rw [readings_cons hstep]
      cases budgetStep (s := s) hstep with
      | untouched hget' hread =>
          rw [hread, ih hr₁ hs₁ (hget'.trans hget) hrest]
          rfl
      | granted _ hfresh _ _ _ =>
          rw [hfresh] at hs
          cases hs
      | dropped hget' hread =>
          rw [hread, ih hr₁ hs₁ hget' hrest]
          rfl
      | charged hget' _ _ _ =>
          rw [hget] at hget'
          cases hget'

/-- What is left in a bucket, and what it gains until the last message is read, pays
for them all. -/
theorem length_readings_le (hr : system.Reachable (fun _ _ => True) m) {budget : MessageBudget}
    (hget : m.messageBudgets.get? s = some budget) (hrun : system.run m es = some m')
    {last : Timestamp} (hlast : (readings s m es).getLast? = some last) :
    ((readings s m es).length : ℚ) ≤
      budget.bucket.level + messageLaw.rate * ((last : ℚ) - budget.bucket.updatedAt) := by
  induction es generalizing m budget with
  | nil => cases hlast
  | cons e es ih =>
      obtain ⟨m₁, hstep, hrest⟩ := (TransitionSystem.run_cons_eq_some system).mp hrun
      have hr₁ : system.Reachable (fun _ _ => True) m₁ := .step hr trivial hstep
      have hs : (m.hub.claimsOf s).isSome :=
        budgeted_of_reachable hr s (OrderedMap.mem_of_get? hget)
      rw [readings_cons hstep] at hlast ⊢
      cases budgetStep (s := s) hstep with
      | untouched hget' hread =>
          rw [hread] at hlast ⊢
          exact ih hr₁ (hget'.trans hget) hrest hlast
      | granted _ hfresh _ _ _ =>
          rw [hfresh] at hs
          cases hs
      | dropped hget' hread =>
          rw [hread, readings_of_none hr₁ (claimsOf_step hr hstep hs) hget' hrest] at hlast
          cases hlast
      | @charged found budget' now hfound hget' hbucket hread =>
          obtain rfl := Option.some.inj (hget.symm.trans hfound)
          have hcharge := messageLaw.level_charge_add_le (b := budget.bucket) (now : ℚ) 1
          have hupdated : budget'.bucket.updatedAt = (now : ℚ) := by
            rw [hbucket, BucketLaw.updatedAt_charge]
          have hsum : messageLaw.rate * ((now : ℚ) - budget.bucket.updatedAt) +
              messageLaw.rate * ((last : ℚ) - now) =
                messageLaw.rate * ((last : ℚ) - budget.bucket.updatedAt) := by ring
          have hlater : (readings s m₁ es).getLast? = some last →
              ((readings s m₁ es).length : ℚ) ≤
                budget'.bucket.level + messageLaw.rate * ((last : ℚ) - now) := by
            intro hlast
            rw [← hupdated]
            exact ih hr₁ hget' hrest hlast
          rw [hread] at hlast ⊢
          cases haccepted : (messageLaw.charge (now : ℚ) 1 (some budget.bucket)).2 with
          | false =>
              rw [haccepted, if_neg Bool.false_ne_true] at hlast hcharge
              rw [if_neg Bool.false_ne_true]
              rw [← hbucket] at hcharge
              have hlength := hlater hlast
              rw [Option.toList_none, List.nil_append]
              linarith
          | true =>
              rw [haccepted, if_pos rfl] at hlast hcharge
              have hleft : 0 ≤ budget'.bucket.level := by
                have hle := BucketLaw.charge_accepted.mp haccepted
                rw [hbucket, BucketLaw.charge_of_le hle]
                exact sub_nonneg.mpr hle
              rw [← hbucket] at hcharge
              rw [if_pos rfl, Option.toList_some, List.singleton_append, List.length_cons]
              push_cast
              rw [Option.toList_some, List.singleton_append] at hlast
              cases hread' : readings s m₁ es with
              | nil =>
                  rw [hread', List.getLast?_singleton, Option.some.injEq] at hlast
                  subst hlast
                  rw [List.length_nil, Nat.cast_zero]
                  linarith
              | cons later rest =>
                  rw [hread', List.getLast?_cons_cons, ← hread'] at hlast
                  have hlength := hlater hlast
                  rw [← hread']
                  linarith

/-- **The tracker reads no more of a socket's messages than a burst and what the rate gives from
the first to the last**, whichever way the clock moves between them. -/
theorem messages_read_bounded (hr : system.Reachable (fun _ _ => True) m)
    (hrun : system.run m es = some m') {first last : Timestamp}
    (hfirst : (readings s m es).head? = some first)
    (hlast : (readings s m es).getLast? = some last) :
    ((readings s m es).length : ℚ) ≤
      MESSAGE_BURST + (MESSAGE_RATE_PER_SECOND : ℚ) / 1000 * ((last : ℚ) - first) := by
  induction es generalizing m with
  | nil => cases hlast
  | cons e es ih =>
      obtain ⟨m₁, hstep, hrest⟩ := (TransitionSystem.run_cons_eq_some system).mp hrun
      have hr₁ : system.Reachable (fun _ _ => True) m₁ := .step hr trivial hstep
      rw [readings_cons hstep] at hfirst hlast ⊢
      cases hread : m.readAt s e with
      | none =>
          rw [hread] at hfirst hlast
          exact ih hr₁ hrest hfirst hlast
      | some now =>
          rw [hread, Option.toList_some, List.singleton_append] at hfirst hlast
          rw [List.head?_cons, Option.some.injEq] at hfirst
          subst hfirst
          rw [Option.toList_some, List.singleton_append]
          cases budgetStep (s := s) hstep with
          | untouched _ hread' | granted _ _ _ _ hread' | dropped _ hread' =>
              rw [hread] at hread'
              cases hread'
          | @charged budget budget' now' hget hget' hbucket hread' =>
              rw [hread] at hread'
              split_ifs at hread' with haccepted
              obtain rfl := Option.some.inj hread'
              have hle := BucketLaw.charge_accepted.mp haccepted
              rw [BucketLaw.charge_of_le hle] at hbucket
              have hlevel : budget'.bucket.level + 1 ≤ MESSAGE_BURST := by
                have hcapacity :
                    messageLaw.remaining (now : ℚ) (some budget.bucket) ≤ MESSAGE_BURST :=
                  BucketLaw.remaining_le_capacity
                rw [hbucket]
                show messageLaw.remaining _ _ - 1 + 1 ≤ _
                rwa [sub_add_cancel]
              rw [List.length_cons]
              push_cast
              cases hread' : readings s m₁ es with
              | nil =>
                  rw [hread', List.getLast?_singleton, Option.some.injEq] at hlast
                  subst hlast
                  norm_num [MESSAGE_BURST]
              | cons later rest =>
                  rw [hread', List.getLast?_cons_cons, ← hread'] at hlast
                  have hlength := length_readings_le hr₁ hget' hrest hlast
                  rw [hbucket] at hlength hlevel
                  rw [← hread']
                  refine (add_le_add_left hlength 1).trans ?_
                  show _ + messageLaw.rate * ((last : ℚ) - now) + 1 ≤
                    _ + messageLaw.rate * ((last : ℚ) - now)
                  linarith

/-- The clock steps back between two subscriptions. -/
def steppedBack : List MessageHubEvent :=
  bothSubscribed ++ [textLive 0 1000 "subscribe" "p" [], textLive 0 400 "subscribe" "p" []]

theorem steppedBack_bounded :
    readings 0 start steppedBack = [0, 1000, 400] ∧
      ((readings 0 start steppedBack).length : ℚ) ≤
        MESSAGE_BURST + (MESSAGE_RATE_PER_SECOND : ℚ) / 1000 * ((400 : Timestamp) - (0 : Timestamp)) := by
  have hread : readings 0 start steppedBack = [0, 1000, 400] := by decide +kernel
  obtain ⟨m, hrun⟩ : ∃ m, system.run start steppedBack = some m :=
    Option.isSome_iff_exists.mp (by decide +kernel)
  refine ⟨hread, messages_read_bounded (.init init_start) hrun ?_ ?_⟩
  · rw [hread]
    rfl
  · rw [hread]
    rfl

end MessageHub

end OpenStreamGrid

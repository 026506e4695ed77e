import Mathlib
import OpenStreamGrid.Lib.OrderedSet
import OpenStreamGrid.Lib.TimedSystem

/-!
# Statistics for the dashboards

The tracker sends its dashboards a snapshot when something has changed, at most
one in an interval, and another at regular times. A change that comes too early
waits for the end of the interval and is sent with those that come after it.
-/

namespace OpenStreamGrid

abbrev DashboardId := ℕ

inductive StatsEventName where
  | broadcasts
  | stats
deriving DecidableEq

/-- An event as it was offered to a client. It is written unless the client has to drain. -/
structure OfferedEvent where
  name : StatsEventName
  id : ℕ
  /-- How many of the changes its snapshot shows. -/
  shows : ℕ
  time : ℚ≥0
  written : Bool
deriving DecidableEq

structure NotifiedChange where
  name : StatsEventName
  time : ℚ≥0
deriving DecidableEq

def STATS_EVENT_INTERVAL_MS : ℚ≥0 := (3000 : ℕ)
def STATS_EVENT_MIN_INTERVAL_MS : ℚ≥0 := (1000 : ℕ)

structure TrackerStatsSse where
  clients : OrderedSet DashboardId
  /-- Whether a response is destroyed or has ended. -/
  gone : DashboardId → Bool
  needsDrain : DashboardId → Bool
  eventSequence : ℕ
  /-- What the clock says when the timer fires next. -/
  publishTimer : Option ℚ≥0
  pendingEvent : Option StatsEventName
  pendingTimer : Option ℚ≥0
  /-- Nothing stands for minus infinity. -/
  lastPublishedAt : Option ℚ≥0
  offered : DashboardId → List OfferedEvent
  /-- The changes so far, with the event that was asked for. -/
  changes : List NotifiedChange
  /-- How many changes there were when a client connected. -/
  joined : DashboardId → ℕ
  /-- When snapshots were sent because of a change. -/
  requested : List ℚ≥0

inductive StatsLabel where
  | connect (client : DashboardId)
  | closed (client : DashboardId)
  /-- A response ends before its `close` event. -/
  | gone (client : DashboardId)
  | drain (client : DashboardId) (needsDrain : Bool)
  /-- The store has changed, and the hub says so. -/
  | changed (name : StatsEventName)
  | pending
  | tick
  | stop

namespace TrackerStatsSse

def new : TrackerStatsSse where
  clients := ∅
  gone _ := false
  needsDrain _ := false
  eventSequence := 0
  publishTimer := none
  pendingEvent := none
  pendingTimer := none
  lastPublishedAt := none
  offered _ := []
  changes := []
  joined _ := 0
  requested := []

section Operations

variable (minIntervalMs now : ℚ≥0) (s : TrackerStatsSse)

def writeEvent (name : StatsEventName) (eventId : ℕ) (s : TrackerStatsSse)
    (client : DashboardId) : TrackerStatsSse :=
  if s.gone client then { s with clients := s.clients.erase client }
  else
    { s with
      offered := Function.update s.offered client
        (s.offered client ++
          [⟨name, eventId, s.changes.length, now, !s.needsDrain client⟩]) }

def publish (name : StatsEventName) : TrackerStatsSse :=
  if s.clients.size = 0 then s
  else
    let s := { s with lastPublishedAt := some now, eventSequence := s.eventSequence + 1 }
    s.clients.toList.foldl (writeEvent now name s.eventSequence) s

def publishTo (client : DashboardId) (name : StatsEventName) : TrackerStatsSse :=
  let s := { s with eventSequence := s.eventSequence + 1 }
  writeEvent now name s.eventSequence s client

def publishPending : TrackerStatsSse :=
  match s.pendingEvent with
  | none => s
  | some name =>
      { s with
        pendingEvent := none
        requested := if s.clients.size = 0 then s.requested else s.requested ++ [now] }.publish
          now name

/-- The store has changed. -/
def notify (name : StatsEventName) : TrackerStatsSse :=
  { s with changes := s.changes ++ [⟨name, now⟩] }

def requestPublish (name : StatsEventName) : TrackerStatsSse :=
  if s.clients.size = 0 then s
  else
    let s :=
      if s.pendingEvent = some .broadcasts then s else { s with pendingEvent := some name }
    if s.pendingTimer.isSome then s
    else
      match s.lastPublishedAt with
      | none => s.publishPending now
      | some last =>
          if last + minIntervalMs ≤ now then s.publishPending now
          else { s with pendingTimer := some (last + minIntervalMs) }

def startTimer : TrackerStatsSse :=
  if s.publishTimer.isSome then s
  else { s with publishTimer := some (now + STATS_EVENT_INTERVAL_MS) }

def stopTimerWhenIdle : TrackerStatsSse :=
  if 0 < s.clients.size then s else { s with publishTimer := none }

def connect (client : DashboardId) : TrackerStatsSse :=
  ({ s with
    clients := s.clients.insert client
    joined := Function.update s.joined client s.changes.length }.publishTo now client
      .stats).startTimer now

def onClose (client : DashboardId) : TrackerStatsSse :=
  { s with clients := s.clients.erase client }.stopTimerWhenIdle

def stop : TrackerStatsSse :=
  { s with
    publishTimer := none
    pendingTimer := none
    pendingEvent := none
    gone := fun client => decide (client ∈ s.clients) || s.gone client
    clients := ∅ }

def timers : List ℚ≥0 := s.publishTimer.toList ++ s.pendingTimer.toList

def step : StatsLabel → Option TrackerStatsSse
  | .connect client =>
      if s.offered client = [] ∧ s.gone client = false then some (s.connect now client) else none
  | .closed client => some (s.onClose client)
  | .gone client => some { s with gone := Function.update s.gone client true }
  | .drain client needsDrain =>
      some { s with needsDrain := Function.update s.needsDrain client needsDrain }
  | .changed name =>
      some ((s.notify now name).requestPublish minIntervalMs now name)
  | .pending =>
      if s.pendingTimer = some now then
        some ({ s with pendingTimer := none }.publishPending now)
      else none
  | .tick =>
      if s.publishTimer = some now then
        some ({ s with publishTimer := some (now + STATS_EVENT_INTERVAL_MS) }.publish now .stats)
      else none
  | .stop => some s.stop

end Operations

/-- The event publisher; `Date.now()` is the time since the start. -/
def system (minIntervalMs : ℚ≥0) : TimedSystem TrackerStatsSse StatsLabel where
  init s := s = new
  timers := timers
  event now s e := s.step minIntervalMs now e

variable {minIntervalMs now later : ℚ≥0} {s s' : TrackerStatsSse} {name : StatsEventName}
  {client c : DashboardId} {id : ℕ}

/-! ## One event -/

/-- What a client is offered. -/
def offer (now : ℚ≥0) (name : StatsEventName) (id : ℕ) (s : TrackerStatsSse)
    (client : DashboardId) : OfferedEvent :=
  ⟨name, id, s.changes.length, now, !s.needsDrain client⟩

/-- The loop over the clients, each of which is met once. -/
theorem foldl_writeEvent {written : List DashboardId} (hnodup : written.Nodup) :
    ∀ s : TrackerStatsSse, written.foldl (writeEvent now name id) s = { s with
      clients := s.clients.eraseAll (written.filter s.gone)
      offered := fun c =>
        if c ∈ written ∧ s.gone c = false then s.offered c ++ [offer now name id s c]
        else s.offered c } := by
  induction written with
  | nil => exact fun s => by simp [OrderedSet.eraseAll]
  | cons client rest ih =>
      obtain ⟨hfresh, hrest⟩ := List.nodup_cons.mp hnodup
      intro s
      rw [List.foldl_cons, ih hrest]
      unfold writeEvent
      by_cases hgone : s.gone client = true
      · rw [if_pos hgone]
        dsimp only
        congr 1
        · rw [List.filter_cons_of_pos hgone]
          rfl
        · funext c
          by_cases hc : c = client
          · subst hc
            rw [if_neg (fun h => hfresh h.1), if_neg (fun h => by rw [h.2] at hgone; cases hgone)]
          · simp only [List.mem_cons, hc, false_or]
            rfl
      · rw [if_neg hgone]
        dsimp only
        congr 1
        · rw [List.filter_cons_of_neg hgone]
        · funext c
          by_cases hc : c = client
          · subst hc
            rw [if_neg (fun h => hfresh h.1), Function.update_self,
              if_pos ⟨List.mem_cons_self, Bool.not_eq_true _ ▸ hgone⟩]
            rfl
          · rw [Function.update_of_ne hc]
            simp only [List.mem_cons, hc, false_or]
            rfl

/-- What sending a snapshot to some clients does. -/
structure Offers (now : ℚ≥0) (name : StatsEventName) (audience : DashboardId → Prop)
    (s s' : TrackerStatsSse) : Prop where
  clients : ∀ c, c ∈ s'.clients → c ∈ s.clients
  /-- Whoever is still a client was offered the snapshot. -/
  offered : ∀ c, c ∈ s'.clients → audience c → s'.offered c = s.offered c ++
    [offer now name (s.eventSequence + 1) s c]
  either : ∀ c, s'.offered c = s.offered c ∨
    s'.offered c = s.offered c ++ [offer now name (s.eventSequence + 1) s c]
  sequence : s'.eventSequence = s.eventSequence + 1
  changes : s'.changes = s.changes
  joined : s'.joined = s.joined
  publishTimer : s'.publishTimer = s.publishTimer
  pendingEvent : s'.pendingEvent = s.pendingEvent
  pendingTimer : s'.pendingTimer = s.pendingTimer
  requested : s'.requested = s.requested

theorem publish_offers (hclients : s.clients.size ≠ 0) (now : ℚ≥0) (name : StatsEventName) :
    Offers now name (fun _ => True) s (s.publish now name) ∧
      (s.publish now name).lastPublishedAt = some now := by
  unfold publish
  rw [if_neg hclients]
  dsimp only
  rw [foldl_writeEvent s.clients.nodup]
  refine ⟨⟨fun c hc => ?_, fun c hc _ => ?_, fun c => ?_, rfl, rfl, rfl, rfl, rfl, rfl, rfl⟩, rfl⟩
  · exact (OrderedSet.mem_eraseAll.mp hc).1
  · obtain ⟨hmem, hkept⟩ := OrderedSet.mem_eraseAll.mp hc
    have hgone : s.gone c = false := by
      by_contra hgone
      rw [Bool.not_eq_false] at hgone
      exact hkept (List.mem_filter.mpr ⟨hmem, hgone⟩)
    exact if_pos ⟨hmem, hgone⟩
  · dsimp only
    split_ifs
    · exact Or.inr rfl
    · exact Or.inl rfl

theorem publishTo_offers (now : ℚ≥0) (client : DashboardId) (name : StatsEventName) :
    Offers now name (fun c => c = client) s (s.publishTo now client name) ∧
      (s.publishTo now client name).lastPublishedAt = s.lastPublishedAt := by
  unfold publishTo writeEvent
  dsimp only
  split_ifs with hgone
  · refine ⟨⟨fun c hc => ?_, fun c hc heq => ?_, fun c => Or.inl rfl, rfl, rfl, rfl, rfl, rfl, rfl,
      rfl⟩, rfl⟩
    · exact (OrderedSet.mem_erase.mp hc).1
    · exact absurd heq (OrderedSet.mem_erase.mp hc).2
  · refine ⟨⟨fun c hc => hc, fun c _ heq => ?_, fun c => ?_, rfl, rfl, rfl, rfl, rfl, rfl, rfl⟩,
      rfl⟩
    · subst heq
      exact Function.update_self ..
    · by_cases heq : c = client
      · subst heq
        exact Or.inr (Function.update_self ..)
      · exact Or.inl (Function.update_of_ne heq ..)

/-! ## The invariant -/

/-- The client was offered a snapshot that shows the change. -/
def Shown (s : TrackerStatsSse) (c : DashboardId) (k : ℕ) : Prop := ∃ o ∈ s.offered c, k < o.shows

/-- The client was offered it as an event that says the broadcasts have changed. -/
def Announced (s : TrackerStatsSse) (c : DashboardId) (k : ℕ) : Prop :=
  ∃ o ∈ s.offered c, o.name = .broadcasts ∧ k < o.shows

/-- A snapshot will be sent in time. -/
def Due (minIntervalMs : ℚ≥0) (s : TrackerStatsSse) (change : NotifiedChange) : Prop :=
  ∃ due, s.pendingTimer = some due ∧ due ≤ change.time + minIntervalMs

/-- What holds of the timers and of what was offered, whatever the snapshots show. -/
structure Settled (minIntervalMs now : ℚ≥0) (s : TrackerStatsSse) : Prop where
  timers : ∀ due ∈ s.timers, now ≤ due
  past : ∀ (k : ℕ) (change : NotifiedChange), s.changes[k]? = some change → change.time ≤ now
  published : ∀ last, s.lastPublishedAt = some last → last ≤ now
  idle : s.pendingTimer = none ↔ s.pendingEvent = none
  due : ∀ due, s.pendingTimer = some due → due ≤ now + minIntervalMs
  regular : ∀ due, s.publishTimer = some due → due ≤ now + STATS_EVENT_INTERVAL_MS
  ticking : ∀ c ∈ s.clients, s.publishTimer.isSome
  ordered : ∀ c, (s.offered c).Pairwise (·.id < ·.id) ∧ ∀ o ∈ s.offered c, o.id ≤ s.eventSequence

/-- Snapshots that changes ask for keep their distance. -/
structure Spaced (minIntervalMs : ℚ≥0) (s : TrackerStatsSse) : Prop where
  chain : s.requested.IsChain fun a b => a + minIntervalMs ≤ b
  last : ∀ a ∈ s.requested.getLast?, ∃ last, s.lastPublishedAt = some last ∧ a ≤ last
  next : ∀ a ∈ s.requested.getLast?, ∀ due, s.pendingTimer = some due → a + minIntervalMs ≤ due

structure Sound (minIntervalMs now : ℚ≥0) (s : TrackerStatsSse) : Prop extends
    Settled minIntervalMs now s, Spaced minIntervalMs s where
  recent : ∀ c ∈ s.clients, ∀ due, s.publishTimer = some due →
    ∃ o ∈ s.offered c, due ≤ o.time + STATS_EVENT_INTERVAL_MS
  shown : ∀ c ∈ s.clients, ∀ (k : ℕ) (change : NotifiedChange), s.changes[k]? = some change →
    s.Shown c k ∨ Due minIntervalMs s change
  announced : ∀ c ∈ s.clients, ∀ (k : ℕ) (change : NotifiedChange), s.changes[k]? = some change →
    s.joined c ≤ k → change.name = .broadcasts →
    s.Announced c k ∨ s.pendingEvent = some .broadcasts ∧ Due minIntervalMs s change

theorem sound_new : Sound minIntervalMs 0 new where
  timers _ h := absurd h List.not_mem_nil
  past _ _ h := nomatch h
  published _ h := nomatch h
  idle := iff_of_true rfl rfl
  due _ h := nomatch h
  regular _ h := nomatch h
  ticking _ h := absurd h (OrderedSet.not_mem_empty _)
  ordered _ := ⟨List.Pairwise.nil, fun _ h => absurd h List.not_mem_nil⟩
  chain := List.IsChain.nil
  last _ h := nomatch h
  next _ h := nomatch h
  recent _ h := absurd h (OrderedSet.not_mem_empty _)
  shown _ h := absurd h (OrderedSet.not_mem_empty _)
  announced _ h := absurd h (OrderedSet.not_mem_empty _)

theorem Sound.elapse (h : Sound minIntervalMs now s) (hle : now ≤ later)
    (htimers : ∀ due ∈ s.timers, later ≤ due) : Sound minIntervalMs later s :=
  { h with
    timers := htimers
    past := fun k change hk => (h.past k change hk).trans hle
    published := fun last hlast => (h.published last hlast).trans hle
    due := fun due hdue => (h.due due hdue).trans (by gcongr)
    regular := fun due hdue => (h.regular due hdue).trans (by gcongr) }

/-! ### What a snapshot brings -/

theorem Offers.ordered {audience : DashboardId → Prop} (ho : Offers now name audience s s')
    (h : (s.offered c).Pairwise (·.id < ·.id) ∧ ∀ o ∈ s.offered c, o.id ≤ s.eventSequence) :
    (s'.offered c).Pairwise (·.id < ·.id) ∧ ∀ o ∈ s'.offered c, o.id ≤ s'.eventSequence := by
  obtain ⟨hpairwise, hbound⟩ := h
  rw [ho.sequence]
  rcases ho.either c with hsame | hmore
  · rw [hsame]
    exact ⟨hpairwise, fun o hmem => Nat.le_succ_of_le (hbound o hmem)⟩
  · rw [hmore]
    refine ⟨List.pairwise_append.mpr ⟨hpairwise, List.pairwise_singleton _ _, ?_⟩, ?_⟩
    · intro o hmem o' hmem'
      obtain rfl := List.mem_singleton.mp hmem'
      exact Nat.lt_succ_of_le (hbound o hmem)
    · intro o hmem
      rcases List.mem_append.mp hmem with hmem | hmem
      · exact Nat.le_succ_of_le (hbound o hmem)
      · obtain rfl := List.mem_singleton.mp hmem
        exact le_rfl

theorem Offers.kept {audience : DashboardId → Prop} (ho : Offers now name audience s s')
    {o : OfferedEvent} (hmem : o ∈ s.offered c) : o ∈ s'.offered c := by
  rcases ho.either c with hsame | hmore
  · exact hsame ▸ hmem
  · exact hmore ▸ List.mem_append_left _ hmem

theorem Offers.shown_kept {audience : DashboardId → Prop} (ho : Offers now name audience s s')
    {k : ℕ} (h : s.Shown c k) : s'.Shown c k := by
  obtain ⟨o, hmem, hlt⟩ := h
  exact ⟨o, ho.kept hmem, hlt⟩

theorem Offers.announced_kept {audience : DashboardId → Prop}
    (ho : Offers now name audience s s') {k : ℕ} (h : s.Announced c k) : s'.Announced c k := by
  obtain ⟨o, hmem, hnamed⟩ := h
  exact ⟨o, ho.kept hmem, hnamed⟩

theorem Offers.mem {audience : DashboardId → Prop} (ho : Offers now name audience s s')
    (hc : c ∈ s'.clients) (hto : audience c) :
    offer now name (s.eventSequence + 1) s c ∈ s'.offered c := by
  rw [ho.offered c hc hto]
  exact List.mem_append_right _ (List.mem_singleton_self _)

theorem lt_length_of_getElem? {k : ℕ} {change : NotifiedChange}
    (hk : s.changes[k]? = some change) : k < s.changes.length :=
  (List.getElem?_eq_some_iff.mp hk).1

/-- A snapshot for all clients leaves nothing to show. -/
theorem Offers.shown (ho : Offers now name (fun _ => True) s s') (hc : c ∈ s'.clients) {k : ℕ}
    {change : NotifiedChange} (hk : s'.changes[k]? = some change) : s'.Shown c k :=
  ⟨_, ho.mem hc trivial, lt_length_of_getElem? (ho.changes ▸ hk)⟩

theorem Settled.offers (h : Settled minIntervalMs now s)
    (ho : Offers now name (fun _ => True) s s') (hlast : s'.lastPublishedAt = some now) :
    Settled minIntervalMs now s' where
  timers := by
    unfold TrackerStatsSse.timers
    rw [ho.publishTimer, ho.pendingTimer]
    exact h.timers
  past := by
    rw [ho.changes]
    exact h.past
  published last hsome := by
    rw [hlast] at hsome
    exact (Option.some.inj hsome).ge
  idle := by
    rw [ho.pendingEvent, ho.pendingTimer]
    exact h.idle
  due := by
    rw [ho.pendingTimer]
    exact h.due
  regular := by
    rw [ho.publishTimer]
    exact h.regular
  ticking c hc := by
    rw [ho.publishTimer]
    exact h.ticking c (ho.clients c hc)
  ordered c := ho.ordered (h.ordered c)

/-! ### A change -/

theorem size_ne_zero_of_mem (hc : c ∈ s.clients) : s.clients.size ≠ 0 :=
  (OrderedSet.size_pos_of_mem hc).ne'

/-- After a snapshot for all everything has been shown, and announced where it says so. -/
theorem Settled.sound_of_offers (h : Settled minIntervalMs now s)
    (ho : Offers now name (fun _ => True) s s') (hlast : s'.lastPublishedAt = some now)
    (hchain : s.requested.IsChain fun a b => a + minIntervalMs ≤ b)
    (hlatest : ∀ a ∈ s.requested.getLast?, a ≤ now)
    (hnext : ∀ a ∈ s.requested.getLast?, ∀ due, s.pendingTimer = some due → a + minIntervalMs ≤ due)
    (hannounced : ∀ c ∈ s.clients, ∀ (k : ℕ) (change : NotifiedChange),
      s.changes[k]? = some change → s.joined c ≤ k → change.name = .broadcasts →
      (s.Announced c k ∨ s.pendingEvent = some .broadcasts ∧ Due minIntervalMs s change) ∨
        name = .broadcasts) :
    Sound minIntervalMs now s' where
  toSettled := h.offers ho hlast
  chain := ho.requested ▸ hchain
  last a ha := ⟨now, hlast, hlatest a (ho.requested ▸ ha)⟩
  next a ha := by
    rw [ho.pendingTimer]
    exact hnext a (ho.requested ▸ ha)
  recent c hc due hdue := ⟨_, ho.mem hc trivial, h.regular due (ho.publishTimer ▸ hdue)⟩
  shown c hc k change hk := Or.inl (ho.shown hc hk)
  announced c hc k change hk hjoined hname := by
    rw [ho.changes] at hk
    rw [ho.joined] at hjoined
    unfold Due
    rw [ho.pendingEvent, ho.pendingTimer]
    rcases hannounced c (ho.clients c hc) k change hk hjoined hname with hannounced | rfl
    · exact hannounced.imp_left ho.announced_kept
    · exact Or.inl ⟨_, ho.mem hc trivial, rfl, lt_length_of_getElem? hk⟩

/-- Sending what is pending. -/
theorem sound_publishPending (h : Settled minIntervalMs now { s with pendingEvent := none })
    (hspaced : Spaced minIntervalMs s) (hidle : s.pendingTimer = none)
    (hevent : s.pendingEvent = some name)
    (hfresh : ∀ a ∈ s.requested.getLast?, a + minIntervalMs ≤ now)
    (hannounced : ∀ c ∈ s.clients, ∀ (k : ℕ) (change : NotifiedChange),
      s.changes[k]? = some change → s.joined c ≤ k → change.name = .broadcasts →
      s.Announced c k ∨ name = .broadcasts) :
    Sound minIntervalMs now (s.publishPending now) := by
  unfold publishPending
  rw [hevent]
  dsimp only
  by_cases hsize : s.clients.size = 0
  · -- Nobody is there, so only the request is forgotten.
    rw [if_pos hsize, publish, if_pos hsize]
    exact {
      toSettled := { h with }
      toSpaced := { hspaced with }
      recent := fun c hc => absurd hsize (size_ne_zero_of_mem hc)
      shown := fun c hc => absurd hsize (size_ne_zero_of_mem hc)
      announced := fun c hc => absurd hsize (size_ne_zero_of_mem hc) }
  · rw [if_neg hsize]
    obtain ⟨ho, hlast⟩ := publish_offers
      (s := { s with pendingEvent := none, requested := s.requested ++ [now] }) hsize now name
    have hready : Settled minIntervalMs now
        { s with pendingEvent := none, requested := s.requested ++ [now] } := { h with }
    refine hready.sound_of_offers ho hlast ?_ ?_ ?_
      fun c hc k change hk hjoined hname =>
        (hannounced c hc k change hk hjoined hname).imp_left Or.inl
    · refine List.isChain_append.mpr ⟨hspaced.chain, List.isChain_singleton _, ?_⟩
      intro a ha b hb
      obtain rfl : now = b := Option.some.inj hb
      exact hfresh a ha
    · intro a ha
      change a ∈ (s.requested ++ [now]).getLast? at ha
      rw [List.getLast?_concat] at ha
      exact (Option.some.inj ha).ge
    · intro a _ due hdue
      cases hidle.symm.trans hdue

theorem getElem?_concat {changes : List NotifiedChange} {x change : NotifiedChange} {k : ℕ}
    (hk : (changes ++ [x])[k]? = some change) : changes[k]? = some change ∨ change = x := by
  rw [List.getElem?_append] at hk
  split_ifs at hk
  · exact Or.inl hk
  · exact Or.inr (List.mem_singleton.mp (List.mem_of_getElem? hk))

theorem requestPublish_of_no_clients (hsize : s.clients.size = 0) :
    s.requestPublish minIntervalMs now name = s :=
  if_pos hsize

theorem requestPublish_of_pending (hsize : s.clients.size ≠ 0) (hpending : s.pendingTimer.isSome) :
    s.requestPublish minIntervalMs now name = { s with
      pendingEvent := some (if s.pendingEvent = some .broadcasts then .broadcasts else name) } := by
  unfold requestPublish
  rw [if_neg hsize]
  by_cases hevent : s.pendingEvent = some .broadcasts
  · rw [if_pos hevent, if_pos hevent, ← hevent]
    exact if_pos hpending
  · rw [if_neg hevent, if_neg hevent]
    exact if_pos hpending

theorem requestPublish_of_idle (hsize : s.clients.size ≠ 0) (hidle : s.pendingTimer = none)
    (hevent : s.pendingEvent = none) :
    s.requestPublish minIntervalMs now name = match s.lastPublishedAt with
      | none => { s with pendingEvent := some name }.publishPending now
      | some last =>
          if last + minIntervalMs ≤ now then { s with pendingEvent := some name }.publishPending now
          else { s with
            pendingEvent := some name
            pendingTimer := some (last + minIntervalMs) } := by
  unfold requestPublish
  have hother : ¬s.pendingEvent = some .broadcasts := by simp [hevent]
  have hready : ¬s.pendingTimer.isSome = true := by simp [hidle]
  rw [if_neg hsize, if_neg hother]
  exact if_neg hready

theorem Settled.notify (h : Settled minIntervalMs now s) (name : StatsEventName) :
    Settled minIntervalMs now (s.notify now name) :=
  { h with
    past := fun k change hk => by
      rcases getElem?_concat hk with hk | rfl
      · exact h.past k change hk
      · exact le_rfl }

/-- A change that goes with the snapshot that is already due. -/
theorem Sound.changed_of_pending (h : Sound minIntervalMs now s) (hsize : s.clients.size ≠ 0)
    {due : ℚ≥0} (hpending : s.pendingTimer = some due) (name : StatsEventName) :
    Sound minIntervalMs now ((s.notify now name).requestPublish minIntervalMs now name) := by
  have hdue : due ≤ now + minIntervalMs := h.due due hpending
  rw [requestPublish_of_pending (s := s.notify now name) hsize
    (Option.isSome_of_eq_some hpending)]
  exact {
    toSettled := { h.toSettled.notify name with
      idle := by simp [notify, hpending] }
    toSpaced := { h.toSpaced with }
    recent := h.recent
    shown := fun c hc k change hk => by
      rcases getElem?_concat hk with hk | rfl
      · exact h.shown c hc k change hk
      · exact Or.inr ⟨due, hpending, hdue⟩
    announced := fun c hc k change hk hjoined hname => by
      rcases getElem?_concat hk with hk | rfl
      · refine (h.announced c hc k change hk hjoined hname).imp_right ?_
        rintro ⟨hevent, hdue⟩
        exact ⟨congrArg some (if_pos hevent), hdue⟩
      · obtain rfl : name = .broadcasts := hname
        exact Or.inr ⟨congrArg some (ite_self _), due, hpending, hdue⟩ }

/-- A change that has to wait for the end of the interval. -/
theorem Sound.changed_of_early (h : Sound minIntervalMs now s) (hidle : s.pendingTimer = none)
    {last : ℚ≥0} (hlast : s.lastPublishedAt = some last) (hearly : now ≤ last + minIntervalMs)
    (name : StatsEventName) :
    Sound minIntervalMs now { s.notify now name with
      pendingEvent := some name
      pendingTimer := some (last + minIntervalMs) } := by
  have hnone : s.pendingEvent = none := h.idle.mp hidle
  have hdue : last + minIntervalMs ≤ now + minIntervalMs := by
    have := h.published last hlast
    gcongr
  exact {
    toSettled := { h.toSettled.notify name with
      timers := fun due hmem => by
        rcases List.mem_append.mp hmem with hmem | hmem
        · exact h.timers due (List.mem_append_left _ hmem)
        · obtain rfl := List.mem_singleton.mp hmem
          exact hearly
      idle := iff_of_false nofun nofun
      due := fun due hsome => Option.some.inj hsome ▸ hdue }
    chain := h.chain
    last := h.last
    next := fun a ha due hsome => by
      obtain ⟨last', hlast', hle⟩ := h.last a ha
      obtain rfl := Option.some.inj (hlast.symm.trans hlast')
      obtain rfl := Option.some.inj hsome
      gcongr
    recent := h.recent
    shown := fun c hc k change hk => by
      rcases getElem?_concat hk with hk | rfl
      · refine (h.shown c hc k change hk).imp_right ?_
        rintro ⟨due, hsome, -⟩
        cases hidle.symm.trans hsome
      · exact Or.inr ⟨_, rfl, hdue⟩
    announced := fun c hc k change hk hjoined hname => by
      rcases getElem?_concat hk with hk | rfl
      · refine (h.announced c hc k change hk hjoined hname).imp_right ?_
        rintro ⟨hevent, -⟩
        cases hnone.symm.trans hevent
      · exact Or.inr ⟨congrArg some hname, _, rfl, hdue⟩ }

theorem Sound.changed (h : Sound minIntervalMs now s) (name : StatsEventName) :
    Sound minIntervalMs now ((s.notify now name).requestPublish minIntervalMs now name) := by
  by_cases hsize : s.clients.size = 0
  · rw [requestPublish_of_no_clients (s := s.notify now name) hsize]
    exact {
      toSettled := h.toSettled.notify name
      toSpaced := { h.toSpaced with }
      recent := fun c hc => absurd hsize (size_ne_zero_of_mem hc)
      shown := fun c hc => absurd hsize (size_ne_zero_of_mem hc)
      announced := fun c hc => absurd hsize (size_ne_zero_of_mem hc) }
  rcases Option.eq_none_or_eq_some s.pendingTimer with hidle | ⟨due, hpending⟩
  swap
  · exact h.changed_of_pending hsize hpending name
  have hnone : s.pendingEvent = none := h.idle.mp hidle
  have hsend (hfresh : ∀ a ∈ s.requested.getLast?, a + minIntervalMs ≤ now) : Sound minIntervalMs
      now ({ s.notify now name with pendingEvent := some name }.publishPending now) := by
    refine sound_publishPending
      { h.toSettled.notify name with idle := iff_of_true hidle rfl }
      { h.toSpaced with } hidle rfl hfresh ?_
    intro c hc k change hk hjoined hname
    rcases getElem?_concat hk with hk | rfl
    · rcases h.announced c hc k change hk hjoined hname with hannounced | ⟨hevent, -⟩
      · exact Or.inl hannounced
      · cases hnone.symm.trans hevent
    · exact Or.inr hname
  rw [requestPublish_of_idle (s := s.notify now name) hsize hidle hnone]
  rcases Option.eq_none_or_eq_some s.lastPublishedAt with hlast | ⟨last, hlast⟩
  · change Sound minIntervalMs now (match s.lastPublishedAt with | none => _ | some last => _)
    rw [hlast]
    refine hsend fun a ha => ?_
    obtain ⟨last, hsome, -⟩ := h.last a ha
    cases hlast.symm.trans hsome
  · change Sound minIntervalMs now (match s.lastPublishedAt with | none => _ | some last => _)
    rw [hlast]
    dsimp only
    split_ifs with hready
    · refine hsend fun a ha => ?_
      obtain ⟨last', hsome, hle⟩ := h.last a ha
      obtain rfl := Option.some.inj (hlast.symm.trans hsome)
      exact (by gcongr : a + minIntervalMs ≤ last + minIntervalMs).trans hready
    · exact h.changed_of_early hidle hlast (not_le.mp hready).le name

/-! ### The other events -/

theorem Sound.pending (h : Sound minIntervalMs now s) (hpending : s.pendingTimer = some now) :
    Sound minIntervalMs now ({ s with pendingTimer := none }.publishPending now) := by
  obtain ⟨name, hevent⟩ : ∃ name, s.pendingEvent = some name := by
    rw [← Option.ne_none_iff_exists']
    exact fun hnone => by cases hpending.symm.trans (h.idle.mpr hnone)
  have hsettled : Settled minIntervalMs now
      { s with pendingEvent := none, pendingTimer := none } :=
    { h.toSettled with
      timers := fun due hmem => h.timers due (by
        have : due ∈ s.publishTimer.toList := by simpa [TrackerStatsSse.timers] using hmem
        exact List.mem_append_left _ this)
      idle := iff_of_true rfl rfl
      due := nofun }
  refine sound_publishPending hsettled { chain := h.chain, last := h.last, next := nofun }
    rfl hevent (fun a ha => h.next a ha now hpending) ?_
  intro c hc k change hk hjoined hname
  refine (h.announced c hc k change hk hjoined hname).imp_right ?_
  rintro ⟨hbroadcasts, -⟩
  exact Option.some.inj (hevent.symm.trans hbroadcasts)

theorem Sound.tick (h : Sound minIntervalMs now s) (name : StatsEventName) :
    Sound minIntervalMs now
      ({ s with publishTimer := some (now + STATS_EVENT_INTERVAL_MS) }.publish now name) := by
  have hsettled : Settled minIntervalMs now
      { s with publishTimer := some (now + STATS_EVENT_INTERVAL_MS) } :=
    { h.toSettled with
      timers := fun due hmem => by
        rcases List.mem_append.mp hmem with hmem | hmem
        · obtain rfl := List.mem_singleton.mp hmem
          exact le_self_add
        · exact h.timers due (List.mem_append_right _ hmem)
      regular := fun due hdue => (Option.some.inj hdue).ge
      ticking := fun _ _ => rfl }
  by_cases hsize : s.clients.size = 0
  · rw [publish, if_pos hsize]
    exact {
      toSettled := hsettled
      toSpaced := { h.toSpaced with }
      recent := fun c hc => absurd hsize (size_ne_zero_of_mem hc)
      shown := fun c hc => absurd hsize (size_ne_zero_of_mem hc)
      announced := fun c hc => absurd hsize (size_ne_zero_of_mem hc) }
  · obtain ⟨ho, hlast⟩ := publish_offers
      (s := { s with publishTimer := some (now + STATS_EVENT_INTERVAL_MS) }) hsize now name
    refine hsettled.sound_of_offers ho hlast h.chain ?_ h.next
      fun c hc k change hk hjoined hname => Or.inl (h.announced c hc k change hk hjoined hname)
    intro a ha
    obtain ⟨last, hsome, hle⟩ := h.last a ha
    exact hle.trans (h.published last hsome)

theorem startTimer_eq (s : TrackerStatsSse) : s.startTimer now = { s with
    publishTimer := some (s.publishTimer.getD (now + STATS_EVENT_INTERVAL_MS)) } := by
  unfold startTimer
  rcases Option.eq_none_or_eq_some s.publishTimer with hnone | ⟨due, hdue⟩
  · rw [hnone]
    rfl
  · rw [if_pos (Option.isSome_of_eq_some hdue), hdue]
    exact congrArg (fun timer => { s with publishTimer := timer }) hdue

theorem Settled.timer_next (h : Settled minIntervalMs now s) :
    now ≤ s.publishTimer.getD (now + STATS_EVENT_INTERVAL_MS) ∧
      s.publishTimer.getD (now + STATS_EVENT_INTERVAL_MS) ≤ now + STATS_EVENT_INTERVAL_MS := by
  cases hdue : s.publishTimer with
  | none => exact ⟨le_self_add, le_rfl⟩
  | some due =>
      have hmem : due ∈ s.timers := List.mem_append_left _ (by simp [hdue])
      exact ⟨h.timers due hmem, h.regular due hdue⟩

/-- A client is greeted with a snapshot. -/
theorem Sound.connect (h : Sound minIntervalMs now s) (client : DashboardId) :
    Sound minIntervalMs now (s.connect now client) := by
  unfold TrackerStatsSse.connect
  obtain ⟨ho, hlast⟩ := publishTo_offers (s := { s with
    clients := s.clients.insert client
    joined := Function.update s.joined client s.changes.length }) now client .stats
  rw [startTimer_eq, ho.publishTimer]
  obtain ⟨hnow, hregular⟩ := h.toSettled.timer_next
  have hchanges := ho.changes
  have hjoined := ho.joined
  have hpending := ho.pendingTimer
  have hevent := ho.pendingEvent
  have hrequested := ho.requested
  generalize TrackerStatsSse.publishTo now _ client .stats = s' at *
  -- Who is a client now is the new one, or was one before.
  have hclients : ∀ c ∈ s'.clients, c = client ∨ c ≠ client ∧ c ∈ s.clients := fun c hc => by
    by_cases heq : c = client
    · exact Or.inl heq
    · exact Or.inr ⟨heq, (OrderedSet.mem_insert.mp (ho.clients c hc)).resolve_right heq⟩
  exact {
    timers := fun due hmem => by
      rcases List.mem_append.mp hmem with hmem | hmem
      · obtain rfl := List.mem_singleton.mp hmem
        exact hnow
      · exact h.timers due (List.mem_append_right _ (hpending ▸ hmem))
    past := hchanges ▸ h.past
    published := hlast ▸ h.published
    idle := by
      dsimp only
      rw [hpending, hevent]
      exact h.idle
    due := hpending ▸ h.due
    regular := fun due hdue => Option.some.inj hdue ▸ hregular
    ticking := fun _ _ => rfl
    ordered := fun c => ho.ordered (h.ordered c)
    chain := hrequested ▸ h.chain
    last := by
      dsimp only
      rw [hrequested, hlast]
      exact h.last
    next := by
      dsimp only
      rw [hrequested, hpending]
      exact h.next
    recent := fun c hc due hdue => by
      obtain rfl := Option.some.inj hdue
      rcases hclients c hc with rfl | ⟨-, hmem⟩
      · exact ⟨_, ho.mem hc rfl, hregular⟩
      · obtain ⟨due, hdue⟩ := Option.isSome_iff_exists.mp (h.ticking c hmem)
        obtain ⟨o, hoffered, hle⟩ := h.recent c hmem due hdue
        refine ⟨o, ho.kept hoffered, ?_⟩
        dsimp only
        rw [hdue]
        exact hle
    shown := fun c hc k change hk => by
      change s'.changes[k]? = some change at hk
      rw [hchanges] at hk
      rcases hclients c hc with rfl | ⟨-, hmem⟩
      · exact Or.inl ⟨_, ho.mem hc rfl, lt_length_of_getElem? hk⟩
      · refine (h.shown c hmem k change hk).imp ho.shown_kept ?_
        rintro ⟨due, hsome, hle⟩
        exact ⟨due, hpending.trans hsome, hle⟩
    announced := fun c hc k change hk hafter hname => by
      change s'.changes[k]? = some change at hk
      change s'.joined c ≤ k at hafter
      rw [hchanges] at hk
      rw [hjoined] at hafter
      rcases hclients c hc with rfl | ⟨hne, hmem⟩
      · -- Nothing has changed since the client came.
        dsimp only at hafter
        rw [Function.update_self] at hafter
        exact absurd (lt_length_of_getElem? hk) (not_lt.mpr hafter)
      · dsimp only at hafter
        rw [Function.update_of_ne hne] at hafter
        unfold Due
        dsimp only
        rw [hevent, hpending]
        exact (h.announced c hmem k change hk hafter hname).imp_left ho.announced_kept }

/-- A client that leaves, for whatever reason. -/
theorem Sound.of_fewer_clients (h : Sound minIntervalMs now s) {clients : OrderedSet DashboardId}
    (hclients : ∀ c ∈ clients, c ∈ s.clients) (gone needsDrain : DashboardId → Bool) :
    Sound minIntervalMs now { s with clients, gone, needsDrain } :=
  { h with
    ticking := fun c hc => h.ticking c (hclients c hc)
    recent := fun c hc => h.recent c (hclients c hc)
    shown := fun c hc => h.shown c (hclients c hc)
    announced := fun c hc => h.announced c (hclients c hc) }

theorem Sound.stopTimerWhenIdle (h : Sound minIntervalMs now s) :
    Sound minIntervalMs now s.stopTimerWhenIdle := by
  unfold TrackerStatsSse.stopTimerWhenIdle
  split_ifs with hsome
  · exact h
  · have hsize : s.clients.size = 0 := Nat.eq_zero_of_not_pos hsome
    exact { h with
      timers := fun due hmem => h.timers due (List.mem_append_right _ hmem)
      regular := nofun
      ticking := fun c hc => absurd hsize (size_ne_zero_of_mem hc)
      recent := nofun }

theorem Sound.stop (h : Sound minIntervalMs now s) : Sound minIntervalMs now s.stop where
  timers _ hmem := absurd hmem List.not_mem_nil
  past := h.past
  published := h.published
  idle := iff_of_true rfl rfl
  due := nofun
  regular := nofun
  ticking _ hc := absurd hc (OrderedSet.not_mem_empty _)
  ordered := h.ordered
  chain := h.chain
  last := h.last
  next := nofun
  recent _ hc := absurd hc (OrderedSet.not_mem_empty _)
  shown _ hc := absurd hc (OrderedSet.not_mem_empty _)
  announced _ hc := absurd hc (OrderedSet.not_mem_empty _)

theorem Sound.step (h : Sound minIntervalMs now s) {label : StatsLabel}
    (hstep : s.step minIntervalMs now label = some s') : Sound minIntervalMs now s' := by
  cases label with
  | connect client =>
      obtain ⟨-, hs'⟩ := Option.ite_none_right_eq_some.mp hstep
      obtain rfl := Option.some.inj hs'
      exact h.connect client
  | closed client =>
      obtain rfl := Option.some.inj hstep
      exact (h.of_fewer_clients (fun c hc => (OrderedSet.mem_erase.mp hc).1)
        s.gone s.needsDrain).stopTimerWhenIdle
  | gone client =>
      obtain rfl := Option.some.inj hstep
      exact h.of_fewer_clients (fun _ hc => hc) _ s.needsDrain
  | drain client needsDrain =>
      obtain rfl := Option.some.inj hstep
      exact h.of_fewer_clients (fun _ hc => hc) s.gone _
  | changed name =>
      obtain rfl := Option.some.inj hstep
      exact h.changed name
  | pending =>
      obtain ⟨hpending, hs'⟩ := Option.ite_none_right_eq_some.mp hstep
      obtain rfl := Option.some.inj hs'
      exact h.pending hpending
  | tick =>
      obtain ⟨-, hs'⟩ := Option.ite_none_right_eq_some.mp hstep
      obtain rfl := Option.some.inj hs'
      exact h.tick .stats
  | stop =>
      obtain rfl := Option.some.inj hstep
      exact h.stop

theorem sound_of_reachable {t : Timed TrackerStatsSse} (hr : (system minIntervalMs).Reachable t) :
    Sound minIntervalMs t.clock t.state := by
  refine hr.invariant (fun now s => Sound minIntervalMs now s) ?_ ?_ ?_
  · rintro s rfl
    exact sound_new
  · exact fun _ _ _ _ h hstep => h.step hstep
  · exact fun _ _ _ h hle htimers => h.elapse hle htimers

/-- What is due has been sent once its time has passed. -/
theorem not_due_of_lt (h : Sound minIntervalMs now s) {change : NotifiedChange}
    (hlate : change.time + minIntervalMs < now) : ¬Due minIntervalMs s change := by
  rintro ⟨due, hdue, hle⟩
  have hmem : due ∈ s.timers := List.mem_append_right _ (by simp [hdue])
  exact absurd ((h.timers due hmem).trans hle) (not_le.mpr hlate)

/-- **Snapshots are in time and not too many**, in every run. Whoever is a client was offered
each change within the smallest interval, and as one of the broadcasts where the change was one
and the client was there; the last offer is never older than the regular interval. Snapshots
that changes ask for keep the smallest interval between them, and the ids a client sees
grow. -/
theorem snapshots_timely {t : Timed TrackerStatsSse} (hr : (system minIntervalMs).Reachable t) :
    (∀ c ∈ t.state.clients,
      (∀ (k : ℕ) (change : NotifiedChange), t.state.changes[k]? = some change →
        change.time + minIntervalMs < t.clock →
        t.state.Shown c k ∧
          (t.state.joined c ≤ k → change.name = .broadcasts → t.state.Announced c k)) ∧
      ∃ o ∈ t.state.offered c, t.clock ≤ o.time + STATS_EVENT_INTERVAL_MS) ∧
    t.state.requested.IsChain (fun a b => a + minIntervalMs ≤ b) ∧
    ∀ c, (t.state.offered c).Pairwise (·.id < ·.id) := by
  have h := sound_of_reachable hr
  refine ⟨fun c hc => ⟨fun k change hk hlate => ⟨?_, fun hjoined hname => ?_⟩, ?_⟩, h.chain,
    fun c => (h.ordered c).1⟩
  · exact (h.shown c hc k change hk).resolve_right (not_due_of_lt h hlate)
  · exact (h.announced c hc k change hk hjoined hname).resolve_right
      fun hpending => not_due_of_lt h hlate hpending.2
  · obtain ⟨due, hdue⟩ := Option.isSome_iff_exists.mp (h.ticking c hc)
    obtain ⟨o, hmem, hle⟩ := h.recent c hc due hdue
    have hfuture : due ∈ t.state.timers := List.mem_append_left _ (by simp [hdue])
    exact ⟨o, hmem, (h.timers due hfuture).trans hle⟩

/-- Statistics and then the broadcasts change soon after a snapshot. -/
def changesMeet : List (TimedLabel StatsLabel) :=
  [.event (.connect 7), .event (.changed .stats), .elapse (200 : ℕ),
    .event (.changed .stats), .elapse (300 : ℕ), .event (.changed .broadcasts),
    .elapse (500 : ℕ), .event .pending, .elapse (501 : ℕ)]

theorem changesMeet_timely : ∃ t : Timed TrackerStatsSse,
    (system 1000).toTransitionSystem.run ⟨0, new⟩ changesMeet = some t ∧
      7 ∈ t.state.clients ∧ t.state.requested = [0, 1000] ∧ t.state.Announced 7 2 := by
  obtain ⟨t, ht⟩ : ∃ t, (system 1000).toTransitionSystem.run ⟨0, new⟩ changesMeet = some t :=
    Option.isSome_iff_exists.mp (by decide +kernel)
  have hstate : ((system 1000).toTransitionSystem.run ⟨0, new⟩ changesMeet).map
      (fun t => (t.state.clients.toList, t.state.requested, t.state.changes[2]?, t.clock,
        t.state.joined 7)) =
      some ([7], [0, 1000], some ⟨.broadcasts, 500⟩, 1501, 0) := by decide +kernel
  rw [ht, Option.map_some, Option.some.injEq] at hstate
  simp only [Prod.mk.injEq] at hstate
  obtain ⟨hclients, hrequested, hchange, hclock, hjoined⟩ := hstate
  have hmem : 7 ∈ t.state.clients := by
    rw [← OrderedSet.mem_toList, hclients]
    exact List.mem_singleton_self 7
  have hlate : (500 : ℚ≥0) + 1000 < t.clock := by
    rw [hclock]
    decide +kernel
  obtain ⟨hshown, -, -⟩ := snapshots_timely (TimedSystem.reachable_of_run rfl ht)
  exact ⟨t, ht, hmem, hrequested,
    ((hshown 7 hmem).1 2 _ hchange hlate).2 (by rw [hjoined]; exact Nat.zero_le 2) rfl⟩

end TrackerStatsSse

end OpenStreamGrid

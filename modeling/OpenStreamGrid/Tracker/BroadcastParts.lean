import OpenStreamGrid.Lib.Restriction
import OpenStreamGrid.Tracker.StoreOperations

/-!
# Broadcasts do not meet in a store

What a tracker store holds of one broadcast, as a relation between stores. An
operation on a peer answers from its own broadcast's part alone, and leaves the
parts of all other broadcasts and the records of all other peers as they are.
The failure consensus joins its keys with a NUL, so this asks for peer IDs
without one.
-/

namespace OpenStreamGrid

/-- An ID that cannot run into what follows it in a consensus key. -/
def PlainId (id : String) : Prop := '\x00' ∉ id.toList

instance (id : String) : Decidable (PlainId id) := inferInstanceAs (Decidable (¬ _ ∈ _))

/-! ## The failure consensus -/

namespace PeerFailureConsensus

/-- What `observe` makes of the observations under its key. -/
def observeAt (quorum : ℕ) (windowMs : ℤ) (stored : Option (OrderedMap PeerId Timestamp))
    (observedAt : Timestamp) (reporterId : PeerId) : Option (OrderedMap PeerId Timestamp) × Bool :=
  let reporters := (stored.map (expire windowMs observedAt)).getD ∅
  if reporterId ∈ reporters then (some reporters, false)
  else if (reporters.set reporterId observedAt).size < quorum then
    (some (reporters.set reporterId observedAt), false)
  else (none, true)

theorem observe_eq {c : PeerFailureConsensus} {t : Timestamp} {b : BroadcastId} {p : PeerId}
    {report : PeerFailureReport} (h : p ≠ report.reporterId) :
    (∀ k, (c.observe t b p report).1.observations.get? k =
      if k = key b p report.reason then
        (observeAt c.quorum c.windowMs (c.observations.get? (key b p report.reason)) t
          report.reporterId).1
      else c.observations.get? k) ∧
    (c.observe t b p report).2 = (observeAt c.quorum c.windowMs
      (c.observations.get? (key b p report.reason)) t report.reporterId).2 ∧
    (c.observe t b p report).1.quorum = c.quorum ∧
    (c.observe t b p report).1.windowMs = c.windowMs := by
  unfold observe observeAt
  rw [if_neg h]
  dsimp only
  cases c.observations.get? (key b p report.reason) with
  | none =>
      have hnew : report.reporterId ∉ (∅ : OrderedMap PeerId Timestamp) :=
        OrderedMap.not_mem_empty _
      simp only [Option.map_none, Option.getD_none, if_neg hnew]
      split_ifs
      · exact ⟨fun k => OrderedMap.get?_set .., rfl, rfl, rfl⟩
      · exact ⟨fun k => OrderedMap.get?_delete .., rfl, rfl, rfl⟩
  | some stored =>
      simp only [Option.map_some, Option.getD_some]
      split_ifs
      · exact ⟨fun k => OrderedMap.get?_set .., rfl, rfl, rfl⟩
      · exact ⟨fun k => OrderedMap.get?_set .., rfl, rfl, rfl⟩
      · exact ⟨fun k => OrderedMap.get?_delete .., rfl, rfl, rfl⟩

/-- Two texts split at their last NUL alike. -/
theorem append_nul_inj {xs ys xs' ys' : List Char} (hy : '\x00' ∉ ys) (hy' : '\x00' ∉ ys')
    (h : xs ++ '\x00' :: ys = xs' ++ '\x00' :: ys') : xs = xs' ∧ ys = ys' := by
  rcases List.append_eq_append_iff.mp h with ⟨as, rfl, hys⟩ | ⟨as, rfl, hys⟩
  · cases as with
    | nil => exact ⟨(List.append_nil xs).symm, (List.cons.inj hys).2⟩
    | cons a as =>
        obtain ⟨-, rfl⟩ := List.cons.inj hys
        exact absurd (List.mem_append_right as List.mem_cons_self) hy
  · cases as with
    | nil => exact ⟨List.append_nil xs', ((List.cons.inj hys).2).symm⟩
    | cons a as =>
        obtain ⟨-, rfl⟩ := List.cons.inj hys
        exact absurd (List.mem_append_right as List.mem_cons_self) hy'

theorem plain_text (reason : FailureReason) : '\x00' ∉ reason.text.toList := by
  cases reason <;> decide

theorem key_inj {b b' : BroadcastId} {p p' : PeerId} {reason reason' : FailureReason}
    (hp : PlainId p) (hp' : PlainId p') (h : key b p reason = key b' p' reason') :
    b = b' ∧ p = p' := by
  have hnul : ("\x00" : String).toList = ['\x00'] := rfl
  have htext : (b.toList ++ '\x00' :: p.toList) ++ '\x00' :: reason.text.toList
      = (b'.toList ++ '\x00' :: p'.toList) ++ '\x00' :: reason'.text.toList := by
    have hlist := congrArg String.toList h
    simp only [key, String.toList_append, hnul] at hlist
    simpa using hlist
  obtain ⟨hpair, -⟩ := append_nul_inj (plain_text reason) (plain_text reason') htext
  obtain ⟨hb, hpeer⟩ := append_nul_inj hp hp' hpair
  exact ⟨String.toList_injective hb, String.toList_injective hpeer⟩

/-- The same recent reports about the peers of a broadcast. -/
structure SameOn (b : BroadcastId) (c c' : PeerFailureConsensus) : Prop where
  observations : ∀ p reason, PlainId p →
    c.observations.get? (key b p reason) = c'.observations.get? (key b p reason)
  quorum : c.quorum = c'.quorum
  windowMs : c.windowMs = c'.windowMs

namespace SameOn

variable {b b' : BroadcastId} {c c' c'' : PeerFailureConsensus} {p : PeerId}

theorem refl (c : PeerFailureConsensus) : SameOn b c c := ⟨fun _ _ _ => rfl, rfl, rfl⟩

theorem symm (h : SameOn b c c') : SameOn b c' c :=
  ⟨fun p reason hp => (h.observations p reason hp).symm, h.quorum.symm, h.windowMs.symm⟩

theorem trans (h : SameOn b c c') (h' : SameOn b c' c'') : SameOn b c c'' :=
  ⟨fun p reason hp => (h.observations p reason hp).trans (h'.observations p reason hp),
    h.quorum.trans h'.quorum, h.windowMs.trans h'.windowMs⟩

/-- A report is judged by the reports of its own broadcast. -/
theorem observe (h : SameOn b c c') (t : Timestamp) (report : PeerFailureReport)
    (hp : PlainId p) :
    (c.observe t b p report).2 = (c'.observe t b p report).2 ∧
      SameOn b (c.observe t b p report).1 (c'.observe t b p report).1 := by
  by_cases hself : p = report.reporterId
  · unfold PeerFailureConsensus.observe
    rw [if_pos hself, if_pos hself]
    exact ⟨rfl, h⟩
  · obtain ⟨hget, hconfirmed, hquorum, hwindow⟩ :=
      observe_eq (c := c) (t := t) (b := b) hself
    obtain ⟨hget', hconfirmed', hquorum', hwindow'⟩ :=
      observe_eq (c := c') (t := t) (b := b) hself
    have hsame := h.observations p report.reason hp
    refine ⟨?_, ⟨fun q reason hq => ?_, ?_, ?_⟩⟩
    · rw [hconfirmed, hconfirmed', h.quorum, h.windowMs, hsame]
    · rw [hget, hget', h.quorum, h.windowMs, hsame, h.observations q reason hq]
    · rw [hquorum, hquorum', h.quorum]
    · rw [hwindow, hwindow', h.windowMs]

end SameOn

/-- A report is not seen by other broadcasts. -/
theorem observe_apart {c : PeerFailureConsensus} {t : Timestamp} {b b' : BroadcastId} {p : PeerId}
    {report : PeerFailureReport} (hp : PlainId p) (hb : b' ≠ b) :
    SameOn b' (c.observe t b p report).1 c := by
  by_cases hself : p = report.reporterId
  · unfold PeerFailureConsensus.observe
    rw [if_pos hself]
    exact .refl c
  · obtain ⟨hget, -, hquorum, hwindow⟩ := observe_eq (c := c) (t := t) (b := b) hself
    refine ⟨fun q reason hq => ?_, hquorum, hwindow⟩
    rw [hget, if_neg]
    exact fun hkey => hb (key_inj hq hp hkey).1

end PeerFailureConsensus

/-! ## Parts of a store -/

/-- The same error, or the same value beside related states. -/
inductive Alike {σ α : Type} (R : σ → σ → Prop) :
    Except StoreError (σ × α) → Except StoreError (σ × α) → Prop where
  | refused (e : StoreError) : Alike R (.error e) (.error e)
  | done {s s' : σ} (h : R s s') (a : α) : Alike R (.ok (s, a)) (.ok (s', a))

/-- A peer's record with its counters, and what two stores share of a broadcast. -/
structure StoreParts (σ : Type) where
  record : σ → BroadcastId → PeerId → Option PeerStatsSnapshot
  SameOf : BroadcastId → σ → σ → Prop

/-- At most the quality of a stored peer is less than it was. -/
structure QualityLowered (old new : Option PeerStatsSnapshot) : Prop where
  lowered : ∃ snapshot trustScore successRate, old = some snapshot ∧
    new = some { snapshot with peer := { snapshot.peer with trustScore, successRate } } ∧
    trustScore ≤ snapshot.peer.trustScore ∧ successRate ≤ snapshot.peer.successRate

namespace StoreParts

variable {σ α β : Type} (K : StoreParts σ) {b : BroadcastId} {p : PeerId}

/-- No stored peer's ID holds a NUL. -/
def PlainPeers (s : σ) : Prop := ∀ b p, (K.record s b p).isSome → PlainId p

/-- An operation about one peer that keeps to its record and its broadcast. -/
structure Confined (b : BroadcastId) (p : PeerId) (f : σ → Except StoreError (σ × α)) : Prop where
  alike : ∀ {s s' : σ}, K.PlainPeers s → K.SameOf b s s' → Alike (K.SameOf b) (f s) (f s')
  apart : ∀ {s s' : σ} {a : α} {b' : BroadcastId}, K.PlainPeers s → f s = .ok (s', a) →
    b' ≠ b → K.SameOf b' s' s
  others : ∀ {s s' : σ} {a : α} {b' : BroadcastId} {p' : PeerId}, f s = .ok (s', a) →
    ¬ (b' = b ∧ p' = p) → K.record s' b' p' = K.record s b' p'

/-- One that asks for a stored peer. -/
structure ConfinedReport (b : BroadcastId) (p : PeerId) (f : σ → Except StoreError (σ × α)) : Prop
    extends K.Confined b p f where
  present : ∀ {s s' : σ} {a : α}, f s = .ok (s', a) → (K.record s b p).isSome

variable {K}

theorem map_eq_ok {r : Except StoreError σ} {s : σ} {u : Unit}
    (h : r.map (·, ()) = .ok (s, u)) : ∃ s', r = .ok s' ∧ s' = s := by
  cases r with
  | error e => exact absurd h (by simp [Except.map])
  | ok s' => exact ⟨s', rfl, (Prod.mk.inj (Except.ok.inj h)).1⟩

theorem map_ok {f : σ → Except StoreError (σ × α)} {g : α → β} {s s' : σ} {c : β}
    (h : (f s).map (fun x => (x.1, g x.2)) = .ok (s', c)) : ∃ a, f s = .ok (s', a) := by
  cases hf : f s with
  | error e =>
      rw [hf] at h
      exact absurd h (by simp [Except.map])
  | ok x =>
      rw [hf] at h
      obtain ⟨rfl, -⟩ := Prod.mk.inj (Except.ok.inj h)
      exact ⟨x.2, rfl⟩

/-- What is done with the value does not matter. -/
theorem ConfinedReport.map {f : σ → Except StoreError (σ × α)} (h : K.ConfinedReport b p f)
    (g : α → β) : K.ConfinedReport b p fun s => (f s).map fun x => (x.1, g x.2) where
  alike := by
    intro s s' hplain hsame
    have halike := h.alike hplain hsame
    revert halike
    generalize f s = r
    generalize f s' = r'
    intro halike
    cases halike with
    | refused e => exact .refused e
    | done hparts a => exact .done hparts (g a)
  apart := by
    intro s s' c b' hplain hok
    obtain ⟨a, ha⟩ := map_ok hok
    exact h.apart hplain ha
  others := by
    intro s s' c b' p' hok
    obtain ⟨a, ha⟩ := map_ok hok
    exact h.others ha
  present := by
    intro s s' c hok
    obtain ⟨a, ha⟩ := map_ok hok
    exact h.present ha

end StoreParts

/-- A store whose operations on peers are confined. -/
structure TrackerStoreBackend.KeepsApart {σ : Type} (T : TrackerStoreBackend σ) extends
    StoreParts σ where
  refl : ∀ b s, SameOf b s s
  new_record : ∀ b p, record T.new b p = none
  getPeer : ∀ s b p, T.getPeer s b p = (record s b p).map PeerStatsSnapshot.peer
  record_congr : ∀ {s s' b}, SameOf b s s' → ∀ p, record s b p = record s' b p
  getBroadcast_congr : ∀ {s s' b}, SameOf b s s' → T.getBroadcast s b = T.getBroadcast s' b
  listPeers_congr : ∀ {s s' b}, SameOf b s s' → ∀ segment,
    T.listPeers s b segment = T.listPeers s' b segment
  joins : ∀ t b request options,
    toStoreParts.Confined b request.id fun s => T.joinPeerDetailed s t b request options
  alreadyJoined : ∀ {s s' t b request options peer already},
    T.joinPeerDetailed s t b request options = .ok (s', peer, already) →
    already = (record s b request.id).isSome
  leaves : ∀ b p, toStoreParts.ConfinedReport b p fun s => (T.leavePeer s b p).map (·, ())
  reportsSegments : ∀ t b p segments replace,
    toStoreParts.ConfinedReport b p fun s => T.reportSegments s t b p segments replace
  heartbeats : ∀ t b p heartbeat,
    toStoreParts.ConfinedReport b p fun s => T.heartbeat s t b p heartbeat
  reportsStats : ∀ t b p stats,
    toStoreParts.ConfinedReport b p fun s => (T.reportStats s t b p stats).map (·, ())
  reportsFailure : ∀ t b p report,
    toStoreParts.ConfinedReport b p fun s => T.reportPeerFailure s t b p report
  failureLowers : ∀ {s s' t b p report peer}, T.reportPeerFailure s t b p report = .ok (s', peer) →
    QualityLowered (record s b p) (record s' b p)
  registers : ∀ s t registration b p,
    record (T.registerBroadcast s t registration).1 b p = record s b p
  unregisters : ∀ {s s' id}, T.unregisterBroadcast s id = .ok s' → ∀ b p,
    (record s' b p).isSome → (record s b p).isSome

end OpenStreamGrid

import OpenStreamGrid.Common.Scheduling

/-!
# Validation of scheduler plans

`validateSchedulerPlan` collects everything that is wrong with an untrusted plan
in the context it was made for. `PlanAccepted` is what it means that nothing is:
the fields decode, the selected peers are eligible and distinct, the ranks number
the ranked peers, the execution hints agree with the rest.
-/

namespace OpenStreamGrid

inductive SchedulerPlanFailureCode where
  | invalidPlan
  | invalidMode
  | policyMismatch
  | invalidPeerCount
  | duplicatePeer
  | unknownPeer
  | selfPeer
  | segmentUnavailable
  | parallelismExceeded
  | invalidRank
  | nonFiniteScore
  | invalidDeadline
  | invalidExecutionHints
deriving DecidableEq

def SchedulerPlanFailureCode.text : SchedulerPlanFailureCode → String
  | .invalidPlan => "invalid_plan"
  | .invalidMode => "invalid_mode"
  | .policyMismatch => "policy_mismatch"
  | .invalidPeerCount => "invalid_peer_count"
  | .duplicatePeer => "duplicate_peer"
  | .unknownPeer => "unknown_peer"
  | .selfPeer => "self_peer"
  | .segmentUnavailable => "segment_unavailable"
  | .parallelismExceeded => "parallelism_exceeded"
  | .invalidRank => "invalid_rank"
  | .nonFiniteScore => "non_finite_score"
  | .invalidDeadline => "invalid_deadline"
  | .invalidExecutionHints => "invalid_execution_hints"

structure SchedulerPlanValidationFailure where
  code : SchedulerPlanFailureCode
  message : String
deriving DecidableEq

/-- The failure of a check that does not pass. -/
def failUnless (passes : Bool) (code : SchedulerPlanFailureCode) (message : String) :
    List SchedulerPlanValidationFailure :=
  if passes then [] else [⟨code, message⟩]

@[simp] theorem failUnless_eq_nil {passes : Bool} {code : SchedulerPlanFailureCode}
    {message : String} : failUnless passes code message = [] ↔ passes = true := by
  cases passes <;> simp [failUnless]

def validateOptionalNonNegativeFiniteNumber (value : JsValue) (fieldName : String)
    (code : SchedulerPlanFailureCode) : List SchedulerPlanValidationFailure :=
  failUnless value.optionalNonNegativeFinite code
    (fieldName ++ " must be a finite, non-negative number")

/-! ## The single checks -/

def supportedDeadlineKinds : List String :=
  ["player-derived", "playlist-derived", "synthetic", "unknown"]

def supportedExecutionStrategies : List String :=
  ["legacy-p2p-first", "origin-only", "hedged-origin"]

def deadlineFailures : Option SegmentDeadline → List SchedulerPlanValidationFailure
  | none => []
  | some deadline =>
      failUnless (deadline.kind ∈ supportedDeadlineKinds) .invalidDeadline
          "Segment deadline kind is not supported" ++
        failUnless deadline.slackMs.isFinite .invalidDeadline
          "Segment deadline slackMs must be finite" ++
        validateOptionalNonNegativeFiniteNumber (.ofNumber? deadline.segmentDurationMs)
          "Segment deadline segmentDurationMs" .invalidDeadline ++
        validateOptionalNonNegativeFiniteNumber (.ofNumber? deadline.bufferAheadMs)
          "Segment deadline bufferAheadMs" .invalidDeadline

def modeFailures (mode : JsValue) : List SchedulerPlanValidationFailure :=
  failUnless (mode.isText "origin" || mode.isText "single-peer" || mode.isText "parallel-peers")
    .invalidMode "Scheduler plan mode must be origin, single-peer, or parallel-peers"

def policyFailures (policy : JsValue) (policyName : String) :
    List SchedulerPlanValidationFailure :=
  failUnless (policy.isText policyName) .policyMismatch
    ("Scheduler plan policy must match '" ++ policyName ++ "'")

/-- The texts of a plan's peer list. -/
def selectedPeerIds (peerIds : JsValue) : List PeerId :=
  (peerIds.array?.getD []).filterMap JsValue.string?

def peerListFailures (peerIds : JsValue) : List SchedulerPlanValidationFailure :=
  failUnless (peerIds.array?.any fun elements =>
      (selectedPeerIds peerIds).length = elements.length)
    .invalidPlan "Scheduler plan peerIds must be an array of strings"

/-- The number of peers against the mode and the limit. -/
def peerCountFailures (mode peerIds : JsValue) (maximumParallelism : ℕ) :
    List SchedulerPlanValidationFailure :=
  match peerIds.array? with
  | none => []
  | some elements =>
      failUnless (!((mode.isText "origin" && elements.length != 0) ||
          (mode.isText "single-peer" && elements.length != 1) ||
          (mode.isText "parallel-peers" && elements.length < 1)))
        .invalidPeerCount
        ("Scheduler plan mode '" ++ mode.string?.getD "" ++ "' has an invalid peer count") ++
      failUnless (elements.length ≤ maximumParallelism) .parallelismExceeded
        ("Scheduler plan selects " ++ toString elements.length ++
          " peers but maximumParallelism is " ++ toString maximumParallelism)

def duplicatePeerFailures (peerIds : List PeerId) : List SchedulerPlanValidationFailure :=
  failUnless (OrderedSet.repeated peerIds).toList.isEmpty .duplicatePeer
    ("Scheduler plan contains duplicate peers: " ++
      ", ".intercalate (OrderedSet.repeated peerIds).toList)

def selectedPeerFailures (context : SegmentSchedulingContext) (peerId : PeerId) :
    List SchedulerPlanValidationFailure :=
  let candidate := (candidatesById context.candidates).get? peerId
  failUnless candidate.isSome .unknownPeer
      ("Selected peer '" ++ peerId ++ "' is not a candidate") ++
    failUnless (peerId != context.selfPeerId) .selfPeer
      ("Scheduler plan selects the local peer '" ++ peerId ++ "'") ++
    failUnless (candidate.all fun candidate =>
        context.segmentId.isEmpty || context.segmentId ∈ candidate.segments)
      .segmentUnavailable
      ("Selected peer '" ++ peerId ++ "' does not advertise '" ++ context.segmentId ++ "'")

/-- The rank of an entry, where it numbers one of `count` entries. An array has fewer than `2 ^ 32`
of them, so an integer in this range is a safe one. -/
def validRank? (count : ℕ) (rank : JsValue) : Option ℕ :=
  match rank.number?.bind JsNumber.integer? with
  | some rank => if 1 ≤ rank ∧ rank ≤ count then some rank.toNat else none
  | none => none

def finiteScore : JsValue → Bool
  | .undefined => true
  | .number score => score.isFinite
  | _ => false

def rankedPeerFailures (context : SegmentSchedulingContext) (count : ℕ) (rankedPeer : JsValue) :
    List SchedulerPlanValidationFailure :=
  match (rankedPeer.get "peerId").string? with
  | none => [⟨.invalidPlan, "Every rankedPeers entry must be an object with a string peerId"⟩]
  | some peerId =>
      failUnless ((candidatesById context.candidates).get? peerId).isSome .unknownPeer
          ("Ranked peer '" ++ peerId ++ "' is not a candidate") ++
        failUnless (peerId != context.selfPeerId) .selfPeer
          ("Scheduler plan ranks the local peer '" ++ peerId ++ "'") ++
        failUnless (validRank? count (rankedPeer.get "rank")).isSome .invalidRank
          ("Rank for peer '" ++ peerId ++ "' must be an integer between 1 and " ++
            toString count) ++
        failUnless (finiteScore (rankedPeer.get "score")) .nonFiniteScore
          ("Score for peer '" ++ peerId ++ "' must be finite when provided")

/-- The valid ranks of the entries that name a peer. -/
def validRanks (rankedPeers : List JsValue) : List ℕ :=
  rankedPeers.filterMap fun rankedPeer =>
    (rankedPeer.get "peerId").string?.bind fun _ =>
      validRank? rankedPeers.length (rankedPeer.get "rank")

def duplicateRankFailures (rankedPeers : List JsValue) : List SchedulerPlanValidationFailure :=
  failUnless (OrderedSet.repeated (validRanks rankedPeers)).toList.isEmpty .invalidRank
    ("Scheduler plan contains duplicate ranks: " ++
      ", ".intercalate ((OrderedSet.repeated (validRanks rankedPeers)).toList.map toString))

/-- The slack the hedge delay is held against: the plan's own where it is valid and there, the
context's otherwise. -/
def hedgeSlack (execution : JsValue) (deadline : Option SegmentDeadline) : Option JsNumber :=
  let slack := execution.get "deadlineSlackMs"
  if slack.optionalNonNegativeFinite && !slack.isUndefined then slack.number?
  else deadline.map SegmentDeadline.slackMs

/-- A valid delay longer than a finite slack. -/
def hedgesBeyond (delay : JsValue) (slack : Option JsNumber) : Bool :=
  delay.optionalNonNegativeFinite &&
    match delay.number?.bind JsNumber.finite?, slack.bind JsNumber.finite? with
    | some delay, some slack => slack < delay
    | _, _ => false

def executionFailures (execution mode : JsValue) (peerIds : List PeerId)
    (deadline : Option SegmentDeadline) : List SchedulerPlanValidationFailure :=
  match execution with
  | .undefined => []
  | .record _ =>
      let strategy := execution.get "strategy"
      let peerAttemptBudgetMs := execution.get "peerAttemptBudgetMs"
      let originHedgeDelayMs := execution.get "originHedgeDelayMs"
      failUnless (strategy.string?.any (· ∈ supportedExecutionStrategies)) .invalidExecutionHints
          "Scheduler plan execution strategy is not supported" ++
        validateOptionalNonNegativeFiniteNumber peerAttemptBudgetMs
          "Scheduler plan peerAttemptBudgetMs" .invalidExecutionHints ++
        validateOptionalNonNegativeFiniteNumber originHedgeDelayMs
          "Scheduler plan originHedgeDelayMs" .invalidExecutionHints ++
        validateOptionalNonNegativeFiniteNumber (execution.get "deadlineSlackMs")
          "Scheduler plan deadlineSlackMs" .invalidExecutionHints ++
        failUnless (peerAttemptBudgetMs.isUndefined || !peerIds.isEmpty) .invalidExecutionHints
          "Scheduler plan cannot set a P2P attempt budget without selected peers" ++
        failUnless (originHedgeDelayMs.isUndefined ||
            !(strategy.isText "origin-only" || mode.isText "origin")) .invalidExecutionHints
          "Scheduler plan cannot hedge an Origin-only execution" ++
        failUnless (!hedgesBeyond originHedgeDelayMs (hedgeSlack execution deadline))
          .invalidExecutionHints
          "Scheduler plan Origin hedge delay cannot exceed deadline slack"
  | _ => [⟨.invalidExecutionHints, "Scheduler plan execution hints must be an object"⟩]

/-! ## The whole check -/

/-- Validates an untrusted scheduler plan against the context it was given. Every independently
detectable failure is returned. -/
def validateSchedulerPlan (plan : JsValue) (policyName : String)
    (context : SegmentSchedulingContext) : List SchedulerPlanValidationFailure :=
  match plan with
  | .record _ =>
      let mode := plan.get "mode"
      let peerIds := plan.get "peerIds"
      let failures :=
        deadlineFailures context.deadline ++ modeFailures mode ++
          policyFailures (plan.get "policy") policyName ++ peerListFailures peerIds ++
          peerCountFailures mode peerIds context.maximumParallelism ++
          duplicatePeerFailures (selectedPeerIds peerIds) ++
          (selectedPeerIds peerIds).flatMap (selectedPeerFailures context)
      match (plan.get "rankedPeers").array? with
      | none =>
          failures ++ [⟨.invalidPlan, "Scheduler plan rankedPeers must be an array"⟩]
      | some rankedPeers =>
          failures ++ rankedPeers.flatMap (rankedPeerFailures context rankedPeers.length) ++
            duplicateRankFailures rankedPeers ++
            executionFailures (plan.get "execution") mode (selectedPeerIds peerIds)
              context.deadline
  | _ => [⟨.invalidPlan, "Scheduler plan must be a non-null object"⟩]

/-! ## What an accepted plan is -/

namespace JsValue

theorem isText_iff {text : String} {value : JsValue} :
    value.isText text = true ↔ value = .string text := by
  unfold isText
  cases value <;> simp [string?]

theorem array?_eq_some {value : JsValue} {elements : List JsValue} :
    value.array? = some elements ↔ value = .array elements := by
  cases value <;> simp [array?]

theorem string?_eq_some {value : JsValue} {text : String} :
    value.string? = some text ↔ value = .string text := by
  cases value <;> simp [string?]

theorem filterMap_string (texts : List String) :
    (texts.map JsValue.string).filterMap string? = texts := by
  induction texts with
  | nil => rfl
  | cons text texts ih =>
      have htext : (JsValue.string text).string? = some text := rfl
      rw [List.map_cons, List.filterMap_cons_some htext, ih]

/-- An array all of whose elements are texts is the array of its texts. -/
theorem map_string_filterMap {elements : List JsValue}
    (h : (elements.filterMap string?).length = elements.length) :
    (elements.filterMap string?).map JsValue.string = elements := by
  induction elements with
  | nil => rfl
  | cons element elements ih =>
      cases htext : element.string? with
      | none =>
          rw [List.filterMap_cons_none htext, List.length_cons] at h
          have := List.length_filterMap_le string? elements
          omega
      | some text =>
          rw [List.filterMap_cons_some htext, List.length_cons, List.length_cons,
            Nat.succ_inj] at h
          rw [List.filterMap_cons_some htext, List.map_cons, ih h, string?_eq_some.mp htext]

end JsValue

/-- The deadlines the check accepts. -/
structure SegmentDeadline.WellFormed (deadline : SegmentDeadline) : Prop where
  kind : deadline.kind ∈ supportedDeadlineKinds
  slackMs : deadline.slackMs.isFinite = true
  segmentDurationMs :
    (JsValue.ofNumber? deadline.segmentDurationMs).optionalNonNegativeFinite = true
  bufferAheadMs : (JsValue.ofNumber? deadline.bufferAheadMs).optionalNonNegativeFinite = true

theorem deadlineFailures_eq_nil {deadline : Option SegmentDeadline} :
    deadlineFailures deadline = [] ↔ ∀ d ∈ deadline, d.WellFormed := by
  cases deadline with
  | none => simp [deadlineFailures]
  | some d =>
      simp only [deadlineFailures, validateOptionalNonNegativeFiniteNumber,
        List.append_eq_nil_iff, failUnless_eq_nil, decide_eq_true_eq, Option.mem_some_iff,
        forall_eq']
      constructor
      · rintro ⟨⟨⟨hkind, hslack⟩, hduration⟩, hbuffer⟩
        exact ⟨hkind, hslack, hduration, hbuffer⟩
      · rintro ⟨hkind, hslack, hduration, hbuffer⟩
        exact ⟨⟨⟨hkind, hslack⟩, hduration⟩, hbuffer⟩

/-- The numbers of peers a mode goes with. -/
def SchedulingMode.Admits : SchedulingMode → ℕ → Prop
  | .origin, count => count = 0
  | .singlePeer, count => count = 1
  | .parallelPeers, count => 1 ≤ count

theorem modeFailures_eq_nil {mode : JsValue} :
    modeFailures mode = [] ↔ ∃ m : SchedulingMode, mode = .string m.text := by
  simp only [modeFailures, failUnless_eq_nil, Bool.or_eq_true, JsValue.isText_iff]
  constructor
  · rintro ((h | h) | h)
    · exact ⟨.origin, h⟩
    · exact ⟨.singlePeer, h⟩
    · exact ⟨.parallelPeers, h⟩
  · rintro ⟨m, h⟩
    cases m with
    | origin => exact Or.inl (Or.inl h)
    | singlePeer => exact Or.inl (Or.inr h)
    | parallelPeers => exact Or.inr h

theorem peerListFailures_eq_nil {peerIds : JsValue} :
    peerListFailures peerIds = [] ↔
      peerIds = .array ((selectedPeerIds peerIds).map .string) := by
  rw [peerListFailures, failUnless_eq_nil]
  unfold selectedPeerIds
  cases peerIds with
  | array elements =>
      simp only [JsValue.array?, Option.any_some, Option.getD_some, JsValue.array.injEq]
      constructor
      · intro h
        exact (JsValue.map_string_filterMap (of_decide_eq_true h)).symm
      · intro h
        have hlen := congrArg List.length h
        rw [List.length_map] at hlen
        exact decide_eq_true hlen.symm
  | _ => simp [JsValue.array?]

@[simp] theorem selectedPeerIds_map_string (peerIds : List PeerId) :
    selectedPeerIds (.array (peerIds.map .string)) = peerIds :=
  JsValue.filterMap_string peerIds

theorem peerCountFailures_eq_nil {mode : SchedulingMode} {peerIds : List PeerId} {limit : ℕ} :
    peerCountFailures (.string mode.text) (.array (peerIds.map .string)) limit = [] ↔
      mode.Admits peerIds.length ∧ peerIds.length ≤ limit := by
  simp only [peerCountFailures, JsValue.array?, List.append_eq_nil_iff, failUnless_eq_nil,
    List.length_map, decide_eq_true_eq]
  apply and_congr_left'
  cases mode <;>
    simp [JsValue.isText, JsValue.string?, SchedulingMode.text, SchedulingMode.Admits,
      Nat.one_le_iff_ne_zero]

/-- A candidate other than the local peer that advertises the segment, if one is named. -/
def SegmentSchedulingContext.Selectable (context : SegmentSchedulingContext) (p : PeerId) : Prop :=
  ∃ candidate, (candidatesById context.candidates).get? p = some candidate ∧
    p ≠ context.selfPeerId ∧
    (context.segmentId ≠ "" → context.segmentId ∈ candidate.segments)

theorem selectedPeerFailures_eq_nil {context : SegmentSchedulingContext} {p : PeerId} :
    selectedPeerFailures context p = [] ↔ context.Selectable p := by
  unfold selectedPeerFailures SegmentSchedulingContext.Selectable
  simp only [List.append_eq_nil_iff, failUnless_eq_nil, bne_iff_ne]
  cases (candidatesById context.candidates).get? p with
  | none => simp
  | some candidate =>
      have hempty : context.segmentId.isEmpty = true ↔ context.segmentId = "" :=
        String.isEmpty_iff
      simp [hempty, or_iff_not_imp_left]

/-- An entry of the ranking: it names a candidate other than the local peer, its rank numbers
one of the entries, its score is finite where there is one. -/
structure RankAccepted (context : SegmentSchedulingContext) (count : ℕ) (rankedPeer : JsValue)
    (p : PeerId) (rank : ℕ) : Prop where
  peerId : rankedPeer.get "peerId" = .string p
  candidate : ((candidatesById context.candidates).get? p).isSome = true
  notSelf : p ≠ context.selfPeerId
  rank : validRank? count (rankedPeer.get "rank") = some rank
  score : finiteScore (rankedPeer.get "score") = true

theorem rankedPeerFailures_eq_nil {context : SegmentSchedulingContext} {count : ℕ}
    {rankedPeer : JsValue} :
    rankedPeerFailures context count rankedPeer = [] ↔
      ∃ p rank, RankAccepted context count rankedPeer p rank := by
  unfold rankedPeerFailures
  cases hp : (rankedPeer.get "peerId").string? with
  | none =>
      constructor
      · intro h
        cases h
      · rintro ⟨p, rank, h⟩
        rw [h.peerId] at hp
        cases hp
  | some p =>
      have hp' := JsValue.string?_eq_some.mp hp
      simp only [List.append_eq_nil_iff, failUnless_eq_nil, bne_iff_ne]
      constructor
      · rintro ⟨⟨⟨hcandidate, hself⟩, hrank⟩, hscore⟩
        obtain ⟨rank, hrank⟩ := Option.isSome_iff_exists.mp hrank
        exact ⟨p, rank, hp', hcandidate, hself, hrank, hscore⟩
      · rintro ⟨q, rank, hq, hcandidate, hself, hrank, hscore⟩
        obtain rfl : p = q := JsValue.string.inj (hp'.symm.trans hq)
        exact ⟨⟨⟨hcandidate, hself⟩, by rw [hrank]; rfl⟩, hscore⟩

/-- A plan without failures: what its fields hold and how they agree. -/
structure PlanAccepted (plan : JsValue) (policyName : String)
    (context : SegmentSchedulingContext) (mode : SchedulingMode) (peerIds : List PeerId)
    (rankedPeers : List JsValue) : Prop where
  deadline : ∀ d ∈ context.deadline, d.WellFormed
  mode_eq : plan.get "mode" = .string mode.text
  policy_eq : plan.get "policy" = .string policyName
  peerIds_eq : plan.get "peerIds" = .array (peerIds.map .string)
  admits : mode.Admits peerIds.length
  parallelism : peerIds.length ≤ context.maximumParallelism
  nodup : peerIds.Nodup
  selectable : ∀ p ∈ peerIds, context.Selectable p
  rankedPeers_eq : plan.get "rankedPeers" = .array rankedPeers
  ranked : ∀ rankedPeer ∈ rankedPeers, ∃ p rank,
    RankAccepted context rankedPeers.length rankedPeer p rank
  ranks_nodup : (validRanks rankedPeers).Nodup
  execution : executionFailures (plan.get "execution") (.string mode.text) peerIds
    context.deadline = []

/-- **A plan passes the check exactly where it is a well-formed plan for its context.** -/
theorem validateSchedulerPlan_eq_nil {plan : JsValue} {policyName : String}
    {context : SegmentSchedulingContext} :
    validateSchedulerPlan plan policyName context = [] ↔
      ∃ mode peerIds rankedPeers, PlanAccepted plan policyName context mode peerIds rankedPeers := by
  constructor
  · intro h
    cases plan with
    | record fields =>
        unfold validateSchedulerPlan at h
        dsimp only at h
        cases hranked : ((JsValue.record fields).get "rankedPeers").array? with
        | none =>
            rw [hranked] at h
            exact absurd (List.append_eq_nil_iff.mp h).2 (List.cons_ne_nil _ _)
        | some rankedPeers =>
            rw [hranked] at h
            simp only [List.append_eq_nil_iff, List.flatMap_eq_nil_iff] at h
            obtain ⟨⟨⟨⟨⟨⟨⟨⟨⟨hdeadline, hmode⟩, hpolicy⟩, hlist⟩, hcount⟩, hdup⟩, hselected⟩,
              hranks⟩, hdupranks⟩, hexecution⟩ := h
            obtain ⟨mode, hmode⟩ := modeFailures_eq_nil.mp hmode
            have hlist := peerListFailures_eq_nil.mp hlist
            generalize hids : selectedPeerIds ((JsValue.record fields).get "peerIds") = peerIds
              at hlist hdup hselected hexecution
            rw [hmode, hlist] at hcount
            obtain ⟨hadmits, hparallel⟩ := peerCountFailures_eq_nil.mp hcount
            rw [duplicatePeerFailures, failUnless_eq_nil, List.isEmpty_iff,
              OrderedSet.repeated_eq_nil_iff] at hdup
            rw [duplicateRankFailures, failUnless_eq_nil, List.isEmpty_iff,
              OrderedSet.repeated_eq_nil_iff] at hdupranks
            rw [policyFailures, failUnless_eq_nil, JsValue.isText_iff] at hpolicy
            rw [hmode] at hexecution
            exact ⟨mode, peerIds, rankedPeers, deadlineFailures_eq_nil.mp hdeadline, hmode,
              hpolicy, hlist, hadmits, hparallel, hdup,
              fun p hp => selectedPeerFailures_eq_nil.mp (hselected p hp),
              JsValue.array?_eq_some.mp hranked,
              fun r hr => rankedPeerFailures_eq_nil.mp (hranks r hr), hdupranks, hexecution⟩
    | _ => exact absurd h (List.cons_ne_nil _ _)
  · rintro ⟨mode, peerIds, rankedPeers, h⟩
    cases plan with
    | record fields =>
        unfold validateSchedulerPlan
        dsimp only
        rw [h.rankedPeers_eq, h.mode_eq, h.peerIds_eq, h.policy_eq]
        simp only [JsValue.array?, List.append_eq_nil_iff, List.flatMap_eq_nil_iff,
          selectedPeerIds_map_string]
        refine ⟨⟨⟨⟨⟨⟨⟨⟨⟨?_, ?_⟩, ?_⟩, ?_⟩, ?_⟩, ?_⟩, ?_⟩, ?_⟩, ?_⟩, h.execution⟩
        · exact deadlineFailures_eq_nil.mpr h.deadline
        · exact modeFailures_eq_nil.mpr ⟨mode, rfl⟩
        · rw [policyFailures, failUnless_eq_nil, JsValue.isText_iff]
        · rw [peerListFailures_eq_nil, selectedPeerIds_map_string]
        · exact peerCountFailures_eq_nil.mpr ⟨h.admits, h.parallelism⟩
        · rw [duplicatePeerFailures, failUnless_eq_nil, List.isEmpty_iff,
            OrderedSet.repeated_eq_nil_iff]
          exact h.nodup
        · exact fun p hp => selectedPeerFailures_eq_nil.mpr (h.selectable p hp)
        · exact fun r hr => rankedPeerFailures_eq_nil.mpr (h.ranked r hr)
        · rw [duplicateRankFailures, failUnless_eq_nil, List.isEmpty_iff,
            OrderedSet.repeated_eq_nil_iff]
          exact h.ranks_nodup
    | _ => cases h.mode_eq

/-! ## Typed plans -/

@[simp] theorem RankedPeer.toJs_peerId (ranked : RankedPeer) :
    ranked.toJs.get "peerId" = .string ranked.peerId := by
  simp [toJs, JsValue.ofFields, JsValue.get]

@[simp] theorem RankedPeer.toJs_score (ranked : RankedPeer) :
    ranked.toJs.get "score" = (ranked.score.map exactNumber).getD .undefined := by
  cases h : ranked.score <;> simp [toJs, JsValue.ofFields, JsValue.get, h]

@[simp] theorem RankedPeer.toJs_rank (ranked : RankedPeer) :
    ranked.toJs.get "rank" = exactNumber ranked.rank := by
  cases h : ranked.score <;> simp [toJs, JsValue.ofFields, JsValue.get, h]

theorem validRank?_natCast {count rank : ℕ} (hpos : 1 ≤ rank) (hle : rank ≤ count) :
    validRank? count (exactNumber rank) = some rank := by
  have hinteger : (exactNumber rank).number?.bind JsNumber.integer? = some (rank : ℤ) :=
    JsNumber.integer?_natCast rank
  unfold validRank?
  rw [hinteger]
  dsimp only
  rw [if_pos ⟨by omega, by omega⟩, Int.toNat_natCast]

namespace SegmentSchedulingPlan

variable (plan : SegmentSchedulingPlan)

@[simp] theorem toJs_policy : plan.toJs.get "policy" = .string plan.policy := by
  simp [toJs, JsValue.ofFields, JsValue.get]

@[simp] theorem toJs_mode : plan.toJs.get "mode" = .string plan.mode.text := by
  simp [toJs, JsValue.ofFields, JsValue.get]

@[simp] theorem toJs_peerIds : plan.toJs.get "peerIds" = .array (plan.peerIds.map .string) := by
  simp [toJs, JsValue.ofFields, JsValue.get]

@[simp] theorem toJs_rankedPeers :
    plan.toJs.get "rankedPeers" = .array (plan.rankedPeers.map RankedPeer.toJs) := by
  simp [toJs, JsValue.ofFields, JsValue.get]

@[simp] theorem toJs_execution : plan.toJs.get "execution" =
    (plan.execution.map SegmentExecutionHints.toJs).getD .undefined := by
  cases h : plan.execution <;> simp [toJs, JsValue.ofFields, JsValue.get, h]

end SegmentSchedulingPlan

namespace SegmentExecutionHints

variable (hints : SegmentExecutionHints)

theorem toJs_strategy : hints.toJs.get "strategy" = .string hints.strategy.text := by
  simp [toJs, JsValue.ofFields, JsValue.get]

theorem toJs_peerAttemptBudgetMs : hints.toJs.get "peerAttemptBudgetMs" =
    (hints.peerAttemptBudgetMs.map exactNumber).getD .undefined := by
  cases h : hints.peerAttemptBudgetMs <;> cases h' : hints.originHedgeDelayMs <;>
    cases h'' : hints.deadlineSlackMs <;>
    simp [toJs, JsValue.ofFields, JsValue.get, h, h', h'']

theorem toJs_originHedgeDelayMs : hints.toJs.get "originHedgeDelayMs" =
    (hints.originHedgeDelayMs.map exactNumber).getD .undefined := by
  cases h : hints.peerAttemptBudgetMs <;> cases h' : hints.originHedgeDelayMs <;>
    cases h'' : hints.deadlineSlackMs <;>
    simp [toJs, JsValue.ofFields, JsValue.get, h, h', h'']

theorem toJs_deadlineSlackMs : hints.toJs.get "deadlineSlackMs" =
    (hints.deadlineSlackMs.map exactNumber).getD .undefined := by
  cases h : hints.peerAttemptBudgetMs <;> cases h' : hints.originHedgeDelayMs <;>
    cases h'' : hints.deadlineSlackMs <;>
    simp [toJs, JsValue.ofFields, JsValue.get, h, h', h'']

/-- Hints that agree with each other and with the plan's mode and peers: the numbers are not
negative, a budget goes with peers, a hedge with a peer execution, and the hedge starts within
the slack. -/
structure Consistent (mode : SchedulingMode) (peerIds : List PeerId)
    (deadline : Option SegmentDeadline) : Prop where
  budget_nonneg : ∀ budget ∈ hints.peerAttemptBudgetMs, 0 ≤ budget ∧ peerIds ≠ []
  hedge_nonneg : ∀ delay ∈ hints.originHedgeDelayMs,
    0 ≤ delay ∧ hints.strategy ≠ .originOnly ∧ mode ≠ .origin
  slack_nonneg : ∀ slack ∈ hints.deadlineSlackMs, 0 ≤ slack
  hedge_le : ∀ delay ∈ hints.originHedgeDelayMs,
    (∀ slack ∈ hints.deadlineSlackMs, delay ≤ slack) ∧
    (hints.deadlineSlackMs = none → ∀ d ∈ deadline, ∀ slack,
      d.slackMs = .finite slack → delay ≤ slack)

theorem optionalNonNegativeFinite_map {x : Option ℚ} (h : ∀ q ∈ x, 0 ≤ q) :
    ((x.map exactNumber).getD .undefined).optionalNonNegativeFinite = true := by
  cases x with
  | none => rfl
  | some q =>
      rw [Option.map_some, Option.getD_some]
      exact decide_eq_true (h q rfl)

variable {hints}

/-- The delay the check compares and the slack it compares it with. -/
theorem Consistent.not_hedgesBeyond {mode : SchedulingMode} {peerIds : List PeerId}
    {deadline : Option SegmentDeadline} (h : hints.Consistent mode peerIds deadline) :
    hedgesBeyond (hints.toJs.get "originHedgeDelayMs") (hedgeSlack hints.toJs deadline)
      = false := by
  rw [toJs_originHedgeDelayMs]
  unfold hedgesBeyond hedgeSlack
  rw [toJs_deadlineSlackMs]
  cases hdelay : hints.originHedgeDelayMs with
  | none => simp [JsValue.number?]
  | some delay =>
      obtain ⟨hown, hcontext⟩ := h.hedge_le delay hdelay
      cases hslack : hints.deadlineSlackMs with
      | some slack =>
          have hnonneg := h.slack_nonneg slack hslack
          have hle := hown slack hslack
          simp [exactNumber, JsValue.optionalNonNegativeFinite, JsValue.isUndefined,
            JsValue.number?, JsNumber.finite?, hnonneg, hle]
      | none =>
          cases deadline with
          | none => simp [JsValue.isUndefined]
          | some d =>
              cases hd : d.slackMs with
              | finite slack =>
                  have hle := hcontext hslack d rfl slack hd
                  simp [exactNumber, JsValue.isUndefined, JsValue.number?, JsNumber.finite?,
                    hd, hle]
              | infinity negative => simp [JsValue.isUndefined, JsNumber.finite?, hd]
              | nan => simp [JsValue.isUndefined, JsNumber.finite?, hd]

theorem Consistent.executionFailures {mode : SchedulingMode} {peerIds : List PeerId}
    {deadline : Option SegmentDeadline} (h : hints.Consistent mode peerIds deadline) :
    executionFailures hints.toJs (.string mode.text) peerIds deadline = [] := by
  have hbeyond := h.not_hedgesBeyond
  have hrecord : ∃ fields, hints.toJs = .record fields := ⟨_, rfl⟩
  obtain ⟨fields, hfields⟩ := hrecord
  rw [hfields] at hbeyond ⊢
  unfold OpenStreamGrid.executionFailures
  dsimp only
  simp only [validateOptionalNonNegativeFiniteNumber, List.append_eq_nil_iff, failUnless_eq_nil]
  rw [hbeyond, ← hfields, toJs_strategy, toJs_peerAttemptBudgetMs, toJs_originHedgeDelayMs,
    toJs_deadlineSlackMs]
  refine ⟨⟨⟨⟨⟨⟨?_, ?_⟩, ?_⟩, ?_⟩, ?_⟩, ?_⟩, rfl⟩
  · cases hints.strategy <;> decide
  · exact optionalNonNegativeFinite_map fun budget hb => (h.budget_nonneg budget hb).1
  · exact optionalNonNegativeFinite_map fun delay hd => (h.hedge_nonneg delay hd).1
  · exact optionalNonNegativeFinite_map h.slack_nonneg
  · cases hb : hints.peerAttemptBudgetMs with
    | none => rfl
    | some budget => simp [(h.budget_nonneg budget hb).2]
  · cases hd : hints.originHedgeDelayMs with
    | none => rfl
    | some delay =>
        obtain ⟨-, hstrategy, hmode⟩ := h.hedge_nonneg delay hd
        have hnotOnly : hints.strategy ≠ .originOnly →
            JsValue.isText "origin-only" (.string hints.strategy.text) = false := by
          cases hints.strategy <;> decide
        have hnotOrigin : mode ≠ .origin →
            JsValue.isText "origin" (.string mode.text) = false := by
          cases mode <;> decide
        rw [hnotOnly hstrategy, hnotOrigin hmode, Bool.or_false, Bool.not_false, Bool.or_true]

end SegmentExecutionHints

/-- A typed plan the check has nothing against, in a context with a well-formed deadline. -/
structure SegmentSchedulingPlan.WellFormed (plan : SegmentSchedulingPlan)
    (context : SegmentSchedulingContext) : Prop where
  admits : plan.mode.Admits plan.peerIds.length
  parallelism : plan.peerIds.length ≤ context.maximumParallelism
  nodup : plan.peerIds.Nodup
  selectable : ∀ p ∈ plan.peerIds, context.Selectable p
  /-- The entries are numbered in order, from one. -/
  ranks : plan.rankedPeers.map RankedPeer.rank = List.range' 1 plan.rankedPeers.length
  ranked : ∀ r ∈ plan.rankedPeers,
    ((candidatesById context.candidates).get? r.peerId).isSome = true ∧
      r.peerId ≠ context.selfPeerId
  execution : ∀ hints ∈ plan.execution,
    hints.Consistent plan.mode plan.peerIds context.deadline

theorem SegmentSchedulingPlan.WellFormed.rankAccepted {plan : SegmentSchedulingPlan}
    {context : SegmentSchedulingContext} (h : plan.WellFormed context) {r : RankedPeer}
    (hr : r ∈ plan.rankedPeers) :
    RankAccepted context plan.rankedPeers.length r.toJs r.peerId r.rank := by
  have hrank : r.rank ∈ List.range' 1 plan.rankedPeers.length := by
    rw [← h.ranks]
    exact List.mem_map_of_mem hr
  rw [List.mem_range'_1] at hrank
  refine ⟨r.toJs_peerId, (h.ranked r hr).1, (h.ranked r hr).2, ?_, ?_⟩
  · rw [r.toJs_rank]
    exact validRank?_natCast hrank.1 (by omega)
  · rw [r.toJs_score]
    cases r.score <;> rfl

/-- **The check passes every well-formed plan.** -/
theorem SegmentSchedulingPlan.WellFormed.validate {plan : SegmentSchedulingPlan}
    {context : SegmentSchedulingContext} (h : plan.WellFormed context)
    (hdeadline : ∀ d ∈ context.deadline, d.WellFormed) :
    validateSchedulerPlan plan.toJs plan.policy context = [] := by
  rw [validateSchedulerPlan_eq_nil]
  refine ⟨plan.mode, plan.peerIds, plan.rankedPeers.map RankedPeer.toJs, hdeadline,
    plan.toJs_mode, plan.toJs_policy, plan.toJs_peerIds, h.admits, h.parallelism, h.nodup,
    h.selectable, plan.toJs_rankedPeers, ?_, ?_, ?_⟩
  · intro rankedPeer hmem
    obtain ⟨r, hr, rfl⟩ := List.mem_map.mp hmem
    rw [List.length_map]
    exact ⟨r.peerId, r.rank, h.rankAccepted hr⟩
  · have hranks : validRanks (plan.rankedPeers.map RankedPeer.toJs) =
        plan.rankedPeers.map RankedPeer.rank := by
      unfold validRanks
      rw [List.filterMap_map, List.length_map, ← List.filterMap_eq_map]
      refine List.filterMap_congr fun r hr => ?_
      have haccepted := h.rankAccepted hr
      show ((r.toJs.get "peerId").string?.bind fun _ =>
        validRank? plan.rankedPeers.length (r.toJs.get "rank")) = some r.rank
      rw [haccepted.peerId, haccepted.rank]
      rfl
    rw [hranks, h.ranks]
    exact List.nodup_range'
  · rw [plan.toJs_execution]
    cases hexec : plan.execution with
    | none => rfl
    | some hints => exact (h.execution hints hexec).executionFailures

theorem originPlan_wellFormed (policy : String) (reason : SchedulingReason)
    (context : SegmentSchedulingContext) : (originPlan policy reason).WellFormed context where
  admits := rfl
  parallelism := Nat.zero_le _
  nodup := List.nodup_nil
  selectable _ hp := absurd hp List.not_mem_nil
  ranks := rfl
  ranked _ hr := absurd hr List.not_mem_nil
  execution hints hhints := absurd hhints (Option.not_mem_none hints)

/-! ## Planning with a scheduler that is not trusted -/

section Planning

variable {σ π : Type*} [PlanData π]

/-- Contains custom scheduler exceptions and rejects invalid plans: the plan to execute and the
warnings about it. -/
def planSegmentSafely (scheduler : SegmentScheduler σ π) (context : SegmentSchedulingContext)
    (s : σ) : (π × List SchedulerPlanValidationFailure) × σ :=
  let (candidatePlan, s') := scheduler.planSegment context s
  let policyName := scheduler.policyName s'
  match candidatePlan with
  | .ok plan =>
      let warnings := validateSchedulerPlan (PlanData.toJs plan) policyName context
      if warnings.isEmpty then ((plan, []), s')
      else ((PlanData.ofPlan (originFallbackPlan policyName), warnings), s')
  | .error text =>
      ((PlanData.ofPlan (originFallbackPlan policyName),
        [⟨.invalidPlan, "Scheduler '" ++ policyName ++ "' threw: " ++ text⟩]), s')

/-- The plan to execute is either one the check accepts or the fallback to the origin. -/
theorem planSegmentSafely_plan (scheduler : SegmentScheduler σ π)
    (context : SegmentSchedulingContext) (s : σ) :
    (∃ policyName mode peerIds rankedPeers,
      PlanAccepted (PlanData.toJs (planSegmentSafely scheduler context s).1.1) policyName context
        mode peerIds rankedPeers) ∨
    (∃ policyName, PlanData.toJs (planSegmentSafely scheduler context s).1.1 =
      (originFallbackPlan policyName).toJs) := by
  unfold planSegmentSafely
  generalize scheduler.planSegment context s = planned
  obtain ⟨outcome, s'⟩ := planned
  cases outcome with
  | error text => exact Or.inr ⟨scheduler.policyName s', PlanData.toJs_ofPlan _⟩
  | ok plan =>
      dsimp only
      by_cases hwarn : (validateSchedulerPlan (PlanData.toJs plan) (scheduler.policyName s')
          context).isEmpty = true
      · rw [if_pos hwarn]
        obtain ⟨mode, peerIds, rankedPeers, haccepted⟩ :=
          validateSchedulerPlan_eq_nil.mp (List.isEmpty_iff.mp hwarn)
        exact Or.inl ⟨_, mode, peerIds, rankedPeers, haccepted⟩
      · rw [if_neg hwarn]
        exact Or.inr ⟨scheduler.policyName s', PlanData.toJs_ofPlan _⟩

/-- A plan that passes the check is executed as it is. -/
theorem planSegmentSafely_of_accepted {scheduler : SegmentScheduler σ π}
    {context : SegmentSchedulingContext} {s s' : σ} {plan : π}
    (hplan : scheduler.planSegment context s = (.ok plan, s'))
    (haccepted : validateSchedulerPlan (PlanData.toJs plan) (scheduler.policyName s') context
      = []) :
    planSegmentSafely scheduler context s = ((plan, []), s') := by
  unfold planSegmentSafely
  rw [hplan]
  dsimp only
  rw [haccepted, if_pos List.isEmpty_nil]

end Planning

end OpenStreamGrid

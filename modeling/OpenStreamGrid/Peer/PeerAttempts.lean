import OpenStreamGrid.Peer.SegmentFetching

/-!
# One attempt on a peer

`fetchFromPeer` of the Node fetcher, with the bytes it handles, the errors it ends in
and what the peer has done so far. Time is left out: a timer that is armed may fire at
any moment. An aborted request gives nothing any more and is rejected later; a check
of bytes that are there goes on.
-/

namespace OpenStreamGrid

namespace HybridSegmentFetcher

/-! ## Errors -/

def startsWith (text pattern : List Char) : Bool := decide (pattern <+: text)

/-- `/timed out|abort/i.test(message)` -/
def saysTimeout (message : String) : Bool :=
  (message.toList.map Char.toLower).tails.any fun tail =>
    startsWith tail "timed out".toList || startsWith tail "abort".toList

/-- `/HTTP \d+/i.test(message)` -/
def saysHttpStatus (message : String) : Bool :=
  (message.toList.map Char.toLower).tails.any fun tail =>
    startsWith tail "http ".toList && (tail.drop 5).head?.any Char.isDigit

/-- The reason read off the text of a transport's error. -/
def transportFailureReason (message : String) : FailureReason :=
  if saysHttpStatus message then .http
  else if saysTimeout message then .timeout
  else .connection

/-! ## Attempts -/

/-- What the peer has done so far. -/
inductive Conduct where
  /-- No complete answer yet. -/
  | silent
  /-- A complete answer, and nothing against it. -/
  | delivered
  /-- An HTTP error, or bytes with another hash than the published one. -/
  | refuted
deriving DecidableEq

inductive AttemptStage where
  /-- A direct request, -/
  | connecting
  /-- whose answer has begun. -/
  | receiving
  | webRtc
  /-- An adapter checks what it was given, where it has a verifier. -/
  | verifyingWebRtc (data : List UInt8)
  | http
  | verifyingHttp (data : List UInt8)
  /-- The fetcher's own check. -/
  | verifying (data : List UInt8)
  | delivered (data : List UInt8)
  /-- Rejected, by a `PeerFetchError` with a reason or by another error. -/
  | failed (error : Option FailureReason)
deriving DecidableEq

/-- `fetchFromPeer` under way or over. -/
structure PeerAttempt where
  peerId : PeerId
  stage : AttemptStage
  conduct : Conduct
  /-- The fetcher's timer is armed. -/
  timer : Bool
  aborted : Bool
  /-- Aborted by the caller, the shutdown or the end of a hedge, and not by the timer. -/
  cancelled : Bool
deriving DecidableEq

inductive AttemptEvent where
  /-- The head of a direct answer arrives, -/
  | responds
  /-- then all of its bytes; through an adapter they arrive at once. -/
  | answers (data : List UInt8)
  | httpError (status : ℕ)
  /-- The request is rejected: no connection, a broken answer, an adapter's timeout, an abort. -/
  | fails (message : String)
  | timesOut
  | hashMatches
  | hashDiffers
  /-- There is no hash to compare with. -/
  | hashUnavailable (message : String)
deriving DecidableEq

namespace PeerAttempt

def running (attempt : PeerAttempt) : Bool :=
  match attempt.stage with
  | .delivered _ | .failed _ => false
  | _ => true

/-- The attempt begins, under a signal that may be aborted already. -/
def start (options : Node.FetcherOptions) (peerId : PeerId) (attemptBudgetMs : Option ℚ)
    (aborted : Bool) : PeerAttempt where
  peerId := peerId
  stage := match options.transportManager with
    | none => .connecting
    | some manager => if manager.webRtcEnabled then .webRtc else .http
  conduct := .silent
  timer := options.transportManager.isNone || attemptBudgetMs.isSome
  aborted := aborted
  cancelled := aborted

def fail (attempt : PeerAttempt) (error : Option FailureReason) : PeerAttempt :=
  { attempt with stage := .failed error }

/-- The transport manager rejects. -/
def transportFails (attempt : PeerAttempt) (message : String) : PeerAttempt :=
  attempt.fail (some (transportFailureReason message))

/-- The manager's second try. -/
def fallBack (attempt : PeerAttempt) : PeerAttempt := { attempt with stage := .http }

/-- Complete bytes are there. -/
def receive (attempt : PeerAttempt) (stage : AttemptStage) : PeerAttempt :=
  { attempt with
    stage := stage
    conduct := if attempt.conduct = .silent then .delivered else attempt.conduct }

def refute (attempt : PeerAttempt) : PeerAttempt := { attempt with conduct := .refuted }

def verify (attempt : PeerAttempt) (data : List UInt8) : PeerAttempt :=
  { attempt with stage := .verifying data }

def cancel (attempt : PeerAttempt) : PeerAttempt :=
  if attempt.running then { attempt with aborted := true, cancelled := true } else attempt

/-- Whether the manager's adapter checks what it is given. -/
def adapterVerifies (options : Node.FetcherOptions) (verifier : Node.TransportManager → Bool) :
    Bool :=
  options.transportManager.any verifier

def step (options : Node.FetcherOptions) (attempt : PeerAttempt) : AttemptEvent → Option PeerAttempt
  | .responds =>
      match attempt.stage with
      | .connecting => if attempt.aborted then none else some { attempt with stage := .receiving }
      | _ => none
  | .answers data =>
      match attempt.stage with
      | .receiving => if attempt.aborted then none else some (attempt.receive (.verifying data))
      | .webRtc =>
          if attempt.aborted then none
          else some (attempt.receive
            (if adapterVerifies options Node.TransportManager.webRtcVerifier then
              .verifyingWebRtc data else .verifying data))
      | .http =>
          if attempt.aborted then none
          else some (attempt.receive
            (if adapterVerifies options Node.TransportManager.httpVerifier then
              .verifyingHttp data else .verifying data))
      | _ => none
  | .httpError status =>
      match attempt.stage with
      | .connecting => if attempt.aborted then none else some (attempt.refute.fail (some .http))
      | .http =>
          if attempt.aborted then none
          else some (attempt.refute.transportFails s!"Peer returned HTTP {status}")
      | _ => none
  | .fails message =>
      match attempt.stage with
      | .connecting =>
          some (attempt.fail (some (if attempt.aborted then .timeout else .connection)))
      | .receiving => some (attempt.fail none)
      | .webRtc => some attempt.fallBack
      | .http => some (attempt.transportFails message)
      | _ => none
  | .timesOut =>
      if attempt.timer ∧ attempt.running then
        some { attempt with timer := false, aborted := true }
      else none
  | .hashMatches =>
      match attempt.stage with
      | .verifyingWebRtc data | .verifyingHttp data => some (attempt.verify data)
      | .verifying data => some { attempt with stage := .delivered data }
      | _ => none
  | .hashDiffers =>
      match attempt.stage with
      | .verifyingWebRtc _ => some attempt.refute.fallBack
      | .verifyingHttp _ =>
          some (attempt.refute.transportFails "Segment integrity verification failed")
      | .verifying _ => some (attempt.refute.fail (some .integrity))
      | _ => none
  | .hashUnavailable message =>
      match attempt.stage with
      | .verifyingWebRtc _ => some attempt.fallBack
      | .verifyingHttp _ => some (attempt.transportFails message)
      | .verifying _ => some (attempt.fail none)
      | _ => none

/-- Only an attempt under way goes on, and it stays the attempt of its peer. -/
structure GoesOn (attempt attempt' : PeerAttempt) : Prop where
  running : attempt.running = true
  peerId : attempt'.peerId = attempt.peerId
  cancelled : attempt'.cancelled = attempt.cancelled

theorem running_of_stage {attempt : PeerAttempt} {stage : AttemptStage}
    (hstage : attempt.stage = stage)
    (hopen : ({ attempt with stage := stage } : PeerAttempt).running = true) :
    attempt.running = true := by
  subst hstage
  exact hopen

theorem goesOn_of_step {options : Node.FetcherOptions} {attempt attempt' : PeerAttempt}
    {event : AttemptEvent} (hstep : attempt.step options event = some attempt') :
    GoesOn attempt attempt' := by
  cases event with
  | timesOut =>
      simp only [step] at hstep
      split_ifs at hstep with henabled
      obtain rfl := Option.some.inj hstep
      exact ⟨henabled.2, rfl, rfl⟩
  | responds | answers data | httpError status =>
      -- nothing of this kind reaches an aborted request
      simp only [step] at hstep
      split at hstep
      all_goals first
        | cases hstep
        | rename_i hstage
          split_ifs at hstep
          all_goals
            obtain rfl := Option.some.inj hstep
            exact ⟨running_of_stage hstage rfl, rfl, rfl⟩
  | fails message | hashMatches | hashDiffers | hashUnavailable message =>
      simp only [step] at hstep
      split at hstep
      all_goals first
        | rename_i hstage
          obtain rfl := Option.some.inj hstep
          exact ⟨running_of_stage hstage rfl, rfl, rfl⟩
        | cases hstep

end PeerAttempt

end HybridSegmentFetcher

end OpenStreamGrid

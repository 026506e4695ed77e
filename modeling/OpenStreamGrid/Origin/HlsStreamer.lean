import Mathlib.Data.Nat.Notation
import Mathlib.Tactic.SplitIfs
import OpenStreamGrid.Lib.TransitionSystem

/-!
# The origin's stream

`start`, `stop` and the automatic restart of an `HlsStreamer`. FFmpeg processes and
interval timers have identities, so that one nobody refers to any more is still
counted. What waits for a promise goes on in an event of its own after the promise
has settled: calls may come between.
-/

namespace OpenStreamGrid

namespace Origin

def MAX_RESTART_ATTEMPTS : ℕ := 5

/-- Who has called `start`; the restart timer schedules another restart if the start fails. -/
inductive Starter where
  | caller
  | restartTimer
deriving DecidableEq

/-- `startOnce` before and after the process was created. -/
inductive Starting where
  | preparing
  | spawning (child : ℕ)
deriving DecidableEq

/-- `stopOnce`: it waits for a start under way, goes on, waits for the process, then for the hash
generation. -/
inductive Stopping where
  | awaitingStart
  | ready
  | exiting (child : ℕ)
  | awaitingHashes
deriving DecidableEq

/-- The calls of `stop` that no call of `start` followed: none, at least one that is under way, at
least one that has resolved. -/
inductive UnfollowedStop where
  | none
  | underWay
  | resolved
deriving DecidableEq

namespace UnfollowedStop

/-- `stop` is called. -/
def call : UnfollowedStop → UnfollowedStop
  | .resolved => .resolved
  | _ => .underWay

/-- The promise of the calls under way resolves. -/
def resolve : UnfollowedStop → UnfollowedStop
  | .underWay => .resolved
  | unfollowed => unfollowed

/-- The promise of the calls under way is rejected. -/
def reject : UnfollowedStop → UnfollowedStop
  | .underWay => .none
  | unfollowed => unfollowed

variable {unfollowed : UnfollowedStop}

theorem of_call_eq_resolved (h : unfollowed.call = .resolved) : unfollowed = .resolved := by
  cases unfollowed with
  | resolved => rfl
  | none | underWay => cases h

theorem of_resolve_eq_resolved (h : unfollowed.resolve = .resolved) :
    unfollowed = .underWay ∨ unfollowed = .resolved := by
  cases unfollowed with
  | resolved => exact Or.inr rfl
  | underWay => exact Or.inl rfl
  | none => cases h

theorem resolve_ne_underWay : unfollowed.resolve ≠ .underWay := by
  cases unfollowed <;> exact fun h => by cases h

theorem of_reject_eq_resolved (h : unfollowed.reject = .resolved) : unfollowed = .resolved := by
  cases unfollowed with
  | resolved => rfl
  | none | underWay => cases h

theorem reject_ne_underWay : unfollowed.reject ≠ .underWay := by
  cases unfollowed <;> exact fun h => by cases h

end UnfollowedStop

structure HlsStreamer where
  child : Option ℕ
  hashTimer : Option ℕ
  /-- `startPromise`, with the calls of `start` that share it. -/
  starting : Option (Starting × List Starter)
  /-- `stopPromise` -/
  stop : Option Stopping
  restartTimer : Bool
  restartAttempts : ℕ
  stopping : Bool
  /-- The calls of `start` that wait for `stopPromise`. -/
  waiting : List Starter
  /-- Those whose stop is over and that have not gone on yet. -/
  resumed : List Starter
  /-- The processes that have not ended. -/
  alive : List ℕ
  /-- The intervals that have not been cleared. -/
  intervals : List ℕ
  /-- How many processes and intervals there were. -/
  created : ℕ
  unfollowedStop : UnfollowedStop
deriving DecidableEq

namespace HlsStreamer

def new : HlsStreamer :=
  ⟨none, none, none, none, false, 0, false, [], [], [], [], 0, .none⟩

/-- `start`, when no stop is under way or the one it has waited for is over. -/
def startNow (s : HlsStreamer) (starter : Starter) : HlsStreamer :=
  if s.child.isSome then s
  else
    { s with
      stopping := false
      starting := some (match s.starting with
        | some (starting, starters) => (starting, starters ++ [starter])
        | none => (.preparing, [starter])) }

def start (s : HlsStreamer) (starter : Starter) : HlsStreamer :=
  if s.stop.isSome then { s with waiting := s.waiting ++ [starter] } else s.startNow starter

def callStart (s : HlsStreamer) : HlsStreamer :=
  { s with unfollowedStop := .none }.start .caller

def callStop (s : HlsStreamer) : HlsStreamer :=
  { s with
    stopping := true
    restartTimer := false
    stop := some (s.stop.getD (if s.starting.isSome then .awaitingStart else .ready))
    unfollowedStop := s.unfollowedStop.call }

def scheduleRestart (s : HlsStreamer) : HlsStreamer :=
  if s.stopping ∨ s.restartTimer then s
  else
    let s := { s with restartAttempts := s.restartAttempts + 1 }
    if MAX_RESTART_ATTEMPTS < s.restartAttempts then s else { s with restartTimer := true }

/-- The rejection of the calls of `start`, as the restart timer handles it. -/
def rejectStarts (s : HlsStreamer) (starters : List Starter) : HlsStreamer :=
  if .restartTimer ∈ starters then s.scheduleRestart else s

/-- `startOnce` has thrown. A stop that waits for it is rejected as well, and with it the starts that
wait for that stop. -/
def startFails (s : HlsStreamer) (starters : List Starter) : HlsStreamer :=
  let s := { s with starting := none }
  if s.stop = some .awaitingStart then
    { s with
      stop := none
      waiting := []
      unfollowedStop := s.unfollowedStop.reject
    }.rejectStarts (starters ++ s.waiting)
  else s.rejectStarts starters

/-- FFmpeg is created and has not reported yet. -/
def spawn (s : HlsStreamer) (starters : List Starter) : HlsStreamer :=
  { s with
    child := some s.created
    alive := s.alive ++ [s.created]
    created := s.created + 1
    starting := some (.spawning s.created, starters) }

def onSpawn (s : HlsStreamer) : HlsStreamer :=
  { s with
    hashTimer := some s.created
    intervals := s.intervals ++ [s.created]
    created := s.created + 1
    starting := none
    stop := s.stop.map fun stop => if stop = .awaitingStart then .ready else stop }

def onSpawnError (s : HlsStreamer) (child : ℕ) (starters : List Starter) : HlsStreamer :=
  { s with
    child := if s.child = some child then none else s.child
    alive := s.alive.filter (· ≠ child) }.startFails starters

def onExit (s : HlsStreamer) (child : ℕ) (sigterm : Bool) : HlsStreamer :=
  let s := { s with
    child := if s.child = some child then none else s.child
    alive := s.alive.filter (· ≠ child)
    stop := s.stop.map fun stop => if stop = .exiting child then .awaitingHashes else stop }
  if s.stopping ∨ sigterm then s else s.scheduleRestart

/-- `stopOnce` after the start it has waited for. -/
def continueStop (s : HlsStreamer) : HlsStreamer :=
  { s with
    intervals := s.intervals.filter fun interval => s.hashTimer ≠ some interval
    hashTimer := none
    stop := some (match s.child with
      | some child => .exiting child
      | none => .awaitingHashes) }

def resolveStop (s : HlsStreamer) : HlsStreamer :=
  { s with
    stop := none
    resumed := s.resumed ++ s.waiting
    waiting := []
    unfollowedStop := s.unfollowedStop.resolve }

inductive Event where
  | start
  | stop
  /-- The directories are there and old files are removed, or not; `spawn` may throw. -/
  | prepared (created : Bool)
  | spawned
  | spawnError
  | exits (child : ℕ) (sigterm : Bool)
  | restartTimer
  /-- A call of `start` whose stop is over goes on. -/
  | startContinues
  | stopContinues
  | hashesGenerated
deriving DecidableEq

def step (s : HlsStreamer) : Event → Option HlsStreamer
  | .start => some s.callStart
  | .stop => some s.callStop
  | .prepared created =>
      match s.starting with
      | some (.preparing, starters) =>
          some (if created then s.spawn starters else s.startFails starters)
      | _ => none
  | .spawned =>
      match s.starting with
      | some (.spawning _, _) => some s.onSpawn
      | _ => none
  | .spawnError =>
      match s.starting with
      | some (.spawning child, starters) => some (s.onSpawnError child starters)
      | _ => none
  | .exits child sigterm =>
      if child ∈ s.alive ∧ s.starting.map Prod.fst ≠ some (.spawning child) then
        some (s.onExit child sigterm)
      else none
  | .restartTimer =>
      if s.restartTimer then some ({ s with restartTimer := false }.start .restartTimer) else none
  | .startContinues =>
      match s.resumed with
      | starter :: resumed => some ({ s with resumed := resumed }.startNow starter)
      | [] => none
  | .stopContinues => if s.stop = some .ready then some s.continueStop else none
  | .hashesGenerated => if s.stop = some .awaitingHashes then some s.resolveStop else none

def system : TransitionSystem HlsStreamer Event where
  init s := s = new
  step := step

/-! ## The lifecycle -/

/-- What is expected of every state. -/
structure Lifecycle (s : HlsStreamer) : Prop where
  children : s.alive.length ≤ 1
  timers : s.intervals.length ≤ 1
  stopped : s.unfollowedStop = .resolved →
    s.alive = [] ∧ s.restartTimer = false ∧ s.intervals = []

/-- FFmpeg starts when no interval of an earlier process is left, and `stop` is not called while a
`start` waits for an earlier stop. -/
def Orderly (s : HlsStreamer) : Event → Prop
  | .spawned => s.hashTimer = none
  | .stop => s.waiting = [] ∧ s.resumed = []
  | _ => True

/-- What every step of an orderly run keeps. -/
structure Owned (s : HlsStreamer) : Prop where
  alive : s.alive = s.child.toList
  intervals : s.intervals = s.hashTimer.toList
  preparing : s.starting.map Prod.fst = some .preparing → s.child = none
  spawning : ∀ child, s.starting.map Prod.fst = some (.spawning child) → s.child = some child
  /-- As long as a stop is under way nothing else begins: starts wait for it. -/
  stopping : s.stop.isSome → s.stopping = true ∧ s.restartTimer = false ∧ s.resumed = []
  waiting : s.stop = none → s.waiting = []
  started : ∀ stop, s.stop = some stop → stop ≠ .awaitingStart → s.starting = none
  exiting : ∀ child, s.stop = some (.exiting child) → s.child = some child ∧ s.hashTimer = none
  exited : s.stop = some .awaitingHashes → s.child = none ∧ s.hashTimer = none
  underWay : s.unfollowedStop = .underWay → s.stop.isSome ∧ s.waiting = []
  resolved : s.unfollowedStop = .resolved → s.child = none ∧ s.hashTimer = none ∧
    s.starting = none ∧ s.stopping = true ∧ s.restartTimer = false ∧ s.waiting = [] ∧ s.resumed = []

variable {s s' : HlsStreamer}

namespace Owned

theorem new : HlsStreamer.new.Owned where
  alive := rfl
  intervals := rfl
  preparing _ := rfl
  spawning _ h := by cases h
  stopping h := by cases h
  waiting _ := rfl
  started _ h := by cases h
  exiting _ h := by cases h
  exited h := by cases h
  underWay h := by cases h
  resolved h := by cases h

theorem lifecycle (h : s.Owned) : s.Lifecycle where
  children := by
    rw [h.alive]
    cases s.child with
    | none => exact Nat.zero_le 1
    | some child => exact Nat.le_refl 1
  timers := by
    rw [h.intervals]
    cases s.hashTimer with
    | none => exact Nat.zero_le 1
    | some timer => exact Nat.le_refl 1
  stopped hresolved := by
    rcases h.resolved hresolved with ⟨hchild, htimer, -, -, hrestart, -⟩
    rw [h.alive, h.intervals, hchild, htimer]
    exact ⟨rfl, hrestart, rfl⟩

/-- While some `start` may begin, no stop is unfollowed. -/
theorem startNow (h : s.Owned) (hstop : s.stop = none) (hunfollowed : s.unfollowedStop = .none)
    (starter : Starter) : (s.startNow starter).Owned := by
  unfold HlsStreamer.startNow
  split_ifs with hrunning
  · exact h
  · have hchild : s.child = none := Option.not_isSome_iff_eq_none.mp hrunning
    refine
      { alive := h.alive
        intervals := h.intervals
        preparing := fun _ => hchild
        spawning := fun child hspawning => ?_
        stopping := fun hsome => ?_
        waiting := fun _ => h.waiting hstop
        started := fun stop hsome => ?_
        exiting := fun child hsome => ?_
        exited := fun hsome => ?_
        underWay := fun hunderWay => ?_
        resolved := fun hresolved => ?_ }
    · apply h.spawning child
      revert hspawning
      cases s.starting with
      | none => exact fun hspawning => by cases hspawning
      | some starting => exact id
    · rw [show s.stop = none from hstop] at hsome
      cases hsome
    · cases hstop.symm.trans hsome
    · cases hstop.symm.trans hsome
    · cases hstop.symm.trans hsome
    · cases hunfollowed.symm.trans hunderWay
    · cases hunfollowed.symm.trans hresolved

theorem start (h : s.Owned) (hunfollowed : s.unfollowedStop = .none) (starter : Starter) :
    (s.start starter).Owned := by
  unfold HlsStreamer.start
  split_ifs with hstop
  · refine { h with waiting := fun hnone => ?_, underWay := fun hunderWay => ?_,
                    resolved := fun hresolved => ?_ }
    · rw [show s.stop = none from hnone] at hstop
      cases hstop
    · cases hunfollowed.symm.trans hunderWay
    · cases hunfollowed.symm.trans hresolved
  · exact h.startNow (Option.not_isSome_iff_eq_none.mp hstop) hunfollowed starter

theorem callStart (h : s.Owned) : s.callStart.Owned := by
  have hfollowed : { s with unfollowedStop := .none }.Owned :=
    { h with
      underWay := fun hfalse => UnfollowedStop.noConfusion hfalse
      resolved := fun hfalse => UnfollowedStop.noConfusion hfalse }
  exact hfollowed.start rfl .caller

theorem callStop (h : s.Owned) (hwaiting : s.waiting = []) (hresumed : s.resumed = []) :
    s.callStop.Owned := by
  have hkept : ∀ stop, s.callStop.stop = some stop → stop ≠ .awaitingStart →
      s.stop = some stop ∨ stop = .ready ∧ s.starting = none := by
    intro stop hcalled hstarted
    obtain rfl := Option.some.inj hcalled
    cases hstop : s.stop with
    | some stop => exact Or.inl rfl
    | none =>
        rw [hstop] at hstarted
        cases hstarting : s.starting with
        | some starting =>
            rw [hstarting] at hstarted
            exact absurd rfl hstarted
        | none => exact Or.inr ⟨rfl, rfl⟩
  refine
    { alive := h.alive
      intervals := h.intervals
      preparing := h.preparing
      spawning := h.spawning
      stopping := fun _ => ⟨rfl, rfl, hresumed⟩
      waiting := fun hnone => by cases hnone
      started := fun stop hcalled hstarted => ?_
      exiting := fun child hcalled => ?_
      exited := fun hcalled => ?_
      underWay := fun _ => ⟨rfl, hwaiting⟩
      resolved := fun hresolved => ?_ }
  · rcases hkept stop hcalled hstarted with hstop | ⟨-, hstarting⟩
    · exact h.started stop hstop hstarted
    · exact hstarting
  · rcases hkept _ hcalled (by intro heq; cases heq) with hstop | ⟨hready, -⟩
    · exact h.exiting child hstop
    · cases hready
  · rcases hkept _ hcalled (by intro heq; cases heq) with hstop | ⟨hready, -⟩
    · exact h.exited hstop
    · cases hready
  · rcases h.resolved (UnfollowedStop.of_call_eq_resolved hresolved) with
      ⟨hchild, htimer, hstarting, -, -, hwaiting, hresumed⟩
    exact ⟨hchild, htimer, hstarting, rfl, rfl, hwaiting, hresumed⟩

theorem scheduleRestart (h : s.Owned) : s.scheduleRestart.Owned := by
  unfold HlsStreamer.scheduleRestart
  dsimp only
  split_ifs with hidle hmaximum
  · exact h
  · exact { h with }
  · have hgoing : s.stopping ≠ true := fun hstopping => hidle (Or.inl hstopping)
    refine { h with stopping := fun hstop => ?_, resolved := fun hresolved => ?_ }
    · exact absurd (h.stopping hstop).1 hgoing
    · exact absurd (h.resolved hresolved).2.2.2.1 hgoing

theorem rejectStarts (h : s.Owned) (starters : List Starter) : (s.rejectStarts starters).Owned := by
  unfold HlsStreamer.rejectStarts
  split_ifs
  · exact h.scheduleRestart
  · exact h

/-- The state after `startOnce` is over, whether or not its process is. -/
theorem startFails (h : { s with starting := none }.Owned) (starters : List Starter) :
    (s.startFails starters).Owned := by
  unfold HlsStreamer.startFails
  dsimp only
  split_ifs with hawaiting
  · apply rejectStarts
    refine
      { h with
        stopping := fun hsome => by cases hsome
        waiting := fun _ => rfl
        started := fun _ hsome => by cases hsome
        exiting := fun _ hsome => by cases hsome
        exited := fun hsome => by cases hsome
        underWay := fun hunderWay => absurd hunderWay UnfollowedStop.reject_ne_underWay
        resolved := fun hresolved => ?_ }
    rcases h.resolved (UnfollowedStop.of_reject_eq_resolved hresolved) with
      ⟨hchild, htimer, -, hstopping, hrestart, -, hresumed⟩
    exact ⟨hchild, htimer, rfl, hstopping, hrestart, rfl, hresumed⟩
  · exact h.rejectStarts starters

/-- While `startOnce` runs no process ends by a stop and nothing is settled. -/
theorem not_stopped_of_starting (h : s.Owned) {starting : Starting × List Starter}
    (hstarting : s.starting = some starting) :
    (∀ stop, s.stop = some stop → stop = .awaitingStart) ∧ s.unfollowedStop ≠ .resolved := by
  constructor
  · intro stop hstop
    by_contra hnot
    cases hstarting.symm.trans (h.started stop hstop hnot)
  · intro hresolved
    cases hstarting.symm.trans (h.resolved hresolved).2.2.1

theorem spawn (h : s.Owned) {starters : List Starter}
    (hstarting : s.starting = some (.preparing, starters)) : (s.spawn starters).Owned := by
  have hchild : s.child = none := h.preparing (by rw [hstarting]; rfl)
  obtain ⟨hstop, hnotResolved⟩ := h.not_stopped_of_starting hstarting
  refine
    { h with
      alive := ?_
      preparing := fun hpreparing => by cases hpreparing
      spawning := fun child hspawning => ?_
      started := fun stop hsome hnot => absurd (hstop stop hsome) hnot
      exiting := fun child hsome => by cases hstop _ hsome
      exited := fun hsome => by cases hstop _ hsome
      resolved := fun hresolved => absurd hresolved hnotResolved }
  · show s.alive ++ [s.created] = [s.created]
    rw [h.alive, hchild]
    rfl
  · obtain rfl := Starting.spawning.inj (Option.some.inj hspawning)
    rfl

/-- The interval of the new process is the only one. -/
theorem onSpawn (h : s.Owned) {starting : Starting × List Starter}
    (hstarting : s.starting = some starting) (htimer : s.hashTimer = none) : s.onSpawn.Owned := by
  obtain ⟨hstop, hnotResolved⟩ := h.not_stopped_of_starting hstarting
  have hready : ∀ stop, s.onSpawn.stop = some stop → stop = .ready := by
    intro stop hsome
    rcases Option.map_eq_some_iff.mp hsome with ⟨before, hbefore, rfl⟩
    rw [hstop before hbefore]
    rfl
  have hsame : s.onSpawn.stop.isSome = s.stop.isSome := Option.isSome_map
  refine
    { alive := h.alive
      intervals := ?_
      preparing := fun hpreparing => by cases hpreparing
      spawning := fun child hspawning => by cases hspawning
      stopping := fun hsome => h.stopping (hsame ▸ hsome)
      waiting := fun hnone => h.waiting (Option.map_eq_none_iff.mp hnone)
      started := fun _ _ _ => rfl
      exiting := fun child hsome => by cases hready _ hsome
      exited := fun hsome => by cases hready _ hsome
      underWay := fun hunderWay => ?_
      resolved := fun hresolved => absurd hresolved hnotResolved }
  · show s.intervals ++ [s.created] = [s.created]
    rw [h.intervals, htimer]
    rfl
  · rw [hsame]
    exact h.underWay hunderWay

theorem onSpawnError (h : s.Owned) {child : ℕ} {starters : List Starter}
    (hstarting : s.starting = some (.spawning child, starters)) :
    (s.onSpawnError child starters).Owned := by
  have hchild : s.child = some child := h.spawning child (by rw [hstarting]; rfl)
  obtain ⟨hstop, hnotResolved⟩ := h.not_stopped_of_starting hstarting
  apply startFails
  refine
    { h with
      alive := ?_
      preparing := fun hpreparing => by cases hpreparing
      spawning := fun child hspawning => by cases hspawning
      started := fun _ _ _ => rfl
      exiting := fun child hsome => by cases hstop _ hsome
      exited := fun hsome => by cases hstop _ hsome
      resolved := fun hresolved => absurd hresolved hnotResolved }
  rw [h.alive, hchild, if_pos rfl]
  simp

theorem onExit (h : s.Owned) {child : ℕ} (halive : child ∈ s.alive)
    (hstarted : s.starting.map Prod.fst ≠ some (.spawning child)) (sigterm : Bool) :
    (s.onExit child sigterm).Owned := by
  have hchild : s.child = some child := by
    rw [h.alive] at halive
    exact Option.mem_toList.mp halive
  have hended : Owned { s with
      child := none
      alive := s.alive.filter (· ≠ child)
      stop := s.stop.map fun stop => if stop = .exiting child then .awaitingHashes else stop } := by
    refine
      { h with
        alive := ?_
        preparing := fun _ => rfl
        spawning := fun other hspawning => ?_
        stopping := fun hsome => h.stopping (Option.isSome_map.symm.trans hsome)
        waiting := fun hnone => h.waiting (Option.map_eq_none_iff.mp hnone)
        started := fun stop hsome hnot => ?_
        exiting := fun other hsome => ?_
        exited := fun hsome => ⟨rfl, ?_⟩
        underWay := fun hunderWay => ?_
        resolved := fun hresolved => ?_ }
    · rw [h.alive, hchild]
      simp
    · have hsame := Option.some.inj (hchild.symm.trans (h.spawning other hspawning))
      exact absurd (hsame ▸ hspawning) hstarted
    · rcases Option.map_eq_some_iff.mp hsome with ⟨before, hbefore, rfl⟩
      apply h.started before hbefore
      rintro rfl
      exact hnot rfl
    · rcases Option.map_eq_some_iff.mp hsome with ⟨before, hbefore, hstop⟩
      split_ifs at hstop with hexiting
      -- only the process that has exited was waited for
      rw [hstop] at hbefore
      obtain rfl := Option.some.inj (hchild.symm.trans (h.exiting other hbefore).1)
      exact absurd hstop hexiting
    · rcases Option.map_eq_some_iff.mp hsome with ⟨before, hbefore, hstop⟩
      split_ifs at hstop with hexiting
      · rw [hexiting] at hbefore
        exact (h.exiting child hbefore).2
      · rw [hstop] at hbefore
        exact (h.exited hbefore).2
    · rw [Option.isSome_map]
      exact h.underWay hunderWay
    · cases hchild.symm.trans (h.resolved hresolved).1
  unfold HlsStreamer.onExit
  rw [if_pos hchild]
  dsimp only
  split_ifs
  · exact hended
  · exact hended.scheduleRestart

theorem continueStop (h : s.Owned) (hready : s.stop = some .ready) : s.continueStop.Owned := by
  have hsome : s.stop.isSome := by
    rw [hready]
    rfl
  have hstarting : s.starting = none := h.started .ready hready (by intro heq; cases heq)
  refine
    { h with
      intervals := ?_
      stopping := fun _ => h.stopping hsome
      waiting := fun hnone => by cases hnone
      started := fun _ _ _ => hstarting
      exiting := fun child hexiting => ⟨?_, rfl⟩
      exited := fun hexited => ⟨?_, rfl⟩
      underWay := fun hunderWay => ⟨rfl, (h.underWay hunderWay).2⟩
      resolved := fun hresolved => ?_ }
  · show s.intervals.filter (fun interval => decide (s.hashTimer ≠ some interval)) = []
    rw [h.intervals, List.filter_eq_nil_iff]
    intro interval hmem
    simp [Option.mem_toList.mp hmem]
  · have hexiting := Option.some.inj hexiting
    split at hexiting
    · rename_i running hchild
      rw [show s.continueStop.child = some running from hchild, Stopping.exiting.inj hexiting]
    · cases hexiting
  · have hexited := Option.some.inj hexited
    split at hexited
    · cases hexited
    · rename_i hchild
      exact hchild
  · rcases h.resolved hresolved with ⟨hchild, -, hothers⟩
    exact ⟨hchild, rfl, hothers⟩

/-- The end of a stop. If no start has followed it, none is waiting either. -/
theorem resolveStop (h : s.Owned) (hhashes : s.stop = some .awaitingHashes) :
    s.resolveStop.Owned := by
  obtain ⟨hchild, htimer⟩ := h.exited hhashes
  have hsome : s.stop.isSome := by
    rw [hhashes]
    rfl
  obtain ⟨hstopping, hrestart, hresumed⟩ := h.stopping hsome
  have hstarting : s.starting = none := h.started _ hhashes (by intro heq; cases heq)
  refine
    { h with
      stopping := fun hfalse => by cases hfalse
      waiting := fun _ => rfl
      started := fun _ hfalse => by cases hfalse
      exiting := fun _ hfalse => by cases hfalse
      exited := fun hfalse => by cases hfalse
      underWay := fun hunderWay => absurd hunderWay UnfollowedStop.resolve_ne_underWay
      resolved := fun hresolved => ?_ }
  have hwaiting : s.waiting = [] := by
    rcases UnfollowedStop.of_resolve_eq_resolved hresolved with hunderWay | hbefore
    · exact (h.underWay hunderWay).2
    · exact (h.resolved hbefore).2.2.2.2.2.1
  refine ⟨hchild, htimer, hstarting, hstopping, hrestart, rfl, ?_⟩
  show s.resumed ++ s.waiting = []
  rw [hresumed, hwaiting]
  rfl

/-- The timer fires: no stop is under way, and none has resolved without a start since. -/
theorem onRestartTimer (h : s.Owned) (harmed : s.restartTimer = true) :
    ({ s with restartTimer := false }.start .restartTimer).Owned := by
  have hunfollowed : s.unfollowedStop = .none := by
    cases hunfollowed : s.unfollowedStop with
    | none => rfl
    | underWay => cases harmed.symm.trans (h.stopping (h.underWay hunfollowed).1).2.1
    | resolved => cases harmed.symm.trans (h.resolved hunfollowed).2.2.2.2.1
  have hfired : { s with restartTimer := false }.Owned :=
    { h with
      stopping := fun hsome => ⟨(h.stopping hsome).1, rfl, (h.stopping hsome).2.2⟩
      resolved := fun hresolved => by cases hunfollowed.symm.trans hresolved }
  exact hfired.start hunfollowed .restartTimer

theorem continueStart (h : s.Owned) {starter : Starter} {resumed : List Starter}
    (hresumed : s.resumed = starter :: resumed) :
    ({ s with resumed := resumed }.startNow starter).Owned := by
  have hstop : s.stop = none := by
    cases hstop : s.stop with
    | none => rfl
    | some stop =>
        have hsome : s.stop.isSome := by
          rw [hstop]
          rfl
        cases hresumed.symm.trans (h.stopping hsome).2.2
  have hunfollowed : s.unfollowedStop = .none := by
    cases hunfollowed : s.unfollowedStop with
    | none => rfl
    | underWay =>
        have hsome := (h.underWay hunfollowed).1
        rw [hstop] at hsome
        cases hsome
    | resolved => cases hresumed.symm.trans (h.resolved hunfollowed).2.2.2.2.2.2
  have hgoing : { s with resumed := resumed }.Owned :=
    { h with
      stopping := fun hsome => by
        rw [show s.stop = none from hstop] at hsome
        cases hsome
      resolved := fun hresolved => by cases hunfollowed.symm.trans hresolved }
  exact hgoing.startNow hstop hunfollowed starter

theorem step (h : s.Owned) {event : Event} (hok : s.Orderly event)
    (hstep : s.step event = some s') : s'.Owned := by
  cases event with
  | start =>
      obtain rfl := Option.some.inj hstep
      exact h.callStart
  | stop =>
      obtain rfl := Option.some.inj hstep
      exact h.callStop hok.1 hok.2
  | prepared created =>
      simp only [HlsStreamer.step] at hstep
      split at hstep
      · rename_i starters hstarting
        obtain rfl := Option.some.inj hstep
        have hchild : s.child = none := h.preparing (by rw [hstarting]; rfl)
        cases created with
        | true => exact h.spawn hstarting
        | false =>
            apply startFails
            exact
              { h with
                preparing := fun _ => hchild
                spawning := fun _ hfalse => by cases hfalse
                started := fun _ _ _ => rfl
                resolved := fun hresolved =>
                  absurd hresolved (h.not_stopped_of_starting hstarting).2 }
      · cases hstep
  | spawned =>
      simp only [HlsStreamer.step] at hstep
      split at hstep
      · rename_i child starters hstarting
        obtain rfl := Option.some.inj hstep
        exact h.onSpawn hstarting hok
      · cases hstep
  | spawnError =>
      simp only [HlsStreamer.step] at hstep
      split at hstep
      · rename_i child starters hstarting
        obtain rfl := Option.some.inj hstep
        exact h.onSpawnError hstarting
      · cases hstep
  | exits child sigterm =>
      simp only [HlsStreamer.step] at hstep
      split_ifs at hstep with hexits
      obtain rfl := Option.some.inj hstep
      exact h.onExit hexits.1 hexits.2 sigterm
  | restartTimer =>
      simp only [HlsStreamer.step] at hstep
      split_ifs at hstep with harmed
      obtain rfl := Option.some.inj hstep
      exact h.onRestartTimer harmed
  | startContinues =>
      simp only [HlsStreamer.step] at hstep
      split at hstep
      · rename_i starter resumed hresumed
        obtain rfl := Option.some.inj hstep
        exact h.continueStart hresumed
      · cases hstep
  | stopContinues =>
      simp only [HlsStreamer.step] at hstep
      split_ifs at hstep with hready
      obtain rfl := Option.some.inj hstep
      exact h.continueStop hready
  | hashesGenerated =>
      simp only [HlsStreamer.step] at hstep
      split_ifs at hstep with hhashes
      obtain rfl := Option.some.inj hstep
      exact h.resolveStop hhashes

end Owned

/-- **An orderly run keeps the lifecycle** in every state it reaches. -/
theorem orderly_keeps_lifecycle (hr : system.Reachable Orderly s) : s.Lifecycle := by
  have howned : s.Owned := by
    refine hr.invariant Owned ?_ ?_
    · rintro s rfl
      exact .new
    · intro s event s' h hok hstep
      exact h.step hok hstep
  exact howned.lifecycle

/-! ### What the condition says of the events -/

/-- Whether FFmpeg has been spawned and no stop has gone on since. -/
def spawnedSince (spawned : Bool) : Event → Bool
  | .spawned => true
  | .stopContinues => false
  | _ => spawned

theorem hashTimer_start (s : HlsStreamer) (starter : Starter) :
    (s.start starter).hashTimer = s.hashTimer := by
  unfold HlsStreamer.start startNow
  split_ifs <;> rfl

theorem hashTimer_scheduleRestart (s : HlsStreamer) :
    s.scheduleRestart.hashTimer = s.hashTimer := by
  unfold scheduleRestart
  dsimp only
  split_ifs <;> rfl

theorem hashTimer_startFails (s : HlsStreamer) (starters : List Starter) :
    (s.startFails starters).hashTimer = s.hashTimer := by
  unfold startFails rejectStarts
  dsimp only
  split_ifs <;> first | rfl | exact hashTimer_scheduleRestart _

theorem hashTimer_onExit (s : HlsStreamer) (child : ℕ) (sigterm : Bool) :
    (s.onExit child sigterm).hashTimer = s.hashTimer := by
  unfold onExit
  dsimp only
  by_cases hexpected : s.stopping = true ∨ sigterm = true
  · rw [if_pos hexpected]
  · rw [if_neg hexpected]
    exact hashTimer_scheduleRestart _

theorem isSome_hashTimer_step {event : Event} (hstep : s.step event = some s') :
    s'.hashTimer.isSome = spawnedSince s.hashTimer.isSome event := by
  cases event with
  | start | stop =>
      obtain rfl := Option.some.inj hstep
      first | rfl | exact congrArg Option.isSome (hashTimer_start _ _)
  | prepared created =>
      simp only [HlsStreamer.step] at hstep
      split at hstep
      · obtain rfl := Option.some.inj hstep
        cases created with
        | true => rfl
        | false => exact congrArg Option.isSome (hashTimer_startFails _ _)
      · cases hstep
  | spawned =>
      simp only [HlsStreamer.step] at hstep
      split at hstep
      · obtain rfl := Option.some.inj hstep
        rfl
      · cases hstep
  | spawnError =>
      simp only [HlsStreamer.step] at hstep
      split at hstep
      · obtain rfl := Option.some.inj hstep
        exact congrArg Option.isSome (hashTimer_startFails _ _)
      · cases hstep
  | exits child sigterm =>
      simp only [HlsStreamer.step] at hstep
      split_ifs at hstep
      obtain rfl := Option.some.inj hstep
      exact congrArg Option.isSome (hashTimer_onExit _ _ _)
  | restartTimer =>
      simp only [HlsStreamer.step] at hstep
      split_ifs at hstep
      obtain rfl := Option.some.inj hstep
      exact congrArg Option.isSome (hashTimer_start _ _)
  | startContinues =>
      simp only [HlsStreamer.step] at hstep
      split at hstep
      · obtain rfl := Option.some.inj hstep
        unfold startNow
        split_ifs <;> rfl
      · cases hstep
  | stopContinues =>
      simp only [HlsStreamer.step] at hstep
      split_ifs at hstep
      obtain rfl := Option.some.inj hstep
      rfl
  | hashesGenerated =>
      simp only [HlsStreamer.step] at hstep
      split_ifs at hstep
      obtain rfl := Option.some.inj hstep
      rfl

theorem isSome_hashTimer_run {events : List Event} : ∀ {s s' : HlsStreamer},
    system.run s events = some s' →
      s'.hashTimer.isSome = events.foldl spawnedSince s.hashTimer.isSome := by
  induction events with
  | nil =>
      intro s s' hrun
      exact congrArg (fun s : HlsStreamer => s.hashTimer.isSome) (Option.some.inj hrun).symm
  | cons event events ih =>
      intro s s' hrun
      obtain ⟨t, hstep, hrest⟩ := (system.run_cons_eq_some).mp hrun
      rw [ih hrest, isSome_hashTimer_step hstep, List.foldl_cons]

/-- The condition on a spawn is one on the events before it: since the last one a stop has gone on,
so that the restart after a crash is the one that breaks it. -/
theorem orderly_spawned_iff {events : List Event} (hrun : system.run new events = some s) :
    s.Orderly .spawned ↔ events.foldl spawnedSince false = false := by
  have htimer : s.hashTimer.isSome = events.foldl spawnedSince false := isSome_hashTimer_run hrun
  rw [← htimer, Option.isSome_eq_false_iff, Option.isNone_iff_eq_none]
  rfl

/-- A stop while FFmpeg is starting, and a start that waits for it. -/
theorem orderly_keeps_lifecycle_overlap :
    HlsStreamer.Lifecycle ⟨some 2, some 3, none, none, false, 0, false, [], [], [2], [3], 4,
      .none⟩ := by
  have hrun : system.run new [.start, .prepared true, .stop, .start, .spawned, .stopContinues,
      .exits 0 true, .hashesGenerated, .startContinues, .prepared true, .spawned] =
        some ⟨some 2, some 3, none, none, false, 0, false, [], [], [2], [3], 4, .none⟩ := by
    decide +kernel
  refine orderly_keeps_lifecycle (.append_run (.init rfl) ?_ hrun)
  refine ⟨trivial, fun _ h1 => ⟨trivial, fun _ h2 => ⟨?_, fun _ h3 => ⟨trivial, fun _ h4 =>
    ⟨?_, fun _ h5 => ⟨trivial, fun _ h6 => ⟨trivial, fun _ h7 => ⟨trivial, fun _ h8 =>
      ⟨trivial, fun _ h9 => ⟨trivial, fun _ h10 => ⟨?_, fun _ _ => trivial⟩⟩⟩⟩⟩⟩⟩⟩⟩⟩⟩
  · cases h1; cases h2; exact ⟨rfl, rfl⟩
  · cases h1; cases h2; cases h3; cases h4; rfl
  · cases h1; cases h2; cases h3; cases h4; cases h5; cases h6; cases h7; cases h8; cases h9
    cases h10; rfl

/-- FFmpeg crashes and is started again: two intervals are left, one of them for good. -/
theorem restart_leaks_hash_timer :
    ¬ ∀ s, system.Reachable (fun _ _ => True) s → s.Lifecycle := by
  intro h
  have hrun : system.run new [.start, .prepared true, .spawned, .exits 0 false, .restartTimer,
      .prepared true, .spawned] =
        some ⟨some 2, some 3, none, none, false, 1, false, [], [], [2], [1, 3], 4, .none⟩ := by
    decide +kernel
  exact absurd (h _ (TransitionSystem.reachable_of_run rfl hrun)).timers (by decide)

/-- A start that waits for an earlier stop goes on after a later one. -/
theorem late_stop_leaves_child :
    ¬ ∀ s, system.Reachable (fun _ _ => True) s → s.Lifecycle := by
  intro h
  have hrun : system.run new [.start, .prepared true, .spawned, .stop, .stopContinues, .start, .stop,
      .exits 0 true, .hashesGenerated, .startContinues, .prepared true] =
        some ⟨some 2, none, some (.spawning 2, [.caller]), none, false, 0, false, [], [], [2], [], 3,
          .resolved⟩ := by
    decide +kernel
  cases ((h _ (TransitionSystem.reachable_of_run rfl hrun)).stopped rfl).1

end HlsStreamer

end Origin

end OpenStreamGrid

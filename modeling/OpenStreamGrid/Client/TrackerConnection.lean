import Mathlib
import OpenStreamGrid.Client.ClientAgreement
import OpenStreamGrid.Lib.Backoff
import OpenStreamGrid.Lib.IndexedList
import OpenStreamGrid.Lib.TimedSystem

/-!
# The clients' connection to the tracker

Both clients keep one WebSocket and open another when it is gone, later each
time until the tracker lists its peers again. What a socket that was given up
still says is ignored, and so is its end. The Node client gives up its first
connection after a while; the browser waits for it. The timer that renews a
session belongs to the registration, which is armed by a join whether the client
is started or not; it is not part of the connection.
-/

namespace OpenStreamGrid

/-- What the two clients do not share. -/
structure ConnectionRules (τ : Type) where
  backoff : Backoff
  /-- How long `start` waits for the first connection. -/
  startupTimeoutMs : Option ℚ≥0
  /-- Whether state is reported from the start. -/
  reportPeerState : Bool
  handleMessage : ClientState τ → JsValue → ClientState τ
  /-- Whether a text is a peer list of the broadcast. -/
  isPeerList : BroadcastId → JsValue → Bool

def TrackerClient.rules (backoff : Backoff) (startupTimeoutMs : ℚ≥0) : ConnectionRules String where
  backoff := backoff
  startupTimeoutMs := some startupTimeoutMs
  reportPeerState := true
  handleMessage := TrackerClient.handleMessage
  isPeerList broadcastId text :=
    match TrackerClient.parsePeerUpdate text with
    | .ok (some (.peerList listed _)) => listed = broadcastId
    | _ => false

def WsTrackerClient.rules (backoff : Backoff) (reportPeerState : Bool) :
    ConnectionRules (Option String) where
  backoff := backoff
  startupTimeoutMs := none
  reportPeerState := reportPeerState
  handleMessage := WsTrackerClient.handleMessage
  isPeerList broadcastId text :=
    match WsTrackerClient.parseServerMessage text with
    | .ok (.update (.peerList listed _)) => listed = broadcastId
    | _ => false

def jitteredDelay (delayMs : ℕ) (random : Draw) : ℚ≥0 :=
  (delayMs : ℚ≥0) / 2 + ⟨random.val, random.property.1⟩ * ((delayMs : ℚ≥0) / 2)

inductive SocketPhase where
  | connecting
  | opened
  | closing
  | closed
deriving DecidableEq

/-- A socket that may still become or stay open. -/
def SocketPhase.isLive : SocketPhase → Bool
  | .connecting | .opened => true
  | .closing | .closed => false

structure TrackerConnection (τ : Type) where
  broadcastId : BroadcastId
  client : ClientState τ
  hasToken : Bool
  started : Bool
  /-- The current socket. -/
  socket : Option ℕ
  /-- All sockets there ever were. -/
  sockets : List SocketPhase
  /-- What the clock says when the timer fires. -/
  reconnectTimer : Option ℚ≥0
  nextReconnectMs : ℕ
  /-- Whether `start` still waits. -/
  firstConnection : Bool
  startupTimer : Option ℚ≥0
  reportPeerState : Bool
  reportTimer : Bool
  /-- The texts that arrived on the current socket. -/
  received : List JsValue
  /-- How often a reconnection was scheduled since the last peer list. -/
  scheduled : ℕ
  /-- When a socket was last asked for, since the start. -/
  lastAttempt : Option ℚ≥0

inductive TrackerConnectionEvent where
  | tokenSet
  | tokenDropped
  /-- `opens` tells whether a socket can be created. -/
  | start (aborted opens : Bool) (random : Draw)
  | stop
  | enablePeerStateReporting
  | reconnect (opens : Bool) (random : Draw)
  | startupTimeout
  /-- The caller's signal aborts the start. -/
  | startupAborted
  | opened (socket : ℕ)
  | text (socket : ℕ) (value : JsValue)
  /-- The other side, or the network, begins to close. -/
  | closing (socket : ℕ)
  | closed (socket : ℕ) (random : Draw)

namespace TrackerConnection

variable {τ : Type}

def new (rules : ConnectionRules τ) (broadcastId : BroadcastId) : TrackerConnection τ where
  broadcastId := broadcastId
  client := .new broadcastId
  hasToken := false
  started := false
  socket := none
  sockets := []
  reconnectTimer := none
  nextReconnectMs := rules.backoff.initial
  firstConnection := false
  startupTimer := none
  reportPeerState := rules.reportPeerState
  reportTimer := false
  received := []
  scheduled := 0
  lastAttempt := none

section Operations

variable (rules : ConnectionRules τ) (now : ℚ≥0) (c : TrackerConnection τ)

def clearPeers : TrackerConnection τ :=
  { c with client := .new c.broadcastId, received := [] }

def setPhase (socket : ℕ) (phase : SocketPhase) : TrackerConnection τ :=
  { c with sockets := c.sockets.set socket phase }

def scheduleReconnect (random : Draw) : TrackerConnection τ :=
  if c.started = false ∨ c.reconnectTimer.isSome then c
  else
    { c with
      reconnectTimer := some (now + jitteredDelay c.nextReconnectMs random)
      nextReconnectMs := rules.backoff.next c.nextReconnectMs
      scheduled := c.scheduled + 1 }

def openSocket (opens : Bool) (random : Draw) : TrackerConnection τ :=
  if c.started = false ∨ c.socket.isSome then c
  else if opens then
    { c with
      socket := some c.sockets.length
      sockets := c.sockets ++ [.connecting]
      lastAttempt := some now }
  else { c with lastAttempt := some now }.scheduleReconnect rules now random

def startReportTimer : TrackerConnection τ :=
  if c.started = false ∨ c.reportPeerState = false then c else { c with reportTimer := true }

/-- A current socket that is not closing yet is closed. -/
def stop : TrackerConnection τ :=
  { c.clearPeers with
    started := false
    reconnectTimer := none
    reportTimer := false
    firstConnection := false
    startupTimer := none
    lastAttempt := none
    socket := none
    sockets :=
      match c.socket with
      | none => c.sockets
      | some socket =>
          if (c.sockets[socket]?).any SocketPhase.isLive then c.sockets.set socket .closing
          else c.sockets }

def start (aborted opens : Bool) (random : Draw) : TrackerConnection τ :=
  if c.hasToken = false ∨ c.started then c
  else
    let c := { c with started := true }.startReportTimer
    let c := { c with
      firstConnection := true
      startupTimer := rules.startupTimeoutMs.map (now + ·) }
    if aborted ∧ rules.startupTimeoutMs.isSome then c.stop else c.openSocket rules now opens random

def onOpen (socket : ℕ) : TrackerConnection τ :=
  let c := c.setPhase socket .opened
  if c.socket = some socket ∧ c.started then
    { c with firstConnection := false, startupTimer := none }
  else c

def onMessage (socket : ℕ) (value : JsValue) : TrackerConnection τ :=
  if c.socket = some socket then
    let lists := rules.isPeerList c.broadcastId value
    { c with
      client := rules.handleMessage c.client value
      nextReconnectMs := if lists then rules.backoff.initial else c.nextReconnectMs
      scheduled := if lists then 0 else c.scheduled
      received := c.received ++ [value] }
  else c

def onClose (socket : ℕ) (random : Draw) : TrackerConnection τ :=
  let c := c.setPhase socket .closed
  if c.socket = some socket then
    { c with socket := none }.clearPeers.scheduleReconnect rules now random
  else c

def timers : List ℚ≥0 := c.reconnectTimer.toList ++ c.startupTimer.toList

def step : TrackerConnectionEvent → Option (TrackerConnection τ)
  | .tokenSet => some { c with hasToken := true }
  | .tokenDropped => some { c with hasToken := false }
  | .start aborted opens random => some (c.start rules now aborted opens random)
  | .stop => some c.stop
  | .enablePeerStateReporting => some { c with reportPeerState := true }.startReportTimer
  | .reconnect opens random =>
      if c.reconnectTimer = some now then
        some ({ c with reconnectTimer := none }.openSocket rules now opens random)
      else none
  | .startupTimeout => if c.startupTimer = some now then some c.stop else none
  | .startupAborted => if c.startupTimer.isSome then some c.stop else none
  | .opened socket =>
      if c.sockets[socket]? = some .connecting then some (c.onOpen socket) else none
  | .text socket value =>
      if c.sockets[socket]? = some .opened ∨ c.sockets[socket]? = some .closing then
        some (c.onMessage rules socket value)
      else none
  | .closing socket =>
      if (c.sockets[socket]?).any SocketPhase.isLive then some (c.setPhase socket .closing)
      else none
  | .closed socket random =>
      match c.sockets[socket]? with
      | none | some .closed => none
      | some _ => some (c.onClose rules now socket random)

end Operations

/-- A client of one broadcast. -/
def system (rules : ConnectionRules τ) (broadcastId : BroadcastId) :
    TimedSystem (TrackerConnection τ) TrackerConnectionEvent where
  init c := c = new rules broadcastId
  timers := timers
  event now c e := c.step rules now e

/-! ## The invariant -/

/-- What holds also between giving up a socket and asking for another. -/
structure Kept (rules : ConnectionRules τ) (now : ℚ≥0) (c : TrackerConnection τ) : Prop where
  current : ∀ i, c.socket = some i → ∃ phase, c.sockets[i]? = some phase ∧ phase ≠ .closed
  /-- No socket but the current one may stay open. -/
  live : ∀ i phase, c.sockets[i]? = some phase → phase.isLive = true → c.socket = some i
  /-- The client shows what its current socket was sent, and nothing else. -/
  directory : c.client = c.received.foldl rules.handleMessage (.new c.broadcastId)
  fresh : c.socket = none → c.received = []
  backoff : c.nextReconnectMs = rules.backoff.delayAfter c.scheduled
  attempted : ∀ last, c.lastAttempt = some last → last ≤ now
  due : ∀ due, c.reconnectTimer = some due → due ≤ now + rules.backoff.maximum ∧
    ∃ last, c.lastAttempt = some last ∧ last + (rules.backoff.initial : ℚ≥0) / 2 ≤ due
  waiting : rules.startupTimeoutMs.isSome → (c.firstConnection = true ↔ c.startupTimer.isSome)
  startup : ∀ due, c.startupTimer = some due →
    ∃ timeout, rules.startupTimeoutMs = some timeout ∧ due ≤ now + timeout

/-- A client that is started has a socket or waits to open one, and never both; one that is
stopped has no socket, and no timer for one, for its start or for its reports. -/
structure Sound (rules : ConnectionRules τ) (now : ℚ≥0) (c : TrackerConnection τ) : Prop
    extends Kept rules now c where
  busy : c.started = true → (c.socket.isSome ↔ c.reconnectTimer = none) ∧
    c.lastAttempt.isSome ∧ c.reportTimer = c.reportPeerState
  idle : c.started = false → c.socket = none ∧ c.reconnectTimer = none ∧
    c.firstConnection = false ∧ c.startupTimer = none ∧ c.reportTimer = false

variable {rules : ConnectionRules τ} {now later : ℚ≥0} {c c' : TrackerConnection τ}
  {socket : ℕ} {random : Draw}

theorem sound_new (rules : ConnectionRules τ) (b : BroadcastId) : Sound rules 0 (new rules b) where
  current _ h := nomatch h
  live _ _ h := nomatch h
  directory := rfl
  fresh _ := rfl
  backoff := rules.backoff.delayAfter_zero.symm
  attempted _ h := nomatch h
  due _ h := nomatch h
  waiting _ := iff_of_false Bool.false_ne_true Bool.false_ne_true
  startup _ h := nomatch h
  busy h := nomatch h
  idle _ := ⟨rfl, rfl, rfl, rfl, rfl⟩

/-! ### Time -/

theorem Sound.elapse (h : Sound rules now c) (hle : now ≤ later) : Sound rules later c where
  toKept := {
    current := h.current
    live := h.live
    directory := h.directory
    fresh := h.fresh
    backoff := h.backoff
    attempted := fun last hlast => (h.attempted last hlast).trans hle
    due := fun due hdue => ⟨(h.due due hdue).1.trans (by gcongr), (h.due due hdue).2⟩
    waiting := h.waiting
    startup := fun due hdue => by
      obtain ⟨timeout, htimeout, hbound⟩ := h.startup due hdue
      exact ⟨timeout, htimeout, hbound.trans (by gcongr)⟩ }
  busy := h.busy
  idle := h.idle

theorem half_le_jitteredDelay (delayMs : ℕ) (random : Draw) :
    (delayMs : ℚ≥0) / 2 ≤ jitteredDelay delayMs random := le_self_add

theorem jitteredDelay_le (delayMs : ℕ) (random : Draw) :
    jitteredDelay delayMs random ≤ delayMs := by
  have hrandom : (⟨random.val, random.property.1⟩ : ℚ≥0) ≤ 1 := random.property.2.le
  calc jitteredDelay delayMs random
      ≤ (delayMs : ℚ≥0) / 2 + 1 * ((delayMs : ℚ≥0) / 2) := by
        unfold jitteredDelay
        exact add_le_add_right (mul_le_mul_of_nonneg_right hrandom zero_le) _
    _ = delayMs := by rw [one_mul, add_halves]

/-! ### Operations -/

theorem Kept.clearPeers (h : Kept rules now c) :
    Kept rules now c.clearPeers where
  current := h.current
  live := h.live
  directory := rfl
  fresh _ := rfl
  backoff := h.backoff
  attempted := h.attempted
  due := h.due
  waiting := h.waiting
  startup := h.startup

/-- Where nothing is left to wait for, a reconnection is scheduled. -/
theorem scheduleReconnect_sound (h : Kept rules now c) (hstarted : c.started = true)
    (hsocket : c.socket = none) (htimer : c.reconnectTimer = none)
    (hasked : c.lastAttempt.isSome) (hreport : c.reportTimer = c.reportPeerState)
    (random : Draw) : Sound rules now (c.scheduleReconnect rules now random) := by
  obtain ⟨last, hlast⟩ := Option.isSome_iff_exists.mp hasked
  unfold scheduleReconnect
  rw [if_neg (by rw [hstarted, htimer]; simp)]
  refine ⟨⟨h.current, h.live, h.directory, h.fresh, ?_, h.attempted, ?_, h.waiting, h.startup⟩, ?_,
    fun hstopped => ?_⟩
  · show rules.backoff.next c.nextReconnectMs = _
    rw [h.backoff, Backoff.next_delayAfter]
  · intro due hdue
    obtain rfl := Option.some.inj hdue
    refine ⟨?_, last, hlast, ?_⟩
    · have hmax := rules.backoff.delayAfter_le_maximum c.scheduled
      rw [← h.backoff] at hmax
      have hdelay := jitteredDelay_le c.nextReconnectMs random
      gcongr
      exact hdelay.trans (by exact_mod_cast hmax)
    · have hmin := rules.backoff.initial_le_delayAfter c.scheduled
      rw [← h.backoff] at hmin
      have hdelay := half_le_jitteredDelay c.nextReconnectMs random
      have hhalf : (rules.backoff.initial : ℚ≥0) / 2 ≤ (c.nextReconnectMs : ℚ≥0) / 2 := by
        gcongr
      exact add_le_add (h.attempted last hlast) (hhalf.trans hdelay)
  · intro _
    refine ⟨?_, hasked, hreport⟩
    rw [hsocket]
    exact iff_of_false Bool.false_ne_true (fun h => nomatch h)
  · exact absurd (hstarted.symm.trans hstopped) Bool.noConfusion

theorem openSocket_sound (h : Kept rules now c) (hstarted : c.started = true)
    (hsocket : c.socket = none) (htimer : c.reconnectTimer = none)
    (hreport : c.reportTimer = c.reportPeerState) (opens : Bool) (random : Draw) :
    Sound rules now (c.openSocket rules now opens random) := by
  unfold openSocket
  rw [if_neg (by rw [hstarted, hsocket]; simp)]
  have hasked : Kept rules now { c with lastAttempt := some now } := by
    refine ⟨h.current, h.live, h.directory, h.fresh, h.backoff, ?_, ?_, h.waiting, h.startup⟩
    · intro last hlast
      exact (Option.some.inj hlast).symm.le
    · intro due hdue
      rw [htimer] at hdue
      cases hdue
  cases opens with
  | false => exact scheduleReconnect_sound hasked hstarted hsocket htimer rfl hreport random
  | true =>
      refine ⟨⟨?_, ?_, h.directory, (fun hnone => nomatch hnone), h.backoff, hasked.attempted,
        hasked.due, h.waiting, h.startup⟩, fun _ => ⟨?_, rfl, hreport⟩, fun hstopped => ?_⟩
      · intro i hi
        obtain rfl := Option.some.inj hi
        exact ⟨.connecting, by simp, SocketPhase.noConfusion⟩
      · intro i phase hphase hlive
        rcases Nat.lt_or_ge i c.sockets.length with hlt | hge
        · have hold : c.sockets[i]? = some phase := by
            rw [← hphase]
            exact (List.getElem?_append_left hlt).symm
          have hgone := h.live i phase hold hlive
          rw [hsocket] at hgone
          cases hgone
        · have hlast : i < (c.sockets ++ [SocketPhase.connecting]).length :=
            (List.getElem?_eq_some_iff.mp hphase).1
          rw [List.length_append, List.length_singleton] at hlast
          exact congrArg some (by omega)
      · exact iff_of_true rfl htimer
      · exact absurd (hstarted.symm.trans hstopped) Bool.noConfusion

/-- A phase that is not live may be set anywhere but under the current socket, where `closed`
may not. -/
theorem Kept.setPhase (h : Kept rules now c) {phase : SocketPhase}
    (hlive : phase.isLive = true → c.socket = some socket)
    (hclosed : phase = .closed → c.socket ≠ some socket) :
    Kept rules now (c.setPhase socket phase) := by
  refine ⟨fun i hi => ?_, fun i found hfound hfoundLive => ?_, h.directory, h.fresh, h.backoff,
    h.attempted, h.due, h.waiting, h.startup⟩
  · obtain ⟨old, hold, hne⟩ := h.current i hi
    by_cases hsame : socket = i
    · subst hsame
      refine ⟨phase, ?_, fun heq => hclosed heq hi⟩
      exact List.getElem?_set_self (List.getElem?_eq_some_iff.mp hold).1
    · exact ⟨old, (List.getElem?_set_ne hsame).trans hold, hne⟩
  · by_cases hsame : socket = i
    · subst hsame
      have hlt : socket < c.sockets.length := by
        have hbound := (List.getElem?_eq_some_iff.mp hfound).1
        rwa [TrackerConnection.setPhase, List.length_set] at hbound
      have hphase : (c.sockets.set socket phase)[socket]? = some phase :=
        List.getElem?_set_self hlt
      obtain rfl := Option.some.inj (hphase.symm.trans hfound)
      exact hlive hfoundLive
    · exact h.live i found ((List.getElem?_set_ne hsame).symm.trans hfound) hfoundLive

theorem stop_sound (h : Kept rules now c) : Sound rules now c.stop := by
  refine ⟨⟨(fun _ hi => nomatch hi), fun i phase hphase hlive => ?_, rfl, fun _ => rfl, h.backoff,
    (fun _ hlast => nomatch hlast), (fun _ hdue => nomatch hdue),
    (fun _ => iff_of_false Bool.false_ne_true Bool.false_ne_true), (fun _ hdue => nomatch hdue)⟩,
    (fun hstarted => nomatch hstarted), fun _ => ⟨rfl, rfl, rfl, rfl, rfl⟩⟩
  unfold stop at hphase
  dsimp only at hphase
  cases hsocket : c.socket with
  | none =>
      rw [hsocket] at hphase
      have hcurrent := h.live i phase hphase hlive
      rw [hsocket] at hcurrent
      cases hcurrent
  | some socket =>
      obtain ⟨old, hold, -⟩ := h.current socket hsocket
      rw [hsocket] at hphase
      dsimp only at hphase
      rw [hold, Option.any_some] at hphase
      by_cases hsame : socket = i
      · subst hsame
        split_ifs at hphase with hlive'
        · rw [List.getElem?_set_self (List.getElem?_eq_some_iff.mp hold).1] at hphase
          obtain rfl := Option.some.inj hphase
          cases hlive
        · obtain rfl := Option.some.inj (hold.symm.trans hphase)
          exact absurd hlive hlive'
      · have hfound : c.sockets[i]? = some phase := by
          split_ifs at hphase
          · exact (List.getElem?_set_ne hsame).symm.trans hphase
          · exact hphase
        have hcurrent := h.live i phase hfound hlive
        rw [hsocket] at hcurrent
        exact absurd (Option.some.inj hcurrent) hsame

theorem start_sound (h : Sound rules now c) (aborted opens : Bool) (random : Draw) :
    Sound rules now (c.start rules now aborted opens random) := by
  unfold start
  by_cases hready : c.hasToken = false ∨ c.started = true
  · rw [if_pos hready]
    exact h
  rw [if_neg hready]
  have hstopped : c.started = false := by
    rw [← Bool.not_eq_true]
    exact fun hstarted => hready (Or.inr hstarted)
  obtain ⟨hsocket, htimer, -, -, hreportOff⟩ := h.idle hstopped
  have hreport : startReportTimer { c with started := true } =
      { c with started := true, reportTimer := c.reportPeerState } := by
    unfold startReportTimer
    dsimp only
    cases hstate : c.reportPeerState with
    | false => rw [if_pos (Or.inr rfl), ← hreportOff]
    | true => exact if_neg (by simp)
  rw [hreport]
  have hkept : Kept rules now { c with
      started := true
      reportTimer := c.reportPeerState
      firstConnection := true
      startupTimer := rules.startupTimeoutMs.map (now + ·) } := by
    refine ⟨h.current, h.live, h.directory, h.fresh, h.backoff, h.attempted, h.due, ?_, ?_⟩
    · intro htimeout
      exact iff_of_true rfl (by rwa [Option.isSome_map])
    · intro due hdue
      obtain ⟨timeout, htimeout, rfl⟩ := Option.map_eq_some_iff.mp hdue
      exact ⟨timeout, htimeout, le_rfl⟩
  dsimp only
  split_ifs
  · exact stop_sound hkept
  · exact openSocket_sound hkept rfl hsocket htimer rfl opens random

theorem onOpen_sound (h : Sound rules now c) (hphase : c.sockets[socket]? = some .connecting) :
    Sound rules now (c.onOpen socket) := by
  have hcurrent : c.socket = some socket := h.live socket .connecting hphase rfl
  have hset : Kept rules now (c.setPhase socket .opened) :=
    h.toKept.setPhase (fun _ => hcurrent) (fun heq => nomatch heq)
  unfold onOpen
  dsimp only
  split_ifs
  · refine ⟨⟨hset.current, hset.live, hset.directory, hset.fresh, hset.backoff, hset.attempted,
      hset.due, fun _ => iff_of_false Bool.false_ne_true Bool.false_ne_true,
      (fun _ hdue => nomatch hdue)⟩, h.busy, fun hstopped => ?_⟩
    obtain ⟨hnone, htimer, -, -, hreport⟩ := h.idle hstopped
    exact ⟨hnone, htimer, rfl, rfl, hreport⟩
  · exact ⟨hset, h.busy, h.idle⟩

theorem onMessage_sound (h : Sound rules now c) (value : JsValue) :
    Sound rules now (c.onMessage rules socket value) := by
  unfold onMessage
  dsimp only
  by_cases hcurrent : c.socket = some socket
  · rw [if_pos hcurrent]
    refine ⟨⟨h.current, h.live, ?_, fun hnone => ?_, ?_, h.attempted, h.due, h.waiting,
      h.startup⟩, h.busy, h.idle⟩
    · show rules.handleMessage c.client value = _
      rw [h.directory, List.foldl_append]
      rfl
    · exact absurd (hcurrent.symm.trans hnone) (Option.some_ne_none socket)
    · dsimp only
      split_ifs
      · exact rules.backoff.delayAfter_zero.symm
      · exact h.backoff
  · rw [if_neg hcurrent]
    exact h

theorem onClose_sound (h : Sound rules now c) (random : Draw) :
    Sound rules now (c.onClose rules now socket random) := by
  unfold onClose
  dsimp only
  by_cases hcurrent : c.socket = some socket
  · rw [if_pos (show (c.setPhase socket .closed).socket = some socket from hcurrent)]
    have hstarted : c.started = true := by
      by_contra hstopped
      rw [Bool.not_eq_true] at hstopped
      rw [(h.idle hstopped).1] at hcurrent
      cases hcurrent
    obtain ⟨hone, hasked, hreport⟩ := h.busy hstarted
    have hkept : Kept rules now (clearPeers { c.setPhase socket .closed with socket := none }) := by
      refine ⟨(fun _ hi => nomatch hi), fun i found hfound hlive => ?_, rfl, fun _ => rfl, h.backoff,
        h.attempted, h.due, h.waiting, h.startup⟩
      have hsame : socket ≠ i := by
        rintro rfl
        obtain ⟨old, hold, -⟩ := h.current socket hcurrent
        have hnow : (c.sockets.set socket .closed)[socket]? = some .closed :=
          List.getElem?_set_self (List.getElem?_eq_some_iff.mp hold).1
        obtain rfl := Option.some.inj (hnow.symm.trans hfound)
        cases hlive
      have hold := h.live i found ((List.getElem?_set_ne hsame).symm.trans hfound) hlive
      exact absurd (Option.some.inj (hcurrent.symm.trans hold)) hsame
    refine scheduleReconnect_sound hkept hstarted rfl ?_ hasked hreport random
    exact hone.mp (by rw [hcurrent]; rfl)
  · rw [if_neg (show (c.setPhase socket .closed).socket ≠ some socket from hcurrent)]
    exact ⟨h.toKept.setPhase (fun hlive => nomatch hlive) (fun _ => hcurrent), h.busy, h.idle⟩

theorem enablePeerStateReporting_sound (h : Sound rules now c) :
    Sound rules now (startReportTimer { c with reportPeerState := true }) := by
  have hkept : ∀ {timer : Bool}, Kept rules now
      { c with reportPeerState := true, reportTimer := timer } :=
    ⟨h.current, h.live, h.directory, h.fresh, h.backoff, h.attempted, h.due, h.waiting, h.startup⟩
  unfold startReportTimer
  dsimp only
  by_cases hstarted : c.started = true
  · rw [if_neg (by rw [hstarted]; simp)]
    obtain ⟨hone, hasked, -⟩ := h.busy hstarted
    exact ⟨hkept, fun _ => ⟨hone, hasked, rfl⟩,
      fun hstopped => absurd (hstarted.symm.trans hstopped) Bool.noConfusion⟩
  · rw [Bool.not_eq_true] at hstarted
    rw [if_pos (Or.inl hstarted)]
    have hidle := h.idle hstarted
    exact ⟨hkept, fun hstarted' => absurd (hstarted.symm.trans hstarted') Bool.noConfusion,
      fun _ => hidle⟩

/-! ### Runs -/

theorem Sound.step {e : TrackerConnectionEvent} (h : Sound rules now c)
    (hstep : c.step rules now e = some c') : Sound rules now c' := by
  cases e with
  | tokenSet | tokenDropped =>
      obtain rfl := Option.some.inj hstep
      exact ⟨⟨h.current, h.live, h.directory, h.fresh, h.backoff, h.attempted, h.due, h.waiting,
        h.startup⟩, h.busy, h.idle⟩
  | start aborted opens random =>
      obtain rfl := Option.some.inj hstep
      exact start_sound h aborted opens random
  | stop =>
      obtain rfl := Option.some.inj hstep
      exact stop_sound h.toKept
  | enablePeerStateReporting =>
      obtain rfl := Option.some.inj hstep
      exact enablePeerStateReporting_sound h
  | reconnect opens random =>
      unfold TrackerConnection.step at hstep
      dsimp only at hstep
      split_ifs at hstep with htimer
      obtain rfl := Option.some.inj hstep
      have hstarted : c.started = true := by
        by_contra hstopped
        rw [Bool.not_eq_true] at hstopped
        rw [(h.idle hstopped).2.1] at htimer
        cases htimer
      obtain ⟨hone, -, hreport⟩ := h.busy hstarted
      have hsocket : c.socket = none := by
        rw [← Option.not_isSome_iff_eq_none, hone, htimer]
        exact Option.some_ne_none now
      refine openSocket_sound (c := { c with reconnectTimer := none }) ?_ hstarted hsocket rfl
        hreport opens random
      exact ⟨h.current, h.live, h.directory, h.fresh, h.backoff, h.attempted,
        (fun _ hdue => nomatch hdue), h.waiting, h.startup⟩
  | startupTimeout =>
      unfold TrackerConnection.step at hstep
      dsimp only at hstep
      split_ifs at hstep
      obtain rfl := Option.some.inj hstep
      exact stop_sound h.toKept
  | startupAborted =>
      unfold TrackerConnection.step at hstep
      dsimp only at hstep
      split_ifs at hstep
      obtain rfl := Option.some.inj hstep
      exact stop_sound h.toKept
  | opened socket =>
      unfold TrackerConnection.step at hstep
      dsimp only at hstep
      split_ifs at hstep with hphase
      obtain rfl := Option.some.inj hstep
      exact onOpen_sound h hphase
  | text socket value =>
      unfold TrackerConnection.step at hstep
      dsimp only at hstep
      split_ifs at hstep
      obtain rfl := Option.some.inj hstep
      exact onMessage_sound h value
  | closing socket =>
      unfold TrackerConnection.step at hstep
      dsimp only at hstep
      split_ifs at hstep
      obtain rfl := Option.some.inj hstep
      exact ⟨h.toKept.setPhase (fun hlive => nomatch hlive) (fun heq => nomatch heq), h.busy, h.idle⟩
  | closed socket random =>
      unfold TrackerConnection.step at hstep
      dsimp only at hstep
      split at hstep
      · cases hstep
      · cases hstep
      · obtain rfl := Option.some.inj hstep
        exact onClose_sound h random

end TrackerConnection

end OpenStreamGrid

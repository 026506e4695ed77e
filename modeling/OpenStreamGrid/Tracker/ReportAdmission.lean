import Mathlib.Algebra.BigOperators.Group.Finset.Basic
import OpenStreamGrid.Client.SegmentReports
import OpenStreamGrid.Lib.JsonText
import OpenStreamGrid.Lib.TransitionSystem
import OpenStreamGrid.Tracker.InventoryReports

/-!
# Are a peer's own reports admissible?

A client sends the whole change of its cache as one delta; the tracker bounds
each list, each ID and the payload. `SmallChange` says of the cache and of what
was reported last that these bounds are kept; `admissible_iff` that exactly then
the tracker admits the report.
-/

namespace OpenStreamGrid

def MAX_WEB_SOCKET_PAYLOAD_BYTES : ℕ := 64 * 1024

/-- The message body the tracker parses. -/
def SegmentReport.message (r : SegmentReport) : ReportSegmentsMessage :=
  ⟨none, none, some r.added, some r.removed⟩

/-- The text `JSON.stringify` sends. -/
def SegmentReport.payload (r : SegmentReport) : String :=
  "\x7b\"type\":\"report_segments\",\"broadcastId\":" ++ jsonString r.broadcastId ++
    ",\"peerId\":" ++ jsonString r.peerId ++ ",\"added\":" ++ jsonStringArray r.added ++
    ",\"removed\":" ++ jsonStringArray r.removed ++ "\x7d"

/-- The payload is not too big and both lists are valid. -/
def SegmentReport.Admissible (r : SegmentReport) : Prop :=
  r.payload.utf8ByteSize ≤ MAX_WEB_SOCKET_PAYLOAD_BYTES ∧
    ValidSegmentIdList r.added ∧ ValidSegmentIdList r.removed

/-- The hub has no complaint about the lists of an admissible report. -/
theorem SegmentReport.Admissible.requiredSegments {r : SegmentReport} (h : r.Admissible) :
    TrackerWebSocketHub.requiredSegments r.message.added = .ok r.added ∧
      TrackerWebSocketHub.requiredSegments r.message.removed = .ok r.removed :=
  ⟨TrackerWebSocketHub.requiredSegments_ok.mpr ⟨rfl, h.2.1⟩,
    TrackerWebSocketHub.requiredSegments_ok.mpr ⟨rfl, h.2.2⟩⟩

/-! ## Small changes -/

/-- Bytes of an array of the IDs, in any order. -/
def idArrayBytes (ids : Finset SegmentId) : ℕ :=
  2 + ∑ id ∈ ids, jsonStringBytes id + (ids.card - 1)

/-- An ID the tracker accepts. -/
def ValidSegmentId (id : SegmentId) : Prop :=
  utf16Length id ≠ 0 ∧ utf16Length id ≤ MAX_SEGMENT_ID_LENGTH

instance (id : SegmentId) : Decidable (ValidSegmentId id) := inferInstanceAs (Decidable (_ ∧ _))

/-- From `last` to `current` few IDs come and few go, all of them of valid
length, and their texts fit into one payload beside the two identifiers. -/
structure SmallChange (broadcastId : BroadcastId) (peerId : PeerId)
    (last current : Finset SegmentId) : Prop where
  added : (current \ last).card ≤ MAX_SEGMENTS_PER_REPORT
  removed : (last \ current).card ≤ MAX_SEGMENTS_PER_REPORT
  addedIds : ∀ id ∈ current \ last, ValidSegmentId id
  removedIds : ∀ id ∈ last \ current, ValidSegmentId id
  bytes : 71 + jsonStringBytes broadcastId + jsonStringBytes peerId +
    idArrayBytes (current \ last) + idArrayBytes (last \ current) ≤ MAX_WEB_SOCKET_PAYLOAD_BYTES

theorem validSegmentIdList_iff {ids : List SegmentId} (hnd : ids.Nodup) :
    ValidSegmentIdList ids ↔
      ids.toFinset.card ≤ MAX_SEGMENTS_PER_REPORT ∧ ∀ id ∈ ids.toFinset, ValidSegmentId id := by
  rw [List.toFinset_card_of_nodup hnd]
  simp only [ValidSegmentIdList, List.mem_toFinset, ValidSegmentId]

theorem utf8ByteSize_ids {ids : List SegmentId} (hnd : ids.Nodup) :
    (jsonStringArray ids).utf8ByteSize = idArrayBytes ids.toFinset := by
  rw [utf8ByteSize_jsonStringArray, idArrayBytes, List.toFinset_card_of_nodup hnd,
    List.sum_toFinset _ hnd]

theorem SegmentReport.utf8ByteSize_payload (r : SegmentReport) :
    r.payload.utf8ByteSize = 71 + jsonStringBytes r.broadcastId + jsonStringBytes r.peerId +
      (jsonStringArray r.added).utf8ByteSize + (jsonStringArray r.removed).utf8ByteSize := by
  have h₁ : ("\x7b\"type\":\"report_segments\",\"broadcastId\":" : String).utf8ByteSize = 40 := by
    decide
  have h₂ : (",\"peerId\":" : String).utf8ByteSize = 10 := by decide
  have h₃ : (",\"added\":" : String).utf8ByteSize = 9 := by decide
  have h₄ : (",\"removed\":" : String).utf8ByteSize = 11 := by decide
  have h₅ : ("\x7d" : String).utf8ByteSize = 1 := by decide
  unfold SegmentReport.payload
  rw [String.utf8ByteSize_append, String.utf8ByteSize_append, String.utf8ByteSize_append,
    String.utf8ByteSize_append, String.utf8ByteSize_append, String.utf8ByteSize_append,
    String.utf8ByteSize_append, String.utf8ByteSize_append, utf8ByteSize_jsonString,
    utf8ByteSize_jsonString, h₁, h₂, h₃, h₄, h₅]
  omega

/-- The reported change as sets. -/
theorem SegmentReport.Describes.toFinset {r : SegmentReport} {last current : OrderedSet SegmentId}
    (h : r.Describes last current) :
    r.added.toFinset = current.toList.toFinset \ last.toList.toFinset ∧
      r.removed.toFinset = last.toList.toFinset \ current.toList.toFinset := by
  constructor
  · ext x
    simp [h.added]
  · ext x
    simp [h.removed]

/-- **A report is admissible exactly when the change it describes is small.** -/
theorem SegmentReport.Describes.admissible_iff {r : SegmentReport}
    {last current : OrderedSet SegmentId} (h : r.Describes last current) :
    r.Admissible ↔
      SmallChange r.broadcastId r.peerId last.toList.toFinset current.toList.toFinset := by
  obtain ⟨hadded, hremoved⟩ := h.toFinset
  unfold SegmentReport.Admissible
  rw [SegmentReport.utf8ByteSize_payload, validSegmentIdList_iff h.nodup_added,
    validSegmentIdList_iff h.nodup_removed, utf8ByteSize_ids h.nodup_added,
    utf8ByteSize_ids h.nodup_removed, hadded, hremoved]
  constructor
  · rintro ⟨hbytes, ⟨hadd, haddIds⟩, hrem, hremIds⟩
    exact ⟨hadd, hrem, haddIds, hremIds, hbytes⟩
  · rintro ⟨hadd, hrem, haddIds, hremIds, hbytes⟩
    exact ⟨hbytes, ⟨hadd, haddIds⟩, hrem, hremIds⟩

/-! ## A client over time -/

/-- A client, the segments its cache lists, its socket, and what it has sent. -/
structure CachingClient where
  client : PeerClient
  segments : List SegmentId
  connected : Bool
  sent : List SegmentReport
deriving DecidableEq

inductive CachingEvent where
  | cacheChanged (segments : List SegmentId)
  /-- The report timer, or the report after a fetch. -/
  | reported (canSend : Bool)
  | disconnected
  /-- The socket opens: the client subscribes and reports. -/
  | connected (canSend : Bool)
  /-- The browser client starts reporting. -/
  | reportingEnabled (canSend : Bool)
deriving DecidableEq

namespace CachingClient

/-- `send` succeeds only on an open socket. -/
def report (s : CachingClient) (canSend : Bool) : CachingClient :=
  match s.client.reportSegments s.segments (canSend && s.connected) with
  | (client, report) => { s with client := client, sent := s.sent ++ report.toList }

def handle (s : CachingClient) : CachingEvent → CachingClient
  | .cacheChanged segments => { s with segments := segments }
  | .reported canSend => s.report canSend
  | .disconnected => { s with connected := false }
  | .connected canSend => { s with connected := true }.report canSend
  | .reportingEnabled canSend =>
      if s.client.reportPeerState then s
      else { s with client := s.client.enablePeerStateReporting }.report canSend

/-- Either client, before it has connected, through any events. -/
def system : TransitionSystem CachingClient CachingEvent where
  init s := s.client.Fresh ∧ s.connected = false ∧ s.sent = []
  step s e := some (s.handle e)

/-- The change since the last report is small. -/
def ChangeIsSmall (s : CachingClient) : Prop :=
  SmallChange s.client.broadcastId s.client.peerId
    s.client.lastReportedSegments.toList.toFinset s.segments.toFinset

/-- If the client sends a report, the change it reports is small. -/
def ReportsSmallChange (s : CachingClient) (canSend : Bool) : Prop :=
  canSend = true → s.connected = true → s.client.reportPeerState = true →
    s.segments.toFinset ≠ s.client.lastReportedSegments.toList.toFinset → s.ChangeIsSmall

/-- The condition on the steps of a run. -/
def SmallChanges (s : CachingClient) : CachingEvent → Prop
  | .reported canSend => s.ReportsSmallChange canSend
  | .connected canSend => { s with connected := true }.ReportsSmallChange canSend
  | .reportingEnabled canSend =>
      s.client.reportPeerState = false →
        { s with client := s.client.enablePeerStateReporting }.ReportsSmallChange canSend
  | _ => True

theorem toFinset_ofList (xs : List SegmentId) :
    (OrderedSet.ofList xs).toList.toFinset = xs.toFinset := by
  ext x
  simp

theorem admissible_report {s : CachingClient} {canSend : Bool}
    (hsent : ∀ r ∈ s.sent, r.Admissible) (hsmall : s.ReportsSmallChange canSend) :
    ∀ r ∈ (s.report canSend).sent, r.Admissible := by
  unfold report
  cases hreport : s.client.reportSegments s.segments (canSend && s.connected) with
  | mk client report =>
      intro r hr
      rcases List.mem_append.mp hr with hold | hnew
      · exact hsent r hold
      · obtain ⟨-, ⟨hnone, -⟩ | ⟨r', hr', hsend, hon, hb, hp, -, hdesc⟩⟩ :=
          PeerClient.reportSegments_spec hreport
        · rw [hnone] at hnew
          exact absurd hnew List.not_mem_nil
        · rw [hr', Option.toList_some, List.mem_singleton] at hnew
          subst hnew
          rw [hdesc.admissible_iff, hb, hp, toFinset_ofList]
          obtain ⟨hcan, hconn⟩ := Bool.and_eq_true_iff.mp hsend
          refine hsmall hcan hconn hon fun hsame => ?_
          have hsets := hdesc.toFinset
          rw [toFinset_ofList, hsame, sdiff_self] at hsets
          rcases hdesc.changed with hadded | hremoved
          · exact hadded (List.toFinset_eq_empty_iff _ |>.mp hsets.1)
          · exact hremoved (List.toFinset_eq_empty_iff _ |>.mp hsets.2)

/-- **Reports are admissible** in every run in which each report describes a
small change. -/
theorem reports_admissible {s : CachingClient} (hr : system.Reachable SmallChanges s) :
    ∀ r ∈ s.sent, r.Admissible := by
  refine hr.invariant (fun s => ∀ r ∈ s.sent, r.Admissible) ?_ ?_
  · rintro s ⟨-, -, hsent⟩ r hmem
    rw [hsent] at hmem
    exact absurd hmem List.not_mem_nil
  · rintro s e s' hsent hok hstep
    obtain rfl := Option.some.inj hstep
    cases e with
    | cacheChanged segments => exact hsent
    | reported canSend => exact admissible_report hsent hok
    | disconnected => exact hsent
    | connected canSend => exact admissible_report (s := { s with connected := true }) hsent hok
    | reportingEnabled canSend =>
        unfold handle
        split_ifs with hon
        · exact hsent
        · exact admissible_report (s := { s with client := s.client.enablePeerStateReporting })
            hsent (hok (Bool.eq_false_of_not_eq_true hon))

/-- A Node client of peer `p`. -/
def nodeClient : CachingClient := ⟨.node ⟨"live", "p", ∅⟩, [], false, []⟩

/-- The cache holds these segments when the socket opens. -/
def afterConnecting (segments : List SegmentId) : CachingClient :=
  [CachingEvent.cacheChanged segments, .connected true].foldl handle nodeClient

theorem reachable_afterConnecting {ok : CachingClient → CachingEvent → Prop}
    {segments : List SegmentId} (hcached : ok nodeClient (.cacheChanged segments))
    (hconnected : ok { nodeClient with segments := segments } (.connected true)) :
    system.Reachable ok (afterConnecting segments) := by
  have hinit : system.Reachable ok nodeClient := .init ⟨rfl, rfl, rfl⟩
  have hstep : system.Reachable ok { nodeClient with segments := segments } :=
    hinit.step hcached rfl
  exact hstep.step hconnected rfl

theorem reports_admissible_two :
    ∃ r ∈ (afterConnecting ["seg1.ts", "seg2.ts"]).sent, r.Admissible := by
  have hsent : (afterConnecting ["seg1.ts", "seg2.ts"]).sent ≠ [] := by decide
  obtain ⟨r, hr⟩ := List.exists_mem_of_ne_nil _ hsent
  exact ⟨r, hr, reports_admissible (reachable_afterConnecting trivial
    fun _ _ _ _ => ⟨by decide, by decide, by decide, by decide, by decide +kernel⟩) r hr⟩

/-! ## A large cache -/

/-- A bare media segment file name made of safe characters. -/
def isMediaSegmentFileName (value : String) : Bool :=
  value.toList.all (fun c => c.isAlphanum || c = '-' || c = '_' || c = '.') &&
    (".ts".toList.isSuffixOf value.toList || ".m4s".toList.isSuffixOf value.toList)

/-- Every listed ID is one that a client caches under. -/
def CachesMediaSegments : CachingEvent → Prop
  | .cacheChanged segments => ∀ id ∈ segments, isMediaSegmentFileName id = true
  | _ => True

/-- Three digits. -/
def digits (n : ℕ) : List Char :=
  [Nat.digitChar (n / 100), Nat.digitChar (n / 10 % 10), Nat.digitChar (n % 10)]

def numberedSegment (n : ℕ) : SegmentId := String.ofList ("seg".toList ++ digits n ++ ".ts".toList)

/-- One more segment than a report may list. -/
def numberedSegments : List SegmentId := (List.range 513).map numberedSegment

theorem digits_injOn : ∀ m < 513, ∀ n < 513, digits m = digits n → m = n := by
  have hvalue : ∀ n < 513,
      (digits n).foldl (fun value c => 10 * value + (c.toNat - 48)) 0 = n := by
    decide +kernel
  intro m hm n hn heq
  rw [← hvalue m hm, heq, hvalue n hn]

theorem nodup_numberedSegments : numberedSegments.Nodup := by
  refine List.Nodup.map_on (fun m hm n hn heq => ?_) List.nodup_range
  have hsame := String.ofList_injective heq
  exact digits_injOn m (List.mem_range.mp hm) n (List.mem_range.mp hn)
    (List.append_cancel_left (List.append_cancel_right hsame))

theorem isMediaSegmentFileName_numberedSegments :
    ∀ id ∈ numberedSegments, isMediaSegmentFileName id = true := by
  have hchars : ∀ n < 513, isMediaSegmentFileName (numberedSegment n) = true := by
    unfold isMediaSegmentFileName numberedSegment
    simp only [String.toList_ofList]
    decide +kernel
  intro id hid
  obtain ⟨n, hn, rfl⟩ := List.mem_map.mp hid
  exact hchars n (List.mem_range.mp hn)

/-- Everything a fresh client has cached goes into its first report. -/
theorem sent_afterConnecting {segments : List SegmentId} (hnd : segments.Nodup)
    (hne : segments ≠ []) :
    (⟨"live", "p", segments, []⟩ : SegmentReport) ∈ (afterConnecting segments).sent := by
  have hlist : (OrderedSet.ofList segments).toList = segments :=
    OrderedSet.toList_ofList_of_nodup hnd
  have hfilter : segments.filter
      (fun segment => decide (segment ∉ (∅ : OrderedSet SegmentId))) = segments :=
    List.filter_eq_self.mpr fun id _ => decide_eq_true (OrderedSet.not_mem_empty id)
  simp only [afterConnecting, List.foldl, handle, nodeClient, report,
    PeerClient.reportSegments, TrackerClient.reportSegments, reportChanges, hlist, hfilter,
    OrderedSet.toList_empty, List.filter_nil, hne, false_and, if_false, Bool.and_self, if_true,
    Prod.map, id_eq, Option.toList_some, List.nil_append, List.mem_singleton]

/-- A client that has cached one segment too many sends them all as it connects. -/
theorem oversized_report_sent :
    ¬ ∀ s : CachingClient, system.Reachable (fun _ e => CachesMediaSegments e) s →
        ∀ r ∈ s.sent, r.Admissible := by
  intro h
  have hr : system.Reachable (fun _ e => CachesMediaSegments e)
      (afterConnecting numberedSegments) :=
    reachable_afterConnecting isMediaSegmentFileName_numberedSegments trivial
  have hlength : numberedSegments.length = 513 := by
    rw [numberedSegments, List.length_map, List.length_range]
  have hnd := nodup_numberedSegments
  generalize numberedSegments = ids at hr hlength hnd
  have hne : ids ≠ [] := List.ne_nil_of_length_pos (by omega)
  have hbound : ids.length ≤ 512 := (h _ hr _ (sent_afterConnecting hnd hne)).2.1.1
  omega

end CachingClient

end OpenStreamGrid

import OpenStreamGrid.Lib.LinkedList
import OpenStreamGrid.Lib.LruList
import OpenStreamGrid.Sdk.SegmentCache

/-!
# The linked list of the browser's segment cache

The cache as its source keeps it: a map from names to nodes, and a doubly linked
list of the nodes with the one used last at the head. Every sequence of calls is
answered as a least-recently-used list answers it, and so is every sequence of
calls of the cache without pointers that the rest of this development uses.
-/

namespace OpenStreamGrid

namespace Sdk

/-- What `peek` tells of an entry. -/
structure CachedSegment where
  data : List UInt8
  storedAt : ℤ
  hash : Option String
deriving DecidableEq

def CachedSegment.byteLength (segment : CachedSegment) : ℕ := segment.data.length

abbrev NodeId := ℕ

/-- A node but for its pointers, which are the list's. -/
structure CacheNode extends CachedSegment where
  key : String
deriving DecidableEq

structure LinkedCache where
  map : OrderedMap String NodeId
  list : LinkedList NodeId
  totalBytes : ℤ
  /-- Every node there was. -/
  nodes : NodeId → CacheNode
  created : NodeId

namespace LinkedCache

def new : LinkedCache := ⟨∅, .empty, 0, fun _ => ⟨⟨[], 0, none⟩, ""⟩, 0⟩

def bumpToFront (c : LinkedCache) (node : NodeId) : LinkedCache :=
  if c.list.head = some node then c else { c with list := (c.list.unlink node).prepend node }

/-- Retrieve a segment (bumps to front on hit). -/
def get (c : LinkedCache) (segmentName : String) : LinkedCache × Option (List UInt8) :=
  match c.map.get? segmentName with
  | none => (c, none)
  | some node => (c.bumpToFront node, some (c.nodes node).data)

/-- Check existence without bumping LRU order. -/
def has (c : LinkedCache) (segmentName : String) : Bool := (c.map.get? segmentName).isSome

/-- Get metadata about a cached entry without bumping. -/
def peek (c : LinkedCache) (segmentName : String) : Option CachedSegment :=
  (c.map.get? segmentName).map fun node => (c.nodes node).toCachedSegment

/-- Evict a specific key. -/
def evict (c : LinkedCache) (segmentName : String) : LinkedCache :=
  match c.map.get? segmentName with
  | none => c
  | some node =>
      { c with
        totalBytes := c.totalBytes - (c.nodes node).data.length
        list := c.list.unlink node
        map := c.map.delete segmentName }

/-- Evict from tail until under limit, at most so many entries. -/
def evictWhileOver (maxBytes : ℕ) : ℕ → LinkedCache → LinkedCache
  | 0, c => c
  | rounds + 1, c =>
      if c.totalBytes > maxBytes then
        match c.list.tail with
        | none => c
        | some node => evictWhileOver maxBytes rounds (c.evict (c.nodes node).key)
      else c

/-- What `set` does with an entry of the same name: its node is unlinked, the map keeps it. -/
def unlinkExisting (c : LinkedCache) (segmentName : String) : LinkedCache :=
  match c.map.get? segmentName with
  | none => c
  | some existing =>
      { c with
        totalBytes := c.totalBytes - (c.nodes existing).data.length
        list := c.list.unlink existing }

/-- A new node under the name, at the head. -/
def insert (c : LinkedCache) (segmentName : String) (segment : CachedSegment) : LinkedCache where
  nodes := Function.update c.nodes c.created ⟨segment, segmentName⟩
  created := c.created + 1
  map := c.map.set segmentName c.created
  list := c.list.prepend c.created
  totalBytes := c.totalBytes + segment.data.length

/-- Store a segment. Returns false if the segment is larger than maxBytes. -/
def set (maxBytes : ℕ) (c : LinkedCache) (segmentName : String) (segment : CachedSegment) :
    LinkedCache × Bool :=
  if segment.data.length = 0 ∨ segment.data.length > maxBytes then (c, false)
  else
    let c := (c.unlinkExisting segmentName).insert segmentName segment
    (c.evictWhileOver maxBytes c.map.size, true)

/-- Delete all entries. -/
def clear (c : LinkedCache) : LinkedCache :=
  { c with map := ∅, list := c.list.clear, totalBytes := 0 }

end LinkedCache

/-! ## Calls and their answers -/

/-- A call; `set` is given what it stores, with the time of the call in it. -/
inductive CacheCall where
  | get (segmentName : String)
  | has (segmentName : String)
  | peek (segmentName : String)
  | set (segmentName : String) (segment : CachedSegment)
  | clear

inductive CacheAnswer where
  | data (data : Option (List UInt8))
  | flag (flag : Bool)
  | segment (segment : Option CachedSegment)
  | done
deriving DecidableEq

namespace LinkedCache

def step (maxBytes : ℕ) (c : LinkedCache) : CacheCall → LinkedCache × CacheAnswer
  | .get segmentName => ((c.get segmentName).1, .data (c.get segmentName).2)
  | .has segmentName => (c, .flag (c.has segmentName))
  | .peek segmentName => (c, .segment (c.peek segmentName))
  | .set segmentName segment =>
      ((c.set maxBytes segmentName segment).1, .flag (c.set maxBytes segmentName segment).2)
  | .clear => (c.clear, .done)

/-- The state after some calls, and their answers. -/
def run (maxBytes : ℕ) : LinkedCache → List CacheCall → LinkedCache × List CacheAnswer
  | c, [] => (c, [])
  | c, call :: calls =>
      ((run maxBytes (c.step maxBytes call).1 calls).1,
        (c.step maxBytes call).2 :: (run maxBytes (c.step maxBytes call).1 calls).2)

end LinkedCache

/-- The reference: a least-recently-used list of segments with a limit on their bytes. -/
abbrev SegmentList (maxBytes : ℕ) := LruList String CachedSegment CachedSegment.byteLength maxBytes

namespace SegmentList

variable {maxBytes : ℕ}

/-- `get` and `set` refresh, `has` and `peek` do not; an empty segment and one above the limit
are refused. -/
def step (s : SegmentList maxBytes) : CacheCall → SegmentList maxBytes × CacheAnswer
  | .get segmentName => (s.use segmentName, .data ((s.find segmentName).map CachedSegment.data))
  | .has segmentName => (s, .flag (s.find segmentName).isSome)
  | .peek segmentName => (s, .segment (s.find segmentName))
  | .set segmentName segment =>
      if segment.byteLength = 0 ∨ segment.byteLength > maxBytes then (s, .flag false)
      else (s.insert segmentName segment, .flag true)
  | .clear => (.empty, .done)

def run : SegmentList maxBytes → List CacheCall → SegmentList maxBytes × List CacheAnswer
  | s, [] => (s, [])
  | s, call :: calls =>
      ((run (step s call).1 calls).1, (step s call).2 :: (run (step s call).1 calls).2)

end SegmentList

/-! ## The invariant -/

namespace LinkedCache

/-- Bytes of a node. -/
def bytes (c : LinkedCache) (node : NodeId) : ℕ := (c.nodes node).data.length

/-- An entry of the reference. -/
def entry (c : LinkedCache) (node : NodeId) : String × CachedSegment :=
  ((c.nodes node).key, (c.nodes node).toCachedSegment)

/-- The list links the nodes of the map, in the given order, and their bytes are counted. -/
structure Holds (c : LinkedCache) (order : List NodeId) : Prop where
  links : c.list.Links order
  created : ∀ node ∈ order, node < c.created
  mapped : ∀ segmentName node, c.map.get? segmentName = some node ↔
    node ∈ order ∧ (c.nodes node).key = segmentName
  total : c.totalBytes = (totalWeight c.bytes order : ℕ)

variable {c : LinkedCache} {order : List NodeId} {node : NodeId} {segmentName : String}

theorem holds_new : new.Holds [] where
  links := LinkedList.links_nil rfl rfl
  created node h := by cases h
  mapped segmentName node := iff_of_false (by rintro ⟨⟩) (by rintro ⟨⟨⟩, -⟩)
  total := rfl

theorem holds_clear (c : LinkedCache) : c.clear.Holds [] where
  links := LinkedList.links_nil rfl rfl
  created node h := by cases h
  mapped segmentName node := iff_of_false (by rintro ⟨⟩) (by rintro ⟨⟨⟩, -⟩)
  total := rfl

/-- A name has one node in the list. -/
theorem Holds.key_injective (h : c.Holds order) {node' : NodeId} (hmem : node ∈ order)
    (hmem' : node' ∈ order) (hkey : (c.nodes node).key = (c.nodes node').key) : node = node' := by
  have hnode := (h.mapped _ node).mpr ⟨hmem, rfl⟩
  have hnode' := (h.mapped _ node').mpr ⟨hmem', rfl⟩
  rw [hkey, hnode'] at hnode
  exact (Option.some.inj hnode).symm

theorem Holds.nodupKeys (h : c.Holds order) :
    ((order.map c.entry).map Prod.fst).Nodup := by
  rw [List.map_map]
  exact (List.nodup_map_iff_inj_on h.links.nodup).mpr
    fun node hmem node' hmem' hkey => h.key_injective hmem hmem' hkey

/-- Looking a name up in the map finds what the reference has under it. -/
theorem Holds.find_eq (h : c.Holds order) (segmentName : String) :
    OrderedMap.find segmentName (order.map c.entry) =
      (c.map.get? segmentName).map fun node => (c.nodes node).toCachedSegment := by
  cases hget : c.map.get? segmentName with
  | none =>
      apply OrderedMap.find_eq_none_iff.mpr
      intro hmem
      obtain ⟨e, he, hkey⟩ := List.mem_map.mp hmem
      obtain ⟨node, hnode, rfl⟩ := List.mem_map.mp he
      rw [(h.mapped segmentName node).mpr ⟨hnode, hkey⟩] at hget
      cases hget
  | some node =>
      obtain ⟨hmem, hkey⟩ := (h.mapped segmentName node).mp hget
      apply (OrderedMap.find_eq_some_iff h.nodupKeys).mpr
      exact List.mem_map.mpr ⟨node, hmem, by rw [entry, hkey]⟩

theorem Holds.size_eq (h : c.Holds order) : c.map.size = order.length := by
  have hperm : c.map.keys.Perm ((order.map c.entry).map Prod.fst) := by
    refine (List.perm_ext_iff_of_nodup c.map.nodupKeys h.nodupKeys).mpr fun segmentName => ?_
    show segmentName ∈ c.map ↔ _
    rw [OrderedMap.mem_iff_isSome, ← not_iff_not, ← OrderedMap.find_eq_none_iff, h.find_eq]
    cases c.map.get? segmentName <;> simp
  rw [← OrderedMap.length_keys, hperm.length_eq, List.length_map, List.length_map]

/-- Taking a name out of the entries takes its node out of the list. -/
theorem Holds.without_key {before after : List NodeId} (h : c.Holds (before ++ node :: after)) :
    LruList.without (c.nodes node).key ((before ++ node :: after).map c.entry) =
      (before ++ after).map c.entry := by
  have hmem : node ∈ before ++ node :: after := by simp
  have hstays : ∀ nodes : List NodeId, node ∉ nodes → nodes ⊆ before ++ node :: after →
      LruList.without (c.nodes node).key (nodes.map c.entry) = nodes.map c.entry := by
    intro nodes hnode hsub
    apply List.filter_eq_self.mpr
    intro e he
    obtain ⟨other, hother, rfl⟩ := List.mem_map.mp he
    apply decide_eq_true
    intro hkey
    exact hnode (h.key_injective (hsub hother) hmem hkey ▸ hother)
  obtain ⟨-, hrest, hapart⟩ := List.nodup_append.mp h.links.nodup
  have hbefore : node ∉ before := fun hin => hapart node hin node List.mem_cons_self rfl
  rw [LruList.without, List.map_append, List.filter_append, List.map_cons,
    List.filter_cons_of_neg (by simp [entry]), ← LruList.without, ← LruList.without,
    hstays before hbefore (fun x hx => List.mem_append_left _ hx),
    hstays after (List.nodup_cons.mp hrest).1
      (fun x hx => List.mem_append_right _ (List.mem_cons_of_mem _ hx)),
    List.map_append]

theorem Holds.without_absent (h : c.Holds order) (habsent : c.map.get? segmentName = none) :
    LruList.without segmentName (order.map c.entry) = order.map c.entry := by
  apply List.filter_eq_self.mpr
  intro e he
  apply decide_eq_true
  rintro rfl
  have hfind := h.find_eq e.1
  rw [habsent] at hfind
  exact OrderedMap.find_eq_none_iff.mp hfind (List.mem_map_of_mem he)

/-! ## A node moves to the front -/

theorem Holds.bumpToFront {before after : List NodeId} (h : c.Holds (before ++ node :: after)) :
    (c.bumpToFront node).Holds (node :: (before ++ after)) := by
  have hmem : ∀ other, other ∈ node :: (before ++ after) ↔ other ∈ before ++ node :: after := by
    intro other
    simp only [List.mem_cons, List.mem_append]
    tauto
  have hlinks : (c.bumpToFront node).list.Links (node :: (before ++ after)) := by
    unfold LinkedCache.bumpToFront
    split_ifs with hfront
    · -- The head is the node, so nothing is before it.
      rcases before with _ | ⟨first, before⟩
      · exact h.links
      · have hhead := h.links.head
        rw [hfront, List.cons_append, List.head?_cons] at hhead
        obtain rfl := Option.some.inj hhead
        exact absurd (by simp) (List.nodup_cons.mp h.links.nodup).1
    · apply h.links.unlink.prepend
      obtain ⟨-, hrest, hapart⟩ := List.nodup_append.mp h.links.nodup
      rintro hin
      rcases List.mem_append.mp hin with hbefore | hafter
      · exact hapart node hbefore node List.mem_cons_self rfl
      · exact (List.nodup_cons.mp hrest).1 hafter
  have hsame : (c.bumpToFront node).map = c.map ∧ (c.bumpToFront node).nodes = c.nodes ∧
      (c.bumpToFront node).totalBytes = c.totalBytes ∧
      (c.bumpToFront node).created = c.created := by
    unfold LinkedCache.bumpToFront
    split_ifs <;> exact ⟨rfl, rfl, rfl, rfl⟩
  obtain ⟨hmap, hnodes, htotal, hcreated⟩ := hsame
  refine ⟨hlinks, fun other hother => ?_, fun name other => ?_, ?_⟩
  · rw [hcreated]
    exact h.created other ((hmem other).mp hother)
  · rw [hmap, hnodes, hmem]
    exact h.mapped name other
  · have hbytes : (c.bumpToFront node).bytes = c.bytes := by
      unfold bytes
      rw [hnodes]
    rw [htotal, h.total, hbytes, totalWeight_cons, totalWeight_append, totalWeight_append,
      totalWeight_cons]
    congr 1
    omega

/-! ## Eviction -/

theorem Holds.evict_tail {before : List NodeId} (h : c.Holds (before ++ [node])) :
    (c.evict (c.nodes node).key).Holds before := by
  have hget : c.map.get? (c.nodes node).key = some node := (h.mapped _ _).mpr ⟨by simp, rfl⟩
  have hlinks : (c.list.unlink node).Links (before ++ []) := h.links.unlink
  rw [List.append_nil] at hlinks
  have hout : node ∉ before := by
    have hnodup := (List.nodup_append.mp h.links.nodup).2.2
    exact fun hin => hnodup node hin node List.mem_cons_self rfl
  unfold LinkedCache.evict
  rw [hget]
  refine ⟨hlinks, fun other hother => h.created other (List.mem_append_left _ hother),
    fun name other => ?_, ?_⟩
  · show (c.map.delete _).get? name = some other ↔ other ∈ before ∧ (c.nodes other).key = name
    rw [OrderedMap.get?_delete]
    split_ifs with hname
    · refine iff_of_false (by rintro ⟨⟩) ?_
      rintro ⟨hin, rfl⟩
      have heq := h.key_injective (List.mem_append_left _ hin) (by simp) hname
      exact hout (heq ▸ hin)
    · rw [h.mapped, List.mem_append, List.mem_singleton]
      constructor
      · rintro ⟨hin | rfl, hkey⟩
        · exact ⟨hin, hkey⟩
        · exact absurd hkey.symm hname
      · rintro ⟨hin, hkey⟩
        exact ⟨Or.inl hin, hkey⟩
  · show c.totalBytes - (c.nodes node).data.length = (totalWeight c.bytes before : ℕ)
    rw [h.total, totalWeight_append, totalWeight_cons, totalWeight_nil, bytes]
    push_cast
    omega

/-- Evicting from the tail leaves the nodes from the head on that fit. -/
theorem Holds.evictWhileOver (maxBytes : ℕ) {rounds : ℕ} (h : c.Holds order)
    (hrounds : order.length ≤ rounds) :
    (c.evictWhileOver maxBytes rounds).Holds (keepWithin c.bytes maxBytes order) ∧
      (c.evictWhileOver maxBytes rounds).nodes = c.nodes := by
  induction rounds generalizing c order with
  | zero =>
      obtain rfl := List.length_eq_zero_iff.mp (Nat.le_zero.mp hrounds)
      exact ⟨h, rfl⟩
  | succ rounds ih =>
      unfold LinkedCache.evictWhileOver
      by_cases hover : c.totalBytes > maxBytes
      · rw [if_pos hover]
        rw [h.total] at hover
        rcases List.eq_nil_or_concat' order with rfl | ⟨before, last, rfl⟩
        · rw [totalWeight_nil] at hover
          omega
        · have htail : c.list.tail = some last := by
            rw [h.links.tail, List.getLast?_concat]
          rw [htail]
          have hnodes : (c.evict (c.nodes last).key).nodes = c.nodes := by
            unfold LinkedCache.evict
            split <;> rfl
          have hbytes : (c.evict (c.nodes last).key).bytes = c.bytes := by
            unfold bytes
            rw [hnodes]
          have hlen : before.length ≤ rounds := by
            rw [List.length_append, List.length_singleton] at hrounds
            omega
          obtain ⟨hrest, hsame⟩ := ih h.evict_tail hlen
          rw [hbytes] at hrest
          rw [keepWithin_concat (by exact_mod_cast hover)]
          exact ⟨hrest, hsame.trans hnodes⟩
      · rw [if_neg hover]
        rw [h.total] at hover
        rw [keepWithin_of_le (by exact_mod_cast not_lt.mp hover)]
        exact ⟨h, rfl⟩

/-! ## An insert -/

/-- A new node in front of the nodes of other names; the map may still have an old node under
the name. -/
theorem holds_insert {segment : CachedSegment} (hlinks : c.list.Links order)
    (hcreated : ∀ node ∈ order, node < c.created)
    (hmapped : ∀ name node, name ≠ segmentName →
      (c.map.get? name = some node ↔ node ∈ order ∧ (c.nodes node).key = name))
    (hothers : ∀ node ∈ order, (c.nodes node).key ≠ segmentName)
    (htotal : c.totalBytes = (totalWeight c.bytes order : ℕ)) :
    (c.insert segmentName segment).Holds (c.created :: order) ∧
      (c.created :: order).map (c.insert segmentName segment).entry =
        (segmentName, segment) :: order.map c.entry := by
  have hfresh : c.created ∉ order := fun hin => lt_irrefl _ (hcreated _ hin)
  have hold : ∀ node ∈ order, (c.insert segmentName segment).nodes node = c.nodes node := by
    intro node hin
    have hne : node ≠ c.created := by
      rintro rfl
      exact hfresh hin
    exact Function.update_of_ne hne _ _
  have hnew : (c.insert segmentName segment).nodes c.created = ⟨segment, segmentName⟩ :=
    Function.update_self ..
  have hentry : order.map (c.insert segmentName segment).entry = order.map c.entry := by
    apply List.map_congr_left
    intro node hin
    rw [entry, hold node hin, entry]
  have hbytes : totalWeight (c.insert segmentName segment).bytes order =
      totalWeight c.bytes order := by
    unfold totalWeight
    congr 1
    apply List.map_congr_left
    intro node hin
    rw [bytes, hold node hin, bytes]
  refine ⟨⟨hlinks.prepend hfresh, ?_, ?_, ?_⟩, ?_⟩
  · intro node hin
    rcases List.mem_cons.mp hin with rfl | hin
    · exact Nat.lt_succ_self _
    · exact Nat.lt_succ_of_lt (hcreated node hin)
  · intro name node
    show (c.map.set segmentName c.created).get? name = some node ↔ _
    rw [OrderedMap.get?_set]
    split_ifs with hname
    · subst hname
      constructor
      · intro heq
        obtain rfl := Option.some.inj heq
        exact ⟨List.mem_cons_self, by rw [hnew]⟩
      · rintro ⟨hin, hkey⟩
        rcases List.mem_cons.mp hin with rfl | hin
        · rfl
        · rw [hold node hin] at hkey
          exact absurd hkey (hothers node hin)
    · rw [hmapped name node hname]
      constructor
      · rintro ⟨hin, hkey⟩
        exact ⟨List.mem_cons_of_mem _ hin, by rw [hold node hin, hkey]⟩
      · rintro ⟨hin, hkey⟩
        rcases List.mem_cons.mp hin with rfl | hin
        · rw [hnew] at hkey
          exact absurd hkey.symm hname
        · exact ⟨hin, by rw [← hold node hin, hkey]⟩
  · show c.totalBytes + segment.data.length = _
    rw [totalWeight_cons, hbytes, htotal, bytes, hnew, Int.natCast_add]
    exact add_comm _ _
  · rw [List.map_cons, hentry, entry, hnew]

/-- Storing a segment puts its entry in front of those of the other names. -/
theorem Holds.insert (h : c.Holds order) (segmentName : String) (segment : CachedSegment) :
    ∃ order', ((c.unlinkExisting segmentName).insert segmentName segment).Holds order' ∧
      order'.map ((c.unlinkExisting segmentName).insert segmentName segment).entry =
        LruList.inFront segmentName segment (order.map c.entry) := by
  unfold LinkedCache.unlinkExisting
  cases hget : c.map.get? segmentName with
  | none =>
      have hothers : ∀ node ∈ order, (c.nodes node).key ≠ segmentName := by
        rintro node hin rfl
        rw [(h.mapped _ node).mpr ⟨hin, rfl⟩] at hget
        cases hget
      obtain ⟨hholds, hentries⟩ := holds_insert h.links h.created
        (fun name node _ => h.mapped name node) hothers h.total
      refine ⟨_, hholds, hentries.trans ?_⟩
      rw [LruList.inFront, h.without_absent hget]
  | some existing =>
      obtain ⟨hin, rfl⟩ := (h.mapped segmentName existing).mp hget
      obtain ⟨before, after, rfl⟩ := List.append_of_mem hin
      have hsub : ∀ node ∈ before ++ after, node ∈ before ++ existing :: after := by
        intro node hnode
        simp only [List.mem_append, List.mem_cons] at hnode ⊢
        tauto
      have hout : existing ∉ before ++ after := by
        obtain ⟨-, hrest, hapart⟩ := List.nodup_append.mp h.links.nodup
        rintro hnode
        rcases List.mem_append.mp hnode with hbefore | hafter
        · exact hapart existing hbefore existing List.mem_cons_self rfl
        · exact (List.nodup_cons.mp hrest).1 hafter
      have hothers : ∀ node ∈ before ++ after, (c.nodes node).key ≠ (c.nodes existing).key :=
        fun node hnode hkey => hout (h.key_injective (hsub node hnode) hin hkey ▸ hnode)
      have hmapped : ∀ name node, name ≠ (c.nodes existing).key →
          (c.map.get? name = some node ↔ node ∈ before ++ after ∧ (c.nodes node).key = name) := by
        intro name node hname
        rw [h.mapped]
        constructor
        · rintro ⟨hnode, hkey⟩
          refine ⟨?_, hkey⟩
          rcases List.mem_append.mp hnode with hbefore | hrest
          · exact List.mem_append_left _ hbefore
          · rcases List.mem_cons.mp hrest with rfl | hafter
            · exact absurd hkey.symm hname
            · exact List.mem_append_right _ hafter
        · rintro ⟨hnode, hkey⟩
          exact ⟨hsub node hnode, hkey⟩
      have htotal : c.totalBytes - (c.nodes existing).data.length =
          (totalWeight c.bytes (before ++ after) : ℕ) := by
        rw [h.total, totalWeight_append, totalWeight_append, totalWeight_cons, bytes]
        omega
      obtain ⟨hholds, hentries⟩ := @holds_insert
        { c with
          totalBytes := c.totalBytes - (c.nodes existing).data.length
          list := c.list.unlink existing } (before ++ after) (c.nodes existing).key segment
        h.links.unlink (fun node hnode => h.created node (hsub node hnode)) hmapped hothers htotal
      refine ⟨_, hholds, hentries.trans ?_⟩
      rw [LruList.inFront, h.without_key]
      rfl

/-! ## The simulation -/

/-- The cache keeps the entries of the reference, in its order. -/
def Simulates {maxBytes : ℕ} (c : LinkedCache) (s : SegmentList maxBytes) : Prop :=
  ∃ order, c.Holds order ∧ s.entries = order.map c.entry

variable {maxBytes : ℕ} {s : SegmentList maxBytes}

theorem Simulates.find_eq (h : c.Simulates s) (segmentName : String) :
    s.find segmentName =
      (c.map.get? segmentName).map fun node => (c.nodes node).toCachedSegment := by
  obtain ⟨order, hholds, hentries⟩ := h
  rw [LruList.find, hentries]
  exact hholds.find_eq segmentName

theorem Simulates.get (h : c.Simulates s) (segmentName : String) :
    (c.get segmentName).1.Simulates (s.use segmentName) ∧
      (c.get segmentName).2 = (s.find segmentName).map CachedSegment.data := by
  have hfind := h.find_eq segmentName
  obtain ⟨order, hholds, hentries⟩ := h
  unfold LinkedCache.get
  cases hget : c.map.get? segmentName with
  | none =>
      rw [hget] at hfind
      refine ⟨⟨order, hholds, ?_⟩, ?_⟩
      · rw [LruList.entries_use_of_none hfind, hentries]
      · rw [hfind]
        rfl
  | some node =>
      rw [hget] at hfind
      obtain ⟨hin, rfl⟩ := (hholds.mapped segmentName node).mp hget
      obtain ⟨before, after, rfl⟩ := List.append_of_mem hin
      refine ⟨⟨_, hholds.bumpToFront, ?_⟩, ?_⟩
      · have hnodes : (c.bumpToFront node).entry = c.entry := by
          unfold LinkedCache.bumpToFront
          split_ifs <;> rfl
        rw [LruList.entries_use_of_some hfind, hentries, LruList.inFront, hholds.without_key,
          hnodes, List.map_cons]
        rfl
      · rw [hfind]
        rfl

theorem Simulates.set (h : c.Simulates s) (segmentName : String) {segment : CachedSegment}
    (hsize : ¬ (segment.data.length = 0 ∨ segment.data.length > maxBytes)) :
    (c.set maxBytes segmentName segment).1.Simulates (s.insert segmentName segment) := by
  obtain ⟨order, hholds, hentries⟩ := h
  obtain ⟨order', hholds', hentries'⟩ := hholds.insert segmentName segment
  unfold LinkedCache.set
  rw [if_neg hsize]
  dsimp only
  generalize (c.unlinkExisting segmentName).insert segmentName segment = stored at hholds' hentries' ⊢
  obtain ⟨hkept, hnodes⟩ := hholds'.evictWhileOver maxBytes hholds'.size_eq.ge
  refine ⟨_, hkept, ?_⟩
  have hsame : (stored.evictWhileOver maxBytes stored.map.size).entry = stored.entry := by
    unfold entry
    rw [hnodes]
  show keepWithin (fun e : String × CachedSegment => e.2.byteLength) maxBytes
    (LruList.inFront segmentName segment s.entries) = _
  rw [hentries, ← hentries', keepWithin_map, hsame]
  rfl

/-- **One call** is answered alike, and leaves the two alike. -/
theorem Simulates.step (h : c.Simulates s) (call : CacheCall) :
    (c.step maxBytes call).1.Simulates (s.step call).1 ∧
      (c.step maxBytes call).2 = (s.step call).2 := by
  cases call with
  | get segmentName =>
      obtain ⟨hnext, hdata⟩ := h.get segmentName
      exact ⟨hnext, congrArg CacheAnswer.data hdata⟩
  | has segmentName =>
      refine ⟨h, congrArg CacheAnswer.flag ?_⟩
      rw [h.find_eq, Option.isSome_map]
      rfl
  | peek segmentName => exact ⟨h, congrArg CacheAnswer.segment (h.find_eq segmentName).symm⟩
  | set segmentName segment =>
      by_cases hsize : segment.data.length = 0 ∨ segment.data.length > maxBytes
      · have hrefused : c.set maxBytes segmentName segment = (c, false) := if_pos hsize
        have hrefused' : SegmentList.step s (.set segmentName segment) = (s, .flag false) :=
          if_pos hsize
        rw [hrefused', LinkedCache.step, hrefused]
        exact ⟨h, rfl⟩
      · have hinserted : SegmentList.step s (.set segmentName segment) =
            (s.insert segmentName segment, .flag true) := if_neg hsize
        rw [hinserted]
        refine ⟨h.set segmentName hsize, ?_⟩
        show CacheAnswer.flag (c.set maxBytes segmentName segment).2 = _
        unfold LinkedCache.set
        rw [if_neg hsize]
  | clear => exact ⟨⟨[], holds_clear c, rfl⟩, rfl⟩

theorem Simulates.run (h : c.Simulates s) (calls : List CacheCall) :
    (c.run maxBytes calls).1.Simulates (s.run calls).1 ∧
      (c.run maxBytes calls).2 = (s.run calls).2 := by
  induction calls generalizing c s with
  | nil => exact ⟨h, rfl⟩
  | cons call calls ih =>
      obtain ⟨hstep, hanswer⟩ := h.step call
      obtain ⟨hrest, hanswers⟩ := ih hstep
      exact ⟨hrest, congrArg₂ List.cons hanswer hanswers⟩

/-- The list and the map hold the same names once each, the pointers agree, and the bytes
counted are those of the entries and within the limit. -/
structure Consistent (maxBytes : ℕ) (c : LinkedCache) (order : List NodeId) : Prop where
  links : c.list.Links order
  names : (order.map fun node => (c.nodes node).key).Nodup
  mapped : ∀ segmentName node, c.map.get? segmentName = some node ↔
    node ∈ order ∧ (c.nodes node).key = segmentName
  total : c.totalBytes = (order.map fun node => (c.nodes node).data.length).sum
  limit : c.totalBytes ≤ maxBytes

theorem Holds.consistent (h : c.Holds order) (hentries : s.entries = order.map c.entry) :
    c.Consistent maxBytes order where
  links := h.links
  names := by
    have hnodup := h.nodupKeys
    rwa [List.map_map] at hnodup
  mapped := h.mapped
  total := h.total
  limit := by
    have hfits := s.fits
    rw [hentries, totalWeight, List.map_map] at hfits
    rw [h.total]
    exact_mod_cast hfits

/-- **The cache is an exact LRU**: its calls are answered as the reference answers them, and
what it keeps is consistent and what the reference keeps, in its order. -/
theorem linked_cache_exact (maxBytes : ℕ) (calls : List CacheCall) :
    (new.run maxBytes calls).2 = (SegmentList.run (LruList.empty : SegmentList maxBytes) calls).2 ∧
    ∃ order, (new.run maxBytes calls).1.Consistent maxBytes order ∧
      order.map (new.run maxBytes calls).1.entry =
        (SegmentList.run (LruList.empty : SegmentList maxBytes) calls).1.entries := by
  have hstart : new.Simulates (LruList.empty : SegmentList maxBytes) := ⟨[], holds_new, rfl⟩
  obtain ⟨⟨order, hholds, hentries⟩, hanswers⟩ := hstart.run calls
  exact ⟨hanswers, order, hholds.consistent hentries, hentries.symm⟩

end LinkedCache

/-! ## The cache without pointers -/

namespace SegmentCache

variable {maxBytes : ℕ} {c : SegmentCache} {s : SegmentList maxBytes}

/-- What the cache without pointers keeps of an entry. -/
def stripped (e : String × CachedSegment) : String × List UInt8 := (e.1, e.2.data)

/-- The bytes of the segments. -/
def entriesWeight (entries : List (String × CachedSegment)) : ℕ :=
  totalWeight (fun e => CachedSegment.byteLength e.2) entries

/-- The cache without pointers keeps the data of the reference, the entry used last at the end. -/
structure Follows (c : SegmentCache) (s : SegmentList maxBytes) : Prop where
  nodes : c.nodes.entries = (s.entries.map stripped).reverse
  total : c.totalBytes = (entriesWeight s.entries : ℕ)
  limit : c.maxBytes = maxBytes

theorem find_stripped (entries : List (String × CachedSegment)) (segmentName : String) :
    OrderedMap.find segmentName (entries.map stripped) =
      (OrderedMap.find segmentName entries).map CachedSegment.data := by
  induction entries with
  | nil => rfl
  | cons e entries ih =>
      rw [List.map_cons, stripped, OrderedMap.find, OrderedMap.find, ih]
      split_ifs <;> rfl

theorem Follows.get?_eq (h : c.Follows s) (segmentName : String) :
    c.nodes.get? segmentName = (s.find segmentName).map CachedSegment.data := by
  have hnodup : ((s.entries.map stripped).map Prod.fst).Nodup := by
    rw [List.map_map]
    exact s.nodupKeys
  have hnodup' : (((s.entries.map stripped).reverse).map Prod.fst).Nodup := by
    rw [List.map_reverse]
    exact List.nodup_reverse.mpr hnodup
  rw [LruList.find, ← find_stripped]
  show OrderedMap.find segmentName c.nodes.entries = _
  rw [h.nodes]
  apply Option.ext
  intro data
  rw [OrderedMap.find_eq_some_iff hnodup', OrderedMap.find_eq_some_iff hnodup, List.mem_reverse]

/-- Storing under a name whose old entry is dropped appends the new one. -/
theorem Follows.entries_store (h : c.Follows s) (segmentName : String) (segment : CachedSegment) :
    ((c.nodes.delete segmentName).set segmentName segment.data).entries =
      ((LruList.inFront segmentName segment s.entries).map stripped).reverse := by
  have hkept : (c.nodes.delete segmentName).entries =
      ((LruList.without segmentName s.entries).map stripped).reverse := by
    show c.nodes.entries.filter _ = _
    rw [h.nodes, List.filter_reverse, List.filter_map]
    rfl
  have hfresh : segmentName ∉ (c.nodes.delete segmentName).entries.map Prod.fst :=
    fun hmem => (OrderedMap.mem_delete.mp hmem).2 rfl
  show OrderedMap.setEntry segmentName segment.data _ = _
  rw [OrderedMap.setEntry_of_not_mem hfresh, hkept, LruList.inFront, List.map_cons,
    List.reverse_cons]
  rfl

theorem evictWhileOver_eq {entries : List (String × CachedSegment)}
    (hnodes : c.nodes.entries = (entries.map stripped).reverse)
    (htotal : c.totalBytes = (entriesWeight entries : ℕ)) (hlimit : c.maxBytes = maxBytes) :
    let kept := keepWithin (fun e => CachedSegment.byteLength e.2) maxBytes entries
    (c.evictWhileOver c.nodes.keys).nodes.entries = (kept.map stripped).reverse ∧
      (c.evictWhileOver c.nodes.keys).totalBytes = (entriesWeight kept : ℕ) ∧
      (c.evictWhileOver c.nodes.keys).maxBytes = maxBytes := by
  induction entries using List.reverseRecOn generalizing c with
  | nil =>
      have hkeys : c.nodes.keys = [] := by
        unfold OrderedMap.keys
        rw [hnodes]
        rfl
      rw [hkeys]
      exact ⟨hnodes, htotal, hlimit⟩
  | append_singleton entries e ih =>
      have hsplit : c.nodes.entries = stripped e :: (entries.map stripped).reverse := by
        rw [hnodes, List.map_append, List.reverse_append]
        rfl
      have hkeys : c.nodes.keys = e.1 :: ((entries.map stripped).reverse).map Prod.fst := by
        unfold OrderedMap.keys
        rw [hsplit]
        rfl
      rw [hkeys]
      unfold evictWhileOver
      by_cases hover : c.totalBytes > c.maxBytes
      · rw [if_pos hover]
        have hget : c.nodes.get? e.1 = some e.2.data := by
          show OrderedMap.find e.1 c.nodes.entries = _
          rw [hsplit]
          exact if_pos rfl
        have hrest : (c.nodes.delete e.1).entries = (entries.map stripped).reverse := by
          have hnodup := c.nodes.nodupKeys
          rw [hsplit] at hnodup
          show c.nodes.entries.filter _ = _
          rw [hsplit, List.filter_cons_of_neg (by simp [stripped])]
          apply List.filter_eq_self.mpr
          intro e' he'
          apply decide_eq_true
          intro hkey
          exact (List.nodup_cons.mp hnodup).1 (List.mem_map.mpr ⟨e', he', hkey⟩)
        have hevict : c.evict e.1 =
            { c with
              nodes := c.nodes.delete e.1
              totalBytes := c.totalBytes - e.2.data.length } := by
          unfold evict
          rw [hget]
        have hkeys' : ((entries.map stripped).reverse).map Prod.fst =
            (c.evict e.1).nodes.keys := by
          rw [hevict, ← hrest]
          rfl
        have htotal' : (c.evict e.1).totalBytes = (entriesWeight entries : ℕ) := by
          rw [hevict]
          show c.totalBytes - e.2.byteLength = _
          rw [htotal, entriesWeight, totalWeight_append, totalWeight_cons, totalWeight_nil,
            entriesWeight]
          omega
        rw [htotal, hlimit] at hover
        rw [hkeys', keepWithin_concat (by exact_mod_cast hover)]
        apply ih _ htotal' (by rw [hevict]; exact hlimit)
        rw [hevict]
        exact hrest
      · rw [if_neg hover]
        rw [htotal, hlimit] at hover
        rw [keepWithin_of_le (by exact_mod_cast not_lt.mp hover)]
        exact ⟨hnodes, htotal, hlimit⟩

theorem Follows.get (h : c.Follows s) (segmentName : String) :
    (c.get segmentName).1.Follows (s.use segmentName) ∧
      (c.get segmentName).2 = (s.find segmentName).map CachedSegment.data := by
  refine ⟨?_, (get_snd c segmentName).trans (h.get?_eq segmentName)⟩
  have hget := h.get?_eq segmentName
  unfold SegmentCache.get
  cases hfind : s.find segmentName with
  | none =>
      rw [hfind] at hget
      rw [hget]
      refine ⟨?_, ?_, h.limit⟩
      · rw [LruList.entries_use_of_none hfind]
        exact h.nodes
      · rw [LruList.entries_use_of_none hfind]
        exact h.total
  | some segment =>
      rw [hfind] at hget
      rw [hget]
      refine ⟨?_, ?_, h.limit⟩
      · rw [LruList.entries_use_of_some hfind]
        exact h.entries_store segmentName segment
      · rw [LruList.entries_use_of_some hfind, entriesWeight,
          LruList.totalWeight_inFront s.nodupKeys
            ((OrderedMap.find_eq_some_iff s.nodupKeys).mp hfind)]
        exact h.total

/-- The bytes of an entry that is replaced leave the count. -/
theorem Follows.total_store (h : c.Follows s) (segmentName : String) (segment : CachedSegment) :
    c.totalBytes - ((c.nodes.get? segmentName).map fun old => (old.length : ℤ)).getD 0 +
        segment.data.length =
      (entriesWeight (LruList.inFront segmentName segment s.entries) : ℕ) := by
  rw [h.get?_eq, h.total, LruList.inFront, entriesWeight, entriesWeight, totalWeight_cons]
  cases hfind : s.find segmentName with
  | none =>
      have hall : LruList.without segmentName s.entries = s.entries := by
        apply List.filter_eq_self.mpr
        intro e he
        apply decide_eq_true
        rintro rfl
        exact OrderedMap.find_eq_none_iff.mp hfind (List.mem_map_of_mem he)
      rw [hall]
      show ((totalWeight _ _ : ℕ) : ℤ) - 0 + segment.byteLength =
        ((segment.byteLength + totalWeight _ _ : ℕ) : ℤ)
      omega
  | some old =>
      have hweight : old.byteLength + entriesWeight (LruList.without segmentName s.entries) =
          entriesWeight s.entries :=
        LruList.totalWeight_inFront s.nodupKeys
          ((OrderedMap.find_eq_some_iff s.nodupKeys).mp hfind)
      show ((entriesWeight s.entries : ℕ) : ℤ) - old.byteLength + segment.byteLength =
        ((segment.byteLength + entriesWeight (LruList.without segmentName s.entries) : ℕ) : ℤ)
      omega

theorem Follows.set (h : c.Follows s) (segmentName : String) {segment : CachedSegment}
    (hsize : ¬ (segment.data.length = 0 ∨ segment.data.length > maxBytes)) :
    (c.set segmentName segment.data).1.Follows (s.insert segmentName segment) := by
  have hsize' : ¬ (segment.data.length = 0 ∨ segment.data.length > c.maxBytes) := by
    rw [h.limit]
    exact hsize
  unfold SegmentCache.set
  rw [if_neg hsize']
  obtain ⟨hnodes, htotal, hlimit⟩ := @evictWhileOver_eq maxBytes
    { c with
      nodes := (c.nodes.delete segmentName).set segmentName segment.data
      totalBytes := c.totalBytes -
        ((c.nodes.get? segmentName).map fun old => (old.length : ℤ)).getD 0 +
          segment.data.length }
    _ (h.entries_store segmentName segment) (h.total_store segmentName segment) h.limit
  exact ⟨hnodes, htotal, hlimit⟩

/-- A `set` is refused by both or stores in both. -/
theorem Follows.set_step (h : c.Follows s) (segmentName : String) (segment : CachedSegment) :
    (c.set segmentName segment.data).1.Follows (s.step (.set segmentName segment)).1 ∧
      (s.step (.set segmentName segment)).2 = .flag (c.set segmentName segment.data).2 := by
  by_cases hsize : segment.data.length = 0 ∨ segment.data.length > maxBytes
  · have hrefused : c.set segmentName segment.data = (c, false) := by
      apply if_pos
      rw [h.limit]
      exact hsize
    have hrefused' : SegmentList.step s (.set segmentName segment) = (s, .flag false) :=
      if_pos hsize
    rw [hrefused, hrefused']
    exact ⟨h, rfl⟩
  · have hinserted : SegmentList.step s (.set segmentName segment) =
        (s.insert segmentName segment, .flag true) := if_neg hsize
    have hstored : (c.set segmentName segment.data).2 = true := by
      unfold SegmentCache.set
      rw [h.limit, if_neg hsize]
    rw [hinserted, hstored]
    exact ⟨h.set segmentName hsize, rfl⟩

end SegmentCache

/-- The cache with pointers and the one without keep the same reference. -/
def LinkedCache.Matches (maxBytes : ℕ) (c : LinkedCache) (d : SegmentCache) : Prop :=
  ∃ s : SegmentList maxBytes, c.Simulates s ∧ d.Follows s

/-- **The cache without pointers** answers every call of the one with pointers alike. -/
theorem LinkedCache.Matches.step {maxBytes : ℕ} {c : LinkedCache} {d : SegmentCache}
    (h : c.Matches maxBytes d) (segmentName : String) (segment : CachedSegment) :
    ((c.get segmentName).1.Matches maxBytes (d.get segmentName).1 ∧
      (c.get segmentName).2 = (d.get segmentName).2) ∧
    c.has segmentName = d.has segmentName ∧
    ((c.set maxBytes segmentName segment).1.Matches maxBytes (d.set segmentName segment.data).1 ∧
      (c.set maxBytes segmentName segment).2 = (d.set segmentName segment.data).2) := by
  obtain ⟨s, hsimulates, hfollows⟩ := h
  obtain ⟨hget, hdata⟩ := hsimulates.get segmentName
  obtain ⟨hget', hdata'⟩ := hfollows.get segmentName
  obtain ⟨hset, hflag⟩ := hsimulates.step (.set segmentName segment)
  obtain ⟨hset', hflag'⟩ := hfollows.set_step segmentName segment
  refine ⟨⟨⟨_, hget, hget'⟩, hdata.trans hdata'.symm⟩, ?_, ⟨_, hset, hset'⟩, ?_⟩
  · rw [LinkedCache.has, SegmentCache.has, hfollows.get?_eq, hsimulates.find_eq, Option.map_map,
      Option.isSome_map]
  · rw [hflag'] at hflag
    exact CacheAnswer.flag.inj hflag

theorem LinkedCache.matches_new (maxBytes : ℕ) :
    LinkedCache.new.Matches maxBytes (SegmentCache.new maxBytes) :=
  ⟨LruList.empty, ⟨[], holds_new, rfl⟩, rfl, rfl, rfl⟩

end Sdk

end OpenStreamGrid

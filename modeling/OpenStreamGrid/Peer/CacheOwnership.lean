import OpenStreamGrid.Peer.SegmentCache
import Mathlib.Data.Finset.Card
import Mathlib.Data.List.Induction

/-!
# The segment cache owns its buffers

An entry in use, live or leased, has a buffer of its own with the bytes that were
stored. The invariant is kept apart for the pool's side, where entries come into
use and go out of use, and for the cache's tables.
-/

namespace OpenStreamGrid

namespace SegmentCache

/-! ## The buffers of the entries -/

/-- The entry still needs its buffer. -/
def InUse (entry : CacheEntry) : Prop := entry.evicted = false ∨ 0 < entry.leases

/-- The views of the entries in use. -/
def Held (created : ℕ) (objects : EntryId → CacheEntry) (view : ViewId) : Prop :=
  ∃ id, id < created ∧ InUse (objects id) ∧ (objects id).data = view

/-- The pool backs the entries in use, each with what was stored in it. -/
structure Backed (o : CacheOptions) (created : ℕ) (objects : EntryId → CacheEntry)
    (pool : BufferPool) : Prop where
  sound : pool.Sound o.limits (Held created objects)
  viewed : ∀ id, id < created → (objects id).data < pool.viewed
  apart : ∀ id id', id < created → id' < created → (objects id).data = (objects id').data → id = id'
  reads : ∀ id, id < created → InUse (objects id) → pool.read (objects id).data = (objects id).stored

variable {o : CacheOptions} {created : ℕ} {objects : EntryId → CacheEntry} {pool : BufferPool}

theorem Backed.held_iff (h : Backed o created objects pool) {id : EntryId} (hid : id < created) :
    Held created objects (objects id).data ↔ InUse (objects id) := by
  constructor
  · rintro ⟨id', hid', huse, hdata⟩
    rwa [← h.apart id' id hid' hid hdata]
  · exact fun huse => ⟨id, hid, huse, rfl⟩

/-- A field that is the same in an entry and its replacement. -/
theorem field_update {β : Type} (field : CacheEntry → β) {id : EntryId} {entry : CacheEntry}
    (h : field entry = field (objects id)) (id' : EntryId) :
    field (Function.update objects id entry id') = field (objects id') := by
  by_cases hid' : id' = id
  · rw [hid', Function.update_self, h]
  · rw [Function.update_of_ne hid']

section

variable {id : EntryId} {entry : CacheEntry} (hdata : entry.data = (objects id).data)

include hdata

theorem data_update (id' : EntryId) :
    (Function.update objects id entry id').data = (objects id').data :=
  field_update CacheEntry.data hdata id'

theorem held_update_of_inUse (huse : InUse (objects id)) (huse' : InUse entry) :
    Held created (Function.update objects id entry) = Held created objects := by
  funext view
  apply propext
  constructor
  · rintro ⟨id', hid', hu, hd⟩
    rw [data_update hdata] at hd
    by_cases hsame : id' = id
    · exact ⟨id', hid', hsame ▸ huse, hd⟩
    · rw [Function.update_of_ne hsame] at hu
      exact ⟨id', hid', hu, hd⟩
  · rintro ⟨id', hid', hu, hd⟩
    refine ⟨id', hid', ?_, (data_update hdata id').trans hd⟩
    by_cases hsame : id' = id
    · rw [hsame, Function.update_self]
      exact huse'
    · rw [Function.update_of_ne hsame]
      exact hu

/-- An entry changes and needs its buffer as before. -/
theorem Backed.keep (h : Backed o created objects pool) (hstored : entry.stored = (objects id).stored)
    (huse : InUse (objects id)) (huse' : InUse entry) :
    Backed o created (Function.update objects id entry) pool where
  sound := by
    rw [held_update_of_inUse hdata huse huse']
    exact h.sound
  viewed id' hid' := by
    rw [data_update hdata]
    exact h.viewed id' hid'
  apart id₁ id₂ h₁ h₂ heq := by
    rw [data_update hdata, data_update hdata] at heq
    exact h.apart id₁ id₂ h₁ h₂ heq
  reads id' hid' hu := by
    rw [data_update hdata]
    by_cases hsame : id' = id
    · subst hsame
      rw [Function.update_self, hstored]
      exact h.reads id' hid' huse
    · rw [Function.update_of_ne hsame] at hu ⊢
      exact h.reads id' hid' hu

/-- **An entry needs its buffer no more**, so it is released. -/
theorem Backed.retire (h : Backed o created objects pool) (hid : id < created)
    (huse : InUse (objects id)) (hunused : ¬ InUse entry) :
    Backed o created (Function.update objects id entry)
      (pool.release o.limits (objects id).data) := by
  obtain ⟨hsound, hviewed, hreads⟩ := h.sound.release ((h.held_iff hid).mpr huse)
  have hheld : Held created (Function.update objects id entry) =
      fun view => Held created objects view ∧ view ≠ (objects id).data := by
    funext view
    apply propext
    constructor
    · rintro ⟨id', hid', hu, hd⟩
      rw [data_update hdata] at hd
      have hsame : id' ≠ id := by
        rintro rfl
        rw [Function.update_self] at hu
        exact hunused hu
      rw [Function.update_of_ne hsame] at hu
      refine ⟨⟨id', hid', hu, hd⟩, fun heq => hsame ?_⟩
      exact h.apart id' id hid' hid (hd.trans heq)
    · rintro ⟨⟨id', hid', hu, hd⟩, hne⟩
      have hsame : id' ≠ id := by
        rintro rfl
        exact hne hd.symm
      refine ⟨id', hid', ?_, (data_update hdata id').trans hd⟩
      rw [Function.update_of_ne hsame]
      exact hu
  refine ⟨hheld ▸ hsound, fun id' hid' => ?_, fun id₁ id₂ h₁ h₂ heq => ?_, fun id' hid' hu => ?_⟩
  · rw [data_update hdata, hviewed]
    exact h.viewed id' hid'
  · rw [data_update hdata, data_update hdata] at heq
    exact h.apart id₁ id₂ h₁ h₂ heq
  · have hsame : id' ≠ id := by
      rintro rfl
      rw [Function.update_self] at hu
      exact hunused hu
    rw [Function.update_of_ne hsame] at hu ⊢
    rw [hreads _ ((h.held_iff hid').mpr hu) fun heq => hsame (h.apart id' id hid' hid heq)]
    exact h.reads id' hid' hu

end

/-- **A new entry** in a buffer of its own. -/
theorem Backed.insert (h : Backed o created objects pool) (uninitialised : ℕ → UInt8)
    {data : List UInt8} {entry : CacheEntry}
    (hdata : entry.data = (pool.copy o.limits uninitialised data).2)
    (hstored : entry.stored = data) (hevicted : entry.evicted = false) :
    Backed o (created + 1) (Function.update objects created entry)
      (pool.copy o.limits uninitialised data).1 := by
  obtain ⟨hview, hviewed, hsound, hread, hreads⟩ := h.sound.copy uninitialised data
  rw [hview] at hdata
  have hold : ∀ id, id < created → Function.update objects created entry id = objects id :=
    fun id hid => Function.update_of_ne hid.ne _ _
  have hheld : Held (created + 1) (Function.update objects created entry) =
      fun view => Held created objects view ∨ view = pool.viewed := by
    funext view
    apply propext
    constructor
    · rintro ⟨id, hid, hu, hd⟩
      rcases Nat.lt_succ_iff_lt_or_eq.mp hid with hid | rfl
      · rw [hold id hid] at hu hd
        exact Or.inl ⟨id, hid, hu, hd⟩
      · rw [Function.update_self] at hd
        exact Or.inr (hd.symm.trans hdata)
    · rintro (⟨id, hid, hu, hd⟩ | rfl)
      · refine ⟨id, Nat.lt_succ_of_lt hid, ?_⟩
        rw [hold id hid]
        exact ⟨hu, hd⟩
      · refine ⟨created, Nat.lt_succ_self _, ?_⟩
        rw [Function.update_self]
        exact ⟨Or.inl hevicted, hdata⟩
  refine ⟨hheld ▸ hsound, fun id hid => ?_, fun id id' hid hid' heq => ?_, fun id hid hu => ?_⟩
  · rw [hviewed]
    rcases Nat.lt_succ_iff_lt_or_eq.mp hid with hid | rfl
    · rw [hold id hid]
      exact Nat.lt_succ_of_lt (h.viewed id hid)
    · rw [Function.update_self, hdata]
      exact Nat.lt_succ_self _
  · rcases Nat.lt_succ_iff_lt_or_eq.mp hid with hid | rfl <;>
      rcases Nat.lt_succ_iff_lt_or_eq.mp hid' with hid' | rfl
    · rw [hold id hid, hold id' hid'] at heq
      exact h.apart id id' hid hid' heq
    · rw [hold id hid, Function.update_self, hdata] at heq
      exact absurd heq (h.viewed id hid).ne
    · rw [hold id' hid', Function.update_self, hdata] at heq
      exact absurd heq.symm (h.viewed id' hid').ne
    · rfl
  · rcases Nat.lt_succ_iff_lt_or_eq.mp hid with hid | rfl
    · rw [hold id hid] at hu ⊢
      rw [hreads _ ((h.held_iff hid).mpr hu)]
      exact h.reads id hid hu
    · rw [Function.update_self, hdata, hread, hstored]

/-- A copy that turns out too large for the cache is released again. -/
theorem Backed.discard (h : Backed o created objects pool) (uninitialised : ℕ → UInt8)
    (data : List UInt8) :
    Backed o created objects ((pool.copy o.limits uninitialised data).1.release o.limits
      (pool.copy o.limits uninitialised data).2) := by
  obtain ⟨hview, hviewed, hsound, -, hreads⟩ := h.sound.copy uninitialised data
  rw [hview]
  obtain ⟨hreleased, hviewed', hreads'⟩ := hsound.release (Or.inr rfl)
  have hbelow : ∀ view, Held created objects view → view ≠ pool.viewed := by
    rintro view ⟨id, hid, -, rfl⟩
    exact (h.viewed id hid).ne
  refine ⟨hreleased.mono (fun view hheld => ⟨Or.inl hheld, hbelow view hheld⟩) ?_,
    fun id hid => ?_, h.apart, fun id hid hu => ?_⟩
  · intro view backing hleased
    obtain ⟨hheld | rfl, hne⟩ := (hreleased.leased view backing hleased).1
    · exact hheld
    · exact absurd rfl hne
  · rw [hviewed', hviewed]
    exact Nat.lt_succ_of_lt (h.viewed id hid)
  · have hheld := (h.held_iff hid).mpr hu
    rw [hreads' _ (Or.inl hheld) (hbelow _ hheld), hreads _ hheld]
    exact h.reads id hid hu

/-! ## The cache's own tables -/

/-- The unreleased leases on an entry. -/
def openLeases (handles : LeaseId → CacheLease) (granted : ℕ) (id : EntryId) : Finset LeaseId :=
  (Finset.range granted).filter fun handle => handles handle = ⟨id, false⟩

theorem mem_openLeases {handles : LeaseId → CacheLease} {granted : ℕ} {id : EntryId}
    {handle : LeaseId} : handle ∈ openLeases handles granted id ↔
      handle < granted ∧ handles handle = ⟨id, false⟩ := by
  unfold openLeases
  rw [Finset.mem_filter, Finset.mem_range]

theorem card_openLeases_grant (handles : LeaseId → CacheLease) (granted : ℕ) (id id' : EntryId) :
    (openLeases (Function.update handles granted ⟨id, false⟩) (granted + 1) id').card =
      (openLeases handles granted id').card + if id' = id then 1 else 0 := by
  have hold : ∀ handle, handle < granted →
      Function.update handles granted ⟨id, false⟩ handle = handles handle :=
    fun handle hlt => Function.update_of_ne hlt.ne _ _
  have hfresh : granted ∉ openLeases handles granted id' := fun hmem =>
    lt_irrefl _ (mem_openLeases.mp hmem).1
  by_cases hid : id' = id
  · subst hid
    have hinsert : openLeases (Function.update handles granted ⟨id', false⟩) (granted + 1) id' =
        Insert.insert granted (openLeases handles granted id') := by
      ext handle
      rw [Finset.mem_insert, mem_openLeases, mem_openLeases, Nat.lt_succ_iff_lt_or_eq]
      constructor
      · rintro ⟨hlt | rfl, heq⟩
        · rw [hold handle hlt] at heq
          exact Or.inr ⟨hlt, heq⟩
        · exact Or.inl rfl
      · rintro (rfl | ⟨hlt, heq⟩)
        · exact ⟨Or.inr rfl, Function.update_self ..⟩
        · rw [hold handle hlt]
          exact ⟨Or.inl hlt, heq⟩
    rw [hinsert, Finset.card_insert_of_notMem hfresh, if_pos rfl]
  · rw [if_neg hid]
    refine (congrArg Finset.card ?_).trans (Nat.add_zero _).symm
    ext handle
    rw [mem_openLeases, mem_openLeases, Nat.lt_succ_iff_lt_or_eq]
    constructor
    · rintro ⟨hlt | rfl, heq⟩
      · rw [hold handle hlt] at heq
        exact ⟨hlt, heq⟩
      · rw [Function.update_self] at heq
        exact absurd (congrArg CacheLease.entry heq).symm hid
    · rintro ⟨hlt, heq⟩
      rw [hold handle hlt]
      exact ⟨Or.inl hlt, heq⟩

theorem card_openLeases_release {handles : LeaseId → CacheLease} {granted : ℕ} {id : EntryId}
    {handle : LeaseId} (hlt : handle < granted) (hopen : handles handle = ⟨id, false⟩)
    (id' : EntryId) :
    (openLeases (Function.update handles handle ⟨id, true⟩) granted id').card +
      (if id' = id then 1 else 0) = (openLeases handles granted id').card := by
  by_cases hid : id' = id
  · subst hid
    have hmem : handle ∈ openLeases handles granted id' := mem_openLeases.mpr ⟨hlt, hopen⟩
    have herase : openLeases (Function.update handles handle ⟨id', true⟩) granted id' =
        (openLeases handles granted id').erase handle := by
      ext other
      rw [Finset.mem_erase, mem_openLeases, mem_openLeases]
      by_cases hsame : other = handle
      · subst hsame
        rw [Function.update_self]
        constructor
        · rintro ⟨-, heq⟩
          exact Bool.noConfusion (congrArg CacheLease.released heq)
        · rintro ⟨hne, -⟩
          exact absurd rfl hne
      · rw [Function.update_of_ne hsame]
        exact ⟨fun h => ⟨hsame, h⟩, fun h => h.2⟩
    rw [herase, if_pos rfl]
    exact Finset.card_erase_add_one hmem
  · rw [if_neg hid]
    refine (Nat.add_zero _).trans (congrArg Finset.card ?_)
    ext other
    rw [mem_openLeases, mem_openLeases]
    by_cases hsame : other = handle
    · subst hsame
      rw [Function.update_self, hopen]
      constructor
      · rintro ⟨-, heq⟩
        exact Bool.noConfusion (congrArg CacheLease.released heq)
      · rintro ⟨-, heq⟩
        exact absurd (congrArg CacheLease.entry heq).symm hid
    · rw [Function.update_of_ne hsame]

structure Owned (o : CacheOptions) (s : SegmentCache) : Prop where
  backed : Backed o s.created s.objects s.bufferPool
  live : ∀ segmentName id, s.entries.get? segmentName = some id →
    id < s.created ∧ (s.objects id).evicted = false
  single : ∀ name name' id, s.entries.get? name = some id → s.entries.get? name' = some id →
    name = name'
  counted : ∀ id, id < s.created →
    (s.objects id).leases = (openLeases s.handles s.granted id).card
  handled : ∀ handle, handle < s.granted → (s.handles handle).entry < s.created
  total : s.totalBytes = (s.entries.sumValues fun id => (s.objects id).allocatedBytes : ℕ)

variable {s : SegmentCache}

theorem owned_new : Owned o new where
  backed := by
    refine ⟨?_, fun id hid => absurd hid (Nat.not_lt_zero id), fun id id' hid =>
      absurd hid (Nat.not_lt_zero id), fun id hid => absurd hid (Nat.not_lt_zero id)⟩
    have hnone : Held 0 new.objects = fun _ => False := by
      funext view
      apply propext
      constructor
      · rintro ⟨id, hid, -⟩
        exact Nat.not_lt_zero id hid
      · exact False.elim
    show BufferPool.new.Sound o.limits (Held 0 new.objects)
    rw [hnone]
    exact BufferPool.sound_new
  live segmentName id hid := by cases hid
  single name name' id hid := by cases hid
  counted id hid := absurd hid (Nat.not_lt_zero id)
  handled handle hhandle := absurd hhandle (Nat.not_lt_zero handle)
  total := rfl

theorem Owned.inUse (h : Owned o s) {id : EntryId} (huses : s.Uses id) :
    id < s.created ∧ InUse (s.objects id) := by
  rcases huses with ⟨segmentName, hlive⟩ | ⟨handle, hgranted, hopen⟩
  · obtain ⟨hid, hevicted⟩ := h.live segmentName id hlive
    exact ⟨hid, Or.inl hevicted⟩
  · have hid : id < s.created := by
      have hentry := h.handled handle hgranted
      rwa [hopen] at hentry
    refine ⟨hid, Or.inr ?_⟩
    rw [h.counted id hid]
    exact Int.natCast_pos.mpr (Finset.card_pos.mpr ⟨handle, mem_openLeases.mpr ⟨hgranted, hopen⟩⟩)

theorem remove_live (o : CacheOptions) {segmentName : String} {id : EntryId}
    (hget : s.entries.get? segmentName = some id) :
    s.remove o segmentName = { s with
      entries := s.entries.delete segmentName
      objects := Function.update s.objects id { s.objects id with evicted := true }
      totalBytes := s.totalBytes - (s.objects id).allocatedBytes
      bufferPool := if (s.objects id).leases = 0
        then s.bufferPool.release o.limits (s.objects id).data else s.bufferPool } := by
  unfold remove
  rw [hget]
  dsimp only [update, releaseBuffer]
  by_cases hleases : (s.objects id).leases = 0
  · rw [if_pos hleases]
    refine (if_pos ?_).trans ?_
    · rw [Function.update_self]
      exact hleases
    · rw [Function.update_self]
  · rw [if_neg hleases]
    refine if_neg ?_
    rw [Function.update_self]
    exact hleases

theorem entries_remove (o : CacheOptions) (s : SegmentCache) (segmentName : String) :
    (s.remove o segmentName).entries = s.entries.delete segmentName := by
  cases hget : s.entries.get? segmentName with
  | none =>
      unfold remove
      rw [hget]
      exact (OrderedMap.delete_of_not_mem (OrderedMap.get?_eq_none_iff.mp hget)).symm
  | some id => rw [remove_live o hget]

/-- **Removing**: the entry's bytes are given back now, its buffer once no lease is on it. -/
theorem Owned.remove (h : Owned o s) (segmentName : String) :
    Owned o (s.remove o segmentName) ∧ (s.remove o segmentName).totalBytes ≤ s.totalBytes := by
  cases hget : s.entries.get? segmentName with
  | none =>
      unfold SegmentCache.remove
      rw [hget]
      exact ⟨h, le_rfl⟩
  | some id =>
      obtain ⟨hid, hevicted⟩ := h.live segmentName id hget
      have huse : InUse (s.objects id) := Or.inl hevicted
      have hlive : ∀ name id', (s.entries.delete segmentName).get? name = some id' → id' < s.created ∧
          (Function.update s.objects id { s.objects id with evicted := true } id').evicted =
            false := by
        intro name id' hget'
        rw [OrderedMap.get?_delete] at hget'
        split_ifs at hget' with hname
        obtain ⟨hid', hevicted'⟩ := h.live name id' hget'
        refine ⟨hid', ?_⟩
        rw [Function.update_of_ne]
        · exact hevicted'
        · rintro rfl
          exact hname (h.single name segmentName _ hget' hget)
      have hsingle : ∀ name name' id', (s.entries.delete segmentName).get? name = some id' →
          (s.entries.delete segmentName).get? name' = some id' → name = name' := by
        intro name name' id' hname hname'
        rw [OrderedMap.get?_delete] at hname hname'
        split_ifs at hname hname'
        exact h.single name name' id' hname hname'
      have hcounted : ∀ id', id' < s.created →
          (Function.update s.objects id { s.objects id with evicted := true } id').leases =
            (openLeases s.handles s.granted id').card := by
        intro id' hid'
        rw [← h.counted id' hid']
        exact field_update CacheEntry.leases (by rfl) id'
      have htotal : s.totalBytes - (s.objects id).allocatedBytes =
          ((s.entries.delete segmentName).sumValues fun id' => (Function.update s.objects id
            { s.objects id with evicted := true } id').allocatedBytes : ℕ) := by
        have hsame : (fun id' => (Function.update s.objects id
            { s.objects id with evicted := true } id').allocatedBytes) =
            fun id' => (s.objects id').allocatedBytes :=
          funext fun id' => field_update CacheEntry.allocatedBytes (by rfl) id'
        rw [hsame]
        have hdelete := OrderedMap.sumValues_delete_of_get?
          (fun id' => (s.objects id').allocatedBytes) hget
        have hsum := h.total
        omega
      have hle : s.totalBytes - (s.objects id).allocatedBytes ≤ s.totalBytes := by omega
      rw [remove_live o hget]
      refine ⟨⟨?_, hlive, hsingle, hcounted, h.handled, htotal⟩, hle⟩
      dsimp only
      by_cases hleases : (s.objects id).leases = 0
      · rw [if_pos hleases]
        refine h.backed.retire rfl hid huse ?_
        rintro (hfalse | hpositive)
        · cases hfalse
        · exact absurd hpositive (by rw [hleases]; exact lt_irrefl 0)
      · rw [if_neg hleases]
        refine h.backed.keep rfl rfl huse (Or.inr ?_)
        have hcount := h.counted id hid
        show 0 < (s.objects id).leases
        omega

/-! ### The operations -/

theorem Owned.touch (h : Owned o s) (segmentName : String) (now : ℚ) :
    Owned o (s.touch o segmentName now).1 ∧
      (s.touch o segmentName now).1.totalBytes ≤ s.totalBytes ∧
      ∀ id, (s.touch o segmentName now).2 = some id →
        id < (s.touch o segmentName now).1.created ∧
          ((s.touch o segmentName now).1.objects id).evicted = false := by
  unfold SegmentCache.touch
  cases hget : s.entries.get? segmentName with
  | none =>
      refine ⟨h, le_rfl, fun id hid => ?_⟩
      cases hid
  | some id =>
      dsimp only
      split_ifs
      · obtain ⟨howned, hle⟩ := h.remove segmentName
        refine ⟨howned, hle, fun id hid => ?_⟩
        cases hid
      · have hentries : ∀ name, ((s.entries.delete segmentName).set segmentName id).get? name =
            s.entries.get? name := by
          intro name
          rw [OrderedMap.get?_set, OrderedMap.get?_delete]
          split_ifs with hname
          · rw [hname, hget]
          · rfl
        have hgone : segmentName ∉ s.entries.delete segmentName := fun hmem =>
          (OrderedMap.mem_delete.mp hmem).2 rfl
        refine ⟨⟨h.backed, ?_, ?_, h.counted, h.handled, ?_⟩, le_rfl, fun id' hid' => ?_⟩
        · intro name id' hname
          rw [hentries] at hname
          exact h.live name id' hname
        · intro name name' id' hname hname'
          rw [hentries] at hname hname'
          exact h.single name name' id' hname hname'
        · show s.totalBytes = _
          rw [h.total, OrderedMap.sumValues_set_of_not_mem _ hgone,
            OrderedMap.sumValues_delete_of_get? _ hget]
        · obtain rfl := Option.some.inj hid'
          exact h.live segmentName id hget

theorem Owned.has (h : Owned o s) (segmentName : String) (now : ℚ) :
    Owned o (s.has o segmentName now).1 ∧
      (s.has o segmentName now).1.totalBytes ≤ s.totalBytes := by
  unfold SegmentCache.has
  cases hget : s.entries.get? segmentName with
  | none => exact ⟨h, le_rfl⟩
  | some id =>
      dsimp only
      split_ifs
      · exact h.remove segmentName
      · exact ⟨h, le_rfl⟩

/-- **A lease** pins the entry's buffer. -/
theorem Owned.lease (h : Owned o s) (segmentName : String) (now : ℚ) :
    Owned o (s.lease o segmentName now).1 ∧
      (s.lease o segmentName now).1.totalBytes ≤ s.totalBytes := by
  obtain ⟨howned, hle, hfound⟩ := h.touch segmentName now
  unfold SegmentCache.lease
  dsimp only
  generalize s.touch o segmentName now = touched at howned hle hfound ⊢
  cases hid : touched.2 with
  | none => exact ⟨howned, hle⟩
  | some id =>
      obtain ⟨hcreated, hevicted⟩ := hfound id hid
      dsimp only [update]
      refine ⟨⟨?_, ?_, howned.single, ?_, ?_, ?_⟩, hle⟩
      · exact howned.backed.keep rfl rfl (Or.inl hevicted) (Or.inl hevicted)
      · intro name id' hname
        obtain ⟨hid', hevicted'⟩ := howned.live name id' hname
        exact ⟨hid', (field_update CacheEntry.evicted (by rfl) id').trans hevicted'⟩
      · intro id' hid'
        have hcount := howned.counted id' hid'
        rw [card_openLeases_grant]
        dsimp only
        by_cases hsame : id' = id
        · subst hsame
          rw [if_pos rfl, Function.update_self, hcount]
          push_cast
          rfl
        · rw [if_neg hsame, Function.update_of_ne hsame]
          exact hcount
      · intro handle hhandle
        dsimp only
        rcases Nat.lt_succ_iff_lt_or_eq.mp hhandle with hlt | rfl
        · rw [Function.update_of_ne hlt.ne]
          exact howned.handled handle hlt
        · rw [Function.update_self]
          exact hcreated
      · have hsame : (fun id' => (Function.update touched.1.objects id
            { touched.1.objects id with leases := (touched.1.objects id).leases + 1 }
            id').allocatedBytes) = fun id' => (touched.1.objects id').allocatedBytes :=
          funext fun id' => field_update CacheEntry.allocatedBytes (by rfl) id'
        dsimp only
        rw [hsame]
        exact howned.total

theorem release_open (o : CacheOptions) {handle : LeaseId} {id : EntryId}
    (hlt : handle < s.granted) (hopen : s.handles handle = ⟨id, false⟩) :
    s.release o handle = { s with
      handles := Function.update s.handles handle ⟨id, true⟩
      objects := Function.update s.objects id
        { s.objects id with leases := (s.objects id).leases - 1 }
      bufferPool := if (s.objects id).evicted = true ∧ (s.objects id).leases - 1 = 0
        then s.bufferPool.release o.limits (s.objects id).data else s.bufferPool } := by
  unfold SegmentCache.release
  have hfresh : ¬ (s.granted ≤ handle ∨ (s.handles handle).released = true) := by
    rw [hopen]
    rintro (hle | hreleased)
    · exact absurd hlt (Nat.not_lt.mpr hle)
    · cases hreleased
  rw [if_neg hfresh, hopen]
  dsimp only [update, releaseBuffer]
  by_cases hlast : (s.objects id).evicted = true ∧ (s.objects id).leases - 1 = 0
  · rw [if_pos hlast]
    refine (if_pos ?_).trans ?_
    · rw [Function.update_self]
      exact hlast
    · rw [Function.update_self]
  · rw [if_neg hlast]
    refine if_neg ?_
    rw [Function.update_self]
    exact hlast

/-- **A release** unpins it, the first time. -/
theorem Owned.release (h : Owned o s) (handle : LeaseId) :
    Owned o (s.release o handle) ∧ (s.release o handle).totalBytes ≤ s.totalBytes := by
  by_cases hdone : s.granted ≤ handle ∨ (s.handles handle).released = true
  · unfold SegmentCache.release
    rw [if_pos hdone]
    exact ⟨h, le_rfl⟩
  obtain ⟨hgranted, hreleased⟩ := not_or.mp hdone
  have hlt : handle < s.granted := Nat.not_le.mp hgranted
  obtain ⟨id, hopen⟩ : ∃ id, s.handles handle = ⟨id, false⟩ := by
    refine ⟨(s.handles handle).entry, ?_⟩
    rw [← (Bool.not_eq_true _).mp hreleased]
  obtain ⟨hcreated, huse⟩ := h.inUse (Or.inr ⟨handle, hlt, hopen⟩)
  rw [release_open o hlt hopen]
  have hcard := card_openLeases_release hlt hopen
  refine ⟨⟨?_, ?_, h.single, ?_, ?_, ?_⟩, le_rfl⟩
  · have hcount := h.counted id hcreated
    have hopenCount := hcard id
    rw [if_pos rfl] at hopenCount
    dsimp only
    by_cases hlast : (s.objects id).evicted = true ∧ (s.objects id).leases - 1 = 0
    · rw [if_pos hlast]
      refine h.backed.retire rfl hcreated huse ?_
      rintro (hlive | hpositive)
      · exact absurd hlast.1 (by rw [show (s.objects id).evicted = false from hlive]; decide)
      · exact absurd hpositive (by rw [hlast.2]; exact lt_irrefl 0)
    · rw [if_neg hlast]
      refine h.backed.keep rfl rfl huse ?_
      rcases not_and_or.mp hlast with hlive | hmore
      · exact Or.inl ((Bool.not_eq_true _).mp hlive)
      · refine Or.inr ?_
        show 0 < (s.objects id).leases - 1
        omega
  · intro name id' hname
    obtain ⟨hid', hevicted'⟩ := h.live name id' hname
    exact ⟨hid', (field_update CacheEntry.evicted (by rfl) id').trans hevicted'⟩
  · intro id' hid'
    have hcount := h.counted id' hid'
    have hopenCount := hcard id'
    dsimp only
    by_cases hsame : id' = id
    · subst hsame
      rw [if_pos rfl] at hopenCount
      rw [Function.update_self]
      dsimp only
      omega
    · rw [if_neg hsame] at hopenCount
      rw [Function.update_of_ne hsame]
      omega
  · intro handle' hhandle'
    dsimp only
    by_cases hsame : handle' = handle
    · rw [hsame, Function.update_self]
      exact hcreated
    · rw [Function.update_of_ne hsame]
      exact h.handled handle' hhandle'
  · have hsame : (fun id' => (Function.update s.objects id
        { s.objects id with leases := (s.objects id).leases - 1 } id').allocatedBytes) =
        fun id' => (s.objects id').allocatedBytes :=
      funext fun id' => field_update CacheEntry.allocatedBytes (by rfl) id'
    dsimp only
    rw [hsame]
    exact h.total

/-- Removing several entries. -/
theorem Owned.foldl {f : SegmentCache → String → SegmentCache}
    (hf : ∀ s name, Owned o s → Owned o (f s name) ∧ (f s name).totalBytes ≤ s.totalBytes)
    (names : List String) : ∀ s, Owned o s →
    Owned o (names.foldl f s) ∧ (names.foldl f s).totalBytes ≤ s.totalBytes := by
  induction names with
  | nil =>
      intro s h
      exact ⟨h, le_rfl⟩
  | cons name names ih =>
      intro s h
      obtain ⟨howned, hle⟩ := hf s name h
      obtain ⟨howned', hle'⟩ := ih _ howned
      exact ⟨howned', le_trans hle' hle⟩

/-- Evicting the oldest entries ends within the limit: without entries there are no bytes. -/
theorem Owned.evictOldest (rounds : ℕ) : ∀ s, Owned o s → s.entries.size ≤ rounds →
    Owned o (evictOldest o rounds s) ∧ (evictOldest o rounds s).totalBytes ≤ o.maxBytes := by
  induction rounds with
  | zero =>
      intro s h hsize
      have hentries : s.entries.entries = [] := List.length_eq_zero_iff.mp (Nat.le_zero.mp hsize)
      refine ⟨h, ?_⟩
      show s.totalBytes ≤ _
      rw [h.total, OrderedMap.sumValues_eq, hentries]
      exact Int.natCast_nonneg _
  | succ rounds ih =>
      intro s h hsize
      unfold SegmentCache.evictOldest
      by_cases hfits : s.totalBytes ≤ o.maxBytes
      · rw [if_pos hfits]
        exact ⟨h, hfits⟩
      rw [if_neg hfits]
      cases holdest : s.entries.keys.head? with
      | none =>
          have hentries : s.entries.entries = [] :=
            List.map_eq_nil_iff.mp (List.head?_eq_none_iff.mp holdest)
          refine ⟨h, ?_⟩
          dsimp only
          rw [h.total, OrderedMap.sumValues_eq, hentries]
          exact Int.natCast_nonneg _
      | some oldestKey =>
          dsimp only
          refine ih _ (h.remove oldestKey).1 ?_
          rw [entries_remove]
          have hmem : oldestKey ∈ s.entries := List.mem_of_head? holdest
          have hlt := OrderedMap.size_delete_lt hmem
          omega

theorem Owned.insert (h : Owned o s) (uninitialised : ℕ → UInt8) {segmentName : String}
    {data : List UInt8} {entry : CacheEntry} (hgone : segmentName ∉ s.entries)
    (hdata : entry.data = (s.bufferPool.copy o.limits uninitialised data).2)
    (hstored : entry.stored = data) (hevicted : entry.evicted = false) (hleases : entry.leases = 0) :
    Owned o ({ s with bufferPool := (s.bufferPool.copy o.limits uninitialised data).1 }.insert
      segmentName entry) := by
  have hold : ∀ id, id < s.created → Function.update s.objects s.created entry id = s.objects id :=
    fun id hid => Function.update_of_ne hid.ne _ _
  refine ⟨h.backed.insert uninitialised hdata hstored hevicted, ?_, ?_, ?_, ?_, ?_⟩
  · intro name id hname
    dsimp only [SegmentCache.insert] at hname ⊢
    rw [OrderedMap.get?_set] at hname
    split_ifs at hname
    · obtain rfl := Option.some.inj hname
      rw [Function.update_self]
      exact ⟨Nat.lt_succ_self _, hevicted⟩
    · obtain ⟨hid, hlive⟩ := h.live name id hname
      rw [hold id hid]
      exact ⟨Nat.lt_succ_of_lt hid, hlive⟩
  · intro name name' id hname hname'
    dsimp only [SegmentCache.insert] at hname hname'
    rw [OrderedMap.get?_set] at hname hname'
    split_ifs at hname hname' with hn hn'
    · rw [hn, hn']
    · obtain rfl := Option.some.inj hname
      exact absurd (h.live name' _ hname').1 (lt_irrefl _)
    · obtain rfl := Option.some.inj hname'
      exact absurd (h.live name _ hname).1 (lt_irrefl _)
    · exact h.single name name' id hname hname'
  · intro id hid
    dsimp only [SegmentCache.insert] at hid ⊢
    rcases Nat.lt_succ_iff_lt_or_eq.mp hid with hid | rfl
    · rw [hold id hid]
      exact h.counted id hid
    · rw [Function.update_self, hleases]
      have hnone : openLeases s.handles s.granted s.created = ∅ := by
        rw [Finset.eq_empty_iff_forall_notMem]
        intro handle hmem
        obtain ⟨hlt, hopen⟩ := mem_openLeases.mp hmem
        have hentry := h.handled handle hlt
        rw [hopen] at hentry
        exact lt_irrefl _ hentry
      rw [hnone]
      rfl
  · intro handle hhandle
    exact Nat.lt_succ_of_lt (h.handled handle hhandle)
  · dsimp only [SegmentCache.insert]
    rw [OrderedMap.sumValues_set_of_not_mem _ hgone, Function.update_self, h.total]
    have hsame : s.entries.sumValues (fun id =>
        (Function.update s.objects s.created entry id).allocatedBytes) =
        s.entries.sumValues fun id => (s.objects id).allocatedBytes := by
      unfold OrderedMap.sumValues
      congr 1
      refine List.map_congr_left fun id hid => ?_
      obtain ⟨name, hname⟩ := OrderedMap.mem_values_iff.mp hid
      rw [hold id (h.live name id hname).1]
    rw [hsame]
    push_cast
    rfl

/-- **Storing** ends within the limit. -/
theorem Owned.set (h : Owned o s) (hlimit : s.totalBytes ≤ o.maxBytes) (segmentName : String)
    (data : List UInt8) (now : ℚ) (uninitialised : ℕ → UInt8) :
    Owned o (s.set o segmentName data now uninitialised).1 ∧
      (s.set o segmentName data now uninitialised).1.totalBytes ≤ o.maxBytes := by
  unfold SegmentCache.set
  by_cases hsize : data.length = 0 ∨ o.maxBytes < data.length
  · rw [if_pos hsize]
    exact ⟨h, hlimit⟩
  rw [if_neg hsize]
  obtain ⟨hremoved, hle⟩ := h.remove segmentName
  have hgone : segmentName ∉ (s.remove o segmentName).entries := by
    rw [entries_remove]
    exact fun hmem => (OrderedMap.mem_delete.mp hmem).2 rfl
  generalize s.remove o segmentName = t at hremoved hle hgone ⊢
  dsimp only
  by_cases hlarge : o.maxBytes < (t.bufferPool.copy o.limits uninitialised data).1.allocationSize
      (t.bufferPool.copy o.limits uninitialised data).2
  · rw [if_pos hlarge]
    exact ⟨⟨hremoved.backed.discard uninitialised data, hremoved.live, hremoved.single,
      hremoved.counted, hremoved.handled, hremoved.total⟩, le_trans hle hlimit⟩
  rw [if_neg hlarge]
  refine Owned.evictOldest _ _ (hremoved.insert uninitialised hgone rfl rfl rfl rfl) le_rfl

/-! ## Every run -/

theorem Owned.step (h : Owned o s) (hlimit : s.totalBytes ≤ o.maxBytes) (event : CacheEvent) :
    Owned o (s.step o event) ∧ (s.step o event).totalBytes ≤ o.maxBytes := by
  have hremoving : ∀ t : SegmentCache, Owned o t ∧ t.totalBytes ≤ s.totalBytes →
      Owned o t ∧ t.totalBytes ≤ o.maxBytes := fun t ht => ⟨ht.1, le_trans ht.2 hlimit⟩
  cases event with
  | get segmentName now =>
      obtain ⟨howned, hle, -⟩ := h.touch segmentName now
      exact hremoving _ ⟨howned, hle⟩
  | has segmentName now => exact hremoving _ (h.has segmentName now)
  | lease segmentName now => exact hremoving _ (h.lease segmentName now)
  | release handle => exact hremoving _ (h.release handle)
  | set segmentName data now uninitialised => exact h.set hlimit segmentName data now uninitialised
  | clear =>
      exact hremoving _ (Owned.foldl (fun t name ht => ht.remove name) s.entries.keys s h)
  | evictExpired now =>
      show Owned o (s.evictExpired o now) ∧ (s.evictExpired o now).totalBytes ≤ o.maxBytes
      unfold SegmentCache.evictExpired
      split_ifs
      · exact ⟨h, hlimit⟩
      · exact hremoving _ (Owned.foldl (fun t name ht => ht.has name (now name)) s.entries.keys s h)

theorem run_append (o : CacheOptions) (events : List CacheEvent) (event : CacheEvent) :
    run o (events ++ [event]) = (run o events).step o event := by
  unfold run
  rw [List.foldl_append]
  rfl

theorem owned_run (o : CacheOptions) (events : List CacheEvent) :
    Owned o (run o events) ∧ (run o events).totalBytes ≤ o.maxBytes := by
  induction events using List.reverseRecOn with
  | nil => exact ⟨owned_new, Int.natCast_nonneg _⟩
  | append_singleton events event ih =>
      rw [run_append]
      exact ih.1.step ih.2 event

/-! ### Released leases -/

/-- The lease was granted and released. -/
def Released (s : SegmentCache) (handle : LeaseId) : Prop :=
  handle < s.granted ∧ (s.handles handle).released = true

theorem handles_remove (o : CacheOptions) (s : SegmentCache) (segmentName : String) :
    (s.remove o segmentName).handles = s.handles ∧ (s.remove o segmentName).granted = s.granted := by
  cases hget : s.entries.get? segmentName with
  | none =>
      unfold remove
      rw [hget]
      exact ⟨rfl, rfl⟩
  | some id =>
      rw [remove_live o hget]
      exact ⟨rfl, rfl⟩

theorem Released.congr {t : SegmentCache} {handle : LeaseId} (h : s.Released handle)
    (ht : t.handles = s.handles ∧ t.granted = s.granted) : t.Released handle := by
  unfold Released
  rw [ht.1, ht.2]
  exact h

theorem handles_touch (o : CacheOptions) (s : SegmentCache) (segmentName : String) (now : ℚ) :
    (s.touch o segmentName now).1.handles = s.handles ∧
      (s.touch o segmentName now).1.granted = s.granted := by
  unfold touch
  cases s.entries.get? segmentName with
  | none => exact ⟨rfl, rfl⟩
  | some id =>
      dsimp only
      split_ifs
      · exact handles_remove o s segmentName
      · exact ⟨rfl, rfl⟩

theorem handles_has (o : CacheOptions) (s : SegmentCache) (segmentName : String) (now : ℚ) :
    (s.has o segmentName now).1.handles = s.handles ∧
      (s.has o segmentName now).1.granted = s.granted := by
  unfold has
  cases s.entries.get? segmentName with
  | none => exact ⟨rfl, rfl⟩
  | some id =>
      dsimp only
      split_ifs
      · exact handles_remove o s segmentName
      · exact ⟨rfl, rfl⟩

theorem handles_foldl {f : SegmentCache → String → SegmentCache}
    (hf : ∀ s name, (f s name).handles = s.handles ∧ (f s name).granted = s.granted)
    (names : List String) : ∀ s, (names.foldl f s).handles = s.handles ∧
      (names.foldl f s).granted = s.granted := by
  induction names with
  | nil =>
      intro s
      exact ⟨rfl, rfl⟩
  | cons name names ih =>
      intro s
      rw [List.foldl_cons, (ih (f s name)).1, (ih (f s name)).2]
      exact hf s name

theorem handles_evictOldest (o : CacheOptions) (rounds : ℕ) : ∀ s : SegmentCache,
    (evictOldest o rounds s).handles = s.handles ∧
      (evictOldest o rounds s).granted = s.granted := by
  induction rounds with
  | zero =>
      intro s
      exact ⟨rfl, rfl⟩
  | succ rounds ih =>
      intro s
      unfold evictOldest
      split_ifs
      · exact ⟨rfl, rfl⟩
      cases s.entries.keys.head? with
      | none => exact ⟨rfl, rfl⟩
      | some oldestKey =>
          dsimp only
          rw [(ih _).1, (ih _).2]
          exact handles_remove o s oldestKey

theorem handles_set (o : CacheOptions) (s : SegmentCache) (segmentName : String)
    (data : List UInt8) (now : ℚ) (uninitialised : ℕ → UInt8) :
    (s.set o segmentName data now uninitialised).1.handles = s.handles ∧
      (s.set o segmentName data now uninitialised).1.granted = s.granted := by
  unfold set
  split_ifs
  · exact ⟨rfl, rfl⟩
  dsimp only
  split_ifs
  · exact handles_remove o s segmentName
  · dsimp only
    rw [(handles_evictOldest o _ _).1, (handles_evictOldest o _ _).2]
    exact handles_remove o s segmentName

/-- A released lease stays released. -/
theorem Released.step {handle : LeaseId} (h : s.Released handle) (event : CacheEvent) :
    (s.step o event).Released handle := by
  cases event with
  | get segmentName now => exact h.congr (handles_touch o s segmentName now)
  | has segmentName now => exact h.congr (handles_has o s segmentName now)
  | lease segmentName now =>
      have htouched : (s.touch o segmentName now).1.Released handle :=
        h.congr (handles_touch o s segmentName now)
      show (s.lease o segmentName now).1.Released handle
      unfold SegmentCache.lease
      dsimp only
      generalize s.touch o segmentName now = touched at htouched ⊢
      cases touched.2 with
      | none => exact htouched
      | some id =>
          refine ⟨Nat.lt_succ_of_lt htouched.1, ?_⟩
          show (Function.update touched.1.handles touched.1.granted ⟨id, false⟩ handle).released =
            true
          rw [Function.update_of_ne htouched.1.ne]
          exact htouched.2
  | release handle' =>
      show (s.release o handle').Released handle
      by_cases hdone : s.granted ≤ handle' ∨ (s.handles handle').released = true
      · unfold SegmentCache.release
        rw [if_pos hdone]
        exact h
      obtain ⟨hgranted, hreleased⟩ := not_or.mp hdone
      have hopen : s.handles handle' = ⟨(s.handles handle').entry, false⟩ := by
        rw [← (Bool.not_eq_true _).mp hreleased]
      rw [release_open o (Nat.not_le.mp hgranted) hopen]
      refine ⟨h.1, ?_⟩
      show (Function.update s.handles handle' ⟨_, true⟩ handle).released = true
      by_cases hsame : handle = handle'
      · rw [hsame, Function.update_self]
      · rw [Function.update_of_ne hsame]
        exact h.2
  | set segmentName data now uninitialised =>
      exact h.congr (handles_set o s segmentName data now uninitialised)
  | clear => exact h.congr (handles_foldl (fun t name => handles_remove o t name) s.entries.keys s)
  | evictExpired now =>
      show (s.evictExpired o now).Released handle
      unfold SegmentCache.evictExpired
      split_ifs
      · exact h
      · exact h.congr (handles_foldl (fun t name => handles_has o t name (now name))
          s.entries.keys s)

theorem released_release {handle : LeaseId} (hlt : handle < s.granted) :
    (s.release o handle).Released handle := by
  by_cases hreleased : (s.handles handle).released = true
  · unfold SegmentCache.release
    rw [if_pos (Or.inr hreleased)]
    exact ⟨hlt, hreleased⟩
  have hopen : s.handles handle = ⟨(s.handles handle).entry, false⟩ := by
    rw [← (Bool.not_eq_true _).mp hreleased]
  rw [release_open o hlt hopen]
  refine ⟨hlt, ?_⟩
  show (Function.update s.handles handle ⟨_, true⟩ handle).released = true
  rw [Function.update_self]

theorem released_run (o : CacheOptions) {before : List CacheEvent} {handle : LeaseId}
    (hlt : handle < (run o before).granted) (after : List CacheEvent) :
    (run o (before ++ .release handle :: after)).Released handle := by
  induction after using List.reverseRecOn with
  | nil =>
      rw [run_append]
      exact released_release hlt
  | append_singleton after event ih =>
      rw [← List.cons_append, ← List.append_assoc, run_append]
      exact ih.step event

/-! ### What holds of the cache and its pool -/

structure OwnsBuffers (o : CacheOptions) (s : SegmentCache) : Prop where
  total : s.totalBytes = (s.entries.sumValues fun id => (s.objects id).allocatedBytes : ℕ)
  limit : s.totalBytes ≤ o.maxBytes
  /-- A lease reads what was stored. -/
  leased : ∀ handle, handle < s.granted → (s.handles handle).released = false →
    s.leasedBytes handle = (s.objects (s.handles handle).entry).stored
  apart : ∀ id id', s.Uses id → s.Uses id' → s.backing id = s.backing id' → id = id'
  unfree : ∀ id, s.Uses id → ¬ s.bufferPool.Free (s.backing id)
  retained : s.bufferPool.retainedBytes = s.bufferPool.freeBytes
  retainedLimit : s.bufferPool.retainedBytes ≤ o.limits.maxRetainedBytes
  bucketLimit : ∀ size retained, s.bufferPool.available.get? size = some retained →
    retained.length ≤ o.limits.maxRetainedPerBucket

theorem Owned.ownsBuffers (h : Owned o s) (hlimit : s.totalBytes ≤ o.maxBytes) :
    OwnsBuffers o s where
  total := h.total
  limit := hlimit
  leased handle hlt hopen := by
    have huses : s.Uses (s.handles handle).entry := Or.inr ⟨handle, hlt, by rw [← hopen]⟩
    obtain ⟨hid, huse⟩ := h.inUse huses
    exact h.backed.reads _ hid huse
  apart id id' huses huses' heq := by
    obtain ⟨hid, huse⟩ := h.inUse huses
    obtain ⟨hid', huse'⟩ := h.inUse huses'
    refine h.backed.apart id id' hid hid' ?_
    exact h.backed.sound.apart _ _ ((h.backed.held_iff hid).mpr huse)
      ((h.backed.held_iff hid').mpr huse') heq
  unfree id huses := by
    obtain ⟨hid, huse⟩ := h.inUse huses
    exact h.backed.sound.used _ ((h.backed.held_iff hid).mpr huse)
  retained := h.backed.sound.retained
  retainedLimit := h.backed.sound.total
  bucketLimit := h.backed.sound.perBucket

/-- **Every run** leaves the cache the owner of its buffers, and a lease that was released has
nothing left to release. -/
theorem cache_ownsBuffers (o : CacheOptions) (events : List CacheEvent) :
    OwnsBuffers o (run o events) ∧
      ∀ before handle after, events = before ++ .release handle :: after →
        handle < (run o before).granted → (run o events).release o handle = run o events := by
  obtain ⟨howned, hlimit⟩ := owned_run o events
  refine ⟨howned.ownsBuffers hlimit, ?_⟩
  rintro before handle after rfl hlt
  exact if_pos (Or.inr (released_run o hlt after).2)

end SegmentCache

end OpenStreamGrid

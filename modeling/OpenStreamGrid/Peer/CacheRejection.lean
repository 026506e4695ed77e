import OpenStreamGrid.Peer.CacheOwnership
import OpenStreamGrid.Peer.PoolAllocation

/-!
# Rejected inserts

`set` of the segment cache returns false for data that does not fit. It looks at
the size of the data before it changes anything, and at the size of the buffer
the data is in, which may be larger, only when the old entry is gone.
-/

namespace OpenStreamGrid

namespace SegmentCache

variable {o : CacheOptions} {s : SegmentCache}

/-! ## What callers see of the cache -/

/-- What the cache holds and what can be read from it is the same. -/
structure Unchanged (o : CacheOptions) (s s' : SegmentCache) : Prop where
  /-- The entries by name, in the order of their use. -/
  entries : s'.entries = s.entries
  objects : ∀ segmentName id, s.entries.get? segmentName = some id → s'.objects id = s.objects id
  totalBytes : s'.totalBytes = s.totalBytes
  get : ∀ segmentName now, (s'.get o segmentName now).2 = (s.get o segmentName now).2

theorem Unchanged.refl (o : CacheOptions) (s : SegmentCache) : Unchanged o s s :=
  ⟨rfl, fun _ _ _ => rfl, rfl, fun _ _ => rfl⟩

/-- What a name reads as: the data of an entry that has not expired. -/
theorem get_eq (o : CacheOptions) (s : SegmentCache) (segmentName : String) (now : ℚ) :
    (s.get o segmentName now).2 = (s.entries.get? segmentName).bind fun id =>
      if isExpired o (s.objects id) now then none else some (s.bufferPool.read (s.objects id).data) := by
  unfold SegmentCache.get touch
  cases s.entries.get? segmentName with
  | none => rfl
  | some id =>
      rw [Option.bind_some]
      dsimp only
      split_ifs <;> rfl

/-- With the same tables, what two pools that back them hold makes no difference. -/
theorem Owned.unchanged_of_backed (h : Owned o s) {pool : BufferPool}
    (hbacked : Backed o s.created s.objects pool) :
    Unchanged o s { s with bufferPool := pool } where
  entries := rfl
  objects _ _ _ := rfl
  totalBytes := rfl
  get segmentName now := by
    rw [get_eq, get_eq]
    cases hget : s.entries.get? segmentName with
    | none => rfl
    | some id =>
        obtain ⟨hid, hlive⟩ := h.live segmentName id hget
        have hread : pool.read (s.objects id).data = s.bufferPool.read (s.objects id).data :=
          (hbacked.reads id hid (Or.inl hlive)).trans (h.backed.reads id hid (Or.inl hlive)).symm
        show (if _ then none else some (pool.read (s.objects id).data)) = _
        rw [hread]
        rfl

/-! ## The two rejections -/

section

variable {segmentName : String} {data : List UInt8} {now : ℚ} {uninitialised : ℕ → UInt8}

theorem set_of_badLength (h : data.length = 0 ∨ o.maxBytes < data.length) :
    s.set o segmentName data now uninitialised = (s, false) := if_pos h

/-- Whether a copy that is not empty fits is decided by the size of its buffer, when the entry
under its name is gone. -/
theorem Owned.set_eq (h : Owned o s) (hlength : ¬ (data.length = 0 ∨ o.maxBytes < data.length)) :
    s.set o segmentName data now uninitialised =
      let t := s.remove o segmentName
      let pooled := t.bufferPool.copy o.limits uninitialised data
      if o.maxBytes < o.limits.allocatedBytes data.length then
        ({ t with bufferPool := pooled.1.release o.limits pooled.2 }, false)
      else
        let t := { t with bufferPool := pooled.1 }.insert segmentName
          ⟨pooled.2, now, o.limits.allocatedBytes data.length, 0, false, data⟩
        (SegmentCache.evictOldest o t.entries.size t, true) := by
  obtain ⟨hremoved, -⟩ := h.remove segmentName
  unfold SegmentCache.set
  rw [if_neg hlength]
  dsimp only
  rw [hremoved.backed.sound.allocationSize_copy]

theorem set_accepted (h : Owned o s) (hlength : ¬ (data.length = 0 ∨ o.maxBytes < data.length))
    (hfits : o.limits.allocatedBytes data.length ≤ o.maxBytes) :
    (s.set o segmentName data now uninitialised).2 = true := by
  rw [h.set_eq hlength]
  dsimp only
  rw [if_neg (Nat.not_lt.mpr hfits)]

theorem set_rejected (h : Owned o s) (hlength : ¬ (data.length = 0 ∨ o.maxBytes < data.length))
    (hlarge : o.maxBytes < o.limits.allocatedBytes data.length) :
    ∃ pool, Backed o (s.remove o segmentName).created (s.remove o segmentName).objects pool ∧
      s.set o segmentName data now uninitialised =
        ({ s.remove o segmentName with bufferPool := pool }, false) := by
  obtain ⟨hremoved, -⟩ := h.remove segmentName
  refine ⟨_, hremoved.backed.discard uninitialised data, ?_⟩
  rw [h.set_eq hlength]
  dsimp only
  rw [if_pos hlarge]

end

/-- **A rejected insert** changes nothing, except where the name has an entry and it is only the
buffer of the data, not the data itself, that is too large. -/
theorem rejected_set_unchanged_iff (o : CacheOptions) (events : List CacheEvent)
    (segmentName : String) (data : List UInt8) (now : ℚ) (uninitialised : ℕ → UInt8) :
    (((run o events).set o segmentName data now uninitialised).2 = false →
      Unchanged o (run o events) ((run o events).set o segmentName data now uninitialised).1) ↔
    segmentName ∉ (run o events).entries ∨ data.length = 0 ∨ o.maxBytes < data.length ∨
      o.limits.allocatedBytes data.length ≤ o.maxBytes := by
  obtain ⟨howned, -⟩ := owned_run o events
  generalize run o events = s at howned ⊢
  by_cases hlength : data.length = 0 ∨ o.maxBytes < data.length
  · rw [set_of_badLength hlength]
    refine iff_of_true (fun _ => Unchanged.refl o s) (Or.inr ?_)
    rcases hlength with hempty | hlong
    · exact Or.inl hempty
    · exact Or.inr (Or.inl hlong)
  rcases Nat.lt_or_ge o.maxBytes (o.limits.allocatedBytes data.length) with hlarge | hfits
  · obtain ⟨pool, hbacked, hset⟩ := @set_rejected o s segmentName data now uninitialised
      howned hlength hlarge
    rw [hset]
    constructor
    · intro hunchanged
      left
      have hentries : (s.remove o segmentName).entries = s.entries := (hunchanged rfl).entries
      rw [entries_remove] at hentries
      rw [← hentries]
      exact fun hmem => (OrderedMap.mem_delete.mp hmem).2 rfl
    · rintro (habsent | hempty | hlong | hfits) _
      · have hgone : s.remove o segmentName = s := by
          unfold SegmentCache.remove
          rw [OrderedMap.get?_eq_none_iff.mpr habsent]
        rw [hgone] at hbacked ⊢
        exact howned.unchanged_of_backed hbacked
      · exact absurd (Or.inl hempty) hlength
      · exact absurd (Or.inr hlong) hlength
      · exact absurd hlarge (Nat.not_lt.mpr hfits)
  · refine iff_of_true (fun hrejected => ?_) (Or.inr (Or.inr (Or.inr hfits)))
    rw [set_accepted howned hlength hfits] at hrejected
    cases hrejected

/-- Five bytes fit a cache of five bytes, and their buffer of eight does not: the entry under
the name is lost. -/
theorem rejected_set_drops_entry :
    ¬ ((((run ⟨5, none, ⟨8, 8, 64⟩⟩ [.set "a.ts" [1] 0 fun _ => 0]).set ⟨5, none, ⟨8, 8, 64⟩⟩
        "a.ts" [1, 2, 3, 4, 5] 0 fun _ => 0).2 = false →
      Unchanged ⟨5, none, ⟨8, 8, 64⟩⟩ (run ⟨5, none, ⟨8, 8, 64⟩⟩ [.set "a.ts" [1] 0 fun _ => 0])
        ((run ⟨5, none, ⟨8, 8, 64⟩⟩ [.set "a.ts" [1] 0 fun _ => 0]).set ⟨5, none, ⟨8, 8, 64⟩⟩
          "a.ts" [1, 2, 3, 4, 5] 0 fun _ => 0).1)) := by
  intro h
  have hget := (h (by decide)).get "a.ts" 0
  revert hget
  decide

end SegmentCache

end OpenStreamGrid

import OpenStreamGrid.Peer.CacheOwnership

/-!
# What the cache leaves to its leases

Whoever holds a lease may rely on it while others use the cache: no operation but
its own release touches it, and what was stored in an entry stays on record. An
entry has no other name than the one it was stored under.
-/

namespace OpenStreamGrid

namespace SegmentCache

variable {o : CacheOptions} {s t u : SegmentCache}

/-- Entries may be gone, and nothing else has changed. -/
structure Trims (s t : SegmentCache) : Prop where
  created : t.created = s.created
  granted : t.granted = s.granted
  handles : t.handles = s.handles
  stored : ∀ id, (t.objects id).stored = (s.objects id).stored
  live : ∀ name id, t.entries.get? name = some id → s.entries.get? name = some id

theorem Trims.refl (s : SegmentCache) : Trims s s :=
  ⟨rfl, rfl, rfl, fun _ => rfl, fun _ _ h => h⟩

theorem Trims.trans (h : Trims s t) (h' : Trims t u) : Trims s u where
  created := h'.created.trans h.created
  granted := h'.granted.trans h.granted
  handles := h'.handles.trans h.handles
  stored id := (h'.stored id).trans (h.stored id)
  live name id hget := h.live name id (h'.live name id hget)

theorem trims_remove (o : CacheOptions) (s : SegmentCache) (segmentName : String) :
    Trims s (s.remove o segmentName) := by
  cases hget : s.entries.get? segmentName with
  | none =>
      unfold remove
      rw [hget]
      exact .refl s
  | some id =>
      rw [remove_live o hget]
      refine ⟨rfl, rfl, rfl, fun id' => field_update CacheEntry.stored (by rfl) id', ?_⟩
      intro name id' hname
      dsimp only at hname
      rw [OrderedMap.get?_delete] at hname
      split_ifs at hname
      exact hname

theorem trims_touch (o : CacheOptions) (s : SegmentCache) (segmentName : String) (now : ℚ) :
    Trims s (s.touch o segmentName now).1 := by
  unfold touch
  cases hget : s.entries.get? segmentName with
  | none => exact .refl s
  | some id =>
      dsimp only
      split_ifs
      · exact trims_remove o s segmentName
      · refine ⟨rfl, rfl, rfl, fun _ => rfl, fun name id' hname => ?_⟩
        dsimp only at hname
        rw [OrderedMap.get?_set, OrderedMap.get?_delete] at hname
        split_ifs at hname with hsame
        · rw [hsame, hget]
          exact hname
        · exact hname

theorem trims_has (o : CacheOptions) (s : SegmentCache) (segmentName : String) (now : ℚ) :
    Trims s (s.has o segmentName now).1 := by
  unfold has
  cases s.entries.get? segmentName with
  | none => exact .refl s
  | some id =>
      dsimp only
      split_ifs
      · exact trims_remove o s segmentName
      · exact .refl s

theorem trims_foldl {f : SegmentCache → String → SegmentCache}
    (hf : ∀ s name, Trims s (f s name)) (names : List String) :
    ∀ s, Trims s (names.foldl f s) := by
  induction names with
  | nil => exact fun s => .refl s
  | cons name names ih => exact fun s => (hf s name).trans (ih (f s name))

theorem trims_evictOldest (o : CacheOptions) (rounds : ℕ) : ∀ s : SegmentCache,
    Trims s (evictOldest o rounds s) := by
  induction rounds with
  | zero => exact fun s => .refl s
  | succ rounds ih =>
      intro s
      unfold evictOldest
      split_ifs
      · exact .refl s
      cases s.entries.keys.head? with
      | none => exact .refl s
      | some oldestKey => exact (trims_remove o s oldestKey).trans (ih _)

theorem trims_evictExpired (o : CacheOptions) (s : SegmentCache) (now : String → ℚ) :
    Trims s (s.evictExpired o now) := by
  unfold evictExpired
  split_ifs
  · exact .refl s
  · exact trims_foldl (fun t name => trims_has o t name (now name)) s.entries.keys s

/-! ## One operation of another user -/

/-- What an operation stores under a name; a segment that is rejected is not stored. -/
def CacheEvent.Stores (o : CacheOptions) (s : SegmentCache) :
    CacheEvent → String → List UInt8 → Prop
  | .set segmentName data now uninitialised, name, stored =>
      (s.set o segmentName data now uninitialised).2 = true ∧ segmentName = name ∧ data = stored
  | _, _, _ => False

/-- What is left to the leases that are not released by the operation. -/
structure Keeps (kept : LeaseId → Prop) (fresh : String → List UInt8 → Prop)
    (s t : SegmentCache) : Prop where
  created : s.created ≤ t.created
  granted : s.granted ≤ t.granted
  stored : ∀ id, id < s.created → (t.objects id).stored = (s.objects id).stored
  handles : ∀ handle, handle < s.granted → kept handle → t.handles handle = s.handles handle
  live : ∀ name id, t.entries.get? name = some id →
    s.entries.get? name = some id ∨ fresh name (t.objects id).stored

theorem Trims.keeps (h : Trims s t) (kept : LeaseId → Prop)
    (fresh : String → List UInt8 → Prop) : Keeps kept fresh s t where
  created := h.created.ge
  granted := h.granted.ge
  stored id _ := h.stored id
  handles handle _ _ := congrFun h.handles handle
  live name id hget := Or.inl (h.live name id hget)

theorem lease_keeps (o : CacheOptions) (s : SegmentCache) (segmentName : String) (now : ℚ) :
    Keeps (fun _ => True) (fun _ _ => False) s (s.lease o segmentName now).1 := by
  have htouch := trims_touch o s segmentName now
  unfold lease
  dsimp only
  generalize s.touch o segmentName now = touched at htouch ⊢
  cases touched.2 with
  | none => exact htouch.keeps _ _
  | some id =>
      refine ⟨htouch.created.ge, Nat.le_succ_of_le htouch.granted.ge, fun id' _ => ?_,
        fun handle hlt _ => ?_, fun name id' hget => Or.inl (htouch.live name id' hget)⟩
      · exact (field_update CacheEntry.stored (by rfl) id').trans (htouch.stored id')
      · show Function.update touched.1.handles touched.1.granted ⟨id, false⟩ handle = _
        rw [Function.update_of_ne, htouch.handles]
        rw [htouch.granted]
        exact hlt.ne

theorem get?_of_touch {segmentName : String} {now : ℚ} {id : EntryId}
    (hid : (s.touch o segmentName now).2 = some id) : s.entries.get? segmentName = some id := by
  unfold touch at hid
  cases hget : s.entries.get? segmentName with
  | none =>
      rw [hget] at hid
      cases hid
  | some found =>
      rw [hget] at hid
      dsimp only at hid
      split_ifs at hid
      exact hid

/-- A lease is one of the entry that is live under the name. -/
theorem lease_grants (h : Owned o s) (segmentName : String) (now : ℚ) (handle : LeaseId)
    (hleased : (s.lease o segmentName now).2 = some handle) :
    handle = s.granted ∧ (s.lease o segmentName now).1.granted = s.granted + 1 ∧
      ∃ id, (s.lease o segmentName now).1.handles handle = ⟨id, false⟩ ∧ id < s.created ∧
        s.entries.get? segmentName = some id := by
  have htouch := trims_touch o s segmentName now
  unfold lease at hleased ⊢
  dsimp only at hleased ⊢
  cases hid : (s.touch o segmentName now).2 with
  | none =>
      rw [hid] at hleased
      cases hleased
  | some id =>
      rw [hid] at hleased
      obtain rfl := Option.some.inj hleased
      have hget := get?_of_touch hid
      refine ⟨htouch.granted, congrArg (· + 1) htouch.granted, id, ?_,
        (h.live segmentName id hget).1, hget⟩
      exact Function.update_self ..

theorem release_keeps (o : CacheOptions) (s : SegmentCache) (handle : LeaseId) :
    Keeps (fun handle' => handle' ≠ handle) (fun _ _ => False) s (s.release o handle) := by
  by_cases hdone : s.granted ≤ handle ∨ (s.handles handle).released = true
  · unfold release
    rw [if_pos hdone]
    exact (Trims.refl s).keeps _ _
  obtain ⟨hgranted, hreleased⟩ := not_or.mp hdone
  have hopen : s.handles handle = ⟨(s.handles handle).entry, false⟩ := by
    rw [← (Bool.not_eq_true _).mp hreleased]
  rw [release_open o (Nat.not_le.mp hgranted) hopen]
  exact ⟨le_rfl, le_rfl, fun id _ => field_update CacheEntry.stored (by rfl) id,
    fun handle' _ hne => Function.update_of_ne hne _ _, fun _ _ hget => Or.inl hget⟩

/-- A released lease is still one of its entry. -/
theorem entry_release (o : CacheOptions) (s : SegmentCache) (handle : LeaseId) :
    ((s.release o handle).handles handle).entry = (s.handles handle).entry := by
  by_cases hdone : s.granted ≤ handle ∨ (s.handles handle).released = true
  · unfold release
    rw [if_pos hdone]
  obtain ⟨hgranted, hreleased⟩ := not_or.mp hdone
  have hopen : s.handles handle = ⟨(s.handles handle).entry, false⟩ := by
    rw [← (Bool.not_eq_true _).mp hreleased]
  rw [release_open o (Nat.not_le.mp hgranted) hopen]
  dsimp only
  rw [Function.update_self]

theorem set_keeps (o : CacheOptions) (s : SegmentCache) (segmentName : String) (data : List UInt8)
    (now : ℚ) (uninitialised : ℕ → UInt8) :
    Keeps (fun _ => True) (CacheEvent.Stores o s (.set segmentName data now uninitialised)) s
      (s.set o segmentName data now uninitialised).1 := by
  have hremoved := trims_remove o s segmentName
  unfold CacheEvent.Stores set
  dsimp only
  generalize s.remove o segmentName = removed at hremoved ⊢
  split_ifs
  · exact (Trims.refl s).keeps _ _
  · have hkeeps := hremoved.keeps (fun _ => True)
      (fun name stored => False ∧ segmentName = name ∧ data = stored)
    exact { hkeeps with }
  · dsimp only
    have hevicted := trims_evictOldest o
    generalize hinserted : SegmentCache.insert _ segmentName _ = inserted
    have hevict := hevicted inserted.entries.size inserted
    generalize evictOldest o inserted.entries.size inserted = evicted at hevict ⊢
    subst hinserted
    refine ⟨?_, ?_, fun id hid => ?_, fun handle _ _ => ?_, fun name id hget => ?_⟩
    · rw [hevict.created, ← hremoved.created]
      exact Nat.le_succ _
    · rw [hevict.granted]
      exact hremoved.granted.ge
    · rw [hevict.stored, ← hremoved.stored]
      refine congrArg CacheEntry.stored (Function.update_of_ne ?_ _ _)
      show id ≠ removed.created
      rw [hremoved.created]
      exact hid.ne
    · rw [hevict.handles]
      exact congrFun hremoved.handles handle
    · have hinserted := hevict.live name id hget
      rw [hevict.stored]
      unfold insert at hinserted ⊢
      dsimp only at hinserted ⊢
      rw [OrderedMap.get?_set] at hinserted
      split_ifs at hinserted with hname
      · right
        rw [← Option.some.inj hinserted, Function.update_self]
        exact ⟨rfl, hname.symm, rfl⟩
      · exact Or.inl (hremoved.live name id hinserted)

/-- **No operation touches a lease but its own release.** -/
theorem step_keeps (o : CacheOptions) (s : SegmentCache) (event : CacheEvent) :
    Keeps (fun handle => ∀ released, event = .release released → handle ≠ released)
      (CacheEvent.Stores o s event) s (s.step o event) := by
  cases event with
  | get segmentName now => exact (trims_touch o s segmentName now).keeps _ _
  | has segmentName now => exact (trims_has o s segmentName now).keeps _ _
  | lease segmentName now =>
      have h := lease_keeps o s segmentName now
      exact { h with
        handles := fun handle hlt _ => h.handles handle hlt trivial
        live := fun name id hget => (h.live name id hget).imp_right False.elim }
  | release released =>
      have h := release_keeps o s released
      exact { h with
        handles := fun handle hlt hkept => h.handles handle hlt (hkept released rfl)
        live := fun name id hget => (h.live name id hget).imp_right False.elim }
  | set segmentName data now uninitialised =>
      have h := set_keeps o s segmentName data now uninitialised
      exact { h with handles := fun handle hlt _ => h.handles handle hlt trivial }
  | clear =>
      exact (trims_foldl (fun t name => trims_remove o t name) s.entries.keys s).keeps _ _
  | evictExpired now => exact (trims_evictExpired o s now).keeps _ _

end SegmentCache

end OpenStreamGrid

import OpenStreamGrid.Sdk.PartAssembly

/-!
# Loading the parts of a segment

Playback loads parts in an order of its own, parts of other segments in between.
While no part of a segment is missing, its assembly holds exactly the parts that
were loaded; the load that completes them, or the first one after the playlist
lists the segment, joins them. An assembly is only dropped when eight segments
have been started after it.
-/

namespace OpenStreamGrid

namespace Sdk

/-- A part that was loaded, with the playlists of that moment. -/
structure PartLoad where
  levels : ℤ → Option PlaylistDetails
  level : ℤ
  sn : ℤ
  index : ℤ
  data : List UInt8

/-- The segment a part belongs to. -/
def PartLoad.key (load : PartLoad) : ℤ × ℤ := (load.level, load.sn)

/-! ## One assembly -/

namespace PartAssembly

variable {page : UrlParser} {levels : ℤ → Option PlaylistDetails} {part : ℕ → List UInt8}
  {count : ℕ} {a : PartAssembly}

/-- The parts that are there are those of the segment. -/
def PartsOf (part : ℕ → List UInt8) (count : ℕ) (a : PartAssembly) : Prop :=
  ∀ i data, a.parts.get? i = some data → ∃ index < count, i = (index : ℤ) ∧ data = part index

/-- What is listed depends on the segment alone. -/
theorem listedSegment_eq (a : PartAssembly) :
    a.listedSegment page levels = (new a.level a.sn).listedSegment page levels := rfl

theorem PartsOf.get? (h : a.PartsOf part count) {index : ℕ} (hmem : (index : ℤ) ∈ a.parts) :
    a.parts.get? (index : ℤ) = some (part index) := by
  obtain ⟨data, hget⟩ := OrderedMap.get?_of_mem hmem
  obtain ⟨index', -, hindex, rfl⟩ := h _ data hget
  rw [hget, Int.ofNat_inj.mp hindex]

theorem PartsOf.keys_subset (h : a.PartsOf part count) :
    a.parts.keys.toFinset ⊆ (Finset.range count).image (fun index : ℕ => (index : ℤ)) := by
  intro i hi
  obtain ⟨data, hget⟩ := OrderedMap.get?_of_mem (List.mem_toFinset.mp hi)
  obtain ⟨index, hindex, rfl, -⟩ := h i data hget
  exact Finset.mem_image_of_mem _ (Finset.mem_range.mpr hindex)

theorem card_indexes (count : ℕ) :
    ((Finset.range count).image (fun index : ℕ => (index : ℤ))).card = count := by
  rw [Finset.card_image_of_injective _ Nat.cast_injective, Finset.card_range]

/-- As many parts as the segment has are all of them. -/
theorem PartsOf.count_le_size_iff (h : a.PartsOf part count) :
    count ≤ a.parts.size ↔ ∀ index < count, (index : ℤ) ∈ a.parts := by
  rw [← OrderedMap.card_keys]
  constructor
  · intro hsize index hindex
    have hkeys := Finset.eq_of_subset_of_card_le h.keys_subset ((card_indexes count).trans_le hsize)
    have hmem : (index : ℤ) ∈ a.parts.keys.toFinset := by
      rw [hkeys]
      exact Finset.mem_image_of_mem _ (Finset.mem_range.mpr hindex)
    exact List.mem_toFinset.mp hmem
  · intro hall
    refine (card_indexes count).symm.trans_le (Finset.card_le_card fun i hi => ?_)
    obtain ⟨index, hindex, rfl⟩ := Finset.mem_image.mp hi
    exact List.mem_toFinset.mpr (hall index (Finset.mem_range.mp hindex))

theorem PartsOf.size_le (h : a.PartsOf part count) : a.parts.size ≤ count := by
  rw [← OrderedMap.card_keys]
  exact (Finset.card_le_card h.keys_subset).trans_eq (card_indexes count)

theorem joined_eq (a : PartAssembly) : a.joined =
    (((List.range a.parts.size).map Nat.cast).mapM a.parts.get?).map List.flatten := by
  unfold PartAssembly.joined
  rw [List.bind_eq_flatMap]
  show Option.map List.flatten (List.mapM _ ((List.range _).flatMap fun index => [_])) = _
  rw [← List.map_eq_flatMap]

/-- All parts, joined in the order of their indexes. -/
theorem PartsOf.joined (h : a.PartsOf part count) (hsize : count ≤ a.parts.size) :
    a.joined = some ((List.range count).map part).flatten := by
  have heq : a.parts.size = count := le_antisymm h.size_le hsize
  have hparts : ∀ indexes : List ℕ, (∀ index ∈ indexes, index < count) →
      (indexes.map Nat.cast).mapM a.parts.get? = some (indexes.map part) := by
    intro indexes
    induction indexes with
    | nil => intro _; rfl
    | cons index indexes ih =>
        intro hlt
        obtain ⟨hindex, hrest⟩ := List.forall_mem_cons.mp hlt
        rw [List.map_cons, List.mapM_cons, h.get? (h.count_le_size_iff.mp hsize index hindex),
          ih hrest]
        rfl
  rw [joined_eq, heq, hparts _ fun index hindex => List.mem_range.mp hindex]
  rfl

/-- **Assembling** gives the joined parts when the segment is listed and all of them are there, and
leaves the assembly alone otherwise. -/
theorem PartsOf.assembleUnsettled (h : a.PartsOf part count) (hsettled : a.settled = false)
    (hlisted : ∀ url n, a.listedSegment page levels = some (url, n) → n = count) :
    a.assembleUnsettled page levels =
      match a.listedSegment page levels with
      | none => (a, none)
      | some (url, _) =>
          if ∀ index < count, (index : ℤ) ∈ a.parts then
            ({ a with settled := true, parts := ∅ },
              some (url, ((List.range count).map part).flatten))
          else (a, none) := by
  unfold PartAssembly.assembleUnsettled assembleSegment
  rw [hsettled, if_neg Bool.false_ne_true]
  cases hlist : a.listedSegment page levels with
  | none => rfl
  | some listed =>
      obtain ⟨url, n⟩ := listed
      obtain rfl := hlisted url n hlist
      dsimp only
      by_cases hsize : n ≤ a.parts.size
      · rw [if_neg (Nat.not_lt.mpr hsize), if_pos (h.count_le_size_iff.mp hsize), h.joined hsize]
        rfl
      · rw [if_pos (Nat.not_le.mp hsize), if_neg fun hall => hsize (h.count_le_size_iff.mpr hall)]

theorem assembleUnsettled_of_settled (hsettled : a.settled = true) :
    a.assembleUnsettled page levels = (a, none) := if_pos hsettled

/-- An assembly of the segment `key`, with parts of that segment. -/
structure Belongs (part : ℕ → List UInt8) (count : ℕ) (key : ℤ × ℤ) (a : PartAssembly) : Prop where
  level : a.level = key.1
  sn : a.sn = key.2
  parts : a.PartsOf part count

variable {key : ℤ × ℤ}

theorem partsOf_empty (ha : a.parts = ∅) : a.PartsOf part count := by
  intro i data hget
  rw [ha] at hget
  cases hget

theorem belongs_new (key : ℤ × ℤ) : (new key.1 key.2).Belongs part count key :=
  ⟨rfl, rfl, partsOf_empty rfl⟩

theorem Belongs.keepPart (h : a.Belongs part count key) {index : ℕ} (hindex : index < count) :
    (a.keepPart index (part index)).Belongs part count key := by
  unfold PartAssembly.keepPart
  split_ifs with hsettled
  · exact h
  · refine ⟨h.level, h.sn, fun i data hget => ?_⟩
    have hset : (a.parts.set (index : ℤ) (part index)).get? i = some data := hget
    rw [OrderedMap.get?_set] at hset
    split_ifs at hset with hi
    · exact ⟨index, hindex, hi, (Option.some.inj hset).symm⟩
    · exact h.parts i data hset

theorem settled_keepPart (a : PartAssembly) (i : ℤ) (data : List UInt8) :
    (a.keepPart i data).settled = a.settled := by
  unfold PartAssembly.keepPart
  split_ifs <;> rfl

theorem mem_keepPart (hsettled : a.settled = false) {i j : ℤ} {data : List UInt8} :
    j ∈ (a.keepPart i data).parts ↔ j = i ∨ j ∈ a.parts := by
  unfold PartAssembly.keepPart
  rw [hsettled, if_neg Bool.false_ne_true]
  show j ∈ a.parts.set i data ↔ _
  rw [OrderedMap.mem_set, or_comm]

theorem Belongs.listedSegment (h : a.Belongs part count key) (page : UrlParser)
    (levels : ℤ → Option PlaylistDetails) :
    a.listedSegment page levels = (new key.1 key.2).listedSegment page levels := by
  rw [listedSegment_eq, h.level, h.sn]

/-- The playlists list all parts of the segment, or do not list it yet. -/
def ListsWhole (page : UrlParser) (count : ℕ) (key : ℤ × ℤ) (levels : ℤ → Option PlaylistDetails) :
    Prop :=
  ∀ url n, (new key.1 key.2).listedSegment page levels = some (url, n) → n = count

theorem Belongs.assembleUnsettled (h : a.Belongs part count key)
    (hwhole : ListsWhole page count key levels) :
    (a.assembleUnsettled page levels).1.Belongs part count key ∧
      ∀ url data, (a.assembleUnsettled page levels).2 = some (url, data) →
        data = ((List.range count).map part).flatten := by
  cases hsettled : a.settled with
  | true =>
      rw [assembleUnsettled_of_settled hsettled]
      exact ⟨h, fun url data hdata => nomatch hdata⟩
  | false =>
      rw [h.parts.assembleUnsettled hsettled (h.listedSegment page levels ▸ hwhole)]
      cases a.listedSegment page levels with
      | none => exact ⟨h, fun url data hdata => nomatch hdata⟩
      | some listed =>
          dsimp only
          split_ifs with hall
          · refine ⟨⟨h.level, h.sn, partsOf_empty rfl⟩, fun url data hdata => ?_⟩
            exact (congrArg Prod.snd (Option.some.inj hdata)).symm
          · exact ⟨h, fun url data hdata => nomatch hdata⟩

/-- An assembly either goes on, or settles with a verification: it settles when the segment is listed
and all its parts are there. -/
theorem Belongs.assembleUnsettled_cases (h : a.Belongs part count key)
    (hwhole : ListsWhole page count key levels) (hsettled : a.settled = false) :
    a.assembleUnsettled page levels = (a, none) ∧
        ¬ (((new key.1 key.2).listedSegment page levels).isSome ∧
          ∀ index < count, (index : ℤ) ∈ a.parts) ∨
      (∃ verification, a.assembleUnsettled page levels =
          ({ a with settled := true, parts := ∅ }, some verification)) ∧
        ((new key.1 key.2).listedSegment page levels).isSome ∧
          ∀ index < count, (index : ℤ) ∈ a.parts := by
  rw [h.parts.assembleUnsettled hsettled (h.listedSegment page levels ▸ hwhole),
    h.listedSegment page levels]
  cases (new key.1 key.2).listedSegment page levels with
  | none => exact Or.inl ⟨rfl, fun hboth => Bool.false_ne_true hboth.1⟩
  | some listed =>
      dsimp only
      split_ifs with hall
      · exact Or.inr ⟨⟨_, rfl⟩, rfl, hall⟩
      · exact Or.inl ⟨rfl, fun hboth => hall hboth.2⟩

end PartAssembly

/-! ## The assemblies -/

namespace PartAssemblies

variable {page : UrlParser} {s : PartAssemblies} {load : PartLoad} {loads : List PartLoad}
  {key : ℤ × ℤ}

/-- The assemblies with the part of a load kept, before any of them is joined. -/
def kept (s : PartAssemblies) (load : PartLoad) : PartAssemblies :=
  (started s load.level load.sn).modify load.key fun a => a.keepPart load.index load.data

def recorded (page : UrlParser) (s : PartAssemblies) (load : PartLoad) : PartAssemblies :=
  (recordPart page load.levels s load.level load.sn load.index load.data).1

/-- What `assembleSegment` makes of the segment `key` at a load. -/
def assembled (page : UrlParser) (s : PartAssemblies) (load : PartLoad) (key : ℤ × ℤ) :
    Option (String × List UInt8) :=
  ((kept s load).get? key).bind fun a => (a.assembleUnsettled page load.levels).2

/-- A load starts the verifications of the segments it completes. -/
theorem mem_recordPart_iff {verification : String × List UInt8} :
    verification ∈
        (recordPart page load.levels s load.level load.sn load.index load.data).2 ↔
      ∃ key, assembled page s load key = some verification := by
  show verification ∈ (kept s load).values.filterMap _ ↔ _
  rw [List.mem_filterMap]
  constructor
  · rintro ⟨a, ha, hverification⟩
    obtain ⟨key, hget⟩ := OrderedMap.mem_values_iff.mp ha
    refine ⟨key, ?_⟩
    unfold assembled
    rw [hget]
    exact hverification
  · rintro ⟨key, hverification⟩
    obtain ⟨a, hget, ha⟩ := Option.bind_eq_some_iff.mp hverification
    exact ⟨a, OrderedMap.mem_values_iff.mpr ⟨key, hget⟩, ha⟩

theorem get?_recorded (page : UrlParser) (s : PartAssemblies) (load : PartLoad) (key : ℤ × ℤ) :
    (recorded page s load).get? key =
      ((kept s load).get? key).map fun a => (a.assembleUnsettled page load.levels).1 :=
  OrderedMap.get?_mapWithKey ..

theorem keys_recorded (page : UrlParser) (s : PartAssemblies) (load : PartLoad) :
    (recorded page s load).keys = (kept s load).keys :=
  OrderedMap.keys_mapWithKey ..

theorem keys_trimmed (m : PartAssemblies) :
    (trimmed m).keys = m.keys.drop (m.size - MAX_PART_ASSEMBLIES) :=
  OrderedMap.keys_foldl_delete_take m _

theorem get?_trimmed {m : PartAssemblies} {a : PartAssembly}
    (h : (trimmed m).get? key = some a) : m.get? key = some a := by
  unfold trimmed at h
  rw [OrderedMap.get?_foldl_delete] at h
  split_ifs at h
  exact h

theorem get?_trimmed_of_mem {m : PartAssemblies} (h : key ∈ trimmed m) :
    (trimmed m).get? key = m.get? key := by
  obtain ⟨a, ha⟩ := OrderedMap.get?_of_mem h
  rw [ha, get?_trimmed ha]

/-- Nothing is there under a key but what was there and what is started. -/
theorem get?_started {level sn : ℤ} {a : PartAssembly}
    (h : (started s level sn).get? key = some a) :
    s.get? key = some a ∨ key = (level, sn) ∧ a = .new level sn := by
  unfold started at h
  split_ifs at h with hpresent
  · exact Or.inl h
  · have hset := get?_trimmed h
    rw [OrderedMap.get?_set] at hset
    split_ifs at hset with hkey
    · exact Or.inr ⟨hkey, (Option.some.inj hset).symm⟩
    · exact Or.inl hset

theorem get?_kept (s : PartAssemblies) (load : PartLoad) (key : ℤ × ℤ) :
    (kept s load).get? key =
      ((started s load.level load.sn).get? key).map fun a =>
        if key = load.key then a.keepPart load.index load.data else a := by
  unfold kept
  rw [OrderedMap.get?_modify]
  split_ifs with hkey
  · rw [hkey]
  · rw [Option.map_id']

/-! ## Runs of loads -/

def recordAll (page : UrlParser) (s : PartAssemblies) (loads : List PartLoad) : PartAssemblies :=
  loads.foldl (recorded page) s

/-- The verifications of a segment that a run of loads starts. -/
def verifications (page : UrlParser) (key : ℤ × ℤ) : PartAssemblies → List PartLoad →
    List (String × List UInt8)
  | _, [] => []
  | s, load :: loads =>
      (assembled page s load key).toList ++ verifications page key (recorded page s load) loads

theorem recordAll_concat (page : UrlParser) (s : PartAssemblies) (loads : List PartLoad)
    (load : PartLoad) :
    recordAll page s (loads ++ [load]) = recorded page (recordAll page s loads) load := by
  unfold recordAll
  rw [List.foldl_append]
  rfl

theorem verifications_concat (page : UrlParser) (key : ℤ × ℤ) (loads : List PartLoad)
    (load : PartLoad) : ∀ s : PartAssemblies,
    verifications page key s (loads ++ [load]) = verifications page key s loads ++
      (assembled page (recordAll page s loads) load key).toList := by
  induction loads with
  | nil =>
      intro s
      exact List.append_nil _
  | cons first loads ih =>
      intro s
      show _ ++ verifications page key _ (loads ++ [load]) = (_ ++ _) ++ _
      rw [ih, List.append_assoc]
      rfl

/-- The loads of the segment `key` bring its parts, and the playlists of the run list all of its
parts once they list the segment. -/
structure Streams (page : UrlParser) (part : ℕ → List UInt8) (count : ℕ) (key : ℤ × ℤ)
    (loads : List PartLoad) : Prop where
  parts : ∀ load ∈ loads, load.key = key →
    ∃ index < count, load.index = (index : ℤ) ∧ load.data = part index
  playlists : ∀ load ∈ loads, PartAssembly.ListsWhole page count key load.levels

variable {part : ℕ → List UInt8} {count : ℕ}

theorem Streams.initial {loads' : List PartLoad}
    (h : Streams page part count key (loads ++ loads')) : Streams page part count key loads where
  parts load hload := h.parts load (List.mem_append_left _ hload)
  playlists load hload := h.playlists load (List.mem_append_left _ hload)

theorem Streams.last (h : Streams page part count key (loads ++ [load])) :
    (load.key = key → ∃ index < count, load.index = (index : ℤ) ∧ load.data = part index) ∧
      PartAssembly.ListsWhole page count key load.levels :=
  have hlast : load ∈ loads ++ [load] := List.mem_append_right _ (List.mem_singleton_self _)
  ⟨h.parts load hlast, h.playlists load hlast⟩

/-- What is kept of the segment is a part of it. -/
theorem belongs_kept (hs : ∀ a, s.get? key = some a → a.Belongs part count key)
    (hpart : load.key = key → ∃ index < count, load.index = (index : ℤ) ∧ load.data = part index)
    {a : PartAssembly} (ha : (kept s load).get? key = some a) : a.Belongs part count key := by
  rw [get?_kept] at ha
  obtain ⟨b, hb, rfl⟩ := Option.map_eq_some_iff.mp ha
  have hbelongs : b.Belongs part count key := by
    rcases get?_started hb with hold | ⟨hkey, rfl⟩
    · exact hs b hold
    · rw [hkey]
      exact PartAssembly.belongs_new (load.level, load.sn)
  split_ifs with hkey
  · obtain ⟨index, hindex, hi, hdata⟩ := hpart hkey.symm
    rw [hi, hdata]
    exact hbelongs.keepPart hindex
  · exact hbelongs

/-- **Whatever is joined is the segment.** -/
theorem Streams.sound (h : Streams page part count key loads) (hfresh : key ∉ s) :
    (∀ a, (recordAll page s loads).get? key = some a → a.Belongs part count key) ∧
      ∀ verification ∈ verifications page key s loads,
        verification.2 = ((List.range count).map part).flatten := by
  induction loads using List.reverseRecOn with
  | nil =>
      refine ⟨fun a ha => ?_, fun verification hmem => absurd hmem List.not_mem_nil⟩
      exact absurd (OrderedMap.mem_of_get? ha) hfresh
  | append_singleton loads load ih =>
      obtain ⟨hbelongs, hverified⟩ := ih h.initial
      obtain ⟨hpart, hwhole⟩ := h.last
      constructor
      · intro a ha
        rw [recordAll_concat, get?_recorded] at ha
        obtain ⟨b, hb, rfl⟩ := Option.map_eq_some_iff.mp ha
        exact ((belongs_kept hbelongs hpart hb).assembleUnsettled hwhole).1
      · intro verification hmem
        rw [verifications_concat] at hmem
        rcases List.mem_append.mp hmem with hmem | hmem
        · exact hverified verification hmem
        · obtain ⟨b, hb, hassembled⟩ :=
            Option.bind_eq_some_iff.mp (Option.mem_toList.mp hmem)
          exact ((belongs_kept hbelongs hpart hb).assembleUnsettled hwhole).2 _ _ hassembled

/-! ## When the segment is joined -/

/-- The segments of a run other than this one. -/
def others (key : ℤ × ℤ) (loads : List PartLoad) : Finset (ℤ × ℤ) :=
  (loads.map PartLoad.key).toFinset.erase key

/-- All parts of a segment were loaded. -/
def AllLoaded (count : ℕ) (key : ℤ × ℤ) (loads : List PartLoad) : Prop :=
  ∀ index < count, ∃ load ∈ loads, load.key = key ∧ load.index = (index : ℤ)

/-- At some load the playlist listed the segment and all its parts had been loaded. -/
def Completed (page : UrlParser) (count : ℕ) (key : ℤ × ℤ) (loads : List PartLoad) : Prop :=
  ∃ earlier load, (earlier ++ [load]) <+: loads ∧ AllLoaded count key (earlier ++ [load]) ∧
    ((PartAssembly.new key.1 key.2).listedSegment page load.levels).isSome

theorem completed_concat : Completed page count key (loads ++ [load]) ↔
    Completed page count key loads ∨ AllLoaded count key (loads ++ [load]) ∧
      ((PartAssembly.new key.1 key.2).listedSegment page load.levels).isSome := by
  unfold Completed
  constructor
  · rintro ⟨earlier, load', hinitial, hall, hlisted⟩
    rcases List.prefix_concat_iff.mp hinitial with heq | hinitial
    · obtain ⟨rfl, hload⟩ := List.append_inj' heq rfl
      obtain rfl := List.singleton_inj.mp hload
      exact Or.inr ⟨hall, hlisted⟩
    · exact Or.inl ⟨earlier, load', hinitial, hall, hlisted⟩
  · rintro (⟨earlier, load', hinitial, hall, hlisted⟩ | ⟨hall, hlisted⟩)
    · exact ⟨earlier, load', hinitial.trans (List.prefix_append _ _), hall, hlisted⟩
    · exact ⟨loads, load, List.prefix_rfl, hall, hlisted⟩

/-- Every assembly behind that of a segment is of a segment loaded since. -/
def Recent (key : ℤ × ℤ) (loads : List PartLoad) (s : PartAssemblies) : Prop :=
  ∃ front back, s.keys = front ++ key :: back ∧ ∀ k ∈ back, k ∈ others key loads

theorem others_subset (key : ℤ × ℤ) (loads : List PartLoad) (load : PartLoad) :
    others key loads ⊆ others key (loads ++ [load]) := by
  unfold others
  apply Finset.erase_subset_erase
  rw [List.map_append, List.toFinset_append]
  exact Finset.subset_union_left

theorem Recent.mem (h : Recent key loads s) : key ∈ s := by
  obtain ⟨front, back, hkeys, -⟩ := h
  rw [OrderedMap.mem_iff_mem_keys, hkeys]
  exact List.mem_append_right _ List.mem_cons_self

/-- Trimming takes no segment that fewer than eight others were loaded after. -/
theorem recent_trimmed {m : PartAssemblies} (h : Recent key loads m)
    (hfew : (others key loads).card < MAX_PART_ASSEMBLIES) : Recent key loads (trimmed m) := by
  obtain ⟨front, back, hkeys, hback⟩ := h
  have hnodup : m.keys.Nodup := m.nodupKeys
  rw [hkeys] at hnodup
  have hback' : back.Nodup := (List.nodup_cons.mp (List.nodup_append.mp hnodup).2.1).2
  have hshort : back.length < MAX_PART_ASSEMBLIES := by
    rw [← List.toFinset_card_of_nodup hback']
    refine (Finset.card_le_card fun k hk => ?_).trans_lt hfew
    exact hback k (List.mem_toFinset.mp hk)
  have hsize : m.size = front.length + (back.length + 1) := by
    rw [← OrderedMap.length_keys, hkeys, List.length_append, List.length_cons]
  -- Fewer than eight follow the segment, so all that is dropped stands before it.
  refine ⟨front.drop (m.size - MAX_PART_ASSEMBLIES), back, ?_, hback⟩
  rw [keys_trimmed, hkeys, List.drop_append_of_le_length]
  omega

theorem started_cases (s : PartAssemblies) (load : PartLoad) :
    started s load.level load.sn = s ∧ load.key ∈ s ∨
      started s load.level load.sn = trimmed (s.set load.key (.new load.level load.sn)) ∧
        load.key ∉ s := by
  unfold started
  split_ifs with hpresent
  · exact Or.inl ⟨rfl, OrderedMap.mem_iff_isSome.mpr hpresent⟩
  · exact Or.inr ⟨rfl, fun hmem => hpresent (OrderedMap.mem_iff_isSome.mp hmem)⟩

theorem mem_others (hkey : load.key ≠ key) : load.key ∈ others key (loads ++ [load]) := by
  refine Finset.mem_erase.mpr ⟨hkey, List.mem_toFinset.mpr (List.mem_map_of_mem ?_)⟩
  exact List.mem_append_right _ (List.mem_singleton_self _)

/-- A segment that is there stays, with the part that was loaded if it is its. -/
theorem Recent.kept (h : Recent key loads s)
    (hfew : (others key (loads ++ [load])).card < MAX_PART_ASSEMBLIES) :
    Recent key (loads ++ [load]) (kept s load) ∧
      (kept s load).get? key = (s.get? key).map fun a =>
        if key = load.key then a.keepPart load.index load.data else a := by
  have hstarted : Recent key (loads ++ [load]) (started s load.level load.sn) ∧
      (started s load.level load.sn).get? key = s.get? key := by
    obtain ⟨front, back, hkeys, hback⟩ := id h
    rcases started_cases s load with ⟨heq, -⟩ | ⟨heq, hnew⟩
    · rw [heq]
      exact ⟨⟨front, back, hkeys, fun k hk => others_subset key loads load (hback k hk)⟩, rfl⟩
    · -- Another segment is started: it stands last, and one more was loaded since.
      have hne : load.key ≠ key := fun hkey => hnew (hkey ▸ h.mem)
      have hrecent : Recent key (loads ++ [load])
          (s.set load.key (.new load.level load.sn)) := by
        refine ⟨front, back ++ [load.key], ?_, fun k hk => ?_⟩
        · rw [OrderedMap.keys_set_of_not_mem hnew, hkeys, List.append_assoc, List.cons_append]
        · rcases List.mem_append.mp hk with hk | hk
          · exact others_subset key loads load (hback k hk)
          · rw [List.mem_singleton.mp hk]
            exact mem_others hne
      have htrimmed := recent_trimmed hrecent hfew
      rw [heq]
      refine ⟨htrimmed, ?_⟩
      rw [get?_trimmed_of_mem htrimmed.mem, OrderedMap.get?_set, if_neg hne.symm]
  obtain ⟨⟨front, back, hkeys, hback⟩, hget⟩ := hstarted
  refine ⟨⟨front, back, ?_, hback⟩, ?_⟩
  · unfold PartAssemblies.kept
    rw [OrderedMap.keys_modify, hkeys]
  · rw [get?_kept, hget]

/-- The first part of a segment starts its assembly. -/
theorem recent_kept_first (hfresh : load.key ∉ s)
    (hfew : (others load.key (loads ++ [load])).card < MAX_PART_ASSEMBLIES) :
    Recent load.key (loads ++ [load]) (kept s load) ∧
      (kept s load).get? load.key =
        some ((PartAssembly.new load.level load.sn).keepPart load.index load.data) := by
  rcases started_cases s load with ⟨-, hold⟩ | ⟨heq, -⟩
  · exact absurd hold hfresh
  · have hrecent : Recent load.key (loads ++ [load])
        (s.set load.key (.new load.level load.sn)) :=
      ⟨s.keys, [], OrderedMap.keys_set_of_not_mem hfresh _, fun k hk => absurd hk List.not_mem_nil⟩
    have htrimmed := recent_trimmed hrecent hfew
    obtain ⟨front, back, hkeys, hback⟩ := id htrimmed
    constructor
    · refine ⟨front, back, ?_, hback⟩
      unfold PartAssemblies.kept
      rw [OrderedMap.keys_modify, heq]
      exact hkeys
    · have hget : (trimmed (s.set load.key (.new load.level load.sn))).get? load.key =
          some (.new load.level load.sn) := by
        rw [get?_trimmed_of_mem htrimmed.mem, OrderedMap.get?_set, if_pos rfl]
      rw [get?_kept, heq, hget, Option.map_some, if_pos rfl]

/-- What a run of loads has made of a segment that is never dropped. -/
structure Follows (page : UrlParser) (count : ℕ) (key : ℤ × ℤ) (s : PartAssemblies)
    (loads : List PartLoad) : Prop where
  absent : key ∉ recordAll page s loads → ∀ load ∈ loads, load.key ≠ key
  recent : key ∈ recordAll page s loads → Recent key loads (recordAll page s loads)
  loaded : ∀ a, (recordAll page s loads).get? key = some a → a.settled = false → ∀ index : ℕ,
    (index : ℤ) ∈ a.parts ↔ ∃ load ∈ loads, load.key = key ∧ load.index = (index : ℤ)
  verdict : verifications page key s loads = [] ∧ ¬ Completed page count key loads ∧
      (∀ a, (recordAll page s loads).get? key = some a → a.settled = false) ∨
    (verifications page key s loads).length = 1 ∧ Completed page count key loads ∧
      ∃ a, (recordAll page s loads).get? key = some a ∧ a.settled = true

/-- The end of a load at which the segment has an assembly. -/
theorem follows_of_kept {a : PartAssembly}
    (hget : (kept (recordAll page s loads) load).get? key = some a)
    (hrecent : Recent key (loads ++ [load]) (kept (recordAll page s loads) load))
    (hbelongs : a.Belongs part count key)
    (hwhole : PartAssembly.ListsWhole page count key load.levels)
    (hloaded : a.settled = false → ∀ index : ℕ, (index : ℤ) ∈ a.parts ↔
      ∃ load' ∈ loads ++ [load], load'.key = key ∧ load'.index = (index : ℤ))
    (hverdict : verifications page key s loads = [] ∧ ¬ Completed page count key loads ∧
        a.settled = false ∨
      (verifications page key s loads).length = 1 ∧ Completed page count key loads ∧
        a.settled = true) :
    Follows page count key s (loads ++ [load]) := by
  have hrecorded : (recordAll page s (loads ++ [load])).get? key =
      some (a.assembleUnsettled page load.levels).1 := by
    rw [recordAll_concat, get?_recorded, hget, Option.map_some]
  have hassembled : verifications page key s (loads ++ [load]) = verifications page key s loads ++
      (a.assembleUnsettled page load.levels).2.toList := by
    rw [verifications_concat, assembled, hget, Option.bind_some]
  have hkeys : Recent key (loads ++ [load]) (recordAll page s (loads ++ [load])) := by
    obtain ⟨front, back, hkeys, hback⟩ := hrecent
    refine ⟨front, back, ?_, hback⟩
    rw [recordAll_concat, keys_recorded, hkeys]
  have hmem := OrderedMap.mem_of_get? hrecorded
  -- Joined at this load exactly if it completes the parts; once joined, it is left alone.
  rcases hverdict with ⟨hnone, hincomplete, hsettled⟩ | ⟨hone, hcomplete, hsettled⟩
  · have hall : AllLoaded count key (loads ++ [load]) ↔
        ∀ index < count, (index : ℤ) ∈ a.parts :=
      forall₂_congr fun index _ => (hloaded hsettled index).symm
    rcases hbelongs.assembleUnsettled_cases hwhole hsettled with
      ⟨heq, hmissing⟩ | ⟨⟨verification, heq⟩, hboth⟩
    · rw [heq] at hrecorded hassembled
      refine ⟨fun habsent => absurd hmem habsent, fun _ => hkeys, fun b hb _ => ?_, Or.inl ?_⟩
      · rw [hrecorded] at hb
        obtain rfl := Option.some.inj hb
        exact hloaded hsettled
      · refine ⟨by rw [hassembled, hnone]; rfl, ?_, fun b hb => ?_⟩
        · rw [completed_concat, hall]
          rintro (hcomplete | ⟨hparts, hlisted⟩)
          · exact hincomplete hcomplete
          · exact hmissing ⟨hlisted, hparts⟩
        · rw [hrecorded] at hb
          obtain rfl := Option.some.inj hb
          exact hsettled
    · rw [heq] at hrecorded hassembled
      refine ⟨fun habsent => absurd hmem habsent, fun _ => hkeys, fun b hb hb' => ?_, Or.inr ?_⟩
      · rw [hrecorded] at hb
        obtain rfl := Option.some.inj hb
        cases hb'
      · refine ⟨by rw [hassembled, hnone]; rfl, ?_, _, hrecorded, rfl⟩
        rw [completed_concat, hall]
        exact Or.inr hboth.symm
  · rw [PartAssembly.assembleUnsettled_of_settled hsettled] at hrecorded hassembled
    refine ⟨fun habsent => absurd hmem habsent, fun _ => hkeys, fun b hb hb' => ?_, Or.inr ?_⟩
    · rw [hrecorded] at hb
      obtain rfl := Option.some.inj hb
      rw [hsettled] at hb'
      cases hb'
    · refine ⟨?_, completed_concat.mpr (Or.inl hcomplete), a, hrecorded, hsettled⟩
      rw [hassembled]
      exact (congrArg List.length (List.append_nil _)).trans hone

theorem loaded_concat (index : ℕ) :
    (∃ load' ∈ loads ++ [load], load'.key = key ∧ load'.index = (index : ℤ)) ↔
      (load.key = key ∧ load.index = (index : ℤ)) ∨
        ∃ load' ∈ loads, load'.key = key ∧ load'.index = (index : ℤ) := by
  simp only [List.mem_append, List.mem_singleton, or_and_right, exists_or, exists_eq_left]
  exact or_comm

/-- A load while the segment has an assembly. -/
theorem Follows.step_present (h : Follows page count key s loads) {a : PartAssembly}
    (hget : (recordAll page s loads).get? key = some a) (hbelongs : a.Belongs part count key)
    (hpart : load.key = key → ∃ index < count, load.index = (index : ℤ) ∧ load.data = part index)
    (hwhole : PartAssembly.ListsWhole page count key load.levels)
    (hfew : (others key (loads ++ [load])).card < MAX_PART_ASSEMBLIES) :
    Follows page count key s (loads ++ [load]) := by
  obtain ⟨hrecent, hkept⟩ := (h.recent (OrderedMap.mem_of_get? hget)).kept hfew
  rw [hget, Option.map_some] at hkept
  have hverdict : verifications page key s loads = [] ∧ ¬ Completed page count key loads ∧
        a.settled = false ∨
      (verifications page key s loads).length = 1 ∧ Completed page count key loads ∧
        a.settled = true := by
    rcases h.verdict with ⟨hnone, hincomplete, hsettled⟩ | ⟨hone, hcomplete, b, hb, hsettled⟩
    · exact Or.inl ⟨hnone, hincomplete, hsettled a hget⟩
    · rw [hget] at hb
      obtain rfl := Option.some.inj hb
      exact Or.inr ⟨hone, hcomplete, hsettled⟩
  -- A part of this segment is kept; one of another segment changes nothing here.
  split_ifs at hkept with hkey
  · obtain ⟨index, hindex, hi, hdata⟩ := hpart hkey.symm
    have hbelongs' : (a.keepPart load.index load.data).Belongs part count key := by
      rw [hi, hdata]
      exact hbelongs.keepPart hindex
    rw [← a.settled_keepPart load.index load.data] at hverdict
    refine follows_of_kept hkept hrecent hbelongs' hwhole (fun hsettled index' => ?_) hverdict
    · rw [PartAssembly.settled_keepPart] at hsettled
      rw [PartAssembly.mem_keepPart hsettled, h.loaded a hget hsettled, loaded_concat]
      exact or_congr_left ⟨fun heq => ⟨hkey.symm, heq.symm⟩, fun hboth => hboth.2.symm⟩
  · refine follows_of_kept hkept hrecent hbelongs hwhole (fun hsettled index' => ?_) hverdict
    rw [h.loaded a hget hsettled, loaded_concat]
    exact (or_iff_right fun hboth => hkey hboth.1.symm).symm

/-- A load while it has none. -/
theorem Follows.step_absent (h : Follows page count key s loads) (hcount : 0 < count)
    (hget : (recordAll page s loads).get? key = none)
    (hpart : load.key = key → ∃ index < count, load.index = (index : ℤ) ∧ load.data = part index)
    (hwhole : PartAssembly.ListsWhole page count key load.levels)
    (hfew : (others key (loads ++ [load])).card < MAX_PART_ASSEMBLIES) :
    Follows page count key s (loads ++ [load]) := by
  have hfresh := OrderedMap.get?_eq_none_iff.mp hget
  have hnever := h.absent hfresh
  obtain ⟨hnone, hincomplete⟩ : verifications page key s loads = [] ∧
      ¬ Completed page count key loads := by
    rcases h.verdict with ⟨hnone, hincomplete, -⟩ | ⟨-, -, a, ha, -⟩
    · exact ⟨hnone, hincomplete⟩
    · rw [hget] at ha
      cases ha
  by_cases hkey : load.key = key
  · subst hkey
    obtain ⟨index, hindex, hi, hdata⟩ := hpart rfl
    obtain ⟨hrecent, hkept⟩ := recent_kept_first hfresh hfew
    have hbelongs : ((PartAssembly.new load.level load.sn).keepPart load.index
        load.data).Belongs part count load.key := by
      rw [hi, hdata]
      exact (PartAssembly.belongs_new load.key).keepPart hindex
    refine follows_of_kept hkept hrecent hbelongs hwhole (fun _ index' => ?_)
      (Or.inl ⟨hnone, hincomplete, PartAssembly.settled_keepPart ..⟩)
    · rw [PartAssembly.mem_keepPart rfl, loaded_concat]
      constructor
      · rintro (heq | hmem)
        · exact Or.inl ⟨rfl, heq.symm⟩
        · exact absurd hmem (OrderedMap.not_mem_empty _)
      · rintro (⟨-, heq⟩ | ⟨load', hload', hkey, -⟩)
        · exact Or.inl heq.symm
        · exact absurd hkey (hnever load' hload')
  · have hkept : (kept (recordAll page s loads) load).get? key = none := by
      rw [get?_kept, Option.map_eq_none_iff]
      cases hstarted : (started (recordAll page s loads) load.level load.sn).get? key with
      | none => rfl
      | some a =>
          rcases get?_started hstarted with hold | ⟨hnew, -⟩
          · rw [hget] at hold
            cases hold
          · exact absurd hnew.symm hkey
    have hafter : (recordAll page s (loads ++ [load])).get? key = none := by
      rw [recordAll_concat, get?_recorded, hkept, Option.map_none]
    have hnever' : ∀ load' ∈ loads ++ [load], load'.key ≠ key := by
      intro load' hload'
      rcases List.mem_append.mp hload' with hload' | hload'
      · exact hnever load' hload'
      · rw [List.mem_singleton.mp hload']
        exact hkey
    refine ⟨fun _ => hnever', fun hmem => ?_, fun a ha => ?_, Or.inl ⟨?_, ?_, fun a ha => ?_⟩⟩
    · exact absurd hmem (OrderedMap.get?_eq_none_iff.mp hafter)
    · rw [hafter] at ha
      cases ha
    · rw [verifications_concat, assembled, hkept, hnone]
      rfl
    · rw [completed_concat]
      rintro (hcomplete | ⟨hall, -⟩)
      · exact hincomplete hcomplete
      · -- A segment has a part 0, and nothing of this one was loaded.
        obtain ⟨load', hload', hkey', -⟩ := hall 0 hcount
        exact hnever' load' hload' hkey'
    · rw [hafter] at ha
      cases ha

/-- **A run of loads.** -/
theorem Streams.follows (h : Streams page part count key loads) (hcount : 0 < count)
    (hfresh : key ∉ s) (hfew : (others key loads).card < MAX_PART_ASSEMBLIES) :
    Follows page count key s loads := by
  -- The bound on other segments holds of every earlier run, as there were fewer of them then.
  induction loads using List.reverseRecOn with
  | nil =>
      have hnone : s.get? key = none := OrderedMap.get?_eq_none_iff.mpr hfresh
      refine ⟨fun _ load hload => absurd hload List.not_mem_nil, fun hmem => absurd hmem hfresh,
        fun a ha => ?_, Or.inl ⟨rfl, ?_, fun a ha => ?_⟩⟩
      · exact absurd (hnone.symm.trans ha) (by simp)
      · rintro ⟨earlier, load, hinitial, -⟩
        simpa using List.prefix_nil.mp hinitial
      · exact absurd (hnone.symm.trans ha) (by simp)
  | append_singleton loads load ih =>
      have hfollows := ih h.initial
        ((Finset.card_le_card (others_subset key loads load)).trans_lt hfew)
      obtain ⟨hpart, hwhole⟩ := h.last
      obtain ⟨hbelongs, -⟩ := h.initial.sound hfresh
      cases hget : (recordAll page s loads).get? key with
      | none => exact hfollows.step_absent hcount hget hpart hwhole hfew
      | some a => exact hfollows.step_present hget (hbelongs a hget) hpart hwhole hfew

/-- **The segment is joined once**, when all of its parts were loaded and the playlist lists it. -/
theorem Streams.joins_once (h : Streams page part count key loads) (hcount : 0 < count)
    (hfresh : key ∉ s) (hfew : (others key loads).card < MAX_PART_ASSEMBLIES) :
    (Completed page count key loads → ∃ url, verifications page key s loads =
        [(url, ((List.range count).map part).flatten)]) ∧
      (¬ Completed page count key loads → verifications page key s loads = []) := by
  obtain ⟨-, hverified⟩ := h.sound hfresh
  rcases (h.follows hcount hfresh hfew).verdict with
    ⟨hnone, hincomplete, -⟩ | ⟨hone, hcomplete, -⟩
  · exact ⟨fun hcomplete => absurd hcomplete hincomplete, fun _ => hnone⟩
  · refine ⟨fun _ => ?_, fun hincomplete => absurd hcomplete hincomplete⟩
    obtain ⟨⟨url, data⟩, heq⟩ := List.length_eq_one_iff.mp hone
    have hdata := hverified (url, data) (heq ▸ List.mem_singleton_self _)
    rw [heq, ← hdata]
    exact ⟨url, rfl⟩

end PartAssemblies

end Sdk

end OpenStreamGrid

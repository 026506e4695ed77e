import OpenStreamGrid.Origin.LowLatencyParts
import OpenStreamGrid.Sdk.PartLoading

/-!
# From segments to parts and back

The origin cuts a segment into parts that the browser joins again.
-/

namespace OpenStreamGrid

open Sdk.PartAssemblies

variable {directory : List Char → Option (List UInt8)} {count : ℕ} {base : List Char}
  {segment : List UInt8} {page : Sdk.UrlParser} {key : ℤ × ℤ} {loads : List Sdk.PartLoad}

/-- What a viewer loads of the segment are parts as the origin serves them; the playlists list all
of its parts once they list the segment. -/
structure LoadsParts (directory : List Char → Option (List UInt8)) (count : ℕ) (base : List Char)
    (page : Sdk.UrlParser) (key : ℤ × ℤ) (loads : List Sdk.PartLoad) : Prop where
  served : ∀ load ∈ loads, load.key = key → ∃ index < count, load.index = (index : ℤ) ∧
    ∃ contentLength, Origin.handlePart directory count .get (Origin.partName base index) =
      some (.part contentLength load.data)
  playlists : ∀ load ∈ loads, Sdk.PartAssembly.ListsWhole page count key load.levels

theorem LoadsParts.streams (h : LoadsParts directory count base page key loads)
    (hserved : ∀ index < count, Origin.handlePart directory count .get
      (Origin.partName base index) = some (.part (Origin.partBytes segment index count).length
        (Origin.partBytes segment index count))) :
    Streams page (fun index => Origin.partBytes segment index count) count key loads where
  parts load hload hkey := by
    obtain ⟨index, hindex, hi, contentLength, hresponse⟩ := h.served load hload hkey
    rw [hserved index hindex] at hresponse
    obtain ⟨-, hdata⟩ := Origin.PartResponse.part.inj (Option.some.inj hresponse)
    exact ⟨index, hindex, hi, hdata.symm⟩
  playlists := h.playlists

/-- **The parts of a segment reassemble to it.** Their ranges cover it from packet to packet; and
in whatever order a viewer loads them, with repetitions and with parts of other segments in
between, nothing else is joined than the segment. It is joined once, as soon as all parts were
loaded and the playlist lists it, if parts of fewer than eight other segments are loaded
meanwhile. -/
theorem parts_reassemble (hcount : 0 < count) (hbase : base ≠ [])
    (hline : base.any Node.isLineTerminator = false)
    (hsegment : directory (base ++ ".ts".toList) = some segment)
    (hfiles : ∀ index < count, directory (Origin.partName base index) = none) :
    Origin.Tiles segment.length count ∧
    (∀ index < count, Origin.handlePart directory count .get (Origin.partName base index) =
      some (.part (Origin.partBytes segment index count).length
        (Origin.partBytes segment index count))) ∧
    ∀ (page : Sdk.UrlParser) (key : ℤ × ℤ) (s : Sdk.PartAssemblies) (loads : List Sdk.PartLoad),
      key ∉ s → LoadsParts directory count base page key loads →
      (∀ verification ∈ verifications page key s loads, verification.2 = segment) ∧
      ((others key loads).card < Sdk.MAX_PART_ASSEMBLIES →
        (Completed page count key loads →
          ∃ url, verifications page key s loads = [(url, segment)]) ∧
        (¬ Completed page count key loads → verifications page key s loads = [])) := by
  have hserved : ∀ index < count, Origin.handlePart directory count .get
      (Origin.partName base index) = some (.part (Origin.partBytes segment index count).length
        (Origin.partBytes segment index count)) := fun index hindex =>
    Origin.handlePart_partName hbase hline hsegment (hfiles index hindex) hindex
  refine ⟨Origin.tiles segment.length hcount, hserved, fun page key s loads hfresh hloads => ?_⟩
  have hstreams := hloads.streams hserved
  have hjoined := Origin.flatten_partBytes segment hcount
  constructor
  · intro verification hmem
    rw [(hstreams.sound hfresh).2 verification hmem, hjoined]
  · intro hfew
    have hjoins := hstreams.joins_once hcount hfresh hfew
    rw [hjoined] at hjoins
    exact hjoins

/-! ## Two parts of a short segment -/

def partedSegmentUrl : String := "https://origin.example/hls/segment_000007.ts"

/-- A page as far as this URL goes. -/
def partedPage : Sdk.UrlParser where
  parse text :=
    if text = partedSegmentUrl then
      some ⟨partedSegmentUrl, "/hls/segment_000007.ts", "", by decide⟩
    else none
  href_determines := by
    intro text text' url url' h h' _
    split_ifs at h h'
    obtain rfl := Option.some.inj h
    obtain rfl := Option.some.inj h'
    exact ⟨rfl, rfl⟩

def partedDirectory (name : List Char) : Option (List UInt8) :=
  if name = "segment_000007.ts".toList then some [1, 2, 3] else none

/-- A playlist with the segment and its two parts. -/
def partedLevels (level : ℤ) : Option Sdk.PlaylistDetails :=
  if level = 0 then some ⟨[⟨some 7, partedSegmentUrl⟩], [some 7, some 7]⟩ else none

/-- The last part first; the first one is empty, as the segment is shorter than a packet. -/
def partedLoads : List Sdk.PartLoad :=
  [⟨partedLevels, 0, 7, 1, [1, 2, 3]⟩, ⟨partedLevels, 0, 7, 0, []⟩]

theorem parts_reassemble_shortSegment :
    Origin.Tiles 3 2 ∧ ∃ url, verifications partedPage (0, 7) ∅ partedLoads = [(url, [1, 2, 3])] := by
  have hlisted : (Sdk.PartAssembly.new 0 7).listedSegment partedPage partedLevels =
      some (partedSegmentUrl, 2) := by decide +kernel
  have hloads : LoadsParts partedDirectory 2 "segment_000007".toList partedPage (0, 7)
      partedLoads := by
    constructor
    · intro load hload _
      rcases List.mem_cons.mp hload with rfl | hload
      · exact ⟨1, by decide, rfl, 3, rfl⟩
      · rw [List.mem_singleton.mp hload]
        exact ⟨0, by decide, rfl, 0, rfl⟩
    · intro load hload url n hsome
      have hlevels : load.levels = partedLevels := by
        rcases List.mem_cons.mp hload with rfl | hload
        · rfl
        · rw [List.mem_singleton.mp hload]
      rw [hlevels] at hsome
      exact (congrArg Prod.snd (Option.some.inj (hlisted.symm.trans hsome))).symm
  obtain ⟨htiles, -, hruns⟩ := @parts_reassemble partedDirectory 2
    "segment_000007".toList [1, 2, 3] (by decide) (by decide) (by decide)
    (by decide) (by decide +kernel)
  refine ⟨htiles, ((hruns partedPage (0, 7) ∅ partedLoads (OrderedMap.not_mem_empty _) hloads).2
    (by decide)).1 ⟨[⟨partedLevels, 0, 7, 1, [1, 2, 3]⟩], ⟨partedLevels, 0, 7, 0, []⟩,
      List.prefix_rfl, ?_, ?_⟩⟩
  · unfold AllLoaded
    decide
  · rw [hlisted]
    rfl

end OpenStreamGrid

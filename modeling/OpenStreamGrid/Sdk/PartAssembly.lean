import OpenStreamGrid.Sdk.SegmentSharing

/-!
# Assembling segments from their parts

The parts of a low-latency segment are kept as playback loads them. Once the
playlist lists the segment and as many parts are there as it lists for it, they
are joined, in the order of their indexes.
-/

namespace OpenStreamGrid

namespace Sdk

structure PartAssembly where
  level : ℤ
  sn : ℤ
  parts : OrderedMap ℤ (List UInt8)
  settled : Bool

/-- A fragment of a playlist; its `sn` may be no number, and its URL is empty if it has none. -/
structure PlaylistFragment where
  sn : Option ℤ
  url : String

/-- What is read of a level's playlist: its fragments, and the `sn` of each part's fragment. -/
structure PlaylistDetails where
  fragments : List PlaylistFragment
  partList : List (Option ℤ)

def MAX_PART_ASSEMBLIES : ℕ := 8

namespace PartAssembly

def new (level sn : ℤ) : PartAssembly := ⟨level, sn, ∅, false⟩

variable (page : UrlParser) (levels : ℤ → Option PlaylistDetails)

/-- The complete segment's URL and part count, once the current playlist lists the segment and
still holds its parts. -/
def listedSegment (assembly : PartAssembly) : Option (String × ℕ) :=
  match levels assembly.level with
  | none => none
  | some details =>
      let partCount := (details.partList.filter (· = some assembly.sn)).length
      match details.fragments.find? (·.sn = some assembly.sn) with
      | none => none
      | some fragment =>
          if fragment.url = "" ∨ partCount = 0 ∨ isMediaSegmentUrl page fragment.url = false then
            none
          else some (fragment.url, partCount)

/-- The parts from index zero on, joined; none if one of them is not there. -/
def joined (assembly : PartAssembly) : Option (List UInt8) :=
  ((List.range assembly.parts.size).mapM fun index =>
    assembly.parts.get? (index : ℤ)).map List.flatten

/-- `assembleSegment` up to the verification it waits for: the URL and the bytes to verify. -/
def assembleSegment (assembly : PartAssembly) : PartAssembly × Option (String × List UInt8) :=
  match assembly.listedSegment page levels with
  | none => (assembly, none)
  | some (url, partCount) =>
      if assembly.parts.size < partCount then (assembly, none)
      else
        ({ assembly with settled := true, parts := ∅ }, assembly.joined.map fun data => (url, data))

/-- An assembly that has settled is left alone. -/
def assembleUnsettled (assembly : PartAssembly) : PartAssembly × Option (String × List UInt8) :=
  if assembly.settled then (assembly, none) else assembly.assembleSegment page levels

def keepPart (assembly : PartAssembly) (index : ℤ) (data : List UInt8) : PartAssembly :=
  if assembly.settled then assembly else { assembly with parts := assembly.parts.set index data }

end PartAssembly

abbrev PartAssemblies := OrderedMap (ℤ × ℤ) PartAssembly

namespace PartAssemblies

/-- Drops the oldest assemblies of too many. -/
def trimmed (assemblies : PartAssemblies) : PartAssemblies :=
  (assemblies.keys.take (assemblies.size - MAX_PART_ASSEMBLIES)).foldl OrderedMap.delete assemblies

/-- The assembly a part belongs to is there. -/
def started (assemblies : PartAssemblies) (level sn : ℤ) : PartAssemblies :=
  if (assemblies.get? (level, sn)).isSome then assemblies
  else trimmed (assemblies.set (level, sn) (.new level sn))

variable (page : UrlParser) (levels : ℤ → Option PlaylistDetails)

/-- `recordPart`: the part is kept and every assembly that is complete is joined, with the
verifications this starts. -/
def recordPart (assemblies : PartAssemblies) (level sn index : ℤ) (data : List UInt8) :
    PartAssemblies × List (String × List UInt8) :=
  let assemblies := (started assemblies level sn).modify (level, sn) fun assembly =>
    assembly.keepPart index data
  (assemblies.mapWithKey fun _ assembly => (assembly.assembleUnsettled page levels).1,
    assemblies.values.filterMap fun assembly => (assembly.assembleUnsettled page levels).2)

end PartAssemblies

end Sdk

end OpenStreamGrid

import OpenStreamGrid.Peer.VerifiedFetching
import OpenStreamGrid.Sdk.VerifiedCaching

/-!
# Only verified bytes

The plugin and the Node fetcher keep apart what they play and what they share. What
either keeps in its cache has the hash that the origin published for it, however
loads, hedges, aborts and the answers of peers fall together.
-/

namespace OpenStreamGrid

open HybridSegmentFetcher
open Sdk.SegmentSharing (originPage plainSegmentUrl querySegmentUrl)

/-- **Only verified bytes are cached or served.** In every run of the plugin and of the Node
fetcher, whatever peers and origin answer: a cached buffer has the hash published for a URL
with its cache key, or for its segment name. -/
theorem only_verified_bytes_cached (page : Sdk.UrlParser) (v : Sdk.OriginHashVerifier)
    (maxBytes : ℕ) (sha256 : List UInt8 → List UInt8) (maxCachedHashes : ℕ)
    (options : Node.FetcherOptions) (s : Sdk.SegmentPlugin) (t : VerifiedFetcher) :
    ((Sdk.SegmentPlugin.system page v maxBytes).Reachable (fun _ _ => True) s →
        s.ServesVerified page v) ∧
      ((VerifiedFetcher.system sha256 maxCachedHashes options).Reachable (fun _ _ => True) t →
        ∀ segmentName data, (segmentName, data) ∈ t.stored →
          VerifiedFetcher.Verified sha256 t.verifier.published segmentName data) :=
  ⟨fun hr => (Sdk.SegmentPlugin.onlyVerified_of_reachable hr).serves,
    fun hr => (VerifiedFetcher.onlyVerified_of_reachable hr).stored⟩

/-! ## A segment with and without a sidecar -/

/-- The hash function, as far as the bytes below go. -/
def sha256OfSegment : List UInt8 → List UInt8 :=
  fun _ => [0x03, 0x90, 0x58, 0xc6, 0xf2, 0xc0, 0xcb, 0x49, 0x2c, 0x53, 0x3b, 0x0a, 0x4d, 0x14,
    0xef, 0x77, 0xcc, 0x0f, 0x78, 0xab, 0xcc, 0xce, 0xd5, 0x28, 0x7d, 0x84, 0xa1, 0xa2, 0x01,
    0x1c, 0xfb, 0x81]

def publishedHash : List Char :=
  "039058c6f2c0cb492c533b0a4d14ef77cc0f78abccced5287d84a1a2011cfb81  segment_000001.m4s".toList

/-- The verifier of the plugin on these URLs. -/
def originVerifier : Sdk.OriginHashVerifier where
  parse text :=
    if text = plainSegmentUrl then
      some ⟨"https://origin.example", "/hls/low/segment_000001.m4s", ""⟩
    else if text = querySegmentUrl then
      some ⟨"https://origin.example", "/hls/low/segment_000001.m4s", "?token=abc"⟩
    else none
  sha256 := sha256OfSegment
  originBaseUrl := ⟨"https://origin.example", "/hls/", ""⟩
  hashUrlResolver := none

def viewingPlugin : Sdk.HlsPlugin := ⟨"viewer", 0, 0, false, true⟩

/-- The origin has a sidecar for the first URL and none for the second. -/
def twoLoads : List Sdk.PluginEvent :=
  [.startGrid,
   .loadSegment plainSegmentUrl viewingPlugin [] none,
   .loadSegment querySegmentUrl viewingPlugin [] none,
   .task 0 (.originAnswers [1, 2, 3]),
   .task 1 (.originAnswers [1, 2, 3]),
   .task 1 (.originSidecar none),
   .task 0 (.originSidecar (some publishedHash))]

def fetchOptions : Node.FetcherOptions := ⟨"viewer", 0, 1, by decide, none, none, .default⟩

def oneFetch : List VerifiedEvent :=
  [.fetchAssigned "segment_000001.m4s" none none,
   .fetch 0 (.origin (.answers [1, 2, 3])),
   .verifyOrigin 0,
   .sidecar 0 (some publishedHash),
   .originVerified 0]

def pluginAfter : Sdk.SegmentPlugin :=
  ((Sdk.SegmentPlugin.system originPage originVerifier 1000).run (.new 1000) twoLoads).getD
    (.new 1000)

def fetcherAfter : VerifiedFetcher :=
  ((VerifiedFetcher.system sha256OfSegment 10 fetchOptions).run ⟨false, [], .new, []⟩
    oneFetch).getD ⟨false, [], .new, []⟩

/-- The verified segment is cached, and the one without a sidecar is played alone. -/
theorem only_verified_bytes_cached_twoLoads :
    (pluginAfter.sharing.cache.nodes.get? plainSegmentUrl = some [1, 2, 3] ∧
        pluginAfter.sharing.cache.nodes.get? querySegmentUrl = none ∧
          pluginAfter.ServesVerified originPage originVerifier) ∧
      VerifiedFetcher.Verified sha256OfSegment fetcherAfter.verifier.published
        "segment_000001.m4s" [1, 2, 3] := by
  have hplugin : (Sdk.SegmentPlugin.system originPage originVerifier 1000).run (.new 1000) twoLoads
      = some pluginAfter := rfl
  have hfetcher : (VerifiedFetcher.system sha256OfSegment 10 fetchOptions).run
      ⟨false, [], .new, []⟩ oneFetch = some fetcherAfter := rfl
  obtain ⟨hserves, hstored⟩ := only_verified_bytes_cached originPage originVerifier 1000
    sha256OfSegment 10 fetchOptions pluginAfter fetcherAfter
  refine ⟨⟨by decide +kernel, by decide +kernel, hserves ?_⟩, hstored ?_ _ _ (by decide +kernel)⟩
  · exact TransitionSystem.reachable_of_run rfl hplugin
  · exact TransitionSystem.reachable_of_run rfl hfetcher

end OpenStreamGrid

import OpenStreamGrid.Common.SegmentFraming
import OpenStreamGrid.Common.SegmentIds
import OpenStreamGrid.Lib.TransitionSystem
import OpenStreamGrid.Sdk.SegmentCache
import OpenStreamGrid.Tracker.InventoryLimits

/-!
# Sharing cached segments

The plugin caches a segment under its URL and advertises it under an ID of its
own making, which the tracker, the requesting viewer and the uploading viewer
each check by rules of their own. An ID built from a URL with a query contains
a character that both viewers refuse.
-/

namespace OpenStreamGrid

namespace Sdk

/-! ## URLs -/

/-- What the plugin reads of a parsed URL; `href` is taken after its hash is cleared. -/
structure Url where
  href : String
  pathname : String
  search : String
  href_ne : href ≠ ""
deriving DecidableEq

/-- `new URL(text, location.href)` on some page; a parser reads its own output. -/
structure UrlParser where
  parse : String → Option Url
  href_determines : ∀ text text' url url', parse text = some url → parse text' = some url' →
    url.href = url'.href → url.pathname = url'.pathname ∧ url.search = url'.search

/-- 64-bit FNV-1a of the UTF-8 bytes, in sixteen hexadecimal digits. -/
def urlFingerprint (value : String) : String :=
  let hash : UInt64 := value.toUTF8.toList.foldl
    (fun hash byte => (hash ^^^ byte.toUInt64) * 0x100000001b3) 0xcbf29ce484222325
  String.ofList ((Nat.toDigits 16 hash.toNat).leftpad 16 '0')

def stripLeadingSlashes (path : String) : String :=
  String.ofList (path.toList.dropWhile fun c => c = '/')

variable (page : UrlParser)

def isMediaSegmentUrl (segmentUrl : String) : Bool :=
  match page.parse segmentUrl with
  | none => false
  | some url => (mediaSegmentExtension? url.pathname).isSome

def cacheKeyFrom (segmentUrl : String) : String :=
  match page.parse segmentUrl with
  | none => segmentUrl
  | some url => url.href

/-- The ID that peers know a segment by. -/
def segmentPeerId (segmentUrl : String) : SegmentId :=
  match page.parse segmentUrl with
  | none => stripLeadingSlashes segmentUrl
  | some url =>
      let pathname := stripLeadingSlashes url.pathname
      if url.search = "" then pathname
      else
        let suffix := urlFingerprint url.search
        match mediaSegmentExtension? pathname with
        | some extension =>
            String.ofList (pathname.toList.take (pathname.toList.length - extension.toList.length))
              ++ "~q-" ++ suffix ++ extension
        | none => pathname ++ "~q-" ++ suffix

/-! ## The checks of the two viewers -/

/-- No longer than 1024 code units, no `..` component, and a media segment path. -/
def isSegmentId (value : String) : Bool :=
  decide (utf16Length value ≤ 1024) && decide ("..".toList ∉ value.toList.splitOn '/') &&
    isMediaSegmentPath value

def segmentRequest (segmentName : String) : JsValue :=
  .record [("type", .string "segment_request"), ("segmentName", .string segmentName)]

/-- The check a request starts with, and the message it sends once connected. -/
def requestSegment (segmentId : SegmentId) : Except String JsValue :=
  if isSegmentId segmentId then .ok (segmentRequest segmentId)
  else .error "Invalid WebRTC segment ID"

def parseObject : Option JsValue → Except ReceiveError JsValue
  | none => .error .engine
  | some (.record fields) => .ok (.record fields)
  | some _ => .error (.message "DataChannel control message must be an object")

/-- What the uploader makes of the first message. -/
def waitForRequest : ChannelData → Except ReceiveError SegmentId
  | .text json =>
      match parseObject json with
      | .error e => .error e
      | .ok message =>
          match (message.get "segmentName").string? with
          | none => .error (.message "Invalid segment request")
          | some segmentName =>
              if (message.get "type").isText "segment_request" ∧ isSegmentId segmentName then
                .ok segmentName
              else .error (.message "Invalid segment request")
  | _ => .error (.message "Expected segment request")

theorem requestSegment_ok_iff {segmentId : SegmentId} :
    requestSegment segmentId = .ok (segmentRequest segmentId) ↔ isSegmentId segmentId = true := by
  unfold requestSegment
  split_ifs with hid
  · exact iff_of_true rfl hid
  · exact iff_of_false (by intro h; cases h) hid

/-- The uploader accepts a request for exactly the IDs the requester sends. -/
theorem waitForRequest_ok_iff {segmentId : SegmentId} :
    waitForRequest (.text (some (segmentRequest segmentId))) = .ok segmentId ↔
      isSegmentId segmentId = true := by
  show (if _ ∧ isSegmentId segmentId = true then _ else _) = _ ↔ _
  split_ifs with hid
  · exact iff_of_true rfl hid.2
  · exact iff_of_false (by intro h; cases h) fun h => hid ⟨rfl, h⟩

/-! ## The plugin's part -/

/-- The cache and the keys it is searched by for peers; `urls` is every URL that was cached. -/
structure SegmentSharing where
  cache : SegmentCache
  cacheKeysBySegmentId : OrderedMap SegmentId String
  urls : List String

namespace SegmentSharing

def new (maxBytes : ℕ) : SegmentSharing := ⟨.new maxBytes, ∅, []⟩

def cacheSegment (s : SegmentSharing) (cacheKey : String) (segmentId : SegmentId)
    (data : List UInt8) : SegmentSharing :=
  let (cache, stored) := s.cache.set cacheKey data
  if stored then
    { s with cache, cacheKeysBySegmentId := s.cacheKeysBySegmentId.set segmentId cacheKey }
  else { s with cache }

/-- The IDs to advertise; those whose segment was evicted are forgotten. -/
def cachedSegmentIds (s : SegmentSharing) : SegmentSharing × List SegmentId :=
  let kept := (s.cacheKeysBySegmentId.keys.filter fun segmentId =>
    !(s.cacheKeysBySegmentId.get? segmentId).any s.cache.has).foldl OrderedMap.delete
      s.cacheKeysBySegmentId
  ({ s with cacheKeysBySegmentId := kept }, kept.keys)

/-- What the uploader finds for an ID. -/
def segmentProvider (s : SegmentSharing) (segmentId : SegmentId) :
    SegmentSharing × Option (List UInt8) :=
  match s.cacheKeysBySegmentId.get? segmentId with
  | none => (s, none)
  | some cacheKey =>
      if cacheKey = "" then (s, none)
      else
        let (cache, data) := s.cache.get cacheKey
        ({ s with cache }, data)

/-- A segment is cached under the key and the ID of its URL, unless the cache refuses it. -/
def afterCaching (s : SegmentSharing) (segmentUrl : String) (data : List UInt8) :
    SegmentSharing :=
  { s.cacheSegment (cacheKeyFrom page segmentUrl) (segmentPeerId page segmentUrl) data with
    urls := if (s.cache.set (cacheKeyFrom page segmentUrl) data).2 then segmentUrl :: s.urls
      else s.urls }

/-- A load or an assembly completes, a load looks into the cache, a report is
made, or a peer asks. -/
inductive Event where
  | cache (segmentUrl : String) (data : List UInt8)
  | lookUp (segmentUrl : String)
  | report
  | serve (segmentId : SegmentId)

def step (s : SegmentSharing) : Event → Option SegmentSharing
  | .cache segmentUrl data =>
      -- Every loader and the assembly of parts ask for a media segment URL first.
      if isMediaSegmentUrl page segmentUrl then
        some (s.afterCaching page segmentUrl data)
      else none
  | .lookUp segmentUrl => some { s with cache := (s.cache.get (cacheKeyFrom page segmentUrl)).1 }
  | .report => some s.cachedSegmentIds.1
  | .serve segmentId => some (s.segmentProvider segmentId).1

/-- The runs of a viewer's cache of some size. -/
def system (maxBytes : ℕ) : TransitionSystem SegmentSharing Event where
  init s := s = .new maxBytes
  step := step page

/-- No URL is cached while another one with the same ID is, under another key. -/
def NoClash (s : SegmentSharing) : Event → Prop
  | .cache segmentUrl _ => ∀ other ∈ s.urls, s.cache.has (cacheKeyFrom page other) = true →
      segmentPeerId page other = segmentPeerId page segmentUrl →
        cacheKeyFrom page other = cacheKeyFrom page segmentUrl
  | _ => True

/-- **What a cached segment is advertised for**: another viewer, who computes
the ID on a page of its own, can ask for it and gets its bytes. -/
structure Requestable (otherPage : UrlParser) (s : SegmentSharing) (segmentUrl : String) : Prop where
  advertised : segmentPeerId page segmentUrl ∈ s.cachedSegmentIds.2
  sameId : segmentPeerId otherPage segmentUrl = segmentPeerId page segmentUrl
  admitted : segmentIdList [segmentPeerId page segmentUrl] = some [segmentPeerId page segmentUrl]
  requested : requestSegment (segmentPeerId otherPage segmentUrl)
    = .ok (segmentRequest (segmentPeerId page segmentUrl))
  accepted : waitForRequest (.text (some (segmentRequest (segmentPeerId page segmentUrl))))
    = .ok (segmentPeerId page segmentUrl)
  served : ∃ data, s.cache.nodes.get? (cacheKeyFrom page segmentUrl) = some data ∧
    (s.segmentProvider (segmentPeerId page segmentUrl)).2 = some data

/-- A URL without a query whose path, leading slashes aside, is made of safe
characters, has no `..` component and fits the tracker's limit. -/
def PlainUrl (segmentUrl : String) : Prop :=
  ∃ url, page.parse segmentUrl = some url ∧ url.search = "" ∧
    (∀ c ∈ (stripLeadingSlashes url.pathname).toList, isSafePathCharacter c = true) ∧
    "..".toList ∉ (stripLeadingSlashes url.pathname).toList.splitOn '/' ∧
    (stripLeadingSlashes url.pathname).toList.length ≤ MAX_SEGMENT_ID_LENGTH

end SegmentSharing

/-! ## IDs that every check admits -/

variable {page : UrlParser} {segmentUrl : String}

theorem exists_parse_of_media (h : isMediaSegmentUrl page segmentUrl = true) :
    ∃ url, page.parse segmentUrl = some url ∧
      (mediaSegmentExtension? url.pathname).isSome = true := by
  unfold isMediaSegmentUrl at h
  cases hparse : page.parse segmentUrl with
  | none =>
      rw [hparse] at h
      exact absurd h Bool.false_ne_true
  | some url =>
      rw [hparse] at h
      exact ⟨url, rfl, h⟩

theorem suffix_dropWhile_slash {suffix : List Char} (hhead : suffix.head? = some '.') :
    ∀ {l : List Char}, suffix <:+ l → suffix <:+ l.dropWhile fun c => decide (c = '/') := by
  intro l
  induction l with
  | nil => intro h; exact h
  | cons x xs ih =>
      intro h
      by_cases hx : x = '/'
      · rw [List.dropWhile_cons_of_pos (by simpa using hx)]
        rcases List.suffix_cons_iff.mp h with heq | htail
        · rw [heq, List.head?_cons, hx] at hhead
          exact absurd hhead (by decide)
        · exact ih htail
      · rw [List.dropWhile_cons_of_neg (by simpa using hx)]
        exact h

/-- An extension survives the loss of leading slashes, having none. -/
theorem isSome_extension_stripLeadingSlashes {path : String}
    (h : (mediaSegmentExtension? path).isSome = true) :
    (mediaSegmentExtension? (stripLeadingSlashes path)).isSome = true := by
  have hchars : (stripLeadingSlashes path).toList
      = path.toList.dropWhile fun c => decide (c = '/') := String.toList_ofList
  rw [isSome_mediaSegmentExtension?_iff] at h ⊢
  rw [hchars]
  rcases h with hts | hm4s
  · exact Or.inl (suffix_dropWhile_slash (by decide) hts)
  · exact Or.inr (suffix_dropWhile_slash (by decide) hm4s)

theorem isSegmentId_iff {value : String} : isSegmentId value = true ↔
    utf16Length value ≤ 1024 ∧ "..".toList ∉ value.toList.splitOn '/' ∧
      isMediaSegmentPath value = true := by
  unfold isSegmentId
  simp only [Bool.and_eq_true, decide_eq_true_eq, and_assoc]

/-- A path of the separator that marks a query is no segment ID. -/
theorem isSegmentId_of_tilde {value : String} (h : '~' ∈ value.toList) :
    isSegmentId value = false := by
  rw [Bool.eq_false_iff]
  intro hid
  have hsafe := (isMediaSegmentPath_iff.mp (isSegmentId_iff.mp hid).2.2).2.1 '~' h
  exact absurd hsafe (by decide)

/-- The ID of a URL with a query carries the separator. -/
theorem tilde_mem_segmentPeerId {url : Url} (hparse : page.parse segmentUrl = some url)
    (hsearch : url.search ≠ "") : '~' ∈ (segmentPeerId page segmentUrl).toList := by
  have hmark : '~' ∈ "~q-".toList := by decide
  unfold segmentPeerId
  rw [hparse]
  dsimp only
  rw [if_neg hsearch]
  cases mediaSegmentExtension? (stripLeadingSlashes url.pathname) with
  | none => simp only [String.toList_append, List.mem_append, hmark, or_true, true_or]
  | some extension => simp only [String.toList_append, List.mem_append, hmark, or_true, true_or]

theorem segmentPeerId_of_search_eq {url : Url} (hparse : page.parse segmentUrl = some url)
    (hsearch : url.search = "") :
    segmentPeerId page segmentUrl = stripLeadingSlashes url.pathname := by
  unfold segmentPeerId
  rw [hparse]
  exact if_pos hsearch

theorem segmentIdList_singleton_iff {value : String} :
    segmentIdList [value] = some [value] ↔
      utf16Length value ≠ 0 ∧ utf16Length value ≤ MAX_SEGMENT_ID_LENGTH := by
  rw [segmentIdList_eq_some]
  constructor
  · rintro ⟨-, -, hids⟩
    exact hids value List.mem_cons_self
  · intro h
    refine ⟨rfl, Nat.succ_le_of_lt (Nat.zero_lt_succ 511), fun segment hmem => ?_⟩
    rw [List.mem_singleton.mp hmem]
    exact h

/-- **Which IDs pass**: the tracker's check and both viewers' admit the ID of a
media segment URL exactly if the URL is plain. -/
theorem admitted_iff_plain (hmedia : isMediaSegmentUrl page segmentUrl = true) :
    (segmentIdList [segmentPeerId page segmentUrl] = some [segmentPeerId page segmentUrl] ∧
      isSegmentId (segmentPeerId page segmentUrl) = true) ↔
        SegmentSharing.PlainUrl page segmentUrl := by
  obtain ⟨url, hparse, hextension⟩ := exists_parse_of_media hmedia
  constructor
  · rintro ⟨hlist, hid⟩
    have hsearch : url.search = "" := by
      by_contra hsearch
      have hrefused := isSegmentId_of_tilde (tilde_mem_segmentPeerId hparse hsearch)
      exact absurd (hrefused.symm.trans hid) Bool.false_ne_true
    rw [segmentPeerId_of_search_eq hparse hsearch] at hlist hid
    obtain ⟨-, hdots, hpath⟩ := isSegmentId_iff.mp hid
    obtain ⟨-, hsafe, -⟩ := isMediaSegmentPath_iff.mp hpath
    refine ⟨url, hparse, hsearch, hsafe, hdots, ?_⟩
    rw [← utf16Length_of_safe hsafe]
    exact (segmentIdList_singleton_iff.mp hlist).2
  · rintro ⟨url', hparse', hsearch, hsafe, hdots, hlength⟩
    obtain rfl : url = url' := Option.some.inj (hparse.symm.trans hparse')
    have hstripped := isSome_extension_stripLeadingSlashes hextension
    have hne : stripLeadingSlashes url.pathname ≠ "" := by
      intro hempty
      rw [hempty] at hstripped
      exact absurd hstripped (by decide)
    have hchars : (stripLeadingSlashes url.pathname).toList.length ≠ 0 := by
      rw [Ne, List.length_eq_zero_iff, String.toList_eq_nil_iff]
      exact hne
    rw [segmentPeerId_of_search_eq hparse hsearch, segmentIdList_singleton_iff, isSegmentId_iff,
      utf16Length_of_safe hsafe]
    exact ⟨⟨hchars, hlength⟩, hlength.trans (by decide), hdots,
      isMediaSegmentPath_iff.mpr ⟨hne, hsafe, hstripped⟩⟩

/-! ## IDs that find their segment -/

theorem cacheKeyFrom_of_parse {url : Url} (hparse : page.parse segmentUrl = some url) :
    cacheKeyFrom page segmentUrl = url.href := by
  unfold cacheKeyFrom
  rw [hparse]

theorem cacheKeyFrom_ne (hmedia : isMediaSegmentUrl page segmentUrl = true) :
    cacheKeyFrom page segmentUrl ≠ "" := by
  obtain ⟨url, hparse, -⟩ := exists_parse_of_media hmedia
  rw [cacheKeyFrom_of_parse hparse]
  exact url.href_ne

/-- One cache key, one ID. -/
theorem segmentPeerId_congr {other : String} (hmedia : isMediaSegmentUrl page segmentUrl = true)
    (hother : isMediaSegmentUrl page other = true)
    (hkey : cacheKeyFrom page other = cacheKeyFrom page segmentUrl) :
    segmentPeerId page other = segmentPeerId page segmentUrl := by
  obtain ⟨url, hparse, -⟩ := exists_parse_of_media hmedia
  obtain ⟨url', hparse', -⟩ := exists_parse_of_media hother
  rw [cacheKeyFrom_of_parse hparse, cacheKeyFrom_of_parse hparse'] at hkey
  obtain ⟨hpathname, hsearch⟩ := page.href_determines _ _ _ _ hparse' hparse hkey
  unfold segmentPeerId
  rw [hparse, hparse']
  dsimp only
  rw [hpathname, hsearch]

namespace SegmentSharing

variable {s s' : SegmentSharing}

/-- Every cached URL can be found by its ID. -/
structure Indexed (page : UrlParser) (s : SegmentSharing) : Prop where
  media : ∀ url ∈ s.urls, isMediaSegmentUrl page url = true
  indexed : ∀ url ∈ s.urls, s.cache.has (cacheKeyFrom page url) = true →
    s.cacheKeysBySegmentId.get? (segmentPeerId page url) = some (cacheKeyFrom page url)

theorem Indexed.new (page : UrlParser) (maxBytes : ℕ) : Indexed page (.new maxBytes) where
  media := by
    intro url hmem
    cases hmem
  indexed := by
    intro url hmem
    cases hmem

/-- Only entries whose segment was evicted are forgotten. -/
theorem get?_cachedSegmentIds {segmentId : SegmentId} {cacheKey : String}
    (h : s.cacheKeysBySegmentId.get? segmentId = some cacheKey)
    (hcached : s.cache.has cacheKey = true) :
    s.cachedSegmentIds.1.cacheKeysBySegmentId.get? segmentId = some cacheKey := by
  show (List.foldl OrderedMap.delete _ _).get? segmentId = _
  rw [OrderedMap.get?_foldl_delete, if_neg, h]
  intro hmem
  have hdead := (List.mem_filter.mp hmem).2
  rw [h, Option.any_some, hcached] at hdead
  exact Bool.false_ne_true hdead

theorem segmentProvider_fields (s : SegmentSharing) (segmentId : SegmentId) :
    (s.segmentProvider segmentId).1.urls = s.urls ∧
      (s.segmentProvider segmentId).1.cacheKeysBySegmentId = s.cacheKeysBySegmentId ∧
      ∀ cacheKey, (s.segmentProvider segmentId).1.cache.nodes.get? cacheKey
        = s.cache.nodes.get? cacheKey := by
  unfold segmentProvider
  cases s.cacheKeysBySegmentId.get? segmentId with
  | none => exact ⟨rfl, rfl, fun _ => rfl⟩
  | some cacheKey =>
      dsimp only
      split_ifs with hempty
      · exact ⟨rfl, rfl, fun _ => rfl⟩
      · exact ⟨rfl, rfl, SegmentCache.get?_get s.cache cacheKey⟩

/-- Steps that leave the contents and the index alone. -/
theorem Indexed.of_same (h : Indexed page s) (hurls : s'.urls = s.urls)
    (hindex : s'.cacheKeysBySegmentId = s.cacheKeysBySegmentId)
    (hcache : ∀ cacheKey, s'.cache.nodes.get? cacheKey = s.cache.nodes.get? cacheKey) :
    Indexed page s' where
  media := by
    rw [hurls]
    exact h.media
  indexed := by
    intro url hmem hcached
    rw [hindex]
    rw [hurls] at hmem
    apply h.indexed url hmem
    unfold SegmentCache.has at hcached ⊢
    rw [← hcache]
    exact hcached

/-- What caching a segment leaves: nothing has changed, or its URL is indexed. -/
theorem afterCaching_cases (s : SegmentSharing) (segmentUrl : String) (data : List UInt8) :
    s.afterCaching page segmentUrl data = s ∨
      s.afterCaching page segmentUrl data =
        ⟨(s.cache.set (cacheKeyFrom page segmentUrl) data).1,
          s.cacheKeysBySegmentId.set (segmentPeerId page segmentUrl)
            (cacheKeyFrom page segmentUrl), segmentUrl :: s.urls⟩ := by
  unfold afterCaching SegmentSharing.cacheSegment
  cases hstored : (s.cache.set (cacheKeyFrom page segmentUrl) data).2 with
  | false =>
      left
      simp only [hstored, Bool.false_eq_true, if_false, SegmentCache.set_refused hstored]
  | true =>
      right
      simp only [hstored, if_true]

/-- A segment is cached, and its ID finds it from then on. -/
theorem Indexed.afterCaching (h : Indexed page s) {data : List UInt8}
    (hmedia : isMediaSegmentUrl page segmentUrl = true)
    (hclash : NoClash page s (.cache segmentUrl data)) :
    Indexed page (s.afterCaching page segmentUrl data) := by
  rcases s.afterCaching_cases segmentUrl data with hsame | hstored
  · rw [hsame]
    exact h
  rw [hstored]
  refine ⟨fun url hmem => ?_, fun url hmem hcached => ?_⟩
  · rcases List.mem_cons.mp hmem with rfl | hold
    · exact hmedia
    · exact h.media url hold
  show (s.cacheKeysBySegmentId.set _ _).get? _ = _
  rw [OrderedMap.get?_set]
  rcases List.mem_cons.mp hmem with rfl | hold
  · exact if_pos rfl
  by_cases hkey : cacheKeyFrom page url = cacheKeyFrom page segmentUrl
  · rw [if_pos (segmentPeerId_congr hmedia (h.media url hold) hkey), hkey]
  · -- Another segment, which was cached before and hence has another ID.
    have hbefore : s.cache.has (cacheKeyFrom page url) = true :=
      SegmentCache.has_of_set hkey hcached
    rw [if_neg fun hid => hkey (hclash url hold hbefore hid)]
    exact h.indexed url hold hbefore

/-- **One step keeps every cached URL findable.** -/
theorem Indexed.step (h : Indexed page s) {e : Event} (hclash : NoClash page s e)
    (hstep : s.step page e = some s') : Indexed page s' := by
  cases e with
  | cache segmentUrl data =>
      simp only [SegmentSharing.step] at hstep
      split_ifs at hstep with hmedia
      obtain rfl := Option.some.inj hstep
      exact h.afterCaching hmedia hclash
  | lookUp segmentUrl =>
      obtain rfl := Option.some.inj hstep
      exact h.of_same rfl rfl (SegmentCache.get?_get s.cache _)
  | report =>
      obtain rfl := Option.some.inj hstep
      refine ⟨h.media, fun url hmem hcached => ?_⟩
      exact get?_cachedSegmentIds (h.indexed url hmem hcached) hcached
  | serve segmentId =>
      obtain rfl := Option.some.inj hstep
      obtain ⟨hurls, hindex, hcache⟩ := s.segmentProvider_fields segmentId
      exact h.of_same hurls hindex hcache

theorem indexed_of_reachable {maxBytes : ℕ}
    (hr : (system page maxBytes).Reachable (NoClash page) s) : Indexed page s := by
  refine hr.invariant (Indexed page) ?_ ?_
  · rintro s rfl
    exact Indexed.new page maxBytes
  · intro s e s' h hclash hstep
    exact h.step hclash hstep

/-- An indexed ID is advertised, and its provider finds the cached bytes. -/
theorem Indexed.served (h : Indexed page s) (hmem : segmentUrl ∈ s.urls)
    (hcached : s.cache.has (cacheKeyFrom page segmentUrl) = true) :
    segmentPeerId page segmentUrl ∈ s.cachedSegmentIds.2 ∧
      ∃ data, s.cache.nodes.get? (cacheKeyFrom page segmentUrl) = some data ∧
        (s.segmentProvider (segmentPeerId page segmentUrl)).2 = some data := by
  have hindexed := h.indexed segmentUrl hmem hcached
  obtain ⟨data, hdata⟩ := Option.isSome_iff_exists.mp hcached
  constructor
  · exact OrderedMap.mem_of_get? (get?_cachedSegmentIds hindexed hcached)
  · refine ⟨data, hdata, ?_⟩
    unfold segmentProvider
    rw [hindexed]
    dsimp only
    rw [if_neg (cacheKeyFrom_ne (h.media segmentUrl hmem))]
    exact (SegmentCache.get_snd s.cache _).trans hdata

/-- **A cached segment can be requested exactly if its URL is plain**, in every
state of a run in which no two cached segments share an ID. -/
theorem requestable_iff_plain {maxBytes : ℕ} {otherPage : UrlParser}
    (hr : (system page maxBytes).Reachable (NoClash page) s) (hmem : segmentUrl ∈ s.urls)
    (hcached : s.cache.has (cacheKeyFrom page segmentUrl) = true)
    (hsame : otherPage.parse segmentUrl = page.parse segmentUrl) :
    Requestable page otherPage s segmentUrl ↔ PlainUrl page segmentUrl := by
  have hindexed := indexed_of_reachable hr
  have hmedia := hindexed.media segmentUrl hmem
  have hid : segmentPeerId otherPage segmentUrl = segmentPeerId page segmentUrl := by
    unfold segmentPeerId
    rw [hsame]
  constructor
  · intro h
    exact (admitted_iff_plain hmedia).mp ⟨h.admitted, waitForRequest_ok_iff.mp h.accepted⟩
  · intro hplain
    obtain ⟨hadmitted, haccepted⟩ := (admitted_iff_plain hmedia).mpr hplain
    obtain ⟨hadvertised, hserved⟩ := hindexed.served hmem hcached
    refine ⟨hadvertised, hid, hadmitted, ?_, waitForRequest_ok_iff.mpr haccepted, hserved⟩
    rw [hid]
    exact requestSegment_ok_iff.mpr haccepted

/-! ## A segment with and without a query -/

def plainSegmentUrl : String := "https://origin.example/hls/low/segment_000001.m4s"

def querySegmentUrl : String := "https://origin.example/hls/low/segment_000001.m4s?token=abc"

/-- A page as far as these two URLs go. -/
def originPage : UrlParser where
  parse text :=
    if text = plainSegmentUrl then
      some ⟨plainSegmentUrl, "/hls/low/segment_000001.m4s", "", by decide⟩
    else if text = querySegmentUrl then
      some ⟨querySegmentUrl, "/hls/low/segment_000001.m4s", "?token=abc", by decide⟩
    else none
  href_determines := by
    intro text text' url url' h h' hhref
    have hne : plainSegmentUrl ≠ querySegmentUrl := by decide
    split_ifs at h h' <;> obtain rfl := Option.some.inj h <;> obtain rfl := Option.some.inj h'
    · exact ⟨rfl, rfl⟩
    · exact absurd hhref hne
    · exact absurd hhref.symm hne
    · exact ⟨rfl, rfl⟩

/-- A viewer that has cached one segment. -/
def viewerOf (segmentUrl : String) : SegmentSharing :=
  ((SegmentSharing.new 1000).step originPage (.cache segmentUrl [7])).getD (.new 1000)

/-- Without a query the segment can be requested. -/
theorem requestable_iff_plain_plainSegment :
    Requestable originPage originPage (viewerOf plainSegmentUrl) plainSegmentUrl := by
  have hreach : (system originPage 1000).Reachable (NoClash originPage)
      (viewerOf plainSegmentUrl) := by
    have hstep : (system originPage 1000).step (.new 1000) (.cache plainSegmentUrl [7])
        = some (viewerOf plainSegmentUrl) := rfl
    refine .step (.init rfl) ?_ hstep
    intro other hmem
    cases hmem
  have hplain : PlainUrl originPage plainSegmentUrl :=
    ⟨⟨plainSegmentUrl, "/hls/low/segment_000001.m4s", "", by decide⟩, rfl, rfl,
      List.all_eq_true.mp (by decide +kernel), by decide +kernel, by decide +kernel⟩
  exact (requestable_iff_plain hreach (by decide +kernel) (by decide +kernel) rfl).mpr hplain

/-- With a query it is cached and advertised, and refused by every peer. -/
theorem query_segment_refused :
    ¬ ∀ (page otherPage : UrlParser) (s : SegmentSharing) (segmentUrl : String),
      (system page 1000).Reachable (fun _ _ => True) s → segmentUrl ∈ s.urls →
        s.cache.has (cacheKeyFrom page segmentUrl) = true →
          otherPage.parse segmentUrl = page.parse segmentUrl →
            Requestable page otherPage s segmentUrl := by
  intro h
  have hstep : (system originPage 1000).step (.new 1000) (.cache querySegmentUrl [7])
      = some (viewerOf querySegmentUrl) := rfl
  have hreach : (system originPage 1000).Reachable (fun _ _ => True)
      (viewerOf querySegmentUrl) := .step (.init rfl) trivial hstep
  have hrequestable := h originPage originPage (viewerOf querySegmentUrl) querySegmentUrl hreach
    (by decide +kernel) (by decide +kernel) rfl
  have hparse : originPage.parse querySegmentUrl
      = some ⟨querySegmentUrl, "/hls/low/segment_000001.m4s", "?token=abc", by decide⟩ := rfl
  have hrefused := isSegmentId_of_tilde (tilde_mem_segmentPeerId hparse (by decide))
  have haccepted := waitForRequest_ok_iff.mp hrequestable.accepted
  exact absurd (hrefused.symm.trans haccepted) Bool.false_ne_true

end SegmentSharing

end Sdk

end OpenStreamGrid

import OpenStreamGrid.Common.SegmentHashes
import OpenStreamGrid.Common.SegmentIds
import OpenStreamGrid.Lib.PosixPath

/-!
# The segment files of a playlist

A line of a media playlist that is no tag is a URI, free text of the packager. It
is resolved against the directory of the playlist, and kept where it names a media
segment inside the root.
-/

namespace OpenStreamGrid

/-- `text.split(/\r?\n/)` -/
def splitLines : List Char → List (List Char)
  | [] => [[]]
  | '\r' :: '\n' :: rest => [] :: splitLines rest
  | '\n' :: rest => [] :: splitLines rest
  | c :: rest => (splitLines rest).modifyHead (c :: ·)

/-- `uri.replace(/[?#].*$/, "")`, whose `.` stops at a line terminator -/
def withoutQuery : List Char → List Char
  | [] => []
  | c :: rest =>
      if (c = '?' ∨ c = '#') ∧ rest.all fun c => !Node.isLineTerminator c then []
      else c :: withoutQuery rest

/-- `URI_SCHEME_PATTERN`, `/^[a-z][a-z0-9+.-]*:/i` -/
def hasUriScheme : List Char → Bool
  | [] => false
  | c :: rest =>
      c.isAlpha && (rest.dropWhile fun c => c.isAlphanum || c ∈ ['+', '.', '-']).head? = some ':'

/-- The file a URI names, the empty text for one that does not decode. -/
def resolveUri (directory : AbsolutePath) (uri : List Char) : List Char :=
  match decodeURIComponent (String.ofList uri) with
  | some decoded => (directory.resolve decoded.toList).text
  | none => []

def isMediaSegmentFile (file : List Char) : Bool :=
  (mediaSegmentExtension? (String.ofList file)).isSome

/-- The media segments a playlist lists, as absolute paths inside the root. -/
def playlistSegmentFiles (cwd : AbsolutePath) (playlist playlistPath root : List Char) :
    List (List Char) :=
  let resolvedRoot := (cwd.resolve root).text
  let directory : AbsolutePath := (cwd.resolve playlistPath).dropLast
  let lines := ((splitLines playlist).map trim).filter fun line => line ≠ [] ∧ line.head? ≠ some '#'
  let uris := (lines.map withoutQuery).filter fun uri => ¬ hasUriScheme uri ∧ uri.head? ≠ some '/'
  (uris.map (resolveUri directory)).filter fun file =>
    (resolvedRoot ++ ['/']).isPrefixOf file ∧ isMediaSegmentFile file

/-! ## What is listed -/

theorem isMediaSegmentFile_iff {file : List Char} : isMediaSegmentFile file = true ↔
    ".ts".toList <:+ file ∨ ".m4s".toList <:+ file := by
  unfold isMediaSegmentFile
  rw [isSome_mediaSegmentExtension?_iff, @String.toList_ofList file]

/-- A playlist lists what its URIs resolve to, as far as it is a segment inside the root. -/
theorem mem_playlistSegmentFiles_iff {cwd : AbsolutePath} {playlist playlistPath root : List Char}
    (hroot : cwd.resolve root ≠ []) {file : List Char} :
    file ∈ playlistSegmentFiles cwd playlist playlistPath root ↔
      ∃ line ∈ splitLines playlist, trim line ≠ [] ∧ (trim line).head? ≠ some '#' ∧
        hasUriScheme (withoutQuery (trim line)) = false ∧
        (withoutQuery (trim line)).head? ≠ some '/' ∧
        ∃ decoded, decodeURIComponent (String.ofList (withoutQuery (trim line))) = some decoded ∧
          file = AbsolutePath.text
            (AbsolutePath.resolve (cwd.resolve playlistPath).dropLast decoded.toList) ∧
          (cwd.resolve root).Below
            (AbsolutePath.resolve (cwd.resolve playlistPath).dropLast decoded.toList) ∧
          isMediaSegmentFile file = true := by
  unfold playlistSegmentFiles
  simp only [List.mem_filter, List.mem_map, decide_eq_true_eq, List.isPrefixOf_iff_prefix,
    Bool.not_eq_true]
  constructor
  · rintro ⟨⟨_, ⟨⟨_, ⟨⟨line, hline, rfl⟩, hkept⟩, rfl⟩, hscheme⟩, rfl⟩, hinside, hsegment⟩
    refine ⟨line, hline, hkept.1, hkept.2, hscheme.1, hscheme.2, ?_⟩
    unfold resolveUri at hinside hsegment ⊢
    cases hdecode : decodeURIComponent (String.ofList (withoutQuery (trim line))) with
    | none =>
        simp only [hdecode] at hsegment
        exact absurd hsegment (by decide)
    | some decoded =>
        simp only [hdecode] at hinside hsegment ⊢
        exact ⟨decoded, rfl, rfl, (AbsolutePath.below_iff_text hroot).mpr hinside, hsegment⟩
  · rintro ⟨line, hline, hne, htag, hscheme, hslash, decoded, hdecode, rfl, hbelow, hsegment⟩
    refine ⟨⟨_, ⟨⟨_, ⟨⟨line, hline, rfl⟩, hne, htag⟩, rfl⟩, hscheme, hslash⟩, ?_⟩, ?_, hsegment⟩
    · unfold resolveUri
      simp only [hdecode]
    · exact (AbsolutePath.below_iff_text hroot).mp hbelow

/-- Whatever a playlist says, what it lists is a path inside the root. -/
theorem below_of_mem_playlistSegmentFiles {cwd : AbsolutePath}
    {playlist playlistPath root : List Char} (hroot : cwd.resolve root ≠ []) {file : List Char}
    (h : file ∈ playlistSegmentFiles cwd playlist playlistPath root) :
    ∃ path : AbsolutePath, file = path.text ∧ (cwd.resolve root).Below path ∧
      isMediaSegmentFile file = true := by
  obtain ⟨_, _, _, _, _, _, decoded, _, rfl, hbelow, hsegment⟩ :=
    (mem_playlistSegmentFiles_iff hroot).mp h
  exact ⟨_, rfl, hbelow, hsegment⟩

/-! ## Plain names -/

theorem withoutQuery_of_not_mem {uri : List Char} (hquery : '?' ∉ uri) (hfragment : '#' ∉ uri) :
    withoutQuery uri = uri := by
  induction uri with
  | nil => rfl
  | cons c uri ih =>
      have hc : ¬ ((c = '?' ∨ c = '#') ∧ uri.all fun c => !Node.isLineTerminator c) := by
        rintro ⟨rfl | rfl, -⟩
        · exact hquery List.mem_cons_self
        · exact hfragment List.mem_cons_self
      rw [withoutQuery, if_neg hc, ih (fun h => hquery (List.mem_cons_of_mem c h))
        (fun h => hfragment (List.mem_cons_of_mem c h))]

theorem hasUriScheme_of_not_mem {uri : List Char} (h : ':' ∉ uri) : hasUriScheme uri = false := by
  cases uri with
  | nil => rfl
  | cons c uri =>
      have hhead : (uri.dropWhile fun c => c.isAlphanum || c ∈ ['+', '.', '-']).head?
          ≠ some ':' := by
        intro hcolon
        refine h (List.mem_cons_of_mem c ?_)
        exact (List.dropWhile_sublist _).subset (List.mem_of_mem_head? hcolon)
      show (c.isAlpha && decide _) = false
      rw [decide_eq_false hhead, Bool.and_false]

/-- A text without escapes stands for itself. -/
theorem decodeURIComponent_of_not_mem {uri : List Char} (h : '%' ∉ uri) :
    decodeURIComponent (String.ofList uri) = some (String.ofList uri) := by
  have hbytes : percentDecodedBytes uri = some (uri.flatMap String.utf8EncodeChar) := by
    induction uri with
    | nil => rfl
    | cons c uri ih =>
        have hc : c ≠ '%' := fun heq => h (heq ▸ List.mem_cons_self)
        rw [percentDecodedBytes, ih fun hmem => h (List.mem_cons_of_mem c hmem)]
        · rfl
        · rintro _ _ _ rfl
          exact fun _ => hc rfl
        · exact hc
  unfold decodeURIComponent
  rw [@String.toList_ofList uri, hbytes]
  have hutf8 : (⟨(uri.flatMap String.utf8EncodeChar).toArray⟩ : ByteArray) = uri.utf8Encode :=
    ByteArray.ext List.data_toByteArray.symm
  show String.fromUTF8? ⟨(uri.flatMap String.utf8EncodeChar).toArray⟩ = _
  rw [hutf8, String.fromUTF8?, dif_pos (ByteArray.isValidUTF8_utf8Encode)]
  rfl

theorem ne_of_safe {c : Char} (h : isSafePathCharacter c = true) :
    c ≠ '?' ∧ c ≠ '#' ∧ c ≠ ':' ∧ c ≠ '%' := by
  refine ⟨?_, ?_, ?_, ?_⟩
  all_goals
    rintro rfl
    exact absurd h (by decide)

/-- A segment named by a line of a playlist beside it is listed, wherever the two are below the
root. -/
theorem mem_playlistSegmentFiles_name {cwd directory : AbsolutePath} {root playlist : List Char}
    {name playlistName : FileName} (hroot : cwd.resolve root ≠ [])
    (hdirectory : cwd.resolve root <+: directory) {line : List Char}
    (hline : line ∈ splitLines playlist) (htrim : trim line = name.val)
    (hsafe : ∀ c ∈ name.val, isSafePathCharacter c = true)
    (hsegment : isMediaSegmentFile (AbsolutePath.text (directory ++ [name])) = true) :
    AbsolutePath.text (directory ++ [name]) ∈ playlistSegmentFiles cwd playlist
      (AbsolutePath.text (directory ++ [playlistName])) root := by
  obtain ⟨hname, hslash, -, -⟩ := name.property
  have hquery : withoutQuery name.val = name.val :=
    withoutQuery_of_not_mem (fun h => (ne_of_safe (hsafe _ h)).1 rfl)
      fun h => (ne_of_safe (hsafe _ h)).2.1 rfl
  have hresolve : AbsolutePath.resolve directory name.val = directory ++ [name] := by
    have hhead : name.val.head? ≠ some '/' := fun h => hslash (List.mem_of_mem_head? h)
    rw [AbsolutePath.resolve, List.splitOn_eq_singleton hslash, if_neg hhead]
    exact AbsolutePath.visit_name directory name
  rw [mem_playlistSegmentFiles_iff hroot, AbsolutePath.resolve_text, List.dropLast_concat]
  refine ⟨line, hline, ?_⟩
  rw [htrim, hquery]
  refine ⟨hname, ?_, ?_, ?_, String.ofList name.val, ?_, ?_⟩
  · exact fun h => (ne_of_safe (hsafe _ (List.mem_of_mem_head? h))).2.1 rfl
  · exact hasUriScheme_of_not_mem fun h => (ne_of_safe (hsafe _ h)).2.2.1 rfl
  · exact fun h => hslash (List.mem_of_mem_head? h)
  · exact decodeURIComponent_of_not_mem fun h => (ne_of_safe (hsafe _ h)).2.2.2 rfl
  · rw [String.toList_ofList, hresolve]
    refine ⟨rfl, ?_, hsegment⟩
    obtain ⟨names, rfl⟩ := hdirectory
    rw [List.append_assoc]
    exact AbsolutePath.below_iff_append.mpr ⟨names ++ [name], by simp, rfl⟩

end OpenStreamGrid

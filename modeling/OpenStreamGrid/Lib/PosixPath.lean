import Mathlib.Data.List.DropRight
import Mathlib.Data.List.Infix
import Mathlib.Tactic.Common

/-!
# Paths of a POSIX file system

A normalized absolute path is the list of the names from the root to an entry. A
name carries the proof that it is one, so that a path has one text and a text of a
path is read back as that path. Symbolic links are left out.
-/

namespace OpenStreamGrid

/-- What a directory can list: no separator, and neither `.` nor `..`. -/
def IsFileName (name : List Char) : Prop :=
  name ≠ [] ∧ '/' ∉ name ∧ name ≠ ['.'] ∧ name ≠ ['.', '.']

instance decidableIsFileName (name : List Char) : Decidable (IsFileName name) :=
  inferInstanceAs (Decidable (name ≠ [] ∧ '/' ∉ name ∧ name ≠ ['.'] ∧ name ≠ ['.', '.']))

abbrev FileName : Type := {name : List Char // IsFileName name}

/-- What can be appended to any file name: a dot and at least one more character. -/
abbrev FileSuffix : Type := {suffix : List Char // '/' ∉ suffix ∧ 2 ≤ suffix.length}

def FileName.extend (name : FileName) (suffix : FileSuffix) : FileName :=
  ⟨name.val ++ suffix.val, by
    obtain ⟨hname, hslash, -, -⟩ := name.property
    have hlength : 2 < (name.val ++ suffix.val).length := by
      have hpos := List.length_pos_of_ne_nil hname
      have htwo := suffix.property.2
      rw [List.length_append]
      omega
    refine ⟨fun h => ?_, ?_, fun h => ?_, fun h => ?_⟩
    · rw [h] at hlength
      simp at hlength
    · rw [List.mem_append]
      exact not_or.mpr ⟨hslash, suffix.property.1⟩
    · rw [h] at hlength
      simp at hlength
    · rw [h] at hlength
      simp at hlength⟩

/-- The names from the root of the file system to an entry; the root itself has none. -/
abbrev AbsolutePath : Type := List FileName

namespace AbsolutePath

/-! ## The text of a path -/

/-- The names, each behind a separator. -/
def segments (path : AbsolutePath) : List Char := path.flatMap fun name => '/' :: name.val

def text (path : AbsolutePath) : List Char := if path = [] then ['/'] else path.segments

theorem text_of_ne_nil {path : AbsolutePath} (h : path ≠ []) : path.text = path.segments := if_neg h

theorem segments_append (path names : AbsolutePath) :
    segments (path ++ names) = path.segments ++ segments names := List.flatMap_append

theorem segments_concat (path : AbsolutePath) (name : FileName) :
    segments (path ++ [name]) = path.segments ++ '/' :: name.val := by
  rw [segments_append]
  congr 1
  exact List.flatMap_singleton ..

theorem text_concat (path : AbsolutePath) (name : FileName) :
    text (path ++ [name]) = path.segments ++ '/' :: name.val := by
  rw [text_of_ne_nil (by simp), segments_concat]

/-- Splitting at the separators gives the names back, behind the empty text before the first. -/
theorem splitOn_segments (path : AbsolutePath) :
    path.segments.splitOn '/' = [] :: path.map Subtype.val := by
  induction path using List.reverseRecOn with
  | nil => rfl
  | append_singleton path name ih =>
      rw [segments_concat, List.splitOn_append_cons_self, ih,
        List.splitOn_eq_singleton name.property.2.1, List.map_append]
      rfl

theorem segments_injective : Function.Injective segments := by
  intro path path' h
  have hsplit := congrArg (List.splitOn '/') h
  rw [splitOn_segments, splitOn_segments] at hsplit
  exact List.map_injective_iff.mpr Subtype.val_injective (List.tail_eq_of_cons_eq hsplit)

/-! ## Resolving a text -/

/-- One piece between separators: a name is entered, `..` left, the others stay. -/
def visit (path : AbsolutePath) (piece : List Char) : AbsolutePath :=
  if h : IsFileName piece then path ++ [⟨piece, h⟩]
  else if piece = ['.', '.'] then path.dropLast else path

/-- The entry a text stands for: from the root if it starts there, from a directory else. -/
def resolve (directory : AbsolutePath) (path : List Char) : AbsolutePath :=
  (path.splitOn '/').foldl visit (if path.head? = some '/' then [] else directory)

theorem visit_name (path : AbsolutePath) (name : FileName) :
    visit path name.val = path ++ [name] := dif_pos name.property

theorem foldl_visit_names (names : AbsolutePath) : ∀ path : AbsolutePath,
    (names.map Subtype.val).foldl visit path = path ++ names := by
  induction names with
  | nil =>
      intro path
      exact (List.append_nil path).symm
  | cons name names ih =>
      intro path
      rw [List.map_cons, List.foldl_cons, visit_name, ih, List.append_assoc]
      rfl

/-- The text of a path stands for the path, whatever directory it is read in. -/
@[simp] theorem resolve_text (directory path : AbsolutePath) :
    resolve directory path.text = path := by
  cases path with
  | nil => rfl
  | cons name names =>
      have hhead : (segments (name :: names)).head? = some '/' := rfl
      rw [text_of_ne_nil (List.cons_ne_nil name names), resolve, hhead, if_pos rfl,
        splitOn_segments, List.foldl_cons]
      exact foldl_visit_names (name :: names) []

theorem text_injective : Function.Injective text :=
  Function.LeftInverse.injective fun path => resolve_text [] path

/-! ## Entries below a directory -/

/-- The entry is in the directory or in one of its subdirectories. -/
def Below (root path : AbsolutePath) : Prop := root <+: path ∧ path ≠ root

instance decidableBelow (root path : AbsolutePath) : Decidable (Below root path) :=
  inferInstanceAs (Decidable (root <+: path ∧ path ≠ root))

theorem below_iff_append {root path : AbsolutePath} :
    Below root path ↔ ∃ names : AbsolutePath, names ≠ [] ∧ path = root ++ names := by
  constructor
  · rintro ⟨⟨names, rfl⟩, hne⟩
    refine ⟨names, ?_, rfl⟩
    rintro rfl
    exact hne (List.append_nil root)
  · rintro ⟨names, hnames, rfl⟩
    exact ⟨List.prefix_append root names, fun h => hnames (List.append_right_eq_self.mp h)⟩

theorem Below.ne_nil {root path : AbsolutePath} (h : Below root path) : path ≠ [] := by
  rintro rfl
  exact h.2 (List.prefix_nil.mp h.1).symm

/-- Below a directory are the entries whose text goes on behind its text and a separator. -/
theorem below_iff_text {root path : AbsolutePath} (hroot : root ≠ []) :
    Below root path ↔ root.text ++ ['/'] <+: path.text := by
  rw [text_of_ne_nil hroot]
  constructor
  · intro h
    rw [text_of_ne_nil h.ne_nil]
    obtain ⟨names, hnames, rfl⟩ := below_iff_append.mp h
    obtain ⟨name, rest, rfl⟩ := List.exists_cons_of_ne_nil hnames
    refine ⟨name.val ++ segments rest, ?_⟩
    rw [segments_append, List.append_assoc]
    rfl
  · rintro ⟨rest, hrest⟩
    have hpath : path ≠ [] := by
      rintro rfl
      have hlength := congrArg List.length hrest
      have hpos : 0 < root.segments.length := by
        rw [List.length_pos_iff, Ne, ← show segments [] = [] from rfl]
        exact fun h => hroot (segments_injective h)
      simp only [List.length_append, List.length_singleton] at hlength
      have hone : (text []).length = 1 := rfl
      omega
    rw [text_of_ne_nil hpath, List.append_assoc, List.singleton_append] at hrest
    -- The pieces of the two texts are compared: those of the root come first in the path.
    have hsplit := congrArg (List.splitOn '/') hrest
    rw [List.splitOn_append_cons_self, splitOn_segments, splitOn_segments, List.cons_append,
      List.cons.injEq] at hsplit
    obtain ⟨names, tail, rfl, hnames, htail⟩ := List.map_eq_append_iff.mp hsplit.2.symm
    obtain rfl : names = root := List.map_injective_iff.mpr Subtype.val_injective hnames
    refine below_iff_append.mpr ⟨tail, ?_, rfl⟩
    rintro rfl
    exact List.splitOn_ne_nil '/' rest htail.symm

/-- Nothing has a text that goes on behind that of the root and a second separator. -/
theorem below_of_text {root path : AbsolutePath} (h : root.text ++ ['/'] <+: path.text) :
    Below root path := by
  by_cases hroot : root = []
  · subst hroot
    obtain ⟨rest, hrest⟩ := h
    cases path with
    | nil => cases hrest
    | cons name names =>
        have hslash : '/' ∈ name.val := by
          obtain ⟨c, cs, hname⟩ := List.exists_cons_of_ne_nil name.property.1
          have htext : text (name :: names) = '/' :: c :: (cs ++ segments names) := by
            rw [text_of_ne_nil (List.cons_ne_nil name names), segments, List.flatMap_cons, hname]
            rfl
          rw [htext] at hrest
          injection hrest with _ hrest
          injection hrest with hc _
          rw [hname, ← hc]
          exact List.mem_cons_self
        exact absurd hslash name.property.2.1
  · exact (below_iff_text hroot).mpr h

/-! ## The last name -/

/-- The path with a suffix behind its last name. -/
def extend (path : AbsolutePath) (suffix : FileSuffix) : AbsolutePath :=
  path.dropLast ++ (path.getLast?.map fun name => name.extend suffix).toList

theorem extend_concat (path : AbsolutePath) (name : FileName) (suffix : FileSuffix) :
    extend (path ++ [name]) suffix = path ++ [name.extend suffix] := by
  unfold extend
  rw [List.dropLast_concat, List.getLast?_concat]
  rfl

theorem dropLast_extend {path : AbsolutePath} (h : path ≠ []) (suffix : FileSuffix) :
    (path.extend suffix).dropLast = path.dropLast := by
  rcases List.eq_nil_or_concat' path with rfl | ⟨parent, name, rfl⟩
  · exact absurd rfl h
  · rw [extend_concat, List.dropLast_concat, List.dropLast_concat]

theorem text_extend {path : AbsolutePath} (h : path ≠ []) (suffix : FileSuffix) :
    (path.extend suffix).text = path.text ++ suffix.val := by
  rcases List.eq_nil_or_concat' path with rfl | ⟨parent, name, rfl⟩
  · exact absurd rfl h
  · rw [extend_concat, text_concat, text_concat, List.append_assoc, List.cons_append]
    rfl

theorem extend_injective {path path' : AbsolutePath} {suffix : FileSuffix} (h : path ≠ [])
    (h' : path' ≠ []) (heq : path.extend suffix = path'.extend suffix) : path = path' := by
  have htext := congrArg text heq
  rw [text_extend h, text_extend h'] at htext
  exact text_injective (List.append_cancel_right htext)

/-- A path with a suffix is in the same directory. -/
theorem Below.extend {root path : AbsolutePath} (h : Below root path) (suffix : FileSuffix) :
    Below root (path.extend suffix) := by
  obtain ⟨names, hnames, rfl⟩ := below_iff_append.mp h
  rcases List.eq_nil_or_concat' names with rfl | ⟨parent, name, rfl⟩
  · exact absurd rfl hnames
  · rw [← List.append_assoc, extend_concat, List.append_assoc]
    exact below_iff_append.mpr ⟨parent ++ [name.extend suffix], by simp, rfl⟩

/-- What follows the last separator. -/
def basename (path : List Char) : List Char :=
  (path.rdropWhile (· = '/')).rtakeWhile (· ≠ '/')

theorem basename_text (path : AbsolutePath) (name : FileName) :
    basename (text (path ++ [name])) = name.val := by
  obtain ⟨hname, hslash, -, -⟩ := name.property
  have hlast : (path.segments ++ '/' :: name.val).rdropWhile (· = '/')
      = path.segments ++ '/' :: name.val := by
    refine List.rdropWhile_eq_self_iff.mpr fun hne => ?_
    have hmem : (path.segments ++ '/' :: name.val).getLast hne ∈ name.val := by
      rw [List.getLast_append_of_ne_nil _ (List.cons_ne_nil _ _), List.getLast_cons hname]
      exact List.getLast_mem hname
    rw [decide_eq_true_eq]
    exact fun h => hslash (h ▸ hmem)
  have hreverse : ∀ c ∈ name.val.reverse, decide (c ≠ '/') = true := by
    intro c hc
    refine decide_eq_true ?_
    rintro rfl
    exact hslash (List.mem_reverse.mp hc)
  rw [text_concat, basename, hlast, List.rtakeWhile, List.reverse_append, List.reverse_cons,
    List.append_assoc, List.takeWhile_append_of_pos hreverse]
  simp

/-- The way from a directory to an entry: up to what they share, then down. -/
def relative (directory path : AbsolutePath) : List Char :=
  let shared := ((directory.zip path).takeWhile fun names => names.1 = names.2).length
  ['/'].intercalate (List.replicate (directory.length - shared) ['.', '.'] ++
    (path.drop shared).map Subtype.val)

end AbsolutePath

end OpenStreamGrid

/-
# The parts of a generated file's path

A path is put together with slashes and taken apart at slashes, so it has the parts it
was put together from as long as these hold no slash (`rawParts_joined_append`). The
folders of a package are identifiers, which hold neither slashes nor dots, so each of
them is one part of the path that leads one folder down (`IsName`), and no two packages
have the same folders (`segments_injective`).

The last part is the file's name with its extension. The name is checked and the
extension is not. It is one part that leads down exactly if the extension holds no slash
and there is an extension where the name is `.` or `..` (`isName_fullName_iff`); then
the path has just the folders and the full name as its parts, and otherwise it does not
(`ordinary_iff`). A path is relative in any case and begins with the folders.

Key definitions: `IsName`, `segments`, `Ordinary`, `PlainName`.
Key theorems: `pathKey_joined`, `ordinary_iff`, `samePath_iff`.
-/
import Mathlib.Data.List.Basic
import SymbolGraph.Output.Path

namespace SymbolGraph
namespace Output

/-! ### Taking a path apart -/

/-- The pieces are those of the library's function. -/
theorem pieces_eq_splitOn (separator : Char) : ∀ cs : List Char,
    pieces separator cs = cs.splitOn separator
  | [] => by rw [pieces, List.splitOn_nil]
  | c :: rest => by
    have ih := pieces_eq_splitOn separator rest
    unfold List.splitOn at ih ⊢
    rw [pieces, List.splitOnP_cons_eq_if_modifyHead, ih]
    by_cases hc : c = separator
    · rw [if_pos hc, if_pos (beq_iff_eq.mpr hc)]
    · rw [if_neg hc, if_neg fun hb => hc (beq_iff_eq.mp hb)]
      cases hs : List.splitOnP (· == separator) rest with
      | nil => exact absurd hs (List.splitOnP_ne_nil _ _)
      | cons p ps => rfl

theorem rawParts_eq (path : String) :
    rawParts path = (path.toList.splitOn '/').map String.ofList := by
  rw [rawParts, pieces_eq_splitOn]

/-- A text without slashes is one part. -/
theorem rawParts_of_no_slash {part : String} (h : '/' ∉ part.toList) : rawParts part = [part] := by
  rw [rawParts_eq, List.splitOn_eq_singleton h, List.map_singleton, String.ofList_toList]

/-- What stands before a slash comes apart from what follows. -/
theorem rawParts_append {part : String} (h : '/' ∉ part.toList) (rest : String) :
    rawParts (part ++ "/" ++ rest) = part :: rawParts rest := by
  have hchars : (part ++ "/" ++ rest).toList = part.toList ++ '/' :: rest.toList := by
    simp [String.toList_append]
  have hsplit : List.splitOn '/' (part.toList ++ '/' :: rest.toList) =
      List.splitOn '/' part.toList ++ List.splitOn '/' rest.toList := by
    unfold List.splitOn
    exact List.splitOnP_append_cons _ _ (beq_self_eq_true _)
  rw [rawParts_eq, rawParts_eq, hchars, hsplit, List.splitOn_eq_singleton h, List.map_append,
    List.map_singleton, String.ofList_toList, List.singleton_append]

/-- Parts that are put together come apart again, and the last one comes apart as a path. -/
theorem rawParts_joined_append {parts : List String} (h : ∀ p ∈ parts, '/' ∉ p.toList)
    (last : String) : rawParts (joined (parts ++ [last])) = parts ++ rawParts last := by
  induction parts with
  | nil => simp [joined]
  | cons part parts ih =>
    have hne : parts ++ [last] ≠ [] := by simp
    have hrest : ∀ p ∈ parts, '/' ∉ p.toList := fun p hp => h p (List.mem_cons_of_mem _ hp)
    rw [List.cons_append, joined, String.intercalate_cons_of_ne_nil hne,
      rawParts_append (h part List.mem_cons_self), ← joined, ih hrest, List.cons_append]

/-! ### Parts that lead one folder down -/

/-- A part of a path that leads to what bears its name. -/
structure IsName (part : String) : Prop where
  nonempty : part ≠ ""
  notDot : part ≠ "."
  notUp : part ≠ ".."
  noSlash : '/' ∉ part.toList

theorem countingParts_append (parts rest : List String) :
    countingParts (parts ++ rest) = countingParts parts ++ countingParts rest :=
  List.filter_append _ _

/-- Names count. -/
theorem countingParts_of_names {parts : List String} (h : ∀ p ∈ parts, IsName p) :
    countingParts parts = parts := by
  refine List.filter_eq_self.mpr fun p hp => ?_
  rw [Bool.and_eq_true, bne_iff_ne, bne_iff_ne]
  exact ⟨(h p hp).nonempty, (h p hp).notDot⟩

/-- A path with a first part that is neither empty nor a dot is relative. -/
theorem pathKey_of_first {path first : String} {rest : List String}
    (h : rawParts path = first :: rest) (hempty : first ≠ "") (hdot : first ≠ ".") :
    pathKey path = ⟨false, countingParts (first :: rest)⟩ := by
  unfold pathKey
  rw [h]
  split
  · rename_i heq
    exact absurd (List.cons.inj heq).1 hdot
  · rename_i heq
    exact absurd (List.cons.inj heq).1 hempty
  · rfl

/-- A path is relative if its first part is not empty. -/
theorem relative_of_first {path first : String} {rest : List String}
    (h : rawParts path = first :: rest) (hempty : first ≠ "") :
    (pathKey path).absolute = false := by
  by_cases hdot : first = "."
  · subst hdot
    unfold pathKey
    rw [h]
    rfl
  · rw [pathKey_of_first h hempty hdot]

/-- The first part of a text that starts with something else than a slash is not empty. -/
theorem exists_first_of_toList {path : String} {c : Char} {cs : List Char}
    (h : path.toList = c :: cs) (hc : c ≠ '/') :
    ∃ first rest, rawParts path = first :: rest ∧ first ≠ "" := by
  rw [rawParts, h, pieces, if_neg hc]
  cases hp : pieces '/' cs with
  | nil => exact absurd hp (pieces_ne_nil _ _)
  | cons p ps =>
    refine ⟨String.ofList (c :: p), ps.map String.ofList, rfl, fun hempty => ?_⟩
    exact absurd (congrArg String.toList hempty) (by simp)

/-- Names that are put together are the parts of the path. -/
theorem pathKey_joined {parts : List String} {last : String}
    (h : ∀ p ∈ parts ++ [last], IsName p) :
    pathKey (joined (parts ++ [last])) = ⟨false, parts ++ [last]⟩ := by
  have hparts : ∀ p ∈ parts, '/' ∉ p.toList := fun p hp => (h p (List.mem_append_left _ hp)).noSlash
  have hlast : IsName last := h last (by simp)
  have hraw : rawParts (joined (parts ++ [last])) = parts ++ [last] := by
    rw [rawParts_joined_append hparts, rawParts_of_no_slash hlast.noSlash]
  obtain ⟨first, rest, hfirst⟩ : ∃ first rest, parts ++ [last] = first :: rest :=
    List.exists_cons_of_ne_nil (by simp)
  have hname : IsName first := h first (by simp [hfirst])
  rw [pathKey_of_first (hraw.trans hfirst) hname.nonempty hname.notDot, ← hfirst,
    countingParts_of_names h]

/-- An identifier is a name: it holds no slash and does not start with a dot. -/
theorem isName_of_isIdentifier {part : String} (h : isIdentifier part.toList = true) :
    IsName part := by
  refine ⟨?_, ?_, ?_, fun hslash => ?_⟩
  · rintro rfl
    exact absurd h (by decide)
  · rintro rfl
    exact absurd h (by decide)
  · rintro rfl
    exact absurd h (by decide)
  · cases hcs : part.toList with
    | nil =>
      rw [hcs] at hslash
      exact absurd hslash List.not_mem_nil
    | cons c rest =>
      rw [hcs, isIdentifier, Bool.and_eq_true, List.all_eq_true] at h
      rw [hcs] at hslash
      rcases List.mem_cons.mp hslash with rfl | hrest
      · exact absurd h.1 (by decide)
      · exact absurd (h.2 '/' hrest) (by decide)

/-! ### The folders of a package -/

/-- The parts of a package between its dots; the root package has none. -/
def segments (package : String) : List String :=
  if package.isEmpty then [] else (pieces '.' package.toList).map String.ofList

theorem folders?_eq_some_iff {package : String} {folders : List String} :
    folders? package = some folders ↔
      folders = segments package ∧ ∀ s ∈ segments package, isIdentifier s.toList = true := by
  unfold folders? segments
  by_cases hempty : package.isEmpty = true
  · rw [if_pos hempty, if_pos hempty, Option.some.injEq, eq_comm]
    simp
  · rw [if_neg hempty, if_neg hempty, List.forall_mem_map]
    simp only [String.toList_ofList]
    by_cases hall : (pieces '.' package.toList).all isIdentifier = true
    · rw [if_pos hall, Option.some.injEq, eq_comm, and_iff_left (List.all_eq_true.mp hall)]
    · rw [if_neg hall]
      exact ⟨fun hf => absurd hf (by simp), fun hf => absurd (List.all_eq_true.mpr hf.2) hall⟩

/-- Packages with the same folders are the same. -/
theorem segments_injective {package package' : String} (h : segments package = segments package') :
    package = package' := by
  have hsome : ∀ name : String, (pieces '.' name.toList).map String.ofList ≠ [] := by
    intro name hnil
    exact pieces_ne_nil '.' name.toList (List.map_eq_nil_iff.mp hnil)
  have hback : ∀ name : String, ['.'].intercalate (pieces '.' name.toList) = name.toList := by
    intro name
    rw [pieces_eq_splitOn, List.intercalate_splitOn]
  unfold segments at h
  by_cases he : package.isEmpty = true
  · by_cases he' : package'.isEmpty = true
    · rw [String.isEmpty_iff.mp he, String.isEmpty_iff.mp he']
    · rw [if_pos he, if_neg he'] at h
      exact absurd h.symm (hsome package')
  · by_cases he' : package'.isEmpty = true
    · rw [if_neg he, if_pos he'] at h
      exact absurd h (hsome package)
    · rw [if_neg he, if_neg he'] at h
      have hpieces : pieces '.' package.toList = pieces '.' package'.toList :=
        List.map_injective_iff.mpr (fun _ _ hs => String.ofList_injective hs) h
      rw [← String.toList_inj, ← hback package, ← hback package', hpieces]

/-! ### The name of a file -/

/-- A file's name and its extension make one part of a path that leads down. -/
def PlainName (name extension : String) : Prop :=
  '/' ∉ extension.toList ∧ (extension = "" → name ≠ "." ∧ name ≠ "..")

theorem nonempty_and_noSlash_of_isFileName {name : String} (h : isFileName name = true) :
    name ≠ "" ∧ '/' ∉ name.toList := by
  rw [isFileName, Bool.and_eq_true, Bool.not_eq_true', Bool.not_eq_true', List.any_eq_false] at h
  refine ⟨fun hempty => ?_, fun hslash => ?_⟩
  · rw [hempty] at h
    exact absurd h.1 (by simp)
  · exact h.2 '/' hslash (by decide)

/-- The full name of a file does not start with a slash. -/
theorem exists_toList_fullName {name : String} (h : isFileName name = true) (extension : String) :
    ∃ c cs, (fullName name extension).toList = c :: cs ∧ c ≠ '/' := by
  obtain ⟨hempty, hslash⟩ := nonempty_and_noSlash_of_isFileName h
  obtain ⟨c, cs, hchars⟩ : ∃ c cs, name.toList = c :: cs :=
    List.exists_cons_of_ne_nil fun hnil => hempty (String.toList_inj.mp hnil)
  have hc : c ≠ '/' := fun heq => hslash (by rw [hchars, heq]; exact List.mem_cons_self)
  unfold fullName
  split
  · exact ⟨c, cs, hchars, hc⟩
  · refine ⟨c, cs ++ ['.'] ++ extension.toList, ?_, hc⟩
    simp [String.toList_append, hchars]

/-- The full name of a file is a name if its own name and extension allow it. -/
theorem isName_fullName_iff {name extension : String} (h : isFileName name = true) :
    IsName (fullName name extension) ↔ PlainName name extension := by
  obtain ⟨hempty, hslash⟩ := nonempty_and_noSlash_of_isFileName h
  by_cases hext : extension = ""
  · subst hext
    rw [fullName, if_pos (by simp), PlainName]
    exact ⟨fun hn => ⟨by simp, fun _ => ⟨hn.notDot, hn.notUp⟩⟩,
      fun hp => ⟨hempty, (hp.2 rfl).1, (hp.2 rfl).2, hslash⟩⟩
  · have hfull : fullName name extension = name ++ "." ++ extension := by
      rw [fullName, if_neg (mt String.isEmpty_iff.mp hext)]
    have hlength : 3 ≤ (fullName name extension).length := by
      have h1 : 0 < name.length := Nat.pos_of_ne_zero fun h0 => hempty (String.length_eq_zero_iff.mp h0)
      have h2 : 0 < extension.length :=
        Nat.pos_of_ne_zero fun h0 => hext (String.length_eq_zero_iff.mp h0)
      have hdot : (".").length = 1 := by decide
      rw [hfull, String.length_append, String.length_append, hdot]
      omega
    have hshort : ∀ s : String, s.length < 3 → fullName name extension ≠ s := by
      intro s hs heq
      rw [heq] at hlength
      omega
    have hmem : '/' ∈ (fullName name extension).toList ↔ '/' ∈ extension.toList := by
      rw [hfull, String.toList_append, String.toList_append, List.mem_append, List.mem_append]
      simp [hslash]
    constructor
    · exact fun hn => ⟨mt hmem.mpr hn.noSlash, fun he => absurd he hext⟩
    · exact fun hp => ⟨hshort _ (by decide), hshort _ (by decide), hshort _ (by decide),
        mt hmem.mp hp.1⟩

/-! ### The path of a file -/

/-- The path is relative, and just the given names are its parts. -/
def Ordinary (path : String) (parts : List String) : Prop :=
  pathKey path = ⟨false, parts⟩ ∧ ∀ p ∈ parts, IsName p

variable {package name extension path : String}

theorem isName_of_mem_segments (h : relativePath package name extension = .ok path) :
    ∀ s ∈ segments package, IsName s := by
  obtain ⟨-, folders, hfolders, -⟩ := (relativePath_eq_ok_iff _ _ _ _).mp h
  exact fun s hs => isName_of_isIdentifier ((folders?_eq_some_iff.mp hfolders).2 s hs)

theorem eq_joined_of_relativePath (h : relativePath package name extension = .ok path) :
    path = joined (segments package ++ [fullName name extension]) := by
  obtain ⟨-, folders, hfolders, hpath⟩ := (relativePath_eq_ok_iff _ _ _ _).mp h
  rw [hpath, (folders?_eq_some_iff.mp hfolders).1]

/-- **A path has the folders of the package and the full name of the file as its parts exactly
if the name is plain.** -/
theorem ordinary_iff (h : relativePath package name extension = .ok path) :
    Ordinary path (segments package ++ [fullName name extension]) ↔ PlainName name extension := by
  have hname : isFileName name = true := ((relativePath_eq_ok_iff _ _ _ _).mp h).1
  rw [← isName_fullName_iff hname, eq_joined_of_relativePath h]
  constructor
  · exact fun hordinary => hordinary.2 _ (by simp)
  · intro hfull
    have hnames : ∀ p ∈ segments package ++ [fullName name extension], IsName p := by
      intro p hp
      rcases List.mem_append.mp hp with hp | hp
      · exact isName_of_mem_segments h p hp
      · exact List.mem_singleton.mp hp ▸ hfull
    exact ⟨pathKey_joined hnames, hnames⟩

/-- **Whatever the name, a path is relative and begins with the folders of the package.** -/
theorem relative_of_relativePath (h : relativePath package name extension = .ok path) :
    (pathKey path).absolute = false ∧ segments package <+: (pathKey path).parts := by
  have hsegments := isName_of_mem_segments h
  have hname : isFileName name = true := ((relativePath_eq_ok_iff _ _ _ _).mp h).1
  have hraw : rawParts path = segments package ++ rawParts (fullName name extension) := by
    rw [eq_joined_of_relativePath h]
    exact rawParts_joined_append (fun s hs => (hsegments s hs).noSlash) _
  cases hs : segments package with
  | nil =>
    -- the path is the full name, which starts as the name does
    obtain ⟨c, cs, hchars, hc⟩ := exists_toList_fullName hname extension
    obtain ⟨first, rest, hfirst, hempty⟩ := exists_first_of_toList hchars hc
    rw [hs, List.nil_append, hfirst] at hraw
    exact ⟨relative_of_first hraw hempty, List.nil_prefix⟩
  | cons first rest =>
    have hfirst : IsName first := hsegments first (by simp [hs])
    rw [hs] at hraw hsegments
    refine ⟨relative_of_first hraw hfirst.nonempty, ?_⟩
    rw [pathKey_of_first hraw hfirst.nonempty hfirst.notDot]
    show first :: rest <+: countingParts (first :: rest ++ rawParts (fullName name extension))
    rw [countingParts_append, countingParts_of_names hsegments]
    exact List.prefix_append _ _

/-- **Two paths with plain names are the same exactly if the packages and the full names
are.** -/
theorem samePath_iff {package' name' extension' path' : String}
    (h : relativePath package name extension = .ok path) (hplain : PlainName name extension)
    (h' : relativePath package' name' extension' = .ok path')
    (hplain' : PlainName name' extension') :
    samePath path path' = true ↔
      package = package' ∧ fullName name extension = fullName name' extension' := by
  have hkey := ((ordinary_iff h).mpr hplain).1
  have hkey' := ((ordinary_iff h').mpr hplain').1
  rw [samePath, hkey, hkey', beq_iff_eq, PathKey.mk.injEq, and_iff_right rfl]
  constructor
  · intro heq
    obtain ⟨hsegments, hname⟩ := List.append_inj' heq rfl
    exact ⟨segments_injective hsegments, (List.cons.inj hname).1⟩
  · rintro ⟨hpackage, hname⟩
    rw [hpackage, hname]

end Output
end SymbolGraph

/-
# Generated files stay below their folder

Following a path without `..` leads down only (`folder_eq_append`). So what is made on
the way to a file, the file included, bears a path that the file's own path begins with
(`MadeToward`): each step of making the folders and the file adds such entries to the
disk or none, also where it fails in the end. A plain name keeps `..` and slashes out of
the path, and then everything made for a file is below the folder that generated files
go to, and the file is where its package and its name say.

The extension is not checked, and neither are names that are a dot or two. With these a
request that is accepted can lead out of the folder, or to the path of another file
(`leaves_the_root`).

Key definitions: `Disk.MadeToward`.
Key theorems: `Disk.makeFolders_toward`, `Disk.makeFile_toward`, `openFile_toward`,
`generated_file_below_root`, `leaves_the_root`.
-/
import SymbolGraph.Output.Folder
import SymbolGraph.Proofs.GeneratedPaths

namespace SymbolGraph
namespace Output

namespace Disk

variable {d d' d'' : Disk} {target above : List String} {name : String}

/-! ### Entries on the way to a path -/

/-- The disk `d'` is `d` with some entries more, each on the way to the target. -/
def MadeToward (target : List String) (d d' : Disk) : Prop :=
  ∃ made, d'.entries = d.entries ++ made ∧ ∀ e ∈ made, e.1 ≠ [] ∧ e.1 <+: target

theorem MadeToward.refl (target : List String) (d : Disk) : MadeToward target d d :=
  ⟨[], by simp, by simp⟩

theorem MadeToward.trans (h : MadeToward target d d') (h' : MadeToward target d' d'') :
    MadeToward target d d'' := by
  obtain ⟨made, heq, hmade⟩ := h
  obtain ⟨made', heq', hmade'⟩ := h'
  refine ⟨made ++ made', by rw [heq', heq, List.append_assoc], fun e he => ?_⟩
  rcases List.mem_append.mp he with he | he
  · exact hmade e he
  · exact hmade' e he

/-- One entry more, on the way to the target. -/
theorem MadeToward.single {entry : DiskEntry} (hpath : above ++ [name] <+: target)
    (h : d'.entries = d.entries ++ [(above ++ [name], entry)]) : MadeToward target d d' := by
  refine ⟨_, h, fun e he => ?_⟩
  rw [List.mem_singleton.mp he]
  exact ⟨by simp, hpath⟩

/-! ### Following a path down -/

/-- A path without `..` leads to the folder of its parts. -/
theorem folder_eq_append : ∀ {path here there : List String}, ".." ∉ path →
    d.folder here path = .ok there → there = here ++ path
  | [], here, there, _, h => by
    rw [folder] at h
    rw [List.append_nil]
    exact (Except.ok.inj h).symm
  | part :: rest, here, there, hup, h => by
    have hpart : part ≠ ".." := fun heq => hup (heq ▸ List.mem_cons_self)
    have hrest : ".." ∉ rest := fun hm => hup (List.mem_cons_of_mem _ hm)
    rw [folder, if_neg hpart] at h
    cases hn : checkName part with
    | error f => simp [hn] at h
    | ok _ =>
      cases he : d.entry? (here ++ [part]) with
      | none => simp [hn, he] at h
      | some entry =>
        cases entry with
        | file blob => simp [hn, he] at h
        | folder =>
          simp only [hn, he] at h
          rw [folder_eq_append hrest h, List.append_assoc, List.singleton_append]

theorem not_up_above (hup : ".." ∉ target) (hpath : above ++ [name] <+: target) :
    ".." ∉ above := fun hm => hup (hpath.subset (List.mem_append_left _ hm))

/-! ### What is made -/

/-- A folder that is made is one entry more, in the folder that the path leads to. -/
theorem entries_of_makeFolder (h : d.makeFolder above name = .ok d') :
    ∃ here, d.folder [] above = .ok here ∧
      d'.entries = d.entries ++ [(here ++ [name], .folder)] := by
  unfold makeFolder at h
  split at h
  · exact absurd h (by simp)
  · split at h
    · exact absurd h (by simp)
    · rename_i here hhere
      split at h
      · exact absurd h (by simp)
      · split at h
        · exact absurd h (by simp)
        · split at h
          · exact absurd h (by simp)
          · exact ⟨here, hhere, (congrArg Disk.entries (Except.ok.inj h)).symm⟩

/-- A file that is made is there already, or is one entry more. -/
theorem makeFile_cases {isFolderPath : Bool} {blob : Nat}
    (h : d.makeFile above name isFolderPath = .ok (d', blob)) :
    ∃ here, d.folder [] above = .ok here ∧
      ((d'.entries = d.entries ∧ d.entry? (here ++ [name]) = some (.file blob)) ∨
        (d'.entries = d.entries ++ [(here ++ [name], .file blob)] ∧
          d.entry? (here ++ [name]) = none)) := by
  unfold makeFile at h
  split at h
  · exact absurd h (by simp)
  · split at h
    · exact absurd h (by simp)
    · rename_i here hhere
      refine ⟨here, hhere, ?_⟩
      split at h
      · exact absurd h (by simp)
      · split at h
        · exact absurd h (by simp)
        · split at h
          · exact absurd h (by simp)
          · rename_i old hold
            obtain ⟨rfl, rfl⟩ := Prod.mk.inj (Except.ok.inj h)
            exact Or.inl ⟨rfl, hold⟩
          · rename_i hnone
            obtain ⟨rfl, rfl⟩ := Prod.mk.inj (Except.ok.inj h)
            exact Or.inr ⟨rfl, hnone⟩

theorem entry?_append_singleton {path : List String} {entry : DiskEntry} (hne : path ≠ [])
    (hnone : d.entry? path = none) (h : d'.entries = d.entries ++ [(path, entry)]) :
    d'.entry? path = some entry := by
  have hempty : ¬ path.isEmpty = true := fun he => hne (List.isEmpty_iff.mp he)
  unfold entry? at hnone ⊢
  rw [if_neg hempty] at hnone ⊢
  rw [h, List.lookup_append, hnone, Option.none_or, List.lookup_cons_self]

/-! ### Made on the way -/

variable (hup : ".." ∉ target)
include hup

theorem makeFolder_toward (hpath : above ++ [name] <+: target)
    (h : d.makeFolder above name = .ok d') : MadeToward target d d' := by
  obtain ⟨here, hhere, hentries⟩ := entries_of_makeFolder h
  have heq : here = above := by
    rw [folder_eq_append (not_up_above hup hpath) hhere, List.nil_append]
  exact .single hpath (heq ▸ hentries)

theorem ensureFolder_toward (hpath : above ++ [name] <+: target)
    (h : d.ensureFolder above name = .ok d') : MadeToward target d d' := by
  unfold ensureFolder at h
  split at h
  · rename_i made hmade
    rw [← Except.ok.inj h]
    exact makeFolder_toward hup hpath hmade
  · split at h
    · rw [← Except.ok.inj h]
      exact .refl target d
    · exact absurd h (by simp)

/-- **Making a folder and all above it adds entries on the way only**, whether or not it
succeeds. -/
theorem makeFolders_toward : ∀ {path : List String}, path.reverse <+: target →
    MadeToward target d (d.makeFolders path).2
  | [], _ => .refl target d
  | name :: above, hpath => by
    rw [List.reverse_cons] at hpath
    have habove : above.reverse <+: target := (List.prefix_append _ _).trans hpath
    have ih : MadeToward target d (d.makeFolders above).2 := makeFolders_toward habove
    unfold makeFolders
    split
    · rename_i made hmade
      exact makeFolder_toward hup hpath hmade
    · -- something above is missing, so the folders above come first
      split
      · rename_i d' hd
        rw [hd] at ih
        exact ih
      · rename_i d' hd
        rw [hd] at ih
        split
        · rename_i made hmade
          exact ih.trans (ensureFolder_toward hup hpath hmade)
        · exact ih
    · split
      · exact .refl target d
      · exact .refl target d

/-- **A file that is made is found at its path**, and nothing is new but that. -/
theorem makeFile_toward {isFolderPath : Bool} {blob : Nat} (hpath : above ++ [name] <+: target)
    (h : d.makeFile above name isFolderPath = .ok (d', blob)) :
    MadeToward target d d' ∧ d'.entry? (above ++ [name]) = some (.file blob) := by
  obtain ⟨here, hhere, hcases⟩ := makeFile_cases h
  have heq : here = above := by
    rw [folder_eq_append (not_up_above hup hpath) hhere, List.nil_append]
  subst heq
  rcases hcases with ⟨hentries, hold⟩ | ⟨hentries, hnone⟩
  · refine ⟨⟨[], by rw [hentries, List.append_nil], by simp⟩, ?_⟩
    rw [← hold]
    unfold entry?
    rw [hentries]
  · exact ⟨.single hpath hentries, entry?_append_singleton (by simp) hnone hentries⟩

end Disk

/-! ### Below the folder of generated files -/

theorem openFile_toward (d : Disk) {path : String} {above : List String} {name : String}
    (hkey : (pathKey path).parts = above ++ [name]) (hup : ".." ∉ above ++ [name]) :
    Disk.MadeToward (above ++ [name]) d (openFile d path).2 ∧
      ∀ blob, (openFile d path).1 = .ok blob →
        Disk.entry? (openFile d path).2 (above ++ [name]) = some (.file blob) := by
  have hfolders : Disk.MadeToward (above ++ [name]) d (d.makeFolders above.reverse).2 := by
    refine Disk.makeFolders_toward hup ?_
    rw [List.reverse_reverse]
    exact List.prefix_append _ _
  have hreverse : (above ++ [name]).reverse = name :: above.reverse := by simp
  simp only [openFile, hkey, hreverse, List.reverse_reverse]
  split
  · rename_i f d' hd
    rw [hd] at hfolders
    exact ⟨hfolders, fun blob hb => absurd hb (by simp)⟩
  · rename_i d' hd
    rw [hd] at hfolders
    split
    · exact ⟨hfolders, fun blob hb => absurd hb (by simp)⟩
    · rename_i d'' blob hmade
      obtain ⟨hfile, hentry⟩ := Disk.makeFile_toward hup (List.prefix_refl _) hmade
      exact ⟨hfolders.trans hfile, fun b hb => Except.ok.inj hb ▸ hentry⟩

theorem isName_rootName : IsName rootName :=
  ⟨by decide, by decide, by decide, by decide⟩

/-- A path of names below the folder of generated files has the folder before its parts. -/
theorem pathKey_belowRoot {parts : List String} {last : String}
    (h : ∀ p ∈ parts ++ [last], IsName p) :
    (pathKey (belowRoot (joined (parts ++ [last])))).parts = rootName :: parts ++ [last] := by
  have hbelow : belowRoot (joined (parts ++ [last])) = joined (rootName :: parts ++ [last]) := by
    rw [belowRoot, joined, joined, List.cons_append, String.intercalate_cons_of_ne_nil (by simp)]
  have hnames : ∀ p ∈ rootName :: parts ++ [last], IsName p :=
    List.forall_mem_cons.mpr ⟨isName_rootName, h⟩
  rw [hbelow, pathKey_joined hnames]

variable {package name extension path : String}

/-- **What is made for a file with a plain name is below the folder of generated files**, and
the file is at the path of its package and its full name. -/
theorem create_toward (h : relativePath package name extension = .ok path)
    (hplain : PlainName name extension) (g : Folder) (d : Disk) (origins : List String) :
    Disk.MadeToward (rootName :: segments package ++ [fullName name extension]) d
        (g.create d origins package name extension).2.2 ∧
      ∀ w, (g.create d origins package name extension).1 = .ok w →
        Disk.entry? (g.create d origins package name extension).2.2
          (rootName :: segments package ++ [fullName name extension]) = some (.file w.blob) := by
  have hnames := ((ordinary_iff h).mpr hplain).2
  have hkey := pathKey_belowRoot hnames
  rw [← eq_joined_of_relativePath h] at hkey
  have hup : ".." ∉ rootName :: segments package ++ [fullName name extension] := by
    intro hm
    rcases List.mem_cons.mp hm with heq | hm
    · exact isName_rootName.notUp heq.symm
    · exact (hnames _ hm).notUp rfl
  have hopen := openFile_toward d hkey hup
  simp only [Folder.create, h]
  split
  · exact ⟨.refl _ d, fun w hw => absurd hw (by simp)⟩
  · split
    · rename_i f d' hd
      rw [hd] at hopen
      exact ⟨hopen.1, fun w hw => absurd hw (by simp)⟩
    · rename_i blob d' hd
      rw [hd] at hopen
      refine ⟨hopen.1, fun w hw => ?_⟩
      obtain rfl := Except.ok.inj hw
      exact hopen.2 blob rfl

/-- **A generated file is where its package and its name say, below the folder of generated
files, if its name is plain**; then no other package and full name have its path. The path
of any request is relative and begins with the folders of the package. -/
theorem generated_file_below_root (h : relativePath package name extension = .ok path) :
    ((pathKey path).absolute = false ∧ segments package <+: (pathKey path).parts) ∧
    (Ordinary path (segments package ++ [fullName name extension]) ↔ PlainName name extension) ∧
    (PlainName name extension →
      (∀ package' name' extension' path', relativePath package' name' extension' = .ok path' →
        PlainName name' extension' →
        (samePath path path' = true ↔
          package = package' ∧ fullName name extension = fullName name' extension')) ∧
      ∀ (g : Folder) (d : Disk) (origins : List String),
        (∃ made, (g.create d origins package name extension).2.2.entries = d.entries ++ made ∧
          ∀ e ∈ made, [rootName] <+: e.1 ∧
            e.1 <+: rootName :: segments package ++ [fullName name extension]) ∧
        ∀ w, (g.create d origins package name extension).1 = .ok w →
          Disk.entry? (g.create d origins package name extension).2.2
            (rootName :: segments package ++ [fullName name extension]) = some (.file w.blob)) := by
  refine ⟨relative_of_relativePath h, ordinary_iff h, fun hplain => ⟨?_, fun g d origins => ?_⟩⟩
  · exact fun _ _ _ _ h' hplain' => samePath_iff h hplain h' hplain'
  · obtain ⟨⟨made, heq, hmade⟩, hfile⟩ := create_toward h hplain g d origins
    refine ⟨⟨made, heq, fun e he => ?_⟩, hfile⟩
    obtain ⟨hne, hpath⟩ := hmade e he
    obtain ⟨first, rest, hfirst⟩ := List.exists_cons_of_ne_nil hne
    refine ⟨?_, hpath⟩
    rw [hfirst] at hpath ⊢
    have hroot : first = rootName := (List.cons_prefix_cons.mp hpath).1
    exact hroot ▸ List.cons_prefix_cons.mpr ⟨rfl, List.nil_prefix⟩

/-- The file `UserDao.kt` of the package `com.example` goes to its own path, which no other
request has, below the folder of generated files. -/
theorem generated_file_below_root_dao :
    relativePath "com.example" "UserDao" "kt" = .ok "com/example/UserDao.kt" ∧
    Ordinary "com/example/UserDao.kt" ["com", "example", "UserDao.kt"] ∧
    samePath "com/example/UserDao.kt" "com/UserDao.kt" = false := by
  have hpath : relativePath "com.example" "UserDao" "kt" = .ok "com/example/UserDao.kt" :=
    (relativePath_eq_ok_iff _ _ _ _).mpr
      ⟨by decide +kernel, ["com", "example"], by decide +kernel, by decide +kernel⟩
  have hother : relativePath "com" "UserDao" "kt" = .ok "com/UserDao.kt" :=
    (relativePath_eq_ok_iff _ _ _ _).mpr
      ⟨by decide +kernel, ["com"], by decide +kernel, by decide +kernel⟩
  have hplain : PlainName "UserDao" "kt" := ⟨by decide, by decide⟩
  obtain ⟨-, hordinary, hdisk⟩ := generated_file_below_root hpath
  refine ⟨hpath, ?_, ?_⟩
  · have hparts : segments "com.example" ++ [fullName "UserDao" "kt"] =
        ["com", "example", "UserDao.kt"] := by decide +kernel
    exact hparts ▸ hordinary.mpr hplain
  · rw [← Bool.not_eq_true, (hdisk hplain).1 _ _ _ _ hother hplain]
    exact fun heq => absurd heq.1 (by decide)

/-- **An accepted request can leave the folder of generated files, or take another's path**:
by a name of two dots, by an extension that leads up, and by a name of one dot. -/
theorem leaves_the_root :
    (relativePath "app" ".." "" = .ok "app/.." ∧ (pathKey "app/..").parts = ["app", ".."]) ∧
    (relativePath "app" "." "/../../evil" = .ok "app/../../../evil" ∧
      Disk.entry? (Folder.empty.create Disk.empty [] "app" "." "/../../evil").2.2 ["evil"] =
        some (.file 0)) ∧
    relativePath "a" "." "" = .ok "a/." ∧ relativePath "" "a" "" = .ok "a" ∧
      samePath "a/." "a" = true := by
  have hup : relativePath "app" ".." "" = .ok "app/.." :=
    (relativePath_eq_ok_iff _ _ _ _).mpr
      ⟨by decide +kernel, ["app"], by decide +kernel, by decide +kernel⟩
  have hout : relativePath "app" "." "/../../evil" = .ok "app/../../../evil" :=
    (relativePath_eq_ok_iff _ _ _ _).mpr
      ⟨by decide +kernel, ["app"], by decide +kernel, by decide +kernel⟩
  have hdot : relativePath "a" "." "" = .ok "a/." :=
    (relativePath_eq_ok_iff _ _ _ _).mpr
      ⟨by decide +kernel, ["a"], by decide +kernel, by decide +kernel⟩
  have hplain : relativePath "" "a" "" = .ok "a" :=
    (relativePath_eq_ok_iff _ _ _ _).mpr
      ⟨by decide +kernel, [], by decide +kernel, by decide +kernel⟩
  exact ⟨⟨hup, by decide +kernel⟩, ⟨hout, by decide +kernel⟩, hdot, hplain, by decide +kernel⟩

end Output
end SymbolGraph

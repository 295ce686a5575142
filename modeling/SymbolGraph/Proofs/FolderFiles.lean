/-
# Below a folder as in memory

The same requests may go to a generator in memory and to one below a folder. The folder
can stand anywhere (`below`), and what making a file does to the disk under it is left
open (`Storage`): a file is made or a fault is reported, and between two requests anyone
may change the disk. The generator below a folder is this one, on a disk of its own
(`Folder.create_eq_createOn`).

Both decide by the path of a request, in memory by the relative path and below a folder
by the path with the folder in front. Putting a folder in front keeps different paths
different (`samePath_below`): of the paths of requests only the dot itself begins with a
dot that counts. So a request is refused in both or in neither, unless the storage
reports a fault, and the files stay the same but for the folder in front (`Mirrors`). A
fault leaves the list of files as it was; a generator below a folder is where the one in
memory would be without the requests that met faults (`folder_refines_memory`).

Key definitions: `below`, `Storage`, `Folder.createOn`, `Request`, `Asked`, `Mirrors`,
`Folder.stored`.
Key theorems: `samePath_below`, `Memory.answer`, `Folder.answer`, `Mirrors.step`, `Mirrors.run`,
`folder_refines_memory`.
-/
import SymbolGraph.Output.Memory
import SymbolGraph.Proofs.GeneratedFiles

namespace SymbolGraph
namespace Output

/-! ### A folder in front of a path -/

/-- A path relative to a folder, as a text; one that starts at the top takes the folder's
place. -/
def below (root path : String) : String :=
  if path.toList.head? = some '/' then path
  else if root = "" ∨ root.toList.getLast? = some '/' then root ++ path
  else root ++ "/" ++ path

/-- What stands before a slash and what follows it come apart separately. -/
theorem rawParts_append_slash (front path : String) :
    rawParts (front ++ "/" ++ path) = rawParts front ++ rawParts path := by
  have hchars : (front ++ "/" ++ path).toList = front.toList ++ '/' :: path.toList := by
    simp [String.toList_append]
  have hsplit : List.splitOn '/' (front.toList ++ '/' :: path.toList) =
      List.splitOn '/' front.toList ++ List.splitOn '/' path.toList := by
    unfold List.splitOn
    exact List.splitOnP_append_cons _ _ (beq_self_eq_true _)
  rw [rawParts_eq, rawParts_eq, rawParts_eq, hchars, hsplit, List.map_append]

theorem rawParts_ne_nil (path : String) : rawParts path ≠ [] := by
  rw [rawParts]
  exact fun h => pieces_ne_nil '/' path.toList (List.map_eq_nil_iff.mp h)

/-- A folder in front adds the same to what counts of every path. -/
theorem exists_pathKey_append (front : String) : ∃ absolute before, ∀ path,
    pathKey (front ++ "/" ++ path) = ⟨absolute, before ++ countingParts (rawParts path)⟩ := by
  obtain ⟨first, rest, hfront⟩ := List.exists_cons_of_ne_nil (rawParts_ne_nil front)
  have hraw : ∀ path, rawParts (front ++ "/" ++ path) = first :: (rest ++ rawParts path) := by
    intro path
    rw [rawParts_append_slash, hfront, List.cons_append]
  by_cases hdot : first = "."
  · refine ⟨false, "." :: countingParts rest, fun path => ?_⟩
    unfold pathKey
    rw [hraw, hdot]
    simp only [countingParts_append, List.cons_append]
  · by_cases hempty : first = ""
    · refine ⟨true, countingParts rest, fun path => ?_⟩
      obtain ⟨second, more, hmore⟩ : ∃ second more, rest ++ rawParts path = second :: more :=
        List.exists_cons_of_ne_nil fun h => rawParts_ne_nil path (List.append_eq_nil_iff.mp h).2
      unfold pathKey
      rw [hraw, hempty, hmore, ← countingParts_append, hmore]
      rfl
    · refine ⟨false, countingParts (first :: rest), fun path => ?_⟩
      rw [pathKey_of_first (hraw path) hempty hdot, ← List.cons_append, countingParts_append]

/-- A folder that has a name stands before a slash. -/
theorem exists_front {root : String} (h : root ≠ "") : ∃ front, ∀ path : String,
    path.toList.head? ≠ some '/' → below root path = front ++ "/" ++ path := by
  by_cases hslash : root.toList.getLast? = some '/'
  · obtain ⟨cs, hcs⟩ := List.getLast?_eq_some_iff.mp hslash
    have hroot : root = String.ofList cs ++ "/" := by
      rw [← String.toList_inj, hcs, String.toList_append, String.toList_ofList]
      rfl
    refine ⟨String.ofList cs, fun path hpath => ?_⟩
    rw [below, if_neg hpath, if_pos (Or.inr hslash), ← hroot]
  · refine ⟨root, fun path hpath => ?_⟩
    rw [below, if_neg hpath, if_neg (not_or.mpr ⟨h, hslash⟩)]

/-! ### The paths of requests -/

/-- A path that a request can be for. -/
def Requested (path : String) : Prop :=
  ∃ package name extension, relativePath package name extension = .ok path

/-- What stands at the start of a text, up to a slash, stands at the start of its first
part. -/
theorem pieces_append {separator : Char} {start : List Char} (h : separator ∉ start)
    (rest : List Char) : ∃ piece more, pieces separator rest = piece :: more ∧
      pieces separator (start ++ rest) = (start ++ piece) :: more := by
  obtain ⟨piece, more, hrest⟩ := List.exists_cons_of_ne_nil (pieces_ne_nil separator rest)
  refine ⟨piece, more, hrest, ?_⟩
  induction start with
  | nil => exact hrest
  | cons c cs ih =>
    have hc : c ≠ separator := fun heq => h (heq ▸ List.mem_cons_self)
    have hcs := ih fun hm => h (List.mem_cons_of_mem _ hm)
    rw [List.cons_append, pieces, if_neg hc, hcs]
    rfl

/-- The first part of the path of a request counts, unless the path is the dot. -/
theorem Requested.first {path : String} (h : Requested path) :
    path = "." ∨ ∃ first rest, rawParts path = first :: rest ∧ first ≠ "" ∧ first ≠ "." := by
  obtain ⟨package, name, extension, hpath⟩ := h
  have hname : isFileName name = true := ((relativePath_eq_ok_iff _ _ _ _).mp hpath).1
  obtain ⟨hempty, hslash⟩ := nonempty_and_noSlash_of_isFileName hname
  have hjoined := eq_joined_of_relativePath hpath
  cases hs : segments package with
  | cons first rest =>
    have hnames := isName_of_mem_segments hpath
    have hfirst : IsName first := hnames first (by simp [hs])
    refine Or.inr ⟨first, rest ++ rawParts (fullName name extension), ?_, hfirst.nonempty,
      hfirst.notDot⟩
    rw [hjoined, rawParts_joined_append (fun s hm => (hnames s hm).noSlash), hs, List.cons_append]
  | nil =>
    have hfull : path = fullName name extension := by
      rw [hjoined, hs, List.nil_append, joined, String.intercalate_singleton]
    by_cases hextension : extension = ""
    · have hsame : path = name := by rw [hfull, fullName, if_pos (by simp [hextension])]
      subst hsame
      by_cases hdot : path = "."
      · exact Or.inl hdot
      · exact Or.inr ⟨path, [], rawParts_of_no_slash hslash, hempty, hdot⟩
    · -- the first part begins with the name and the dot behind it
      have hchars : path.toList = (name.toList ++ ['.']) ++ extension.toList := by
        rw [hfull, fullName, if_neg (mt String.isEmpty_iff.mp hextension), String.toList_append,
          String.toList_append]
        rfl
      have hstart : '/' ∉ name.toList ++ ['.'] := by simp [hslash]
      obtain ⟨piece, more, -, hpieces⟩ := pieces_append hstart extension.toList
      have hraw : rawParts path =
          String.ofList (name.toList ++ ['.'] ++ piece) :: more.map String.ofList := by
        rw [rawParts, hchars, hpieces, List.map_cons]
      have hlength : ∀ s : String, s.length < 2 →
          String.ofList (name.toList ++ ['.'] ++ piece) ≠ s := by
        intro s hshort heq
        have hpos : 0 < name.toList.length :=
          List.length_pos_iff.mpr fun hnil => hempty (String.toList_inj.mp hnil)
        have hcount : (name.toList ++ ['.'] ++ piece).length = s.length := by
          rw [← heq, String.length_ofList]
        rw [List.length_append, List.length_append, List.length_singleton] at hcount
        omega
      exact Or.inr ⟨_, _, hraw, hlength "" (by decide), hlength "." (by decide)⟩

theorem Requested.not_from_top {path : String} (h : Requested path) :
    path.toList.head? ≠ some '/' := by
  intro hhead
  obtain ⟨rest, hrest⟩ := List.head?_eq_some_iff.mp hhead
  have hraw : ∃ more, rawParts path = "" :: more := by
    rw [rawParts, hrest, pieces, if_pos rfl]
    exact ⟨_, rfl⟩
  obtain ⟨more, hmore⟩ := hraw
  rcases h.first with rfl | ⟨first, rest', hfirst, hempty, -⟩
  · exact absurd hhead (by decide)
  · rw [hmore] at hfirst
    exact hempty (List.cons.inj hfirst).1.symm

/-- What counts of the path of a request is in the parts that count. -/
theorem Requested.pathKey_eq {path : String} (h : Requested path) :
    pathKey path = ⟨false, if path = "." then ["."] else countingParts (rawParts path)⟩ ∧
      (countingParts (rawParts path) = [] ↔ path = ".") := by
  rcases h.first with rfl | ⟨first, rest, hraw, hempty, hdot⟩
  · decide
  · have hne : path ≠ "." := by
      rintro rfl
      have hdotParts : rawParts "." = ["."] := by decide
      rw [hdotParts] at hraw
      exact hdot (List.cons.inj hraw).1.symm
    have hcounts : countingParts (first :: rest) = first :: countingParts rest := by
      unfold countingParts
      rw [List.filter_cons_of_pos (by simp [hempty, hdot])]
    rw [if_neg hne, pathKey_of_first hraw hempty hdot, hraw, hcounts]
    exact ⟨rfl, iff_of_false (by simp) hne⟩

theorem not_mem_countingParts (parts : List String) : "." ∉ countingParts parts := by
  simp [countingParts]

/-- Two paths of requests are the same if the same parts of them count. -/
theorem Requested.pathKey_eq_iff {a b : String} (ha : Requested a) (hb : Requested b) :
    pathKey a = pathKey b ↔ countingParts (rawParts a) = countingParts (rawParts b) := by
  obtain ⟨hka, hea⟩ := ha.pathKey_eq
  obtain ⟨hkb, heb⟩ := hb.pathKey_eq
  have hdot : ∀ c, ["."] ≠ countingParts (rawParts c) := fun c heq =>
    not_mem_countingParts _ (heq ▸ List.mem_singleton_self _)
  rw [hka, hkb, PathKey.mk.injEq, and_iff_right rfl]
  by_cases hadot : a = "." <;> by_cases hbdot : b = "."
  · simp [hadot, hbdot]
  · rw [if_pos hadot, if_neg hbdot, hea.mpr hadot]
    exact iff_of_false (hdot b) fun heq => hbdot (heb.mp heq.symm)
  · rw [if_neg hadot, if_pos hbdot, heb.mpr hbdot]
    exact iff_of_false (fun heq => hdot a heq.symm) fun heq => hadot (hea.mp heq)
  · rw [if_neg hadot, if_neg hbdot]

/-- **A folder in front keeps the same paths the same and different paths different.** -/
theorem samePath_below {a b : String} (ha : Requested a) (hb : Requested b) (root : String) :
    samePath (below root a) (below root b) = samePath a b := by
  by_cases hroot : root = ""
  · have hsame : ∀ {path : String}, Requested path → below root path = path := by
      intro path hpath
      rw [below, if_neg hpath.not_from_top, if_pos (Or.inl hroot), hroot, String.empty_append]
    rw [hsame ha, hsame hb]
  · obtain ⟨front, hfront⟩ := exists_front hroot
    obtain ⟨absolute, before, hkey⟩ := exists_pathKey_append front
    rw [hfront a ha.not_from_top, hfront b hb.not_from_top, Bool.eq_iff_iff, samePath, samePath,
      beq_iff_eq, beq_iff_eq, hkey, hkey, PathKey.mk.injEq, and_iff_right rfl,
      List.append_cancel_left_eq, ha.pathKey_eq_iff hb]

/-! ### Requests in memory and below a folder -/

/-- A request for a generated file. -/
structure Request where
  /-- The paths of the files it is derived from. -/
  origins : List String
  package : String
  name : String
  extension : String
  deriving DecidableEq, Repr

/-- The path of a request, relative to where all generated files go. -/
def Request.path (r : Request) : Except Failure String :=
  relativePath r.package r.name r.extension

/-- Where files are made: what making one under a path answers, and what it does. -/
structure Storage where
  State : Type
  make : State → String → Except StorageFault Nat × State

/-- The storage that a disk is. -/
def Disk.storage : Storage := ⟨Disk, openFile⟩

/-- A request, with the storage as it is found then. -/
structure Asked (S : Storage) where
  request : Request
  state : S.State

/-- Why the generator in memory refuses a request, if it does. -/
def Memory.refusal? (m : Memory) (r : Request) : Option Failure :=
  match m.create r.origins r.package r.name r.extension with
  | .error f => some f
  | .ok _ => none

/-- The files in memory after a request. -/
def Memory.after (m : Memory) (r : Request) : Memory :=
  match m.create r.origins r.package r.name r.extension with
  | .error _ => m
  | .ok (m', _) => m'

/-- The answers to requests one after the other, and the files after them. -/
def Memory.run (m : Memory) : List Request → List (Option Failure) × Memory
  | [] => ([], m)
  | r :: rs => (m.refusal? r :: ((m.after r).run rs).1, ((m.after r).run rs).2)

namespace Folder

variable (S : Storage) (root : String)

/-- Make a file below a folder that stands anywhere, in any storage. The list of files and the
storage are those after the request, also where it is refused. -/
def createOn (g : Folder) (a : Asked S) : Except Failure FileWriter × Folder × S.State :=
  match a.request.path with
  | .error f => (.error f, g, a.state)
  | .ok relative =>
    let path := below root relative
    if g.has path then (.error (.fileAlreadyExists path), g, a.state)
    else
      match S.make a.state path with
      | (.error f, s) => (.error (.storage f), g, s)
      | (.ok blob, s) => (.ok ⟨blob, 0⟩, ⟨g.files ++ [(path, a.request.origins)]⟩, s)

/-- Why the generator below a folder refuses a request, if it does. -/
def refusal? (g : Folder) (a : Asked S) : Option Failure :=
  match (g.createOn S root a).1 with
  | .error f => some f
  | .ok _ => none

/-- The files below a folder after a request. -/
def after (g : Folder) (a : Asked S) : Folder := (g.createOn S root a).2.1

/-- The answers to requests one after the other, and the files after them. -/
def run (g : Folder) : List (Asked S) → List (Option Failure) × Folder
  | [] => ([], g)
  | a :: as =>
    (g.refusal? S root a :: ((g.after S root a).run as).1, ((g.after S root a).run as).2)

end Folder

/-- Whether a request was refused for a fault of the storage. -/
def isFault : Option Failure → Bool
  | some (.storage _) => true
  | _ => false

/-- The requests that met no fault, going by their answers. -/
def withoutFaults {S : Storage} (asked : List (Asked S)) (answers : List (Option Failure)) :
    List Request :=
  ((asked.zip answers).filter fun p => !isFault p.2).map fun p => p.1.request

/-- A failure in memory as it reads below a folder. -/
def failureBelow (root : String) : Failure → Failure
  | .fileAlreadyExists path => .fileAlreadyExists (below root path)
  | f => f

theorem Request.requested {r : Request} {path : String} (h : r.path = .ok path) :
    Requested path :=
  ⟨r.package, r.name, r.extension, h⟩

/-- A request has no path for one of two reasons, neither of which names a path. -/
theorem Request.failureBelow_of_path_eq_error {r : Request} {f : Failure}
    (h : r.path = .error f) (root : String) :
    failureBelow root f = f ∧ isFault (some f) = false := by
  rw [Request.path, relativePath] at h
  split at h
  · split at h
    · exact absurd h (by simp)
    · obtain rfl := Except.error.inj h
      exact ⟨rfl, rfl⟩
  · obtain rfl := Except.error.inj h
    exact ⟨rfl, rfl⟩

/-- What a request in memory comes to. -/
theorem Memory.answer (m : Memory) (r : Request) :
    match r.path with
    | .error f => m.refusal? r = some f ∧ m.after r = m
    | .ok path =>
      if (m.find? path).isSome then
        m.refusal? r = some (.fileAlreadyExists path) ∧ m.after r = m
      else m.refusal? r = none ∧ m.after r = ⟨m.files ++ [⟨path, r.origins, []⟩]⟩ := by
  cases hpath : r.path with
  | error f =>
    rw [Request.path] at hpath
    simp only [refusal?, after, create, hpath, and_self]
  | ok path =>
    rw [Request.path] at hpath
    by_cases htaken : (m.find? path).isSome
    · simp only [refusal?, after, create, hpath, if_pos htaken, and_self]
    · simp only [refusal?, after, create, hpath, if_neg htaken, and_self]

namespace Folder

variable {S : Storage} {root : String} {g : Folder} {a : Asked S}

/-- What a request below a folder comes to: for a free path it is granted if the storage makes
the file, and is answered with the fault otherwise. -/
theorem answer (S : Storage) (root : String) (g : Folder) (a : Asked S) :
    match a.request.path with
    | .error f => g.refusal? S root a = some f ∧ g.after S root a = g
    | .ok path =>
      if g.has (below root path) then
        g.refusal? S root a = some (.fileAlreadyExists (below root path)) ∧ g.after S root a = g
      else
        match (S.make a.state (below root path)).1 with
        | .error fault => g.refusal? S root a = some (.storage fault) ∧ g.after S root a = g
        | .ok _ => g.refusal? S root a = none ∧
            g.after S root a = ⟨g.files ++ [(below root path, a.request.origins)]⟩ := by
  cases hpath : a.request.path with
  | error f => simp only [refusal?, after, createOn, hpath, and_self]
  | ok path =>
    by_cases htaken : g.has (below root path)
    · simp only [refusal?, after, createOn, hpath, if_pos htaken, and_self]
    · cases hmake : S.make a.state (below root path) with
      | mk made s =>
        cases made with
        | error fault =>
          simp only [refusal?, after, createOn, hpath, if_neg htaken, hmake, and_self]
        | ok blob => simp only [refusal?, after, createOn, hpath, if_neg htaken, hmake, and_self]

/-- A request that is refused, for whatever reason, leaves the list of files as it was: only a
file that the storage made is entered in it. -/
theorem after_of_refused {f : Failure} (h : g.refusal? S root a = some f) :
    g.after S root a = g := by
  have hanswer := g.answer S root a
  cases hpath : a.request.path with
  | error f' =>
    simp only [hpath] at hanswer
    exact hanswer.2
  | ok path =>
    simp only [hpath] at hanswer
    by_cases htaken : g.has (below root path)
    · rw [if_pos htaken] at hanswer
      exact hanswer.2
    · rw [if_neg htaken] at hanswer
      cases hmake : (S.make a.state (below root path)).1 with
      | error fault =>
        rw [hmake] at hanswer
        exact hanswer.2
      | ok blob =>
        rw [hmake, h] at hanswer
        exact absurd hanswer.1 (by simp)

/-- After a fault the path is still free: a request for it again depends on the storage
alone. -/
theorem retry_of_fault {fault : StorageFault} (h : g.refusal? S root a = some (.storage fault))
    (state : S.State) : ∃ path, a.request.path = .ok path ∧
      (g.after S root a).refusal? S root ⟨a.request, state⟩ =
        match (S.make state (below root path)).1 with
        | .ok _ => none
        | .error fault' => some (.storage fault') := by
  have hfirst := g.answer S root a
  have hagain := g.answer S root ⟨a.request, state⟩
  rw [after_of_refused h]
  cases hpath : a.request.path with
  | error f =>
    simp only [hpath, h, Option.some.injEq] at hfirst
    have hfault := (Request.failureBelow_of_path_eq_error hpath root).2
    rw [← hfirst.1] at hfault
    exact absurd hfault (by simp [isFault])
  | ok path =>
    refine ⟨path, rfl, ?_⟩
    simp only [hpath] at hfirst hagain
    by_cases htaken : g.has (below root path)
    · rw [if_pos htaken, h] at hfirst
      exact absurd hfirst.1 (by simp)
    · rw [if_neg htaken] at hagain
      cases hmake : (S.make state (below root path)).1 with
      | error fault' =>
        rw [hmake] at hagain
        exact hagain.1
      | ok blob =>
        rw [hmake] at hagain
        exact hagain.1

end Folder

/-! ### The same files, but for the folder in front -/

/-- The generator below a folder has the files of the one in memory, with the folder in
front. -/
structure Mirrors (root : String) (m : Memory) (g : Folder) : Prop where
  files : g.files = m.files.map fun f => (below root f.path, f.origins)
  requested : ∀ f ∈ m.files, Requested f.path

namespace Mirrors

variable {S : Storage} {root : String} {m : Memory} {g : Folder}

theorem start (root : String) : Mirrors root Memory.empty Folder.empty :=
  ⟨rfl, by simp [Memory.empty]⟩

/-- A path is free in both or in neither. -/
theorem taken_iff (h : Mirrors root m g) {path : String} (hpath : Requested path) :
    g.has (below root path) ↔ (m.find? path).isSome := by
  rw [Folder.has, h.files, List.any_map, List.any_eq_true, Memory.find?, List.find?_isSome]
  constructor
  · rintro ⟨f, hf, hsame⟩
    exact ⟨f, hf, (samePath_below (h.requested f hf) hpath root).symm.trans hsame⟩
  · rintro ⟨f, hf, hsame⟩
    exact ⟨f, hf, (samePath_below (h.requested f hf) hpath root).trans hsame⟩

/-- **A request that meets no fault is answered below the folder as in memory**, and the
files stay the same but for the folder in front. -/
theorem step (h : Mirrors root m g) {a : Asked S}
    (hfault : isFault (g.refusal? S root a) = false) :
    g.refusal? S root a = (m.refusal? a.request).map (failureBelow root) ∧
      Mirrors root (m.after a.request) (g.after S root a) := by
  have hm := m.answer a.request
  have hg := g.answer S root a
  cases hpath : a.request.path with
  | error f =>
    simp only [hpath] at hm hg
    rw [hg.1, hm.1, hg.2, hm.2, Option.map_some,
      (Request.failureBelow_of_path_eq_error hpath root).1]
    exact ⟨rfl, h⟩
  | ok path =>
    have hrequested := Request.requested hpath
    simp only [hpath, h.taken_iff hrequested] at hm hg
    by_cases htaken : (m.find? path).isSome
    · rw [if_pos htaken] at hm hg
      rw [hg.1, hm.1, hg.2, hm.2]
      exact ⟨rfl, h⟩
    · rw [if_neg htaken] at hm hg
      cases hmake : (S.make a.state (below root path)).1 with
      | error fault =>
        rw [hmake] at hg
        rw [hg.1] at hfault
        exact absurd hfault (by simp [isFault])
      | ok blob =>
        rw [hmake] at hg
        rw [hg.1, hm.1, hg.2, hm.2]
        refine ⟨rfl, ?_, ?_⟩
        · rw [h.files, List.map_append, List.map_singleton]
        · exact fun f hf => (List.mem_append.mp hf).elim (h.requested f) fun hlast =>
            List.mem_singleton.mp hlast ▸ hrequested

/-- A fault changes nothing below the folder. -/
theorem fault (h : Mirrors root m g) {a : Asked S}
    (hfault : isFault (g.refusal? S root a) = true) : Mirrors root m (g.after S root a) := by
  cases hanswer : g.refusal? S root a with
  | none =>
    rw [hanswer] at hfault
    exact absurd hfault (by simp [isFault])
  | some f => rwa [Folder.after_of_refused hanswer]

/-- **A run below a folder leads to the files that the requests without faults lead to in
memory**, and these are answered alike. -/
theorem run : ∀ (asked : List (Asked S)) {m : Memory} {g : Folder}, Mirrors root m g →
    (g.run S root asked).1.filter (fun answer => !isFault answer) =
        (m.run (withoutFaults asked (g.run S root asked).1)).1.map
          (Option.map (failureBelow root)) ∧
      Mirrors root (m.run (withoutFaults asked (g.run S root asked).1)).2
        (g.run S root asked).2
  | [], m, g, h => ⟨rfl, h⟩
  | a :: as, m, g, h => by
    cases hfault : isFault (g.refusal? S root a) with
    | true =>
      obtain ⟨hanswers, hmirrors⟩ := run as (h.fault hfault)
      have hwithout : withoutFaults (a :: as) (g.run S root (a :: as)).1 =
          withoutFaults as ((g.after S root a).run S root as).1 := by
        simp [withoutFaults, Folder.run, hfault]
      rw [hwithout]
      refine ⟨?_, hmirrors⟩
      rw [Folder.run, List.filter_cons_of_neg (by simp [hfault]), hanswers]
    | false =>
      obtain ⟨hanswer, hafter⟩ := h.step hfault
      obtain ⟨hanswers, hmirrors⟩ := run as hafter
      have hwithout : withoutFaults (a :: as) (g.run S root (a :: as)).1 =
          a.request :: withoutFaults as ((g.after S root a).run S root as).1 := by
        simp [withoutFaults, Folder.run, hfault]
      rw [hwithout]
      refine ⟨?_, hmirrors⟩
      rw [Folder.run, List.filter_cons_of_pos (by simp [hfault]), hanswers, hanswer, Memory.run,
        List.map_cons]

end Mirrors

/-! ### The whole run -/

section

variable {S : Storage} {root : String} {m : Memory} {g : Folder}

theorem Folder.length_run : ∀ (asked : List (Asked S)) (g : Folder),
    (g.run S root asked).1.length = asked.length
  | [], _ => rfl
  | a :: as, g => by rw [run, List.length_cons, List.length_cons, length_run as]

/-- Where no request meets a fault, none is left out. -/
theorem withoutFaults_eq {asked : List (Asked S)} {answers : List (Option Failure)}
    (hlength : answers.length = asked.length) (h : ∀ answer ∈ answers, isFault answer = false) :
    withoutFaults asked answers = asked.map Asked.request := by
  have hall : ∀ p ∈ asked.zip answers, (!isFault p.2) = true := by
    rintro ⟨a, answer⟩ hp
    rw [h answer (List.of_mem_zip hp).2, Bool.not_false]
  have hfst : (asked.zip answers).map Prod.fst = asked :=
    List.map_fst_zip (Nat.le_of_eq hlength.symm)
  calc withoutFaults asked answers
      = (asked.zip answers).map fun p => p.1.request := by
        rw [withoutFaults, List.filter_eq_self.mpr hall]
    _ = ((asked.zip answers).map Prod.fst).map Asked.request := by rw [List.map_map]; rfl
    _ = asked.map Asked.request := by rw [hfst]

theorem Mirrors.generated_eq (h : Mirrors root m g) :
    g.generated = m.generated.map (below root) := by
  rw [Folder.generated, h.files, Memory.generated, List.map_map, List.map_map]
  rfl

theorem Mirrors.associations_eq (h : Mirrors root m g) :
    g.associations = m.associations.map fun f => (below root f.1, f.2) := by
  rw [Folder.associations, h.files, Memory.associations, List.map_map]
  rfl

end

/-- The generator below a folder is the one on its own disk, with the folder's own name. -/
theorem Folder.create_eq_createOn (g : Folder) (d : Disk) (r : Request) :
    g.create d r.origins r.package r.name r.extension =
      g.createOn Disk.storage rootName ⟨r, d⟩ := by
  cases hpath : r.path with
  | error f =>
    rw [Request.path] at hpath
    simp only [create, createOn, Request.path, hpath]
    rfl
  | ok relative =>
    have hbelow : below rootName relative = belowRoot relative := by
      rw [below, if_neg (Request.requested hpath).not_from_top, if_neg (by decide), belowRoot]
    rw [Request.path] at hpath
    by_cases htaken : g.has (belowRoot relative)
    · simp only [create, createOn, Request.path, hpath, hbelow, if_pos htaken]
      rfl
    · cases hopen : openFile d (belowRoot relative) with
      | mk made d' =>
        have hmake : Disk.storage.make d (belowRoot relative) = (made, d') := hopen
        simp only [create, createOn, Request.path, hpath, hbelow, if_neg htaken, hopen, hmake]
        cases made <;> rfl

/-- **A generator below a folder does what the one in memory does.** Where no request meets a
fault of the storage, both answer alike, but for the folder in front of the path that a
failure names, and have the same files in the same order, but for the folder in front. After
any requests the one below a folder is where the one in memory would be without those that
met faults: a request that is refused changes nothing, and after a fault the storage alone
decides whether the same request is granted. On a disk of its own this is the generator
below a folder. -/
theorem folder_refines_memory (S : Storage) (root : String) (asked : List (Asked S)) :
    ((∀ answer ∈ (Folder.empty.run S root asked).1, isFault answer = false) →
      (Folder.empty.run S root asked).1 =
          (Memory.empty.run (asked.map Asked.request)).1.map (Option.map (failureBelow root)) ∧
        (Folder.empty.run S root asked).2.generated =
          (Memory.empty.run (asked.map Asked.request)).2.generated.map (below root) ∧
        (Folder.empty.run S root asked).2.associations =
          (Memory.empty.run (asked.map Asked.request)).2.associations.map
            fun f => (below root f.1, f.2)) ∧
    (∃ kept, kept = withoutFaults asked (Folder.empty.run S root asked).1 ∧
      (Folder.empty.run S root asked).1.filter (fun answer => !isFault answer) =
          (Memory.empty.run kept).1.map (Option.map (failureBelow root)) ∧
        (Folder.empty.run S root asked).2.generated =
          (Memory.empty.run kept).2.generated.map (below root) ∧
        (Folder.empty.run S root asked).2.associations =
          (Memory.empty.run kept).2.associations.map fun f => (below root f.1, f.2)) ∧
    (∀ g a, (∀ f, Folder.refusal? S root g a = some f → g.after S root a = g) ∧
      ∀ fault, g.refusal? S root a = some (.storage fault) →
        ∀ state, ∃ path, a.request.path = .ok path ∧
          (g.after S root a).refusal? S root ⟨a.request, state⟩ =
            match (S.make state (below root path)).1 with
            | .ok _ => none
            | .error fault' => some (.storage fault')) ∧
    ∀ (g : Folder) (d : Disk) (r : Request),
      g.create d r.origins r.package r.name r.extension =
        g.createOn Disk.storage rootName ⟨r, d⟩ := by
  obtain ⟨hanswers, hmirrors⟩ := (Mirrors.start root).run asked
  refine ⟨fun hfaults => ?_, ⟨_, rfl, hanswers, hmirrors.generated_eq, hmirrors.associations_eq⟩,
    fun g a => ⟨fun f => Folder.after_of_refused, fun fault => Folder.retry_of_fault⟩,
    Folder.create_eq_createOn⟩
  have hall : ∀ answer ∈ (Folder.empty.run S root asked).1, (!isFault answer) = true := by
    intro answer hanswer
    rw [hfaults answer hanswer, Bool.not_false]
  rw [List.filter_eq_self.mpr hall, withoutFaults_eq (Folder.length_run asked _) hfaults]
    at hanswers
  rw [withoutFaults_eq (Folder.length_run asked _) hfaults] at hmirrors
  exact ⟨hanswers, hmirrors.generated_eq, hmirrors.associations_eq⟩

/-- Below the folder `out`, a file `a` is made, refused, and in the way of a folder; on
another disk the request that met the fault is granted. -/
theorem folder_refines_memory_out :
    let file : Request := ⟨["src/A.kt"], "", "a", ""⟩
    let inside : Request := ⟨["src/B.kt"], "a", "b", "kt"⟩
    let first : Asked Disk.storage := ⟨file, Disk.empty⟩
    let disk := (Folder.empty.createOn Disk.storage "out" first).2.2
    let twice := Folder.empty.run Disk.storage "out" [first, ⟨file, disk⟩]
    twice.1 = [none, some (.fileAlreadyExists "out/a")] ∧ twice.2.generated = ["out/a"] ∧
    twice.2.refusal? Disk.storage "out" ⟨inside, disk⟩ = some (.storage .alreadyThere) ∧
    twice.2.after Disk.storage "out" ⟨inside, disk⟩ = twice.2 ∧
    (twice.2.after Disk.storage "out" ⟨inside, disk⟩).refusal? Disk.storage "out"
      ⟨inside, Disk.empty⟩ = none := by
  intro file inside first disk twice
  obtain ⟨hsame, -, hrefused, -⟩ :=
    folder_refines_memory Disk.storage "out" [first, ⟨file, disk⟩]
  have hmemory : Memory.empty.run [file, file] =
      ([none, some (.fileAlreadyExists "a")], ⟨[⟨"a", ["src/A.kt"], []⟩]⟩) := by
    decide +kernel
  obtain ⟨hanswers, hgenerated, -⟩ := hsame (by decide +kernel)
  have hfault : twice.2.refusal? Disk.storage "out" ⟨inside, disk⟩ =
      some (.storage .alreadyThere) := by decide +kernel
  obtain ⟨hafter, hretry⟩ := hrefused twice.2 ⟨inside, disk⟩
  obtain ⟨path, hpath, hanswer⟩ := hretry _ hfault Disk.empty
  have hinside : path = "a/b.kt" := by
    have hok : inside.path = .ok "a/b.kt" := (relativePath_eq_ok_iff _ _ _ _).mpr
      ⟨by decide +kernel, ["a"], by decide +kernel, by decide +kernel⟩
    exact Except.ok.inj (hpath.symm.trans hok)
  subst hinside
  refine ⟨?_, ?_, hfault, hafter _ hfault, ?_⟩
  · rw [List.map_cons, List.map_singleton] at hanswers
    rw [hanswers, hmemory]
    decide +kernel
  · rw [List.map_cons, List.map_singleton] at hgenerated
    rw [hgenerated, hmemory]
    decide +kernel
  · have hmade : (Disk.storage.make Disk.empty (below "out" "a/b.kt")).1 = .ok 0 := by
      decide +kernel
    rw [hanswer, hmade]

end Output
end SymbolGraph

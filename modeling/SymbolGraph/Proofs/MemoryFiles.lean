/-
# What becomes of files in memory

Files are asked for and written to in some order, and the writers of all files made so
far take turns. What happened is a list of events (`Event`), and a history is a list of
events with the outputs they lead to (`History`): files that were made, requests that were
refused, and what was written through the writers that were given out.

The files in memory are exactly what the events say (`Recorded`): one file for each
that was made, in order, with the paths it was derived from and all that was written
through its own writer. Each event keeps this (`Recorded.made`, `Recorded.wrote`), so it
holds of every history, and everything a generator answers is read off it
(`files_of_history`): no file is lost, made twice or mixed with another, and a request
that fails changes nothing.

Key definitions: `Event`, `History`, `Recorded`, `HoldsFile`, `AnswersRequest`, `Faithful`.
Key theorems: `Recorded.made`, `Recorded.wrote`, `History.recorded`, `files_of_history`.
-/
import SymbolGraph.Output
import SymbolGraph.Proofs.EncodedText

namespace SymbolGraph
namespace Output

/-! ### Events -/

/-- A file that was made, as it is known to who asked for it. -/
structure MadeFile where
  path : String
  /-- The paths of the files it was derived from. -/
  origins : List String
  writer : Writer
  deriving DecidableEq

/-- What happens to the files in memory. -/
inductive Event
  | made (file : MadeFile)
  | refused (failure : Failure)
  | wrote (writer : Writer) (bytes : List UInt8)

/-- The file that an event made. -/
def Event.made? : Event → Option MadeFile
  | .made file => some file
  | .refused _ | .wrote _ _ => none

/-- The bytes that an event wrote through a writer. -/
def Event.bytesBy? (writer : Writer) : Event → Option (List UInt8)
  | .wrote w bytes => if w = writer then some bytes else none
  | .made _ | .refused _ => none

/-- The files that were made, in order. -/
def madeFiles (events : List Event) : List MadeFile := events.filterMap Event.made?

/-- What was written through a writer, piece by piece. -/
def writtenBy (writer : Writer) (events : List Event) : List (List UInt8) :=
  events.filterMap (Event.bytesBy? writer)

section

variable (events : List Event)

@[simp] theorem madeFiles_made (file : MadeFile) :
    madeFiles (events ++ [.made file]) = madeFiles events ++ [file] :=
  List.filterMap_append

@[simp] theorem madeFiles_refused (f : Failure) :
    madeFiles (events ++ [.refused f]) = madeFiles events := by
  simp [madeFiles, Event.made?]

@[simp] theorem madeFiles_wrote (w : Writer) (bytes : List UInt8) :
    madeFiles (events ++ [.wrote w bytes]) = madeFiles events := by
  simp [madeFiles, Event.made?]

@[simp] theorem writtenBy_made (w : Writer) (file : MadeFile) :
    writtenBy w (events ++ [.made file]) = writtenBy w events := by
  simp [writtenBy, Event.bytesBy?]

@[simp] theorem writtenBy_refused (w : Writer) (f : Failure) :
    writtenBy w (events ++ [.refused f]) = writtenBy w events := by
  simp [writtenBy, Event.bytesBy?]

/-- What is written through a writer goes behind what was written through it before. -/
theorem writtenBy_wrote (w w' : Writer) (bytes : List UInt8) :
    writtenBy w (events ++ [.wrote w' bytes]) =
      if w' = w then writtenBy w events ++ [bytes] else writtenBy w events := by
  by_cases h : w' = w <;> simp [writtenBy, Event.bytesBy?, h]

end

/-! ### Requests and writes -/

variable {o o' : Outputs} {origins : List String} {package name extension path : String}

/-- Two paths are the same if what counts of them is. -/
theorem samePath_eq_true_iff {a b : String} : samePath a b = true ↔ pathKey a = pathKey b :=
  beq_iff_eq

theorem Memory.find?_eq_none_iff {m : Memory} :
    m.find? path = none ↔ ∀ f ∈ m.files, samePath f.path path = false := by
  rw [Memory.find?, List.find?_eq_none]
  simp only [Bool.not_eq_true]

namespace Outputs

/-- A request without a path is refused. -/
theorem create_of_error {f : Failure} (h : relativePath package name extension = .error f)
    (o : Outputs) (origins : List String) :
    o.create .memory origins package name extension = (.error f, o) := by
  simp only [create, Memory.create, h]

/-- A request for the path of a file is refused. -/
theorem create_of_taken (h : relativePath package name extension = .ok path)
    (htaken : (o.memory.find? path).isSome) (origins : List String) :
    o.create .memory origins package name extension = (.error (.fileAlreadyExists path), o) := by
  simp only [create, Memory.create, h, if_pos htaken]

/-- Any other request makes an empty file behind all others. -/
theorem create_of_free (h : relativePath package name extension = .ok path)
    (hfree : o.memory.find? path = none) (origins : List String) :
    o.create .memory origins package name extension = (.ok (.memory o.memory.files.length),
      { o with memory := ⟨o.memory.files ++ [⟨path, origins, []⟩]⟩ }) := by
  simp only [create, Memory.create, h, hfree, Option.isSome_none, Bool.false_eq_true, if_false]

/-- A request that is granted is for a free path, and its writer is new. -/
theorem of_create_eq_ok {w : Writer} (hpath : relativePath package name extension = .ok path)
    (h : o.create .memory origins package name extension = (.ok w, o')) :
    o.memory.find? path = none ∧ w = .memory o.memory.files.length ∧
      o'.memory = ⟨o.memory.files ++ [⟨path, origins, []⟩]⟩ := by
  cases hfind : o.memory.find? path with
  | some f =>
    rw [create_of_taken hpath (Option.isSome_of_eq_some hfind)] at h
    exact absurd (congrArg Prod.fst h) (by simp)
  | none =>
    rw [create_of_free hpath hfind, Prod.mk.injEq, Except.ok.injEq] at h
    obtain ⟨rfl, rfl⟩ := h
    exact ⟨rfl, rfl, rfl⟩

/-- A request that is refused changes nothing. -/
theorem eq_of_create_eq_error {f : Failure}
    (h : o.create .memory origins package name extension = (.error f, o')) : o' = o := by
  cases hpath : relativePath package name extension with
  | error f' =>
    rw [create_of_error hpath] at h
    exact (congrArg Prod.snd h).symm
  | ok path =>
    cases hfind : o.memory.find? path with
    | some g =>
      rw [create_of_taken hpath (Option.isSome_of_eq_some hfind)] at h
      exact (congrArg Prod.snd h).symm
    | none =>
      rw [create_of_free hpath hfind] at h
      exact absurd (congrArg Prod.fst h) (by simp)

end Outputs

/-! ### Histories -/

/-- What can happen to the files in memory, in any order: a file is asked for and made, or
asked for and refused, or written to through the writer that was given out for it. -/
inductive History : List Event → Outputs → Prop
  | start : History [] .empty
  | made {events : List Event} {o o' : Outputs} {origins : List String}
      {package name extension path : String} {w : Writer} (h : History events o)
      (hpath : relativePath package name extension = .ok path)
      (hcreate : o.create .memory origins package name extension = (.ok w, o')) :
      History (events ++ [.made ⟨path, origins, w⟩]) o'
  | refused {events : List Event} {o o' : Outputs} {origins : List String}
      {package name extension : String} {f : Failure} (h : History events o)
      (hcreate : o.create .memory origins package name extension = (.error f, o')) :
      History (events ++ [.refused f]) o'
  | wrote {events : List Event} {o : Outputs} {file : MadeFile} (h : History events o)
      (hfile : file ∈ madeFiles events) (bytes : List UInt8) :
      History (events ++ [.wrote file.writer bytes]) (o.write file.writer bytes).2

variable {events : List Event} {file : MadeFile}

/-- The file in memory that some events lead to. -/
def recordOf (events : List Event) (file : MadeFile) : MemoryFile :=
  ⟨file.path, file.origins, (writtenBy file.writer events).flatten⟩

/-- Making a file and refusing one write nothing. -/
@[simp] theorem recordOf_made (events : List Event) (file : MadeFile) :
    recordOf (events ++ [.made file]) = recordOf events := by
  funext g
  rw [recordOf, recordOf, writtenBy_made]

@[simp] theorem recordOf_refused (events : List Event) (f : Failure) :
    recordOf (events ++ [.refused f]) = recordOf events := by
  funext g
  rw [recordOf, recordOf, writtenBy_refused]

/-- The files in memory are what the events say. -/
structure Recorded (events : List Event) (m : Memory) : Prop where
  files : m.files = (madeFiles events).map (recordOf events)
  /-- The writer of a file is its place. -/
  writers : ∀ (k : Nat) (file : MadeFile), (madeFiles events)[k]? = some file →
    file.writer = .memory k
  distinct : (madeFiles events).Pairwise fun f g => samePath f.path g.path = false
  /-- Only writers that were given out have written. -/
  silent : ∀ w, (∀ file ∈ madeFiles events, file.writer ≠ w) → writtenBy w events = []

namespace Recorded

variable {m : Memory}

theorem length_eq (h : Recorded events m) : m.files.length = (madeFiles events).length := by
  rw [h.files, List.length_map]

/-- A path is free if no file was made of it. -/
theorem find?_eq_none_iff (h : Recorded events m) :
    m.find? path = none ↔ ∀ file ∈ madeFiles events, samePath file.path path = false := by
  rw [Memory.find?_eq_none_iff, h.files, List.forall_mem_map]
  rfl

/-- The writer that comes next was not given out yet. -/
theorem writer_ne (h : Recorded events m) (hfile : file ∈ madeFiles events) :
    file.writer ≠ .memory m.files.length := by
  obtain ⟨k, hk, hget⟩ := List.mem_iff_getElem.mp hfile
  have hwriter : file.writer = .memory k :=
    h.writers k file (by rw [List.getElem?_eq_getElem hk, hget])
  rw [hwriter, h.length_eq]
  intro heq
  exact absurd (Writer.memory.inj heq) (Nat.ne_of_lt hk)

theorem start : Recorded [] .empty where
  files := rfl
  writers k file h := absurd h (by simp [madeFiles])
  distinct := List.Pairwise.nil
  silent _ _ := rfl

/-- A new file has its own path and its own writer, through which nothing was written. -/
theorem made (h : Recorded events m) (hfree : m.find? path = none) (origins : List String) :
    Recorded (events ++ [.made ⟨path, origins, .memory m.files.length⟩])
      ⟨m.files ++ [⟨path, origins, []⟩]⟩ where
  files := by
    have hempty :
        recordOf events ⟨path, origins, .memory m.files.length⟩ = ⟨path, origins, []⟩ := by
      rw [recordOf, h.silent _ fun file hfile => h.writer_ne hfile]
      rfl
    rw [madeFiles_made, List.map_append, List.map_singleton, recordOf_made, hempty, ← h.files]
  writers k file hk := by
    rw [madeFiles_made] at hk
    by_cases hlt : k < (madeFiles events).length
    · rw [List.getElem?_append_left hlt] at hk
      exact h.writers k file hk
    · rw [List.getElem?_append_right (Nat.le_of_not_lt hlt), List.getElem?_singleton] at hk
      by_cases hzero : k - (madeFiles events).length = 0
      · rw [if_pos hzero, Option.some.injEq] at hk
        have hlast : k = m.files.length := by
          rw [h.length_eq]
          omega
        rw [← hk, hlast]
      · rw [if_neg hzero] at hk
        exact absurd hk (by simp)
  distinct := by
    rw [madeFiles_made]
    refine List.pairwise_append.mpr ⟨h.distinct, List.pairwise_singleton _ _, ?_⟩
    intro f hf g hg
    rw [List.mem_singleton] at hg
    subst hg
    exact h.find?_eq_none_iff.mp hfree f hf
  silent w hw := by
    rw [writtenBy_made]
    refine h.silent w fun file hfile => hw file ?_
    rw [madeFiles_made]
    exact List.mem_append_left _ hfile

theorem refused (h : Recorded events m) (f : Failure) : Recorded (events ++ [.refused f]) m where
  files := by
    rw [madeFiles_refused, recordOf_refused, h.files]
  writers := by
    rw [madeFiles_refused]
    exact h.writers
  distinct := by
    rw [madeFiles_refused]
    exact h.distinct
  silent w hw := by
    rw [madeFiles_refused] at hw
    rw [writtenBy_refused]
    exact h.silent w hw

/-- What is written goes to the end of the writer's file, and all other files stay. -/
theorem wrote (h : Recorded events m) {k : Nat} (hk : (madeFiles events)[k]? = some file)
    (bytes : List UInt8) :
    Recorded (events ++ [.wrote (.memory k) bytes]) (m.write k bytes) where
  files := by
    refine List.ext_getElem? fun j => ?_
    rw [Memory.write, List.getElem?_modify, madeFiles_wrote, h.files, List.getElem?_map,
      List.getElem?_map]
    cases hj : (madeFiles events)[j]? with
    | none => simp
    | some g =>
      have hg : g.writer = .memory j := h.writers j g hj
      simp only [Option.map_some, recordOf, hg, writtenBy_wrote, Writer.memory.injEq]
      by_cases hkj : k = j
      · simp [hkj]
      · simp [hkj]
  writers := by
    rw [madeFiles_wrote]
    exact h.writers
  distinct := by
    rw [madeFiles_wrote]
    exact h.distinct
  silent w hw := by
    rw [madeFiles_wrote] at hw
    have hne : Writer.memory k ≠ w := h.writers k file hk ▸ hw file (List.mem_of_getElem? hk)
    rw [writtenBy_wrote, if_neg hne]
    exact h.silent w hw

end Recorded

/-- **What every history keeps**: the files in memory are what its events say. -/
theorem History.recorded (h : History events o) : Recorded events o.memory := by
  induction h with
  | start => exact Recorded.start
  | made h hpath hcreate ih =>
    obtain ⟨hfree, rfl, hmemory⟩ := Outputs.of_create_eq_ok hpath hcreate
    rw [hmemory]
    exact ih.made hfree _
  | refused h hcreate ih =>
    rw [Outputs.eq_of_create_eq_error hcreate]
    exact ih.refused _
  | wrote h hfile bytes ih =>
    obtain ⟨k, hk⟩ := List.mem_iff_getElem?.mp hfile
    rw [ih.writers k _ hk]
    exact ih.wrote hk bytes

/-! ### What a generator answers -/

/-- The file of a path, where no two files have the same. -/
theorem Memory.find?_of_mem {m : Memory} {f : MemoryFile}
    (hdistinct : m.files.Pairwise fun f g => samePath f.path g.path = false) (hf : f ∈ m.files)
    (hpath : samePath f.path path = true) : m.find? path = some f := by
  obtain ⟨before, after, hfiles⟩ := List.append_of_mem hf
  rw [hfiles] at hdistinct
  have hbefore : ∀ g ∈ before, samePath g.path f.path = false := fun g hg =>
    (List.pairwise_append.mp hdistinct).2.2 g hg f List.mem_cons_self
  rw [Memory.find?, List.find?_eq_some_iff_append]
  refine ⟨hpath, before, after, hfiles, fun g hg => ?_⟩
  rw [Bool.not_eq_true', ← hbefore g hg, samePath, samePath, samePath_eq_true_iff.mp hpath]

theorem Memory.find?_associations (m : Memory) (path : String) :
    m.associations.find? (fun a => samePath a.1 path) =
      (m.find? path).map fun f => (f.path, f.origins) := by
  rw [Memory.associations, List.find?_map]
  rfl

namespace Recorded

variable {m : Memory}

theorem find?_of_made (h : Recorded events m) (hfile : file ∈ madeFiles events)
    (hpath : samePath file.path path = true) : m.find? path = some (recordOf events file) := by
  have hmem : recordOf events file ∈ m.files := by
    rw [h.files]
    exact List.mem_map_of_mem hfile
  have hdistinct : m.files.Pairwise fun f g => samePath f.path g.path = false := by
    rw [h.files]
    exact List.pairwise_map.mpr h.distinct
  exact Memory.find?_of_mem hdistinct hmem hpath

theorem find?_isSome_iff (h : Recorded events m) :
    (m.find? path).isSome ↔ ∃ file ∈ madeFiles events, samePath file.path path = true := by
  rw [Option.isSome_iff_ne_none, Ne, h.find?_eq_none_iff]
  simp

/-- Two files have two writers. -/
theorem writers_distinct (h : Recorded events m) :
    (madeFiles events).Pairwise fun f g => f.writer ≠ g.writer := by
  rw [List.pairwise_iff_getElem]
  intro i j hi hj hij heq
  rw [h.writers i _ (List.getElem?_eq_getElem hi),
    h.writers j _ (List.getElem?_eq_getElem hj)] at heq
  exact absurd (Writer.memory.inj heq) (Nat.ne_of_lt hij)

end Recorded

/-- What is answered about a file that was made, by any path that is the same as its own. -/
structure HoldsFile (events : List Event) (o : Outputs) (file : MadeFile) : Prop where
  origins : ∀ p, samePath file.path p = true →
    (o.associations .memory).find? (fun a => samePath a.1 p) = some (file.path, file.origins)
  bytes : ∀ p, samePath file.path p = true →
    o.memory.contents? p = some (Text.decodeText (writtenBy file.writer events).flatten)
  /-- Texts are read back as they were written, one behind the other. -/
  texts : ∀ p, samePath file.path p = true → ∀ texts : List String,
    writtenBy file.writer events = texts.map Text.encode →
      o.memory.contents? p = some (String.join texts)
  /-- The writer stays the same when it writes. -/
  writer : ∀ bytes, (o.write file.writer bytes).1 = file.writer

/-- What is answered to a request. -/
structure AnswersRequest (events : List Event) (o : Outputs) (origins : List String)
    (package name extension : String) : Prop where
  /-- A request with a path is refused if a file of the same path was made before; -/
  duplicate : ∀ path, relativePath package name extension = .ok path →
    ((o.create .memory origins package name extension).1 = .error (.fileAlreadyExists path) ↔
      ∃ file ∈ madeFiles events, samePath file.path path = true)
  /-- otherwise it is granted, with a writer of its own. -/
  granted : ∀ path, relativePath package name extension = .ok path →
    (∀ file ∈ madeFiles events, samePath file.path path = false) →
      ∃ w, (o.create .memory origins package name extension).1 = .ok w ∧
        ∀ file ∈ madeFiles events, file.writer ≠ w
  /-- A request without a path is refused for what is wrong with it. -/
  invalid : ∀ f, relativePath package name extension = .error f →
    (o.create .memory origins package name extension).1 = .error f
  /-- A refused request changes nothing. -/
  unchanged : ∀ f, (o.create .memory origins package name extension).1 = .error f →
    (o.create .memory origins package name extension).2 = o

/-- No file is lost, made twice or mixed with another. -/
structure Faithful (events : List Event) (o : Outputs) : Prop where
  generated : o.generated .memory = (madeFiles events).map MadeFile.path
  distinct : (o.generated .memory).Pairwise fun p q => samePath p q = false
  associations : o.associations .memory = (madeFiles events).map fun f => (f.path, f.origins)
  writers : (madeFiles events).Pairwise fun f g => f.writer ≠ g.writer
  files : ∀ file ∈ madeFiles events, HoldsFile events o file
  /-- Nothing is known of a path of which no file was made. -/
  absent : ∀ p, (∀ file ∈ madeFiles events, samePath file.path p = false) →
    o.memory.contents? p = none
  requests : ∀ origins package name extension,
    AnswersRequest events o origins package name extension

theorem Recorded.holdsFile (h : Recorded events o.memory) (hfile : file ∈ madeFiles events) :
    HoldsFile events o file := by
  have hbytes : ∀ p, samePath file.path p = true →
      o.memory.contents? p = some (Text.decodeText (writtenBy file.writer events).flatten) := by
    intro p hp
    rw [Memory.contents?, h.find?_of_made hfile hp]
    rfl
  refine ⟨fun p hp => ?_, hbytes, fun p hp texts htexts => ?_, fun bytes => ?_⟩
  · rw [Outputs.associations, Memory.find?_associations, h.find?_of_made hfile hp]
    rfl
  · rw [hbytes p hp, htexts, Text.encode_join, Text.decodeText_encode]
  · obtain ⟨k, hk⟩ := List.mem_iff_getElem?.mp hfile
    rw [h.writers k file hk]
    rfl

theorem Recorded.answersRequest (h : Recorded events o.memory) (origins : List String)
    (package name extension : String) : AnswersRequest events o origins package name extension where
  duplicate path hpath := by
    rw [← h.find?_isSome_iff]
    cases hfind : o.memory.find? path with
    | some f => simp [Outputs.create_of_taken hpath (Option.isSome_of_eq_some hfind)]
    | none => simp [Outputs.create_of_free hpath hfind]
  granted path hpath hfree := by
    rw [Outputs.create_of_free hpath (h.find?_eq_none_iff.mpr hfree)]
    exact ⟨_, rfl, fun file hfile => h.writer_ne hfile⟩
  invalid f hpath := by
    rw [Outputs.create_of_error hpath]
  unchanged f hf := Outputs.eq_of_create_eq_error (Prod.ext hf rfl)

/-- **The files in memory are neither mixed nor lost nor made twice**, whatever was asked for
and written, and in whatever order. -/
theorem files_of_history (h : History events o) : Faithful events o := by
  have hrecorded : Recorded events o.memory := h.recorded
  have hgenerated : o.generated .memory = (madeFiles events).map MadeFile.path := by
    rw [Outputs.generated, Memory.generated, hrecorded.files, List.map_map]
    rfl
  have hassociations : o.associations .memory =
      (madeFiles events).map fun f => (f.path, f.origins) := by
    rw [Outputs.associations, Memory.associations, hrecorded.files, List.map_map]
    rfl
  have hdistinct : (o.generated .memory).Pairwise fun p q => samePath p q = false := by
    rw [hgenerated]
    exact List.pairwise_map.mpr hrecorded.distinct
  refine ⟨hgenerated, hdistinct, hassociations, hrecorded.writers_distinct,
    fun _ => hrecorded.holdsFile, fun p hp => ?_, hrecorded.answersRequest⟩
  rw [Memory.contents?, hrecorded.find?_eq_none_iff.mpr hp]
  rfl

/-- Two files are made and their writers take turns; in between, the second is asked for again,
by another spelling of its path, and refused. -/
theorem files_of_history_two : ∃ events o, History events o ∧
    o.generated .memory = ["gen/A.kt", "gen/."] ∧
    o.memory.contents? "gen//A.kt" = some "val é" ∧ o.memory.contents? "gen" = some "€" := by
  have hA : relativePath "gen" "A" "kt" = .ok "gen/A.kt" :=
    (relativePath_eq_ok_iff _ _ _ _).mpr
      ⟨by decide +kernel, ["gen"], by decide +kernel, by decide +kernel⟩
  have hdot : relativePath "gen" "." "" = .ok "gen/." :=
    (relativePath_eq_ok_iff _ _ _ _).mpr
      ⟨by decide +kernel, ["gen"], by decide +kernel, by decide +kernel⟩
  have hgen : relativePath "" "gen" "" = .ok "gen" :=
    (relativePath_eq_ok_iff _ _ _ _).mpr
      ⟨by decide +kernel, [], by decide +kernel, by decide +kernel⟩
  have h1 := History.start.made hA (Outputs.create_of_free hA rfl ["src/A.kt"])
  have h2 := h1.made hdot (Outputs.create_of_free hdot (by decide +kernel) [])
  have h3 := h2.wrote (List.mem_cons_self) (Text.encode "val ")
  have h4 := h3.refused (Outputs.create_of_taken hgen (by decide +kernel) [])
  have h5 := h4.wrote (List.mem_cons_of_mem _ List.mem_cons_self) (Text.encode "€")
  have h6 := h5.wrote (List.mem_cons_self) (Text.encode "é")
  have hfaithful := files_of_history h6
  refine ⟨_, _, h6, hfaithful.generated, ?_, ?_⟩
  · have hfile := hfaithful.files _ List.mem_cons_self
    exact hfile.texts "gen//A.kt" (by decide +kernel) ["val ", "é"] (by decide +kernel)
  · have hfile := hfaithful.files _ (List.mem_cons_of_mem _ List.mem_cons_self)
    exact hfile.texts "gen" (by decide +kernel) ["€"] (by decide +kernel)

end Output
end SymbolGraph

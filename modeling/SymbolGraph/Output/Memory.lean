/-
# Generated files in memory

Generated files are kept in the order in which they were made, each with the
files it was derived from and the bytes written to it so far. A file is made
once; what cannot be made changes nothing. A writer belongs to one file and
adds to its end.

Key definitions: `MemoryFile`, `Memory`, `Memory.create`, `Memory.write`,
`Memory.contents?`.
-/
import SymbolGraph.Output.Path
import SymbolGraph.Text.Utf8

namespace SymbolGraph
namespace Output

/-- A generated file that is kept in memory. -/
structure MemoryFile where
  path : String
  /-- The paths of the files it was derived from. -/
  origins : List String
  bytes : List UInt8
  deriving DecidableEq, Repr

/-- Generated files in memory, in the order in which they were made. -/
structure Memory where
  files : List MemoryFile
  deriving DecidableEq, Repr

namespace Memory

/-- No files yet. -/
def empty : Memory := ⟨[]⟩

/-- The file of a path. -/
def find? (m : Memory) (path : String) : Option MemoryFile :=
  m.files.find? fun f => samePath f.path path

/-- Make a file. The writer for it is its place among the files. -/
def create (m : Memory) (origins : List String) (package name extension : String) :
    Except Failure (Memory × Nat) :=
  match relativePath package name extension with
  | .error f => .error f
  | .ok path =>
    if (m.find? path).isSome then .error (.fileAlreadyExists path)
    else .ok (⟨m.files ++ [⟨path, origins, []⟩]⟩, m.files.length)

/-- Add bytes to the end of a writer's file. -/
def write (m : Memory) (writer : Nat) (bytes : List UInt8) : Memory :=
  ⟨m.files.modify writer fun f => { f with bytes := f.bytes ++ bytes }⟩

/-- The paths of all files. -/
def generated (m : Memory) : List String := m.files.map MemoryFile.path

/-- The paths of all files, each with those it was derived from. -/
def associations (m : Memory) : List (String × List String) :=
  m.files.map fun f => (f.path, f.origins)

/-- The text of a file; bytes that are none are replaced. -/
def contents? (m : Memory) (path : String) : Option String :=
  (m.find? path).map fun f => Text.decodeText f.bytes

end Memory
end Output
end SymbolGraph

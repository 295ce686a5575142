/-
# Where generated files go

A round makes its files either in memory or below a folder. Both are kept side
by side, with the disk that the folder is on. A writer belongs to the file it
was made for, and what it writes is there at once.

Key definitions: `Destination`, `Writer`, `Outputs`, `Outputs.create`,
`Outputs.write`.
-/
import SymbolGraph.Output.Dependencies
import SymbolGraph.Output.Folder
import SymbolGraph.Output.Memory

namespace SymbolGraph
namespace Output

/-- Where a file is made. -/
inductive Destination
  | memory | folder
  deriving DecidableEq, Repr

/-- A writer for a file. -/
inductive Writer
  /-- By the file's place in memory. -/
  | memory (file : Nat)
  | folder (writer : FileWriter)
  deriving DecidableEq, Repr

/-- Everything that was generated. -/
structure Outputs where
  memory : Memory
  folder : Folder
  disk : Disk
  deriving DecidableEq, Repr

namespace Outputs

/-- Nothing yet. -/
def empty : Outputs := ⟨.empty, .empty, .empty⟩

/-- Make a file. A folder made for it stays even if the file cannot be made. -/
def create (o : Outputs) (destination : Destination) (origins : List String)
    (package name extension : String) : Except Failure Writer × Outputs :=
  match destination with
  | .memory =>
    match o.memory.create origins package name extension with
    | .error f => (.error f, o)
    | .ok (memory, file) => (.ok (.memory file), { o with memory })
  | .folder =>
    match o.folder.create o.disk origins package name extension with
    | (.error f, folder, disk) => (.error f, { o with folder, disk })
    | (.ok writer, folder, disk) => (.ok (.folder writer), { o with folder, disk })

/-- Write bytes; a writer for a file on a disk moves on. -/
def write (o : Outputs) (writer : Writer) (bytes : List UInt8) : Writer × Outputs :=
  match writer with
  | .memory file => (writer, { o with memory := o.memory.write file bytes })
  | .folder w =>
    (.folder { w with offset := w.offset + bytes.length },
      { o with disk := o.disk.writeAt w.blob w.offset bytes })

/-- The paths of the files made in one place, in order. -/
def generated (o : Outputs) : Destination → List String
  | .memory => o.memory.generated
  | .folder => o.folder.generated

/-- The files made in one place, each with those it was derived from. -/
def associations (o : Outputs) : Destination → List (String × List String)
  | .memory => o.memory.associations
  | .folder => o.folder.associations

end Outputs
end Output
end SymbolGraph

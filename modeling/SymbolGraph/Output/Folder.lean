/-
# Generated files below a folder

Generated files go below one folder of a disk, at the same paths as in memory.
A file is entered in the list of generated files only when it could be made, so
a request that failed can be made again. A writer remembers how far it has
written; it goes on there even if the file was emptied meanwhile.

Key definitions: `Folder`, `Folder.create`, `FileWriter`, `writeCode`.
-/
import SymbolGraph.Output.Disk
import SymbolGraph.Text.Utf8

namespace SymbolGraph
namespace Output

/-- The text in place of the folder's own path. -/
def rootName : String := "$ROOT"

/-- A path below the folder, as a text. -/
def belowRoot (path : String) : String := rootName ++ "/" ++ path

/-- A path relative to the folder; one that starts at the top is not. -/
def joinRoot (path : String) : String :=
  if path.toList.head? = some '/' then path else belowRoot path

/-- A place in a file up to which was written. -/
structure FileWriter where
  blob : Nat
  offset : Nat
  deriving DecidableEq, Repr

/-- The generated files below a folder, each with the files it was derived from. -/
structure Folder where
  files : List (String × List String)
  deriving DecidableEq, Repr

/-- Make the file of a path, and before it the folders above it. -/
def openFile (d : Disk) (path : String) : Except StorageFault Nat × Disk :=
  let parts := (pathKey path).parts
  let isFolderPath := (rawParts path).getLast? == some "" || (rawParts path).getLast? == some "."
  match parts.reverse with
  | [] => (.error .isDirectory, d)
  | name :: above =>
    match d.makeFolders above with
    | (.error f, d') => (.error f, d')
    | (.ok (), d') =>
      match d'.makeFile above.reverse name isFolderPath with
      | .error f => (.error f, d')
      | .ok (d'', blob) => (.ok blob, d'')

namespace Folder

/-- No files yet. -/
def empty : Folder := ⟨[]⟩

/-- Whether a path is that of a generated file. -/
def has (g : Folder) (path : String) : Bool := g.files.any fun f => samePath f.1 path

/-- Make a file on a disk. The list of files and the disk are those after the request, also
where it is refused. -/
def create (g : Folder) (d : Disk) (origins : List String) (package name extension : String) :
    Except Failure FileWriter × Folder × Disk :=
  match relativePath package name extension with
  | .error f => (.error f, g, d)
  | .ok relative =>
    let path := belowRoot relative
    if g.has path then (.error (.fileAlreadyExists path), g, d)
    else
      match openFile d path with
      | (.error f, d') => (.error (.storage f), g, d')
      | (.ok blob, d') => (.ok ⟨blob, 0⟩, ⟨g.files ++ [(path, origins)]⟩, d')

/-- The paths of all files. -/
def generated (g : Folder) : List String := g.files.map Prod.fst

/-- The paths of all files, each with those it was derived from. -/
def associations (g : Folder) : List (String × List String) := g.files

end Folder

/-- Write a text to a path, as a whole. -/
def writeCode (d : Disk) (path text : String) : Except Failure Unit × Disk :=
  match openFile d (joinRoot path) with
  | (.error f, d') => (.error (.storage f), d')
  | (.ok blob, d') => (.ok (), d'.writeAt blob 0 (Text.encode text))

/-- The regular files below the folder, with their texts, in order. -/
def tree (d : Disk) : List (String × String) :=
  (d.filesBelow [rootName]).map fun (parts, bytes) =>
    (belowRoot (joined parts), Text.decodeText bytes)

end Output
end SymbolGraph

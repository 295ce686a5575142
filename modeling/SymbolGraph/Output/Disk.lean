/-
# A tree of folders and files

The part of a file system that generated files need: folders and regular files
by their path from the top, and the bytes of the files. The top is a folder.
A path is followed part by part; `..` leads one folder up, and every part but
the last must be a folder. A name longer than a folder can hold, and one with
a NUL character, are refused. Making a file that is there empties it.

Making a folder with all those above it tries the folder itself first, and goes
up only when something above is missing. Folders made on the way stay, even if
a later one cannot be made.

Key definitions: `Disk`, `Disk.folder`, `Disk.makeFolder`, `Disk.makeFolders`,
`Disk.makeFile`, `Disk.writeAt`, `Disk.filesBelow`.
-/
import SymbolGraph.Output.Path

namespace SymbolGraph
namespace Output

/-- What is found at a path. -/
inductive DiskEntry
  | folder
  /-- A regular file, by the place of its bytes. -/
  | file (blob : Nat)
  deriving DecidableEq, Repr

/-- Folders and files by path, and the bytes of the files. -/
structure Disk where
  entries : List (List String × DiskEntry)
  blobs : List (List UInt8)
  deriving DecidableEq, Repr

namespace Disk

/-- Nothing but the top. -/
def empty : Disk := ⟨[], []⟩

/-- What is found at a path without `..`. -/
def entry? (d : Disk) (path : List String) : Option DiskEntry :=
  if path.isEmpty then some .folder else d.entries.lookup path

/-- The most bytes in a name. -/
def longestName : Nat := 255

/-- The most bytes in the text of a path. -/
def longestPath : Nat := 4095

/-- Whether a name can stand in a folder. -/
def checkName (name : String) : Except StorageFault Unit :=
  if longestName < name.utf8ByteSize then .error .nameTooLong else .ok ()

/-- Whether the text of a path can be used. -/
def checkPath (path : List String) : Except StorageFault Unit :=
  if path.any fun p => p.toList.any fun c => c.toNat = 0 then .error .nulInName
  else if longestPath < (joined path).utf8ByteSize then .error .nameTooLong
  else .ok ()

/-- The folder that a path leads to from another. -/
def folder (d : Disk) (here : List String) : List String → Except StorageFault (List String)
  | [] => .ok here
  | part :: rest =>
    if part = ".." then d.folder here.dropLast rest
    else
      match checkName part with
      | .error f => .error f
      | .ok () =>
        match d.entry? (here ++ [part]) with
        | none => .error .notFound
        | some (.file _) => .error .notDirectory
        | some .folder => d.folder (here ++ [part]) rest

/-- Whether a path leads to a folder. -/
def isFolder (d : Disk) (path : List String) : Bool :=
  match checkPath path, d.folder [] path with
  | .ok (), .ok _ => true
  | _, _ => false

/-- Make the folder `name` in the folder that a path leads to. -/
def makeFolder (d : Disk) (above : List String) (name : String) : Except StorageFault Disk :=
  match checkPath (above ++ [name]) with
  | .error f => .error f
  | .ok () =>
    match d.folder [] above with
    | .error f => .error f
    | .ok here =>
      if name = ".." then .error .alreadyThere
      else
        match checkName name with
        | .error f => .error f
        | .ok () =>
          if (d.entry? (here ++ [name])).isSome then .error .alreadyThere
          else .ok { d with entries := d.entries ++ [(here ++ [name], .folder)] }

/-- Make a folder, where being there already is as good. -/
def ensureFolder (d : Disk) (above : List String) (name : String) : Except StorageFault Disk :=
  match d.makeFolder above name with
  | .ok d' => .ok d'
  | .error f => if d.isFolder (above ++ [name]) then .ok d else .error f

/-- Make a folder and all above it; its path is given from the end. -/
def makeFolders (d : Disk) : List String → Except StorageFault Unit × Disk
  | [] => (.ok (), d)
  | name :: above =>
    match d.makeFolder above.reverse name with
    | .ok d' => (.ok (), d')
    | .error .notFound =>
      match d.makeFolders above with
      | (.error f, d') => (.error f, d')
      | (.ok (), d') =>
        match d'.ensureFolder above.reverse name with
        | .ok d'' => (.ok (), d'')
        | .error f => (.error f, d')
    | .error f => if d.isFolder (above.reverse ++ [name]) then (.ok (), d) else (.error f, d)

/-- Make a file, or empty it, in the folder that a path leads to. A path that ends as one
of a folder names no file (`isFolderPath`). The result has the place of its bytes. -/
def makeFile (d : Disk) (above : List String) (name : String) (isFolderPath : Bool) :
    Except StorageFault (Disk × Nat) :=
  match checkPath (above ++ [name]) with
  | .error f => .error f
  | .ok () =>
    match d.folder [] above with
    | .error f => .error f
    | .ok here =>
      if name = ".." || isFolderPath then .error .isDirectory
      else
        match checkName name with
        | .error f => .error f
        | .ok () =>
          match d.entry? (here ++ [name]) with
          | some .folder => .error .isDirectory
          | some (.file blob) => .ok ({ d with blobs := d.blobs.set blob [] }, blob)
          | none =>
            .ok (⟨d.entries ++ [(here ++ [name], .file d.blobs.length)], d.blobs ++ [[]]⟩,
              d.blobs.length)

/-- Put bytes in a file's bytes from a place on; a gap before it is filled with zeros. -/
def overwrite (content : List UInt8) (offset : Nat) (bytes : List UInt8) : List UInt8 :=
  content.take offset ++ List.replicate (offset - content.length) 0 ++ bytes ++
    content.drop (offset + bytes.length)

/-- Write bytes to a file from a place on. -/
def writeAt (d : Disk) (blob offset : Nat) (bytes : List UInt8) : Disk :=
  if bytes.isEmpty then d
  else { d with blobs := d.blobs.modify blob fun content => overwrite content offset bytes }

/-! ### Listing -/

/-- Whether a path comes before another, part by part. -/
def comesBefore : List String → List String → Bool
  | [], _ => true
  | _ :: _, [] => false
  | a :: as, b :: bs => if a = b then comesBefore as bs else decide (a < b)

/-- The path below a folder, if the path lies there. -/
def below? : List String → List String → Option (List String)
  | [], path => some path
  | _ :: _, [] => none
  | a :: as, b :: bs => if a = b then below? as bs else none

/-- The regular files below a folder, by their path from there, in order. -/
def filesBelow (d : Disk) (top : List String) : List (List String × List UInt8) :=
  let found := d.entries.filterMap fun (path, entry) =>
    match below? top path, entry with
    | some rest, .file blob => some (rest, (d.blobs[blob]?).getD [])
    | _, _ => none
  found.mergeSort fun a b => comesBefore a.1 b.1

end Disk
end Output
end SymbolGraph

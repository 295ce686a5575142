/-
# Paths of generated files

The packages of generated files are folders: each part of a dotted package name
is a folder, and must be an identifier. The file's name must not be empty nor
hold a separator; its extension follows after a dot. A path keeps the text it
was put together with. Two paths are the same file when their parts agree:
repeated and trailing slashes do not count and neither do dots that stand for
the folder itself, unless such a dot comes first.

Key definitions: `pieces`, `isIdentifier`, `relativePath`, `PathKey`, `pathKey`.
Key theorems: `pieces_ne_nil`, `relativePath_eq_ok_iff`.
-/
import SymbolGraph.Failure
import SymbolGraph.Text.Identifier

namespace SymbolGraph
namespace Output

/-- The pieces of a text between the occurrences of a separator. -/
def pieces (separator : Char) : List Char → List (List Char)
  | [] => [[]]
  | c :: rest =>
    if c = separator then [] :: pieces separator rest
    else
      match pieces separator rest with
      | [] => [[c]]
      | p :: ps => (c :: p) :: ps

/-- There is always a piece, if only an empty one. -/
theorem pieces_ne_nil (separator : Char) : ∀ cs : List Char, pieces separator cs ≠ []
  | [] => by simp [pieces]
  | c :: rest => by
    unfold pieces
    split
    · simp
    · split <;> simp

/-- Whether a text is an identifier; it may also start with an underscore. -/
def isIdentifier : List Char → Bool
  | [] => false
  | c :: rest => (c == '_' || Text.Identifier.isStart c) && rest.all Text.Identifier.isContinue

/-- Whether a character separates the parts of a path. -/
def isSeparator (c : Char) : Bool := c == '/' || c == '\\'

/-- Whether a text can be the name of a generated file. -/
def isFileName (name : String) : Bool := !name.isEmpty && !name.toList.any isSeparator

/-- The folders of a package; the root package has none, and a package with a part that
is no identifier is refused. -/
def folders? (package : String) : Option (List String) :=
  if package.isEmpty then some []
  else
    let parts := pieces '.' package.toList
    if parts.all isIdentifier then some (parts.map String.ofList) else none

/-- The name of a file with its extension. -/
def fullName (name extension : String) : String :=
  if extension.isEmpty then name else name ++ "." ++ extension

/-- Parts of a path with slashes between them. -/
def joined (parts : List String) : String := "/".intercalate parts

/-- The path of a generated file below the place where all of them go. -/
def relativePath (package name extension : String) : Except Failure String :=
  if isFileName name then
    match folders? package with
    | some folders => .ok (joined (folders ++ [fullName name extension]))
    | none => .error (.invalidPackage package)
  else .error (.invalidFileName name)

/-- Exactly the file names and packages that are in order have a path. -/
theorem relativePath_eq_ok_iff (package name extension path : String) :
    relativePath package name extension = .ok path ↔
      isFileName name = true ∧
        ∃ folders, folders? package = some folders ∧
          path = joined (folders ++ [fullName name extension]) := by
  unfold relativePath
  by_cases hn : isFileName name = true
  · rw [if_pos hn]
    cases h : folders? package with
    | none => simp
    | some folders => simp [hn, eq_comm]
  · simp [hn]

/-! ### When two paths are the same -/

/-- What counts of a path. -/
structure PathKey where
  /-- Whether the path starts at the top. -/
  absolute : Bool
  parts : List String
  deriving DecidableEq, Repr

/-- The parts that count where a dot stands for the folder itself. -/
def countingParts (parts : List String) : List String :=
  parts.filter fun p => p != "" && p != "."

/-- The parts of a path as they stand between its slashes. -/
def rawParts (path : String) : List String := (pieces '/' path.toList).map String.ofList

/-- What counts of a path. -/
def pathKey (path : String) : PathKey :=
  match rawParts path with
  | "." :: rest => ⟨false, "." :: countingParts rest⟩
  | "" :: second :: rest => ⟨true, countingParts (second :: rest)⟩
  | parts => ⟨false, countingParts parts⟩

/-- Whether two paths are the same. -/
def samePath (a b : String) : Bool := pathKey a == pathKey b

end Output
end SymbolGraph

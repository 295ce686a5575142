/-
# What a generated file comes from

A generated file that sums up all input depends on every file of the round; any
other depends on the files it was derived from, each named once.

Key definitions: `Dependencies`, `Dependencies.ofFiles`,
`Dependencies.ofElements`.
Key theorems: `Dependencies.mem_ofFiles`.
-/
import SymbolGraph.Distinct
import SymbolGraph.Lookup

namespace SymbolGraph
namespace Output

/-- The inputs of a generated file. -/
structure Dependencies where
  /-- Whether it sums up all input. -/
  aggregating : Bool
  /-- The paths of the files it was derived from. -/
  files : List String
  deriving DecidableEq, Repr

namespace Dependencies

/-- Inputs by the paths of files; a path that comes again does not count. -/
def ofFiles (aggregating : Bool) (files : List String) : Dependencies :=
  ⟨aggregating, Distinct.fresh [] files⟩

/-- The files that elements are declared in; an element whose file is not known does
not count. -/
def ofElements (t : SymbolTable) (aggregating : Bool) (elements : List Element) : Dependencies :=
  ofFiles aggregating ((elements.filterMap t.containingFile?).map FileRef.filePath)

theorem mem_ofFiles {aggregating : Bool} {files : List String} {file : String} :
    file ∈ (ofFiles aggregating files).files ↔ file ∈ files := by
  simp [ofFiles, Distinct.mem_fresh]

end Dependencies
end Output
end SymbolGraph

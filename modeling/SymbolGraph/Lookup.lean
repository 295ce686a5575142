/-
# What a processor asks the table

A processor gets elements, converted in full: those with an annotation, those
of a name, and all that the files hold. It gets files by name only. An element
leads back to its declaration through its qualified name, to the declaration
that took the name first; so a message about an element without a qualified
name has no location. Packages are no declarations, and asking for one fails.

Key definitions: `SymbolTable.symbolsWithAnnotation`, `SymbolTable.rootElements`,
`SymbolTable.containingFile?`, `SymbolTable.locate?`, `SymbolTable.log`,
`SymbolTable.packageDeclaration`.
-/
import SymbolGraph.Conversion
import SymbolGraph.Diagnostic
import SymbolGraph.Failure

namespace SymbolGraph
namespace SymbolTable

/-- The elements of some declarations, in full. -/
def elements (t : SymbolTable) (ids : List DeclId) : List Element :=
  ids.filterMap (t.element? .full)

/-- The elements annotated with a class of a given qualified name. -/
def symbolsWithAnnotation (t : SymbolTable) (name : String) : List Element :=
  t.elements (t.annotatedWith name)

/-- The elements annotated with a class of a given simple name. -/
def symbolsWithSimpleName (t : SymbolTable) (name : String) : List Element :=
  t.elements (t.annotatedWithSimple name)

/-- The class of a qualified name. -/
def classByName? (t : SymbolTable) (name : String) : Option ClassElement :=
  (t.class? name).bind (t.classElement? .full)

/-- The element of a qualified name. -/
def elementByName? (t : SymbolTable) (name : String) : Option Element :=
  (t.lookup? name).bind (t.element? .full)

/-- All files. -/
def allFiles (t : SymbolTable) : List FileRef := t.files.toList.map SourceFile.ref

/-- The files that came or changed in this round: all of them, as a table has no
memory of the last one. -/
def newFiles (t : SymbolTable) : List FileRef := t.allFiles

/-- All declarations of all files, as elements. -/
def rootElements (t : SymbolTable) : List Element :=
  t.elements ((List.range t.files.size).flatMap t.allDeclarations)

/-- The file an element is declared in: the one it knows, or that of its declaration. -/
def containingFile? (t : SymbolTable) (e : Element) : Option FileRef :=
  match e.sourceFile? with
  | some file => some file
  | none =>
    match e.qualifiedName?.bind t.lookup? with
    | some id => (t.fileOf? id).map SourceFile.ref
    | none => none

/-- Where the declaration of an element is. -/
def locate? (t : SymbolTable) (e : Element) : Option Location :=
  match e.qualifiedName? with
  | none => none
  | some symbol =>
    match t.lookup? symbol with
    | none => none
    | some id => some { file := (t.fileOf? id).map SourceFile.filePath, symbol }

/-- A message about an element, or about nothing in particular. -/
def message (t : SymbolTable) (severity : Severity) (text : String) (about : Option Element) :
    Diagnostic where
  severity
  message := text
  location := about.bind t.locate?

/-- Report a message about an element, or about nothing in particular. -/
def log (t : SymbolTable) (c : Collected) (severity : Severity) (text : String)
    (about : Option Element) : Collected :=
  c.report (t.message severity text about)

/-- The declaration of a package, which there is none of. -/
def packageDeclaration (_t : SymbolTable) (name : String) : Except Failure Element :=
  .error (.unsupported
    ("package declaration '" ++ name ++ "': read package_name from a declaration instead"))

/-- Whether no round follows; a table never knows. -/
def isProcessingOver (_t : SymbolTable) : Bool := false

end SymbolTable
end SymbolGraph

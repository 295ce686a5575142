/-
# Searching a table

Declarations are found by an annotation they carry, and the declarations of a
file by walking from its top level down through the members of classes. The
classes above a class are found breadth-first along its supertypes, so the
nearer ones come first and a cycle is no obstacle.

Key definitions: `SymbolTable.annotationName?`, `SymbolTable.annotatedWith`,
`SymbolTable.annotatedWithSimple`, `SymbolTable.allDeclarations`,
`SymbolTable.superDecls`, `SymbolTable.supertypeOrder`,
`SymbolTable.supertypeClosure`.
-/
import SymbolGraph.SymbolTable
import SymbolGraph.Walk

namespace SymbolGraph
namespace SymbolTable

/-! ### By annotation -/

/-- The qualified name of an annotation class: the declared one, or the written
one where the class is not in the table. -/
def annotationName? (t : SymbolTable) (r : TypeRef) : Option String :=
  match t.resolve? r with
  | some id => (t.decl? id).bind (·.qualifiedName)
  | none => r.writtenName?

/-- The declarations that carry an annotation of some sort, in the order of the table. -/
def annotatedWhere (t : SymbolTable) (p : Usage → Bool) : List DeclId :=
  (List.range t.size).filter fun id =>
    match t.decl? id with
    | some d => d.annotations.any p
    | none => false

/-- The declarations annotated with a class of a given qualified name. -/
def annotatedWith (t : SymbolTable) (name : String) : List DeclId :=
  t.annotatedWhere fun u => t.annotationName? u.type == some name

/-- The simple name an annotation is searched by: that of its class, or the written
one where the class has no qualified name. -/
def searchedName (t : SymbolTable) (u : Usage) : String :=
  match t.annotationName? u.type with
  | some q => QualifiedName.simpleName q
  | none => u.shortName

/-- The declarations annotated with a class of a given simple name. -/
def annotatedWithSimple (t : SymbolTable) (name : String) : List DeclId :=
  t.annotatedWhere fun u => t.searchedName u == name

/-! ### By file -/

/-- The top-level declarations of a file. -/
def declarationsIn (t : SymbolTable) (file : FileId) : List DeclId :=
  match t.file? file with
  | some f => f.declarations
  | none => []

/-- The members of a class; other declarations have none. -/
def membersOf (t : SymbolTable) (id : DeclId) : List DeclId :=
  match t.decl? id with
  | some d => if d.asClass.isSome then d.members else []
  | none => []

/-- The declarations of a file, each class before its members. -/
def allDeclarations (t : SymbolTable) (file : FileId) : List DeclId :=
  Walk.depthFirst t.membersOf t.size (t.declarationsIn file)

/-! ### By supertype -/

/-- The declarations that the supertypes of a class resolve to. -/
def superDecls (t : SymbolTable) (id : DeclId) : List DeclId :=
  match (t.decl? id).bind (·.asClass) with
  | some c => c.superTypes.filterMap t.resolve?
  | none => []

/-- A declaration and all above it, the nearer ones first. -/
def supertypeOrder (t : SymbolTable) (id : DeclId) : List DeclId :=
  Walk.breadthFirst t.superDecls t.size [] [id]

/-- The qualified names of all declarations above a declaration, the nearer ones
first; those without a qualified name are left out. -/
def supertypeClosure (t : SymbolTable) (id : DeclId) : List String :=
  (t.supertypeOrder id).tail.filterMap fun s => (t.decl? s).bind (·.qualifiedName)

end SymbolTable
end SymbolGraph

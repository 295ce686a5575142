/-
# The symbol table

A table grows by source files and by declarations, and never forgets one. A
declaration goes on a file or inside another declaration; placing it fixes its
package, its file and its qualified name, and enters it in the list of what
its surroundings contain. The name index answers with the declaration that
took a name first. A place that is not in the table is refused, and the table
stays as it is.

Key definitions: `SymbolTable`, `Place`, `SymbolTable.declare?`,
`SymbolTable.addFile`, `SymbolTable.builtin`, `SymbolTable.lookup?`,
`SymbolTable.resolve?`.
Key theorems: `SymbolTable.declare?_isSome_iff`.
-/
import SymbolGraph.Builtin
import SymbolGraph.Declaration

namespace SymbolGraph

/-- Where a declaration is to go. -/
inductive Place
  /-- At the top level of a file. -/
  | file (id : FileId)
  /-- Inside another declaration. -/
  | inside (id : DeclId)
  deriving DecidableEq, Repr

/-- All files and declarations of a program, with the index of qualified names. -/
structure SymbolTable where
  decls : Array Declaration
  files : Array SourceFile
  /-- The first declaration of each qualified name. -/
  index : List (String × DeclId)

namespace SymbolTable

/-! ### Reading -/

/-- The declaration with a handle, if the handle is of this table. -/
def decl? (t : SymbolTable) (id : DeclId) : Option Declaration := t.decls[id]?

/-- The file with a handle, if the handle is of this table. -/
def file? (t : SymbolTable) (id : FileId) : Option SourceFile := t.files[id]?

/-- The number of declarations. -/
def size (t : SymbolTable) : Nat := t.decls.size

/-- The declaration around a declaration. -/
def parent? (t : SymbolTable) (id : DeclId) : Option DeclId := (t.decl? id).bind (·.parent)

/-- The handle of the file a declaration is written in. -/
def fileIdOf? (t : SymbolTable) (id : DeclId) : Option FileId := (t.decl? id).bind (·.file)

/-- The file a declaration is written in. -/
def fileOf? (t : SymbolTable) (id : DeclId) : Option SourceFile :=
  (t.fileIdOf? id).bind t.file?

/-- The declaration that took a qualified name first. -/
def lookup? (t : SymbolTable) (name : String) : Option DeclId := t.index.lookup name

/-- Whether a declaration is class-like. -/
def isClass (t : SymbolTable) (id : DeclId) : Bool :=
  match t.decl? id with
  | some d => d.asClass.isSome
  | none => false

/-- The class-like declaration that took a qualified name first. -/
def class? (t : SymbolTable) (name : String) : Option DeclId := (t.lookup? name).filter t.isClass

/-- The declaration a reference points at; a name nobody has and a handle of
no declaration point nowhere. -/
def resolve? (t : SymbolTable) (r : TypeRef) : Option DeclId :=
  match r.target with
  | .named name => t.lookup? name
  | .decl id => if id < t.size then some id else none

/-! ### Growing -/

/-- The table without anything in it. -/
def empty : SymbolTable := ⟨#[], #[], []⟩

/-- Enter a name in the index, unless it is taken. -/
def enterName (index : List (String × DeclId)) (name : Option String) (id : DeclId) :
    List (String × DeclId) :=
  match name with
  | none => index
  | some q => if (index.lookup q).isSome then index else (q, id) :: index

/-- Add a declaration behind all others. -/
def push (t : SymbolTable) (d : Declaration) : SymbolTable :=
  { t with decls := t.decls.push d, index := enterName t.index d.qualifiedName t.size }

/-- Add a source file. -/
def addFile (t : SymbolTable) (path package : String) : SymbolTable :=
  { t with files := t.files.push (SourceFile.atPath path package) }

/-- A draft at the top level of a file. -/
def onFile (id : FileId) (file : SourceFile) (d : Draft) : Declaration :=
  { d with
    qualifiedName := some (QualifiedName.qualify file.packageName d.name)
    packageName := file.packageName
    file := some id }

/-- A draft inside another declaration. Type parameters have no qualified name, and
neither has what lies inside a function or inside something without one. -/
def insideOf (id : DeclId) (owner : Declaration) (d : Draft) : Declaration :=
  { d with
    qualifiedName :=
      if d.asTypeParameter.isSome || owner.asCallable.isSome then none
      else owner.qualifiedName.map fun q => QualifiedName.qualify q d.name
    packageName := owner.packageName
    parent := some id
    file := owner.file
    inFunction := owner.asCallable.isSome }

/-- A draft in its place, if the place is in the table. -/
def placed? (t : SymbolTable) (place : Place) (d : Draft) : Option Declaration :=
  match place with
  | .file id => (t.file? id).map fun file => onFile id file d
  | .inside id => (t.decl? id).map fun owner => insideOf id owner d

/-- Enter a new declaration in the list of its file or of its owner. -/
def enterChild (t : SymbolTable) (place : Place) (isTypeParameter : Bool) (id : DeclId) :
    SymbolTable :=
  match place with
  | .file f =>
    { t with
      files := t.files.modify f fun file => { file with declarations := file.declarations ++ [id] } }
  | .inside p => { t with decls := t.decls.modify p fun owner => owner.withChild isTypeParameter id }

/-- Place a draft; its handle is the size the table had before. -/
def declare? (t : SymbolTable) (place : Place) (d : Draft) : Option SymbolTable :=
  (t.placed? place d).map fun decl =>
    (t.push decl).enterChild place d.asTypeParameter.isSome t.size

/-- Whether a place is in the table. -/
def hasPlace (t : SymbolTable) : Place → Bool
  | .file id => id < t.files.size
  | .inside id => id < t.size

/-- A draft can be placed exactly where the table has a place for it. -/
theorem declare?_isSome_iff (t : SymbolTable) (place : Place) (d : Draft) :
    (t.declare? place d).isSome = t.hasPlace place := by
  cases place with
  | file id =>
    by_cases h : id < t.files.size <;> simp [declare?, placed?, hasPlace, file?, h]
  | inside id =>
    by_cases h : id < t.decls.size <;> simp [declare?, placed?, hasPlace, decl?, size, h]

/-! ### The table to begin with -/

/-- A built-in class. Only the top type is open, and the type of one value is an object. -/
def builtinClass (name : String) : Declaration :=
  let kind := if name = Builtin.unit then ClassKind.object else .classType
  let modifiers :=
    if name = Builtin.unit then [Keyword.publicAccess]
    else if name = Builtin.any then [.publicAccess, .openClass]
    else [.publicAccess, .final]
  { (Draft.classLike (QualifiedName.simpleName name) kind).withModifiers modifiers with
    qualifiedName := some name
    packageName := Builtin.package }

/-- Add a built-in class; the class of arrays has a type parameter. -/
def addBuiltin (t : SymbolTable) (name : String) : SymbolTable :=
  let added := t.push (builtinClass name)
  if name = Builtin.array then
    (added.declare? (.inside t.size) (.typeParameter Builtin.arrayParameter)).getD added
  else added

/-- The table that holds the built-in classes. -/
def builtin : SymbolTable := Builtin.all.foldl addBuiltin empty

end SymbolTable
end SymbolGraph

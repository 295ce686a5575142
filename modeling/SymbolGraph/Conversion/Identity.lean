/-
# The identity of a declaration

What a declaration is as an element is settled by its kind, and what it is as a
type by its kind and its qualified name: only a class that bears a built-in
name is a primitive, an array or the like. The header of an element holds its
identity, a stub of what surrounds it, and the file.

Key definitions: `Declaration.elementKind`, `Declaration.typeKind`,
`Declaration.stub`, `SymbolTable.stub?`, `SymbolTable.enclosingStub?`,
`SymbolTable.headerType`.
-/
import SymbolGraph.SymbolTable.Search
import SymbolGraph.Ty

namespace SymbolGraph

namespace Declaration

/-- What a declaration is as an element. -/
def elementKind (d : Declaration) : ElementKind :=
  match d.shape with
  | .classLike c => c.kind.elementKind
  | .callable c => if c.isConstructor then .constructor else .method
  | .property _ => .property
  | .typeParameter _ => .typeParameter

/-- What the class of a qualified name is as a type. -/
def typeKindOfClass (qualifiedName : Option String) : TypeKind :=
  match qualifiedName with
  | none => .declared
  | some name =>
    if name = Builtin.unit then .unit
    else if name = Builtin.nothing then .nothing
    else if name = Builtin.array then .array
    else
      match Primitive.ofName? name with
      | some p => .primitive p
      | none => .declared

/-- What a declaration is as a type; functions and properties are none. -/
def typeKind (d : Declaration) : TypeKind :=
  match d.shape with
  | .typeParameter _ => .variable
  | .classLike _ => typeKindOfClass d.qualifiedName
  | .callable _ | .property _ => .other

/-- The package of a declaration, unless it is the root package. -/
def packageName? (d : Declaration) : Option String :=
  if d.packageName.isEmpty then none else some d.packageName

/-- The identity of a declaration. -/
def stub (d : Declaration) : Stub where
  simpleName := d.name
  qualifiedName := d.qualifiedName
  kind := d.elementKind
  packageName := d.packageName?
  modifiers := .ofKeywords d.modifiers

end Declaration

/-- A file, by name only. -/
def SourceFile.ref (f : SourceFile) : FileRef := ⟨f.fileName, f.filePath, f.packageName⟩

namespace SymbolTable

/-- The identity of the declaration with a handle. -/
def stub? (t : SymbolTable) (id : DeclId) : Option Stub := (t.decl? id).map Declaration.stub

/-- The identity of what surrounds a declaration. -/
def enclosingStub? (t : SymbolTable) (d : Declaration) : Option Element :=
  (d.parent.bind t.stub?).map Element.stub

/-- The file a declaration is written in. -/
def fileRef? (t : SymbolTable) (d : Declaration) : Option FileRef :=
  (d.file.bind t.file?).map SourceFile.ref

/-- The declaration a reference points at. -/
def target? (t : SymbolTable) (r : TypeRef) : Option Declaration := (t.resolve? r).bind t.decl?

/-- A class of a table with its identity, its surroundings and its file. -/
def identityClass (t : SymbolTable) (d : Declaration) (kind : ClassKind) : ClassElement :=
  { ClassElement.named (d.qualifiedName.getD d.name) kind with
    header :=
      { Header.plain d.name kind.elementKind with
        qualifiedName := d.qualifiedName
        packageName := d.packageName?
        enclosing := t.enclosingStub? d
        modifiers := .ofKeywords d.modifiers
        sourceFile := t.fileRef? d } }

/-- The type of a class with nothing but its identity. Annotations and enum entries
refer to their classes in this way, so a class that is annotated with itself
does not lead into a circle. Other declarations have no such type. -/
def headerType (t : SymbolTable) (id : DeclId) : Ty :=
  match t.decl? id with
  | none => .unknown
  | some d =>
    match d.asClass with
    | none => .unknown
    | some c =>
      { Ty.declared (t.identityClass d c.kind) [] with declaration := some (.stub d.stub) }

end SymbolTable
end SymbolGraph

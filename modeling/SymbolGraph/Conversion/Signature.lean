/-
# Converting types

A type in a signature is flat: behind it stands a class with its identity and
the names above it, or a type parameter without bounds. Its arguments are
types of the same sort, so the conversion follows the reference as it is
written and never enters a declaration. Only a type that is asked for by
itself, in full, has a converted class behind it.

Key definitions: `SymbolTable.header`, `SymbolTable.flatClass?`,
`SymbolTable.flatTypeParameter?`, `SymbolTable.assembleType`,
`SymbolTable.signatureType`, `SymbolTable.typeParameter?`.
-/
import SymbolGraph.Conversion.Annotations

namespace SymbolGraph
namespace SymbolTable

/-- What every element of a declaration carries, its annotations converted at a depth. -/
def header (t : SymbolTable) (depth : Depth) (d : Declaration) (kind : ElementKind) : Header :=
  { Header.plain d.name kind with
    qualifiedName := d.qualifiedName
    packageName := d.packageName?
    enclosing := t.enclosingStub? d
    annotations := d.annotations.map (t.convertUsage depth)
    modifiers := .ofKeywords d.modifiers
    documentation := d.documentation
    sourceFile := t.fileRef? d }

/-- A class without members, supertypes, type parameters or companion. -/
def memberlessClass (t : SymbolTable) (depth : Depth) (id : DeclId) (d : Declaration)
    (c : ClassShape) : ClassElement where
  header := t.header depth d c.kind.elementKind
  kind := c.kind
  superclass := none
  interfaces := []
  typeParameters := []
  companion := none
  allSupertypes := t.supertypeClosure id
  isInner := d.hasKeyword .inner
  isLocal := d.isLocal
  isAnonymous := c.isAnonymous
  isCompanion := c.isCompanion

/-- The class with a handle, converted flat. -/
def flatClass? (t : SymbolTable) (id : DeclId) : Option ClassElement := do
  let d ← t.decl? id
  let c ← d.asClass
  return t.memberlessClass .flat id d c

/-- A type parameter with given bounds. -/
def boundedTypeParameter (t : SymbolTable) (depth : Depth) (d : Declaration)
    (p : TypeParameterShape) (bounds : List Ty) : TypeParameter where
  header := t.header depth d .typeParameter
  bounds
  variance := .ofProjection p.variance
  isReified := d.hasKeyword .reified

/-- The type parameter with a handle, converted flat. -/
def flatTypeParameter? (t : SymbolTable) (id : DeclId) : Option TypeParameter := do
  let d ← t.decl? id
  let p ← d.asTypeParameter
  return t.boundedTypeParameter .flat d p []

/-- The type a nested class is nested in, flat and without one of its own. -/
def enclosingType? (t : SymbolTable) (d : Declaration) : Option Ty := do
  let owner ← d.parent
  let element ← t.flatClass? owner
  let stub ← t.stub? owner
  return { Ty.declared element [] with declaration := some (.stub stub) }

/-- The type of a class with given arguments, within the type it is nested in. -/
def nestedType (t : SymbolTable) (d : Declaration) (element : ClassElement) (arguments : List Ty) :
    Ty :=
  { Ty.declared element arguments with form := .declared element (t.enclosingType? d) }

/-- The type that the declaration `d` with handle `id` gives, before the marks of the
reference are put on it. -/
def typeOfTarget (t : SymbolTable) (class? : DeclId → Option ClassElement)
    (parameter? : DeclId → Option TypeParameter) (arguments : List Ty) (id : DeclId)
    (d : Declaration) : Ty :=
  match d.typeKind with
  | .primitive p => .ofPrimitive p
  | .unit => .noType .unit
  | .nothing => .noType .nothing
  | .array => .array (arguments.head?.getD .unknown)
  | .variable =>
    match parameter? id with
    | some p => .typeVariable p
    | none => .unknown
  | .declared =>
    match class? id with
    | some element => t.nestedType d element arguments
    | none => .unknown
  | .wildcard | .other => .unknown

/-- A type with the marks of a reference: nullability, annotations converted at a
depth, and the identity of the declaration. A type that was not found has none. -/
def marked (t : SymbolTable) (depth : Depth) (r : TypeRef) (d : Declaration) (type : Ty) : Ty :=
  if type.isUnknown then type
  else
    { type.withNullable r.nullable with
      annotations := r.annotations.map (t.convertUsage depth)
      declaration := some (.stub d.stub) }

/-- The type of a reference, given its arguments and the conversions of classes and
type parameters. -/
def assembleType (t : SymbolTable) (depth : Depth) (class? : DeclId → Option ClassElement)
    (parameter? : DeclId → Option TypeParameter) (arguments : List Ty) (r : TypeRef) : Ty :=
  match t.resolve? r with
  | none => .unknown
  | some id =>
    match t.decl? id with
    | none => .unknown
    | some d => t.marked depth r d (t.typeOfTarget class? parameter? arguments id d)

/-- A type argument: a projection has its type as one bound, and a star has none. -/
def projected : Projection → Ty → Ty
  | .invariant, type => type
  | .covariant, type => .wildcard (some type) none
  | .contravariant, type => .wildcard none (some type)
  | .star, _ => .wildcard none none

mutual

/-- The type of a reference in a signature. -/
def signatureType (t : SymbolTable) : TypeRef → Ty
  | r@⟨_, arguments, _, _⟩ =>
    t.assembleType .flat t.flatClass? t.flatTypeParameter? (t.signatureArguments arguments) r

/-- The types of the arguments in a signature. -/
def signatureArguments (t : SymbolTable) : List TypeArgument → List Ty
  | [] => []
  | a :: as => t.signatureArgument a :: t.signatureArguments as

/-- The type of an argument in a signature. -/
def signatureArgument (t : SymbolTable) : TypeArgument → Ty
  | ⟨_, none⟩ => .wildcard none none
  | ⟨projection, some r⟩ => projected projection (t.signatureType r)

end

/-- The type parameter with a handle; a flat one has no bounds. -/
def typeParameter? (t : SymbolTable) (depth : Depth) (id : DeclId) : Option TypeParameter := do
  let d ← t.decl? id
  let p ← d.asTypeParameter
  let bounds := if depth.includesMembers then p.bounds.map t.signatureType else []
  return t.boundedTypeParameter depth d p bounds

end SymbolTable
end SymbolGraph

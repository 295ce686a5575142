/-
# Conversion with every reading checked

A table is read by handle, and reading a handle that no declaration has is a
fault. A table may also refer to itself in circles, and a conversion calls
itself for what it meets. Here every conversion is written out with its readings
and its calls: a reading may fail, and a call is made with one unit of fuel less,
so a conversion that never came to an end would run out of any amount of it.
Nothing here knows that there are three tiers only; whether the calls end is a
question about this module, not an assumption in it.

A parent, a file and a reference are looked up, so they cannot fail. Whatever
those lookups give is then read.

Key definitions: `Fault`, `Checked.get`, `Checked.Calls`, `Checked.typeOf`,
`Checked.classElement`, `Checked.calls`, `Checked.element`.
-/
import SymbolGraph.Conversion

namespace SymbolGraph

/-- Why a conversion gives nothing. -/
inductive Fault
  /-- It read a handle that no declaration of the table has. -/
  | outside (id : DeclId)
  /-- It ran out of fuel. -/
  | exhausted
  deriving DecidableEq, Repr

namespace Checked

/-- The conversions that conversions call, each at a depth of its own. -/
structure Calls where
  usage : Depth → Usage → Except Fault Annotation
  constant : Depth → Constant → Except Fault Value
  classElement : Depth → DeclId → Except Fault (Option ClassElement)
  typeParameter : Depth → DeclId → Except Fault (Option TypeParameter)
  typeOf : Depth → TypeRef → Except Fault Ty

variable (t : SymbolTable) (self : Calls)

/-! ### Identities -/

/-- Read a declaration. -/
def get (id : DeclId) : Except Fault Declaration :=
  match t.decl? id with
  | some d => .ok d
  | none => .error (.outside id)

/-- The identity of a declaration. -/
def stub (id : DeclId) : Except Fault Stub := do
  let d ← get t id
  return d.stub

/-- The identity of what surrounds a declaration. -/
def enclosing (d : Declaration) : Except Fault (Option Element) := do
  let stub ← d.parent.mapM (stub t)
  return stub.map Element.stub

/-- The type of a class with nothing but its identity. -/
def headerType (id : DeclId) : Except Fault Ty := do
  let d ← get t id
  match d.asClass with
  | none => return .unknown
  | some c =>
    let enclosing ← enclosing t d
    let stub ← stub t id
    let element :=
      { ClassElement.named (d.qualifiedName.getD d.name) c.kind with
        header :=
          { Header.plain d.name c.kind.elementKind with
            qualifiedName := d.qualifiedName
            packageName := d.packageName?
            enclosing
            modifiers := .ofKeywords d.modifiers
            sourceFile := (t.fileOf? id).map SourceFile.ref } }
    return { Ty.declared element [] with declaration := some (.stub stub) }

/-! ### Annotations and constants -/

/-- The qualified name of an annotation class, or of a class literal. -/
def annotationName (r : TypeRef) : Except Fault (Option String) := do
  match t.resolve? r with
  | none => return r.writtenName?
  | some id =>
    let d ← get t id
    return d.qualifiedName

/-- The type of an annotation class. -/
def annotationType (r : TypeRef) : Except Fault Ty :=
  match t.resolve? r with
  | none => return .unknown
  | some id => headerType t id

/-- An annotation without its arguments. -/
def usageHeader (u : Usage) : Except Fault Annotation := do
  let type ← annotationType t u.type
  let qualifiedName ← annotationName t u.type
  return { type, simpleName := u.shortName, qualifiedName, arguments := [] }

/-- An annotation with its arguments. -/
def usage (depth : Depth) (u : Usage) : Except Fault Annotation := do
  let header ← usageHeader t u
  let arguments ← u.arguments.mapM fun argument => do
    let value ← self.constant depth argument.2
    return (argument.1, value)
  return { header with arguments := Keyed.ofList arguments }

/-- The type of what surrounds an enum entry. -/
def enumType (id : DeclId) : Except Fault Ty :=
  match t.parent? id with
  | none => return .unknown
  | some owner => headerType t owner

/-- The value of a reference to an enum entry. -/
def enumValue (entry : TypeRef) : Except Fault Value := do
  match t.resolve? entry with
  | none => return .unknown (entry.writtenName?.getD "")
  | some id =>
    let type ← enumType t id
    let stub ← stub t id
    return .enumConstant type (.stub stub)

/-- The value of a class literal. -/
def classValue (r : TypeRef) : Except Fault Value := do
  let name ← annotationName t r
  match name with
  | none => return .unknown ""
  | some name => return .classLiteral name (QualifiedName.simpleName name)

/-- A constant. -/
def constant (depth : Depth) : Constant → Except Fault Value
  | .string s => return .string s
  | .literal l => return .literal l
  | .enumEntry entry => enumValue t entry
  | .classLiteral type => classValue t type
  | .array values => do
    if depth.includesArrayValues then
      let values ← values.mapM (self.constant depth.descend)
      return .array values
    else return .array []
  | .nested u => do
    if depth = .flat then
      let header ← usageHeader t u
      return .nested header
    else
      let content ← self.usage depth.descend u
      return .nested content
  | .null => return .unknown "null"

/-! ### Types -/

/-- A type argument. -/
def typeArgument (depth : Depth) (a : TypeArgument) : Except Fault Ty := do
  match a.type with
  | none => return .wildcard none none
  | some r =>
    let type ← self.typeOf depth r
    return SymbolTable.projected a.projection type

/-- The type a nested class is nested in. -/
def enclosingType (id : DeclId) : Except Fault (Option Ty) := do
  match t.parent? id with
  | none => return none
  | some owner =>
    let element ← self.classElement .flat owner
    match element with
    | none => return none
    | some element =>
      let stub ← stub t owner
      return some { Ty.declared element [] with declaration := some (.stub stub) }

/-- The type of a class, with the class at a depth. -/
def declared (depth : Depth) (arguments : List TypeArgument) (id : DeclId) :
    Except Fault Ty := do
  let element ← self.classElement depth id
  match element with
  | none => return .unknown
  | some element =>
    let arguments ← arguments.mapM (typeArgument self depth)
    let enclosing ← enclosingType t self id
    return { Ty.declared element arguments with form := .declared element enclosing }

/-- The type of arrays of the first argument. -/
def arrayType (depth : Depth) (arguments : List TypeArgument) : Except Fault Ty := do
  match arguments with
  | [] => return .array .unknown
  | a :: _ =>
    let component ← typeArgument self depth a
    return .array component

/-- The type that a type parameter stands for. -/
def variableType (depth : Depth) (id : DeclId) : Except Fault Ty := do
  let parameter ← self.typeParameter depth id
  match parameter with
  | none => return .unknown
  | some parameter => return .typeVariable parameter

/-- The type that a declaration gives, before it is marked. -/
def typeOfTarget (depth : Depth) (arguments : List TypeArgument) (id : DeclId) (d : Declaration) :
    Except Fault Ty :=
  match d.typeKind with
  | .primitive p => return .ofPrimitive p
  | .unit => return .noType .unit
  | .nothing => return .noType .nothing
  | .array => arrayType self depth arguments
  | .variable => variableType self depth id
  | .declared => declared t self depth arguments id
  | .wildcard | .other => return .unknown

/-- The type of a reference. -/
def typeOf (depth : Depth) (r : TypeRef) : Except Fault Ty := do
  match t.resolve? r with
  | none => return .unknown
  | some id =>
    let d ← get t id
    let type ← typeOfTarget t self depth.descend r.arguments id d
    if type.isUnknown then return type
    else
      let annotations ← r.annotations.mapM (self.usage depth.descend)
      let stub ← stub t id
      return { type.withNullable r.nullable with
        annotations, declaration := some (.stub stub) }

/-! ### Functions and properties -/

/-- What every element of a declaration carries. -/
def header (depth : Depth) (id : DeclId) (kind : ElementKind) : Except Fault Header := do
  let d ← get t id
  let enclosing ← enclosing t d
  let annotations ← d.annotations.mapM (self.usage depth)
  return { Header.plain d.name kind with
    qualifiedName := d.qualifiedName
    packageName := d.packageName?
    enclosing
    annotations
    modifiers := .ofKeywords d.modifiers
    documentation := d.documentation
    sourceFile := (t.fileOf? id).map SourceFile.ref }

/-- A type parameter. -/
def typeParameter (depth : Depth) (id : DeclId) : Except Fault (Option TypeParameter) := do
  let d ← get t id
  match d.asTypeParameter with
  | none => return none
  | some p =>
    let header ← header t self depth id .typeParameter
    let bounds ←
      if depth.includesMembers then p.bounds.mapM (self.typeOf depth.descend) else pure []
    return some
      { header, bounds, variance := .ofProjection p.variance
        isReified := d.hasKeyword .reified }

/-- The type parameters among some declarations. -/
def typeParameters (depth : Depth) (ids : List DeclId) : Except Fault (List TypeParameter) := do
  let parameters ← ids.mapM (self.typeParameter depth)
  return parameters.filterMap id

/-- A value parameter of a declaration. -/
def parameter (depth : Depth) (owner : DeclId) (p : ValueParameter) : Except Fault Variable := do
  let d ← get t owner
  let stub ← stub t owner
  let annotations ← p.annotations.mapM (self.usage depth)
  let type ← self.typeOf depth.descend p.type
  return {
    header :=
      { Header.plain p.name .parameter with
        packageName := d.packageName?
        enclosing := some (.stub stub)
        annotations
        modifiers := .ofList (if p.isVararg then [.vararg] else [])
        sourceFile := (t.fileOf? owner).map SourceFile.ref
        valid := !type.isUnknown }
    type
    kind := .parameter
    constantValue := none
    isMutable := false
    isConst := false
    isLateinit := false
    hasDefault := p.hasDefault }

/-- What a function returns. -/
def returnType (depth : Depth) (d : Declaration) (c : CallableShape) : Except Fault Ty :=
  match d.returnType? c with
  | none => return .unknown
  | some r => self.typeOf depth r

/-- Whether a declaration is an interface. -/
def isInterface (id : DeclId) : Except Fault Bool := do
  let d ← get t id
  match d.asClass with
  | none => return false
  | some c => return c.kind == .interfaceType

/-- Whether a declaration stands directly in an interface. -/
def inInterface (d : Declaration) : Except Fault Bool :=
  match d.parent with
  | none => return false
  | some owner => isInterface t owner

/-- A function or constructor. -/
def callable (depth : Depth) (id : DeclId) : Except Fault (Option Callable) := do
  let d ← get t id
  match d.asCallable with
  | none => return none
  | some c =>
    let header ← header t self depth id d.elementKind
    let returnType ← returnType self depth.descend d c
    let parameters ← c.parameters.mapM (parameter t self depth.descend id)
    let inInterface ← inInterface t d
    let typeParameters ← typeParameters self depth.descend d.typeParameters
    let thrownTypes ← c.throws.mapM (self.typeOf depth.descend)
    let receiverType ← c.receiver.mapM (self.typeOf depth.descend)
    let isAbstract := c.isAbstract || d.hasKeyword .abstract
    return some {
      header :=
        { header with
          valid := !returnType.isUnknown && parameters.all fun p => p.header.valid }
      returnType, parameters, typeParameters, thrownTypes, receiverType
      isVarargs := c.parameters.any ValueParameter.isVararg
      isAbstract
      isDefault := inInterface && !isAbstract
      isSuspend := d.hasKeyword .suspend
      isInline := d.hasKeyword .inline
      isOperator := d.hasKeyword .operator
      isInfix := d.hasKeyword .infixCall }

/-- The header of an accessor of a property. -/
def accessorHeader (depth : Depth) (id : DeclId) (name : String) (a : Accessor) :
    Except Fault Header := do
  let d ← get t id
  let stub ← stub t id
  let annotations ← a.annotations.mapM (self.usage depth)
  return { Header.plain name .method with
    packageName := d.packageName?
    enclosing := some (.stub stub)
    annotations
    modifiers := .ofKeywords a.modifiers
    sourceFile := (t.fileOf? id).map SourceFile.ref }

/-- The getter of a property of a given type. -/
def getter (depth : Depth) (id : DeclId) (type : Ty) (a : Accessor) : Except Fault Callable := do
  let d ← get t id
  let header ← accessorHeader t self depth id ("<get-" ++ d.name ++ ">") a
  return SymbolTable.accessor d header [] type

/-- The setter of a property of a given type. -/
def setter (depth : Depth) (id : DeclId) (type : Ty) (a : Accessor) : Except Fault Callable := do
  let d ← get t id
  let header ← accessorHeader t self depth id ("<set-" ++ d.name ++ ">") a
  return SymbolTable.accessor d header [SymbolTable.setterParameter d type] (.noType .unit)

/-- The field behind a property of a given type and constant value. -/
def backingField (depth : Depth) (id : DeclId) (p : PropertyShape) (type : Ty)
    (constantValue : Option Value) : Except Fault Variable := do
  let d ← get t id
  let header ← header t self depth id .field
  return {
    header := { header with valid := !type.isUnknown }
    type
    kind := .field
    constantValue
    isMutable := p.isMutable
    isConst := d.hasKeyword .const
    isLateinit := d.hasKeyword .lateinit
    hasDefault := false }

/-- A property. -/
def property (depth : Depth) (id : DeclId) : Except Fault (Option Property) := do
  let d ← get t id
  match d.asProperty with
  | none => return none
  | some p =>
    let header ← header t self depth id .property
    let type ← self.typeOf depth.descend p.type
    let constantValue ← p.constant.mapM (self.constant depth.descend)
    let getter ← p.getter.mapM (getter t self depth id type)
    let setter ← p.setter.mapM (setter t self depth id type)
    let backingField ←
      if p.hasBackingField then some <$> backingField t self depth id p type constantValue
      else pure none
    let receiverType ← p.receiver.mapM (self.typeOf depth.descend)
    return some {
      header := { header with valid := !type.isUnknown }
      type, constantValue
      isMutable := p.isMutable
      isConst := d.hasKeyword .const
      isLateinit := d.hasKeyword .lateinit
      getter, setter, backingField
      hasCustomGetter := SymbolTable.isCustom p.getter
      hasCustomSetter := SymbolTable.isCustom p.setter
      delegate := p.delegate
      receiverType }

/-! ### Classes -/

/-- The walk along supertypes: the declarations met so far, those of them still to be
read, and the names met. -/
structure Climb where
  met : List DeclId
  waiting : List DeclId
  names : List String

/-- One supertype, taken if it is met for the first time. -/
def meet (climb : Climb) (r : TypeRef) : Except Fault Climb := do
  match t.resolve? r with
  | none => return climb
  | some id =>
    if id ∈ climb.met then return climb
    else
      let d ← get t id
      return ⟨climb.met ++ [id], climb.waiting ++ [id], climb.names ++ d.qualifiedName.toList⟩

/-- The names of all classes above those that wait. -/
def climb : Nat → Climb → Except Fault (List String)
  | 0, _ => .error .exhausted
  | _ + 1, ⟨_, [], names⟩ => return names
  | fuel + 1, ⟨met, id :: waiting, names⟩ => do
    let d ← get t id
    match d.asClass with
    | none => climb fuel ⟨met, waiting, names⟩
    | some c =>
      let next ← c.superTypes.foldlM (meet t) ⟨met, waiting, names⟩
      climb fuel next

/-- One supertype, entered as superclass or interface if it points at something. -/
def enterSupertype (depth : Depth) (above : Option Ty × List Ty) (r : TypeRef) :
    Except Fault (Option Ty × List Ty) := do
  match t.resolve? r with
  | none => return above
  | some id =>
    let isInterface ← isInterface t id
    let type ← self.typeOf depth r
    if isInterface || above.1.isSome then return (above.1, above.2 ++ [type])
    else return (some type, above.2)

/-- A member of a class converted at a depth. -/
def member (depth : Depth) (id : DeclId) : Except Fault (Option Element) := do
  let d ← get t id
  match d.shape with
  | .classLike c =>
    if c.isCompanion then return none
    else if c.kind = .enumEntry then
      let element ← self.classElement .flat id
      return element.map Element.classLike
    else if depth.includesNestedTypes then
      let element ← self.classElement depth.descend id
      return element.map Element.classLike
    else return none
  | .callable _ =>
    let element ← callable t self depth.descend id
    return element.map Element.callable
  | .property _ =>
    let element ← property t self depth.descend id
    return element.map Element.property
  | .typeParameter _ => return none

/-- Whether a declaration is a companion object. -/
def isCompanion (id : DeclId) : Except Fault Bool := do
  let d ← get t id
  match d.asClass with
  | none => return false
  | some c => return c.isCompanion

/-- The companion object among some members. -/
def companion (depth : Depth) (members : List DeclId) : Except Fault (Option ClassElement) := do
  let id ← members.findM? (isCompanion t)
  match id with
  | none => return none
  | some id => self.classElement depth id

/-- What stands inside a class: everything that a flat conversion leaves out. -/
structure Contents where
  superclass : Option Ty := none
  interfaces : List Ty := []
  typeParameters : List TypeParameter := []
  enclosed : List Element := []
  companion : Option ClassElement := none

/-- The contents of a class converted at a depth. -/
def contents (depth : Depth) (d : Declaration) (c : ClassShape) : Except Fault Contents := do
  if depth.includesMembers then
    let above ← c.superTypes.foldlM (enterSupertype t self depth.descend) (none, [])
    let typeParameters ← typeParameters self depth.descend d.typeParameters
    let enclosed ← d.members.mapM (member t self depth)
    let companion ← companion t self depth.descend d.members
    return {
      superclass := above.1, interfaces := above.2
      typeParameters, enclosed := enclosed.filterMap id, companion }
  else return {}

/-- A class. -/
def classElement (fuel : Nat) (depth : Depth) (id : DeclId) :
    Except Fault (Option ClassElement) := do
  let d ← get t id
  match d.asClass with
  | none => return none
  | some c =>
    let header ← header t self depth id c.kind.elementKind
    let inside ← contents t self depth d c
    let allSupertypes ← climb t fuel ⟨[id], [id], []⟩
    return some {
      header := { header with enclosed := inside.enclosed }
      kind := c.kind
      superclass := inside.superclass
      interfaces := inside.interfaces
      typeParameters := inside.typeParameters
      companion := inside.companion
      allSupertypes
      isInner := d.hasKeyword .inner
      isLocal := d.isLocal
      isAnonymous := c.isAnonymous
      isCompanion := c.isCompanion }

/-! ### Calls -/

/-- The conversions, with calls that nest no deeper than `fuel`. -/
def calls : Nat → Calls
  | 0 => {
    usage := fun _ _ => .error .exhausted
    constant := fun _ _ => .error .exhausted
    classElement := fun _ _ => .error .exhausted
    typeParameter := fun _ _ => .error .exhausted
    typeOf := fun _ _ => .error .exhausted }
  | fuel + 1 => {
    usage := usage t (calls fuel)
    constant := constant t (calls fuel)
    classElement := classElement t (calls fuel) fuel
    typeParameter := typeParameter t (calls fuel)
    typeOf := typeOf t (calls fuel) }

/-- The element of a declaration by the conversion of its kind. -/
def converted (depth : Depth) (id : DeclId) (d : Declaration) : Except Fault (Option Element) :=
  match d.shape with
  | .classLike _ => Option.map Element.classLike <$> self.classElement depth id
  | .callable _ => Option.map Element.callable <$> callable t self depth id
  | .property _ => Option.map Element.property <$> property t self depth id
  | .typeParameter _ => Option.map Element.typeParameter <$> self.typeParameter depth id

/-- The element of a declaration; one that the conversion of its kind did not answer for
would be a stub. -/
def element (fuel : Nat) (depth : Depth) (id : DeclId) : Except Fault Element := do
  let d ← get t id
  let element ← converted t (calls t fuel) depth id d
  match element with
  | some e => return e
  | none =>
    let stub ← stub t id
    return .stub stub

end Checked
end SymbolGraph

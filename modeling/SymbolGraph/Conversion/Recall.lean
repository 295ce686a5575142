/-
# Converting with the names above remembered

Every class that is converted carries the names of all types above it, and the same class
may stand behind many types. So the names above a declaration are found once and
remembered: a request for them is answered from memory if there was one before
(`Recall.namesAbove`). Here the conversions are written out with what they remember from
each other, and with their requests in the order in which they come up. Annotations,
identities and flat type parameters have no names above, so they ask for none.

Key definitions: `NamesFound`, `Recalling`, `Recall.namesAbove`, `Recall.signatureType`,
`Recall.classElement?`, `Recall.element?`, `Recall.typeOf`.
-/
import SymbolGraph.Conversion

namespace SymbolGraph

/-- The names above some declarations, as they were found. -/
abbrev NamesFound := List (DeclId × List String)

/-- A conversion that remembers the names above declarations. -/
abbrev Recalling := StateM NamesFound

namespace Recall

variable (t : SymbolTable)

/-- The names above a declaration, from memory if they were found before. -/
def namesAbove (id : DeclId) : Recalling (List String) := fun found =>
  match found.lookup id with
  | some names => (names, found)
  | none => (t.supertypeClosure id, (id, t.supertypeClosure id) :: found)

/-- The conversion of a declaration of one shape; there is none for other shapes. -/
def ofShape {α β : Type} (shape : Declaration → Option β) (convert : Declaration → β → Recalling α)
    (id : DeclId) : Recalling (Option α) :=
  match t.decl? id with
  | none => return none
  | some d =>
    match shape d with
    | none => return none
    | some b => some <$> convert d b

/-- What some handles convert to, without those that have no conversion. -/
def collect {α : Type} (convert : DeclId → Recalling (Option α)) (ids : List DeclId) :
    Recalling (List α) := do
  let converted ← ids.mapM convert
  return converted.filterMap id

/-! ### Types -/

/-- A class without members, supertypes, type parameters or companion. -/
def memberlessClass (depth : Depth) (id : DeclId) (d : Declaration) (c : ClassShape) :
    Recalling ClassElement := do
  let allSupertypes ← namesAbove t id
  return { t.memberlessClass depth id d c with allSupertypes }

/-- The class with a handle, converted flat. -/
def flatClass? (id : DeclId) : Recalling (Option ClassElement) :=
  ofShape t (·.asClass) (memberlessClass t .flat id) id

/-- The type a nested class is nested in. -/
def enclosingType? (d : Declaration) : Recalling (Option Ty) :=
  match d.parent with
  | none => return none
  | some owner => do
    let element ← flatClass? t owner
    return element.bind fun element => (t.stub? owner).map fun stub =>
      { Ty.declared element [] with declaration := some (.stub stub) }

/-- The type of a class with given arguments, within the type it is nested in. -/
def nestedType (d : Declaration) (element : ClassElement) (arguments : List Ty) :
    Recalling Ty := do
  let enclosing ← enclosingType? t d
  return { Ty.declared element arguments with form := .declared element enclosing }

/-- The type that a declaration gives, before the marks of the reference are put on it.
The arguments are converted where they are needed: the first one for an array, and all of
them for a class that was found. -/
def typeOfTarget (class? : DeclId → Recalling (Option ClassElement))
    (parameter? : DeclId → Recalling (Option TypeParameter)) (arguments : List (Recalling Ty))
    (id : DeclId) (d : Declaration) : Recalling Ty :=
  match d.typeKind with
  | .primitive p => return .ofPrimitive p
  | .unit => return .noType .unit
  | .nothing => return .noType .nothing
  | .array =>
    match arguments with
    | [] => return .array .unknown
    | a :: _ => Ty.array <$> a
  | .variable => do
    let parameter ← parameter? id
    match parameter with
    | some p => return .typeVariable p
    | none => return .unknown
  | .declared => do
    let element ← class? id
    match element with
    | some element =>
      let arguments ← arguments.mapM fun a => a
      nestedType t d element arguments
    | none => return .unknown
  | .wildcard | .other => return .unknown

/-- The type of a reference, given its arguments and the conversions of classes and type
parameters. -/
def assembleType (depth : Depth) (class? : DeclId → Recalling (Option ClassElement))
    (parameter? : DeclId → Recalling (Option TypeParameter)) (arguments : List (Recalling Ty))
    (r : TypeRef) : Recalling Ty :=
  match t.resolve? r with
  | none => return .unknown
  | some id =>
    match t.decl? id with
    | none => return .unknown
    | some d => t.marked depth r d <$> typeOfTarget t class? parameter? arguments id d

mutual

/-- The type of a reference in a signature. -/
def signatureType : TypeRef → Recalling Ty
  | r@⟨_, arguments, _, _⟩ =>
    assembleType t .flat (flatClass? t) (fun id => return t.flatTypeParameter? id)
      (signatureArguments arguments) r

/-- The types of the arguments in a signature. -/
def signatureArguments : List TypeArgument → List (Recalling Ty)
  | [] => []
  | a :: as => signatureArgument a :: signatureArguments as

/-- The type of an argument in a signature. -/
def signatureArgument : TypeArgument → Recalling Ty
  | ⟨_, none⟩ => return .wildcard none none
  | ⟨projection, some r⟩ => SymbolTable.projected projection <$> signatureType r

end

/-! ### Functions and properties -/

/-- The type parameter with a handle; a flat one has no bounds. -/
def typeParameter? (depth : Depth) (id : DeclId) : Recalling (Option TypeParameter) :=
  ofShape t (·.asTypeParameter) (fun d p => do
    let bounds ← if depth.includesMembers then p.bounds.mapM (signatureType t) else pure []
    return t.boundedTypeParameter depth d p bounds) id

/-- A value parameter of the declaration `owner`. -/
def parameter (depth : Depth) (owner : Declaration) (p : ValueParameter) : Recalling Variable := do
  let type ← signatureType t p.type
  let untyped := t.parameter depth owner p
  return { untyped with type, header := { untyped.header with valid := !type.isUnknown } }

/-- What a function returns. -/
def returnType (d : Declaration) (c : CallableShape) : Recalling Ty :=
  match d.returnType? c with
  | some r => signatureType t r
  | none => return .unknown

/-- The function or constructor with a handle. -/
def callable? (depth : Depth) (id : DeclId) : Recalling (Option Callable) :=
  ofShape t (·.asCallable) (fun d c => do
    let returnType ← returnType t d c
    let parameters ← c.parameters.mapM (parameter t depth.descend d)
    let typeParameters ← collect (typeParameter? t depth.descend) d.typeParameters
    let thrownTypes ← c.throws.mapM (signatureType t)
    let receiverType ← c.receiver.mapM (signatureType t)
    let isAbstract := c.isAbstract || d.hasKeyword .abstract
    return {
      header :=
        { t.header depth d d.elementKind with
          valid := !returnType.isUnknown && parameters.all fun p => p.header.valid }
      returnType, parameters, typeParameters, thrownTypes, receiverType
      isVarargs := c.parameters.any ValueParameter.isVararg
      isAbstract
      isDefault := t.inInterface d && !isAbstract
      isSuspend := d.hasKeyword .suspend
      isInline := d.hasKeyword .inline
      isOperator := d.hasKeyword .operator
      isInfix := d.hasKeyword .infixCall }) id

/-- The property with a handle. -/
def property? (depth : Depth) (id : DeclId) : Recalling (Option Property) :=
  ofShape t (·.asProperty) (fun d p => do
    let type ← signatureType t p.type
    let receiverType ← p.receiver.mapM (signatureType t)
    return {
      header := { t.header depth d .property with valid := !type.isUnknown }
      type
      constantValue := p.constant.map (t.convertConstant depth.descend)
      isMutable := p.isMutable
      isConst := d.hasKeyword .const
      isLateinit := d.hasKeyword .lateinit
      getter := p.getter.map (t.getter depth d type)
      setter := p.setter.map (t.setter depth d type)
      backingField := if p.hasBackingField then some (t.backingField depth d p type) else none
      hasCustomGetter := SymbolTable.isCustom p.getter
      hasCustomSetter := SymbolTable.isCustom p.setter
      delegate := p.delegate
      receiverType }) id

/-! ### Classes -/

/-- The supertypes that point at something, as superclass and interfaces. -/
def splitSupertypes : List TypeRef → Recalling (Option Ty × List Ty)
  | [] => return (none, [])
  | r :: rs =>
    if (t.resolve? r).isNone then splitSupertypes rs
    else if t.isInterface r then do
      let type ← signatureType t r
      let above ← splitSupertypes rs
      return (above.1, type :: above.2)
    else do
      let type ← signatureType t r
      let interfaces ← (rs.filter fun s => (t.resolve? s).isSome).mapM (signatureType t)
      return (some type, interfaces)

/-- A member of a class, unless it is a companion or left out as a nested class. -/
def member? (depth : Depth) (nested? : DeclId → Recalling (Option ClassElement)) (id : DeclId) :
    Recalling (Option Element) :=
  match t.decl? id with
  | none => return none
  | some d =>
    match d.shape with
    | .classLike c =>
      if c.isCompanion then return none
      else if c.kind = .enumEntry then Option.map Element.classLike <$> flatClass? t id
      else Option.map Element.classLike <$> nested? id
    | .callable _ => Option.map Element.callable <$> callable? t depth id
    | .property _ => Option.map Element.property <$> property? t depth id
    | .typeParameter _ => return none

/-- The class with a handle and its members, given the conversions of nested classes and of
the companion. -/
def classWithMembers? (depth : Depth)
    (nested? companion? : DeclId → Recalling (Option ClassElement)) (id : DeclId) :
    Recalling (Option ClassElement) :=
  ofShape t (·.asClass) (fun d c => do
    let above ← splitSupertypes t c.superTypes
    let typeParameters ← collect (typeParameter? t depth.descend) d.typeParameters
    let enclosed ← collect (member? t depth.descend nested?) d.members
    let companion ← (d.members.find? t.isCompanion).mapM companion?
    let base ← memberlessClass t depth id d c
    return { base with
      header := { base.header with enclosed }
      superclass := above.1
      interfaces := above.2
      typeParameters
      companion := companion.join }) id

/-- The class with a handle, without nested classes. -/
def boundedClass? : DeclId → Recalling (Option ClassElement) :=
  classWithMembers? t .bounded (fun _ => return none) (flatClass? t)

/-- The class with a handle, with all its members. -/
def fullClass? : DeclId → Recalling (Option ClassElement) :=
  classWithMembers? t .full (boundedClass? t) (boundedClass? t)

/-- The class with a handle. -/
def classElement? : Depth → DeclId → Recalling (Option ClassElement)
  | .full => fullClass? t
  | .bounded => boundedClass? t
  | .flat => flatClass? t

/-! ### Everything -/

/-- The element of the declaration with a handle. -/
def element? (depth : Depth) (id : DeclId) : Recalling (Option Element) :=
  match t.decl? id with
  | none => return none
  | some d =>
    match d.shape with
    | .classLike _ => Option.map Element.classLike <$> classElement? t depth id
    | .callable _ => Option.map Element.callable <$> callable? t depth id
    | .property _ => Option.map Element.property <$> property? t depth id
    | .typeParameter _ => Option.map Element.typeParameter <$> typeParameter? t depth id

/-- The type of a reference. -/
def typeOf (depth : Depth) (r : TypeRef) : Recalling Ty :=
  match depth with
  | .full =>
    assembleType t .bounded (boundedClass? t) (typeParameter? t .bounded)
      (signatureArguments t r.arguments) r
  | .bounded | .flat => signatureType t r

/-- The type of a type argument. -/
def typeOfArgument (depth : Depth) (a : TypeArgument) : Recalling Ty :=
  match a.type with
  | none => return .wildcard none none
  | some r => SymbolTable.projected a.projection <$> typeOf t depth r

end Recall
end SymbolGraph

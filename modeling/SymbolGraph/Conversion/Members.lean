/-
# Converting functions and properties

A function is valid when its return type and the types of its parameters were
found, and a property when its type was. An accessor is a function of its own:
the getter returns the property's type, and the setter takes it and returns
the type of one value.

Key definitions: `SymbolTable.parameter`, `SymbolTable.callable?`,
`SymbolTable.property?`.
-/
import SymbolGraph.Conversion.Signature

namespace SymbolGraph
namespace SymbolTable

/-! ### Functions -/

/-- A value parameter of the declaration `owner`. -/
def parameter (t : SymbolTable) (depth : Depth) (owner : Declaration) (p : ValueParameter) :
    Variable :=
  let type := t.signatureType p.type
  { header :=
      { Header.plain p.name .parameter with
        packageName := owner.packageName?
        enclosing := some (.stub owner.stub)
        annotations := p.annotations.map (t.convertUsage depth)
        modifiers := .ofList (if p.isVararg then [.vararg] else [])
        sourceFile := t.fileRef? owner
        valid := !type.isUnknown }
    type
    kind := .parameter
    constantValue := none
    isMutable := false
    isConst := false
    isLateinit := false
    hasDefault := p.hasDefault }

/-- What a function returns; a type nobody wrote was not found. -/
def returnType (t : SymbolTable) (d : Declaration) (c : CallableShape) : Ty :=
  match d.returnType? c with
  | some r => t.signatureType r
  | none => .unknown

/-- Whether a declaration stands directly in an interface. -/
def inInterface (t : SymbolTable) (d : Declaration) : Bool :=
  match (d.parent.bind t.decl?).bind (·.asClass) with
  | some c => c.kind == .interfaceType
  | none => false

/-- The function or constructor with a handle. -/
def callable? (t : SymbolTable) (depth : Depth) (id : DeclId) : Option Callable := do
  let d ← t.decl? id
  let c ← d.asCallable
  let returnType := t.returnType d c
  let parameters := c.parameters.map (t.parameter depth.descend d)
  let isAbstract := c.isAbstract || d.hasKeyword .abstract
  return {
    header :=
      { t.header depth d d.elementKind with
        valid := !returnType.isUnknown && parameters.all fun p => p.header.valid }
    returnType
    parameters
    typeParameters := d.typeParameters.filterMap (t.typeParameter? depth.descend)
    thrownTypes := c.throws.map t.signatureType
    receiverType := c.receiver.map t.signatureType
    isVarargs := c.parameters.any ValueParameter.isVararg
    isAbstract
    isDefault := t.inInterface d && !isAbstract
    isSuspend := d.hasKeyword .suspend
    isInline := d.hasKeyword .inline
    isOperator := d.hasKeyword .operator
    isInfix := d.hasKeyword .infixCall }

/-! ### Properties -/

/-- The header of an accessor of a property. -/
def accessorHeader (t : SymbolTable) (depth : Depth) (d : Declaration) (name : String)
    (a : Accessor) : Header :=
  { Header.plain name .method with
    packageName := d.packageName?
    enclosing := some (.stub d.stub)
    annotations := a.annotations.map (t.convertUsage depth)
    modifiers := .ofKeywords a.modifiers
    sourceFile := t.fileRef? d }

/-- An accessor of a property. -/
def accessor (d : Declaration) (header : Header) (parameters : List Variable) (returnType : Ty) :
    Callable where
  header := { header with
    valid := (parameters.all fun p => p.header.valid) && !returnType.isUnknown }
  returnType
  parameters
  typeParameters := []
  thrownTypes := []
  receiverType := none
  isVarargs := false
  isAbstract := d.hasKeyword .abstract
  isDefault := false
  isSuspend := false
  isInline := d.hasKeyword .inline
  isOperator := false
  isInfix := false

/-- The getter of a property of a given type. -/
def getter (t : SymbolTable) (depth : Depth) (d : Declaration) (type : Ty) (a : Accessor) :
    Callable :=
  accessor d (t.accessorHeader depth d ("<get-" ++ d.name ++ ">") a) [] type

/-- The parameter of a setter. -/
def setterParameter (d : Declaration) (type : Ty) : Variable where
  header :=
    { Header.plain "value" .parameter with
      enclosing := some (.stub d.stub)
      valid := !type.isUnknown }
  type
  kind := .parameter
  constantValue := none
  isMutable := false
  isConst := false
  isLateinit := false
  hasDefault := false

/-- The setter of a property of a given type. -/
def setter (t : SymbolTable) (depth : Depth) (d : Declaration) (type : Ty) (a : Accessor) :
    Callable :=
  accessor d (t.accessorHeader depth d ("<set-" ++ d.name ++ ">") a) [setterParameter d type]
    (.noType .unit)

/-- The field behind a property of a given type. -/
def backingField (t : SymbolTable) (depth : Depth) (d : Declaration) (p : PropertyShape) (type : Ty) :
    Variable where
  header := { t.header depth d .field with valid := !type.isUnknown }
  type
  kind := .field
  constantValue := p.constant.map (t.convertConstant depth.descend)
  isMutable := p.isMutable
  isConst := d.hasKeyword .const
  isLateinit := d.hasKeyword .lateinit
  hasDefault := false

/-- Whether an accessor is there and has a body of its own. -/
def isCustom (a : Option Accessor) : Bool :=
  match a with
  | some a => a.isCustom
  | none => false

/-- The property with a handle. -/
def property? (t : SymbolTable) (depth : Depth) (id : DeclId) : Option Property := do
  let d ← t.decl? id
  let p ← d.asProperty
  let type := t.signatureType p.type
  return {
    header := { t.header depth d .property with valid := !type.isUnknown }
    type
    constantValue := p.constant.map (t.convertConstant depth.descend)
    isMutable := p.isMutable
    isConst := d.hasKeyword .const
    isLateinit := d.hasKeyword .lateinit
    getter := p.getter.map (t.getter depth d type)
    setter := p.setter.map (t.setter depth d type)
    backingField := if p.hasBackingField then some (t.backingField depth d p type) else none
    hasCustomGetter := isCustom p.getter
    hasCustomSetter := isCustom p.setter
    delegate := p.delegate
    receiverType := p.receiver.map t.signatureType }

end SymbolTable
end SymbolGraph

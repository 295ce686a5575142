/-
# Converting declarations

A class in full holds its members, each converted one step further down: its
nested classes too, but not what is nested in those. The entries of an enum
are always flat, and the companion object is held apart from the members, so
that it is there where nested classes are left out. The first supertype that
is no interface is the superclass; supertypes that were not found are dropped.

Three functions, one for each depth, convert a class, each calling the next, so
a conversion ends whatever the declarations refer to.

Key definitions: `SymbolTable.splitSupertypes`, `SymbolTable.members`,
`SymbolTable.classElement?`, `SymbolTable.element?`, `SymbolTable.typeOf`.
-/
import SymbolGraph.Conversion.Members

namespace SymbolGraph
namespace SymbolTable

/-! ### Classes -/

/-- Whether a reference points at an interface. -/
def isInterface (t : SymbolTable) (r : TypeRef) : Bool :=
  match (t.target? r).bind (·.asClass) with
  | some c => c.kind == .interfaceType
  | none => false

/-- The supertypes that point at something, as superclass and interfaces: the first
one that is no interface is the superclass. -/
def splitSupertypes (t : SymbolTable) : List TypeRef → Option Ty × List Ty
  | [] => (none, [])
  | r :: rs =>
    if (t.resolve? r).isNone then t.splitSupertypes rs
    else if t.isInterface r then
      let (superclass, interfaces) := t.splitSupertypes rs
      (superclass, t.signatureType r :: interfaces)
    else
      (some (t.signatureType r), (rs.filter fun s => (t.resolve? s).isSome).map t.signatureType)

/-- A member of a class, unless it is a companion or left out as a nested class.
Functions and properties are converted at `depth`. -/
def member? (t : SymbolTable) (depth : Depth) (nested? : DeclId → Option ClassElement)
    (id : DeclId) : Option Element := do
  let d ← t.decl? id
  match d.shape with
  | .classLike c =>
    if c.isCompanion then none
    else if c.kind = .enumEntry then (t.flatClass? id).map Element.classLike
    else (nested? id).map Element.classLike
  | .callable _ => (t.callable? depth id).map Element.callable
  | .property _ => (t.property? depth id).map Element.property
  | .typeParameter _ => none

/-- Whether a declaration is a companion object. -/
def isCompanion (t : SymbolTable) (id : DeclId) : Bool :=
  match (t.decl? id).bind (·.asClass) with
  | some c => c.isCompanion
  | none => false

/-- The class with a handle and its members, given the conversions of nested classes
and of the companion. -/
def classWithMembers? (t : SymbolTable) (depth : Depth)
    (nested? companion? : DeclId → Option ClassElement) (id : DeclId) : Option ClassElement := do
  let d ← t.decl? id
  let c ← d.asClass
  let base := t.memberlessClass depth id d c
  let (superclass, interfaces) := t.splitSupertypes c.superTypes
  return { base with
    header := { base.header with enclosed := d.members.filterMap (t.member? depth.descend nested?) }
    superclass
    interfaces
    typeParameters := d.typeParameters.filterMap (t.typeParameter? depth.descend)
    companion := (d.members.find? t.isCompanion).bind companion? }

/-- The class with a handle, without nested classes. -/
def boundedClass? (t : SymbolTable) (id : DeclId) : Option ClassElement :=
  t.classWithMembers? .bounded (fun _ => none) t.flatClass? id

/-- The class with a handle, with all its members. -/
def fullClass? (t : SymbolTable) (id : DeclId) : Option ClassElement :=
  t.classWithMembers? .full t.boundedClass? t.boundedClass? id

/-- The class with a handle. -/
def classElement? (t : SymbolTable) : Depth → DeclId → Option ClassElement
  | .full => t.fullClass?
  | .bounded => t.boundedClass?
  | .flat => t.flatClass?

/-! ### Everything -/

/-- The element of the declaration with a handle. -/
def element? (t : SymbolTable) (depth : Depth) (id : DeclId) : Option Element := do
  let d ← t.decl? id
  match d.shape with
  | .classLike _ => (t.classElement? depth id).map Element.classLike
  | .callable _ => (t.callable? depth id).map Element.callable
  | .property _ => (t.property? depth id).map Element.property
  | .typeParameter _ => (t.typeParameter? depth id).map Element.typeParameter

/-- The type of a reference. What stands behind it is converted one step further
down. -/
def typeOf (t : SymbolTable) (depth : Depth) (r : TypeRef) : Ty :=
  match depth with
  | .full =>
    t.assembleType .bounded t.boundedClass? (t.typeParameter? .bounded)
      (t.signatureArguments r.arguments) r
  | .bounded | .flat => t.signatureType r

/-- The type of a type argument. -/
def typeOfArgument (t : SymbolTable) (depth : Depth) (a : TypeArgument) : Ty :=
  match a.type with
  | none => .wildcard none none
  | some r => projected a.projection (t.typeOf depth r)

end SymbolTable
end SymbolGraph

/-
# Declarations before they are placed

A draft describes a declaration by itself: its name, its modifiers, its
annotations and what its kind adds. Where it lives, what it is called there
and what it contains is the table's to say. A draft grows step by step; a step
that concerns another kind of declaration leaves the draft as it is, apart
from the keyword that `companion` and `abstractMember` write on any kind.

Key definitions: `ClassKind`, `Accessor`, `ValueParameter`, `Shape`, `Draft`.
-/
import SymbolGraph.Modifier
import SymbolGraph.TypeRef

namespace SymbolGraph

/-- The kinds of class-like declaration. -/
inductive ClassKind
  | classType | interfaceType | enumType | enumEntry | object | annotationType
  deriving DecidableEq, Repr, Inhabited

/-- The name of every constructor. -/
def constructorName : String := "<init>"

/-- A value parameter of a function. -/
structure ValueParameter where
  name : String
  type : TypeRef
  isVararg : Bool := false
  hasDefault : Bool := false
  annotations : List Usage := []

/-- A property's getter or setter. -/
structure Accessor where
  modifiers : List Keyword := []
  annotations : List Usage := []
  /-- Whether it has a body of its own. -/
  isCustom : Bool := false

/-- What a class-like declaration adds. -/
structure ClassShape where
  kind : ClassKind
  superTypes : List TypeRef := []
  isCompanion : Bool := false
  isAnonymous : Bool := false

/-- What a function or a constructor adds. -/
structure CallableShape where
  isConstructor : Bool := false
  parameters : List ValueParameter := []
  returnType : Option TypeRef := none
  receiver : Option TypeRef := none
  throws : List TypeRef := []
  isAbstract : Bool := false

/-- What a property adds. -/
structure PropertyShape where
  type : TypeRef
  isMutable : Bool := false
  getter : Option Accessor := some {}
  setter : Option Accessor := none
  hasBackingField : Bool := true
  /-- The text of the expression the property is delegated to. -/
  delegate : Option String := none
  receiver : Option TypeRef := none
  constant : Option Constant := none

/-- What a type parameter adds. -/
structure TypeParameterShape where
  bounds : List TypeRef := []
  variance : Projection := .invariant

/-- The kind of a declaration, with what the kind adds. -/
inductive Shape
  | classLike (shape : ClassShape)
  | callable (shape : CallableShape)
  | property (shape : PropertyShape)
  | typeParameter (shape : TypeParameterShape)

/-- A declaration as it is described, before it is placed anywhere. -/
structure Draft where
  name : String
  modifiers : List Keyword := []
  annotations : List Usage := []
  documentation : Option String := none
  shape : Shape

namespace Draft

/-! ### Drafts to begin with -/

/-- A class-like declaration. -/
def classLike (name : String) (kind : ClassKind) : Draft :=
  { name, shape := .classLike { kind } }

/-- A function. -/
def function (name : String) (parameters : List ValueParameter) (returnType : Option TypeRef) :
    Draft :=
  { name, shape := .callable { parameters, returnType } }

/-- A constructor; what it returns follows from where it is placed. -/
def constructor (parameters : List ValueParameter) : Draft :=
  { name := constructorName, shape := .callable { isConstructor := true, parameters } }

/-- A property with a getter and a backing field. -/
def property (name : String) (type : TypeRef) : Draft :=
  { name, shape := .property { type } }

/-- A type parameter. -/
def typeParameter (name : String) : Draft :=
  { name, shape := .typeParameter {} }

/-! ### Steps that fit every kind -/

/-- Add keywords. -/
def withModifiers (d : Draft) (ks : List Keyword) : Draft :=
  { d with modifiers := d.modifiers ++ ks }

/-- Add an annotation. -/
def annotated (d : Draft) (u : Usage) : Draft := { d with annotations := d.annotations ++ [u] }

/-- Set the documentation. -/
def documented (d : Draft) (text : String) : Draft := { d with documentation := some text }

/-! ### Steps that fit one kind -/

/-- Change what a class adds. -/
def onClass (d : Draft) (f : ClassShape → ClassShape) : Draft :=
  match d.shape with
  | .classLike c => { d with shape := .classLike (f c) }
  | _ => d

/-- Change what a function adds. -/
def onCallable (d : Draft) (f : CallableShape → CallableShape) : Draft :=
  match d.shape with
  | .callable c => { d with shape := .callable (f c) }
  | _ => d

/-- Change what a property adds. -/
def onProperty (d : Draft) (f : PropertyShape → PropertyShape) : Draft :=
  match d.shape with
  | .property p => { d with shape := .property (f p) }
  | _ => d

/-- Change what a type parameter adds. -/
def onTypeParameter (d : Draft) (f : TypeParameterShape → TypeParameterShape) : Draft :=
  match d.shape with
  | .typeParameter p => { d with shape := .typeParameter (f p) }
  | _ => d

/-- Add a supertype. -/
def withSuperType (d : Draft) (r : TypeRef) : Draft :=
  d.onClass fun c => { c with superTypes := c.superTypes ++ [r] }

/-- Make a companion object; the keyword is written on any kind. -/
def companion (d : Draft) : Draft :=
  (d.onClass fun c => { c with isCompanion := true }).withModifiers [.companion]

/-- Make the class anonymous. -/
def anonymous (d : Draft) : Draft := d.onClass fun c => { c with isAnonymous := true }

/-- Make an extension of a function or a property. -/
def withReceiver (d : Draft) (r : TypeRef) : Draft :=
  (d.onCallable fun c => { c with receiver := some r }).onProperty
    fun p => { p with receiver := some r }

/-- Add a type that the function throws. -/
def withThrows (d : Draft) (r : TypeRef) : Draft :=
  d.onCallable fun c => { c with throws := c.throws ++ [r] }

/-- Make the function abstract; the keyword is written on any kind. -/
def abstractMember (d : Draft) : Draft :=
  (d.onCallable fun c => { c with isAbstract := true }).withModifiers [.abstract]

/-- Make the property mutable, with a setter if it has none yet. -/
def mutable (d : Draft) : Draft :=
  d.onProperty fun p => { p with isMutable := true, setter := some (p.setter.getD {}) }

/-- Set the property's getter, or take it away. -/
def withGetter (d : Draft) (a : Option Accessor) : Draft :=
  d.onProperty fun p => { p with getter := a }

/-- Set the property's setter. -/
def withSetter (d : Draft) (a : Accessor) : Draft :=
  d.onProperty fun p => { p with setter := some a }

/-- Set what the function or constructor returns. -/
def returning (d : Draft) (r : TypeRef) : Draft :=
  d.onCallable fun c => { c with returnType := some r }

/-- Take the property's backing field away. -/
def withoutBackingField (d : Draft) : Draft :=
  d.onProperty fun p => { p with hasBackingField := false }

/-- Delegate the property, which then has no backing field. -/
def delegatedTo (d : Draft) (expression : String) : Draft :=
  d.onProperty fun p => { p with delegate := some expression, hasBackingField := false }

/-- Set the property's constant value. -/
def withConstant (d : Draft) (c : Constant) : Draft :=
  d.onProperty fun p => { p with constant := some c }

/-- Add an upper bound. -/
def withBound (d : Draft) (r : TypeRef) : Draft :=
  d.onTypeParameter fun p => { p with bounds := p.bounds ++ [r] }

/-- Set the type parameter's variance. -/
def withVariance (d : Draft) (v : Projection) : Draft :=
  d.onTypeParameter fun p => { p with variance := v }

/-! ### Questions -/

/-- Whether the draft is written with a keyword. -/
def hasKeyword (d : Draft) (k : Keyword) : Bool := decide (k ∈ d.modifiers)

/-- What the draft adds as a class, if it is one. -/
def asClass (d : Draft) : Option ClassShape :=
  match d.shape with
  | .classLike c => some c
  | _ => none

/-- What the draft adds as a function, if it is one. -/
def asCallable (d : Draft) : Option CallableShape :=
  match d.shape with
  | .callable c => some c
  | _ => none

/-- What the draft adds as a property, if it is one. -/
def asProperty (d : Draft) : Option PropertyShape :=
  match d.shape with
  | .property p => some p
  | _ => none

/-- What the draft adds as a type parameter, if it is one. -/
def asTypeParameter (d : Draft) : Option TypeParameterShape :=
  match d.shape with
  | .typeParameter p => some p
  | _ => none

end Draft
end SymbolGraph

/-
# Walking through a tree

The parts of a converted tree are elements, types, annotations and values. A
hop leads from a part to one below it, or to the stub above it; where there is
nothing to hop to, a walk ends without a result.

Key definitions: `Node`, `Hop`, `Node.hop?`, `Node.follow?`, `Node.same`.
-/
import SymbolGraph.Element.Access
import SymbolGraph.Element.Equality
import SymbolGraph.Ty

namespace SymbolGraph

/-- A part of a converted tree. -/
inductive Node
  | element (e : Element)
  | type (t : Ty)
  | mark (a : Annotation)
  | value (v : Value)

/-- A way from one part to another. -/
inductive Hop
  | enclosing | enclosed (i : Nat) | annotations (i : Nat)
  | superclass | interfaces (i : Nat) | companion | typeParameters (i : Nat)
  | returnType | parameters (i : Nat) | thrownTypes (i : Nat) | receiverType
  | type | constantValue | getter | setter | backingField
  | bounds (i : Nat) | genericElement
  | arguments (i : Nat) | upperBounds (i : Nat) | lowerBounds (i : Nat)
  | declaration | component | element | enclosingType
  | markType | argument (name : String)
  | items (i : Nat) | enumType | constant | nested
  deriving DecidableEq, Repr

/-- The hop through a field that holds one part, by the field's name. -/
def Hop.throughField? : String → Option Hop
  | "enclosing" => some .enclosing
  | "superclass" => some .superclass
  | "companion" => some .companion
  | "return_type" => some .returnType
  | "receiver_type" => some .receiverType
  | "ty" => some .type
  | "constant_value" => some .constantValue
  | "getter" => some .getter
  | "setter" => some .setter
  | "backing_field" => some .backingField
  | "generic_element" => some .genericElement
  | "declaration" => some .declaration
  | "component" => some .component
  | "element" => some .element
  | "enclosing_type" => some .enclosingType
  | "type" => some .markType
  | "enum_type" => some .enumType
  | "constant" => some .constant
  | "annotation" => some .nested
  | _ => none

/-- The hop to an item of a field that holds a list, by the field's name. -/
def Hop.toItem? (i : Nat) : String → Option Hop
  | "enclosed" => some (.enclosed i)
  | "annotations" => some (.annotations i)
  | "interfaces" => some (.interfaces i)
  | "type_parameters" => some (.typeParameters i)
  | "parameters" => some (.parameters i)
  | "thrown_types" => some (.thrownTypes i)
  | "bounds" => some (.bounds i)
  | "args" => some (.arguments i)
  | "upper" => some (.upperBounds i)
  | "lower" => some (.lowerBounds i)
  | "items" => some (.items i)
  | _ => none

/-- The type parameters an element declares. -/
def Element.typeParameters : Element → List TypeParameter
  | .classLike c => c.typeParameters
  | .callable c => c.typeParameters
  | _ => []

/-- The receiver of an extension. -/
def Element.receiverType? : Element → Option Ty
  | .callable c => c.receiverType
  | .property p => p.receiverType
  | _ => none

/-- The type of a variable or a property. -/
def Element.type? : Element → Option Ty
  | .variable v => some v.type
  | .property p => some p.type
  | _ => none

/-- The constant of a variable or a property. -/
def Element.constantValue? : Element → Option Value
  | .variable v => v.constantValue
  | .property p => p.constantValue
  | _ => none

namespace Hop

/-- Where a hop leads from an element. -/
def fromElement (e : Element) : Hop → Option Node
  | .enclosing => e.enclosing?.map .element
  | .enclosed i => e.enclosed[i]?.map .element
  | .annotations i => e.annotations[i]?.map .mark
  | .superclass => (e.asClass?.bind ClassElement.superclass).map .type
  | .interfaces i => (e.asClass?.bind fun c => c.interfaces[i]?).map .type
  | .companion => (e.asClass?.bind ClassElement.companion).map fun c => .element (.classLike c)
  | .typeParameters i => e.typeParameters[i]?.map fun p => .element (.typeParameter p)
  | .returnType => e.asCallable?.map fun c => .type c.returnType
  | .parameters i =>
    (e.asCallable?.bind fun c => c.parameters[i]?).map fun v => .element (.variable v)
  | .thrownTypes i => (e.asCallable?.bind fun c => c.thrownTypes[i]?).map .type
  | .receiverType => e.receiverType?.map .type
  | .type => e.type?.map .type
  | .constantValue => e.constantValue?.map .value
  | .getter => (e.asProperty?.bind Property.getter).map fun c => .element (.callable c)
  | .setter => (e.asProperty?.bind Property.setter).map fun c => .element (.callable c)
  | .backingField => (e.asProperty?.bind Property.backingField).map fun v => .element (.variable v)
  | .bounds i => (e.asTypeParameter?.bind fun p => p.bounds[i]?).map .type
  | .genericElement => (e.asTypeParameter?.bind TypeParameter.genericElement?).map .element
  | _ => none

/-- Where a hop leads from a type. -/
def fromType (t : Ty) : Hop → Option Node
  | .arguments i => t.arguments[i]?.map .type
  | .upperBounds i => t.upperBounds[i]?.map .type
  | .lowerBounds i => t.lowerBounds[i]?.map .type
  | .declaration => t.declaration.map .element
  | .annotations i => t.annotations[i]?.map .mark
  | .component => t.component?.map .type
  | .element => t.classElement?.map fun c => .element (.classLike c)
  | .enclosingType => t.enclosing?.map .type
  | _ => none

/-- Where a hop leads from an annotation. -/
def fromMark (a : Annotation) : Hop → Option Node
  | .markType => some (.type a.type)
  | .argument name => (a.argument? name).map .value
  | _ => none

/-- Where a hop leads from a value. -/
def fromValue (v : Value) (h : Hop) : Option Node :=
  match h, v with
  | .items i, .array vs => vs[i]?.map .value
  | .enumType, .enumConstant t _ => some (.type t)
  | .constant, .enumConstant _ c => some (.element c)
  | .nested, .nested a => some (.mark a)
  | _, _ => none

end Hop

namespace Node

/-- Where a hop leads. -/
def hop? (n : Node) (h : Hop) : Option Node :=
  match n with
  | .element e => h.fromElement e
  | .type t => h.fromType t
  | .mark a => h.fromMark a
  | .value v => h.fromValue v

/-- Where some hops lead, one after the other. -/
def follow? : Node → List Hop → Option Node
  | n, [] => some n
  | n, h :: hs => (n.hop? h).bind fun m => m.follow? hs

/-- Equality of parts; parts of different sorts are different. -/
def same : Node → Node → Bool
  | .element a, .element b => a.same b
  | .type a, .type b => a.same b
  | .mark a, .mark b => a.same b
  | .value a, .value b => a.same b
  | _, _ => false

end Node
end SymbolGraph

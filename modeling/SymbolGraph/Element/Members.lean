/-
# The members of a class

A class holds its members in one list, in the order of their declaration. The
functions here pick the members of one sort out of it, and find single ones.
The entries of an enum and the classes nested in a class are told apart by
their kind, constructors and other functions by theirs; the fields are the
backing fields of the properties.

Key definitions: `ClassElement.nestedTypes`, `ClassElement.enumConstants`,
`ClassElement.methods`, `ClassElement.constructors`, `ClassElement.properties`,
`ClassElement.findMethod?`, `ClassElement.isSubtypeOf`.
-/
import SymbolGraph.Ty.Operations

namespace SymbolGraph
namespace ClassElement

/-- The classes among the members. -/
def classes (c : ClassElement) : List ClassElement := c.header.enclosed.filterMap Element.asClass?

/-- The functions among the members. -/
def callables (c : ClassElement) : List Callable := c.header.enclosed.filterMap Element.asCallable?

/-- The nested classes, without the entries of an enum. -/
def nestedTypes (c : ClassElement) : List ClassElement :=
  c.classes.filter fun n => n.kind != .enumEntry

/-- The entries of an enum. -/
def enumConstants (c : ClassElement) : List ClassElement :=
  c.classes.filter fun n => n.kind == .enumEntry

/-- The functions that are not constructors. -/
def methods (c : ClassElement) : List Callable := c.callables.filter fun m => !m.isConstructor

/-- The constructors. -/
def constructors (c : ClassElement) : List Callable := c.callables.filter Callable.isConstructor

/-- The properties. -/
def properties (c : ClassElement) : List Property := c.header.enclosed.filterMap Element.asProperty?

/-- The backing fields of the properties that have one. -/
def fields (c : ClassElement) : List Variable := c.properties.filterMap Property.backingField

/-! ### Single members -/

/-- Whether a function takes parameters of given erased type names. -/
def takes (m : Callable) (parameterTypes : List String) : Bool :=
  m.parameters.map (fun p => p.type.erasedName) == parameterTypes

/-- The first method of a name that takes parameters of given erased type names. -/
def findMethod? (c : ClassElement) (name : String) (parameterTypes : List String) :
    Option Callable :=
  c.methods.find? fun m => m.header.simpleName == name && takes m parameterTypes

/-- The methods of a name. -/
def methodsNamed (c : ClassElement) (name : String) : List Callable :=
  c.methods.filter fun m => m.header.simpleName == name

/-- The first field of a name. -/
def findField? (c : ClassElement) (name : String) : Option Variable :=
  c.fields.find? fun f => f.header.simpleName == name

/-- The first property of a name. -/
def findProperty? (c : ClassElement) (name : String) : Option Property :=
  c.properties.find? fun p => p.header.simpleName == name

/-- The first constructor all of whose parameters may be left out. -/
def defaultConstructor? (c : ClassElement) : Option Callable :=
  c.constructors.find? fun m => m.parameters.all Variable.hasDefault

/-- Whether a qualified name is that of the class or of one above it. -/
def isSubtypeOf (c : ClassElement) (name : String) : Bool :=
  c.header.qualifiedName == some name || decide (name ∈ c.allSupertypes)

end ClassElement
end SymbolGraph

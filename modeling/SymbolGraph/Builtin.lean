/-
# The classes every table starts with

Thirteen classes are known before any source is read. Eight of them hold
primitive values, and each of these has a wrapper class on the platform; a
wrapper and its primitive are the same type to a program that reads or
stores a value (`Primitive.unwrap`).

Key definitions: `Builtin.all`, `Primitive`, `Primitive.ofName?`,
`Primitive.ofWrapper?`, `Primitive.unwrap`.
Key theorems: `Primitive.ofName?_name`, `Primitive.ofWrapper?_wrapper`.
-/

namespace SymbolGraph

/-- The eight kinds of primitive value. -/
inductive Primitive
  | boolean | byte | short | int | long | char | float | double
  deriving DecidableEq, Repr

namespace Builtin

/-- The package of every built-in class. -/
def package : String := "kotlin"

/-- The top type. -/
def any : String := "kotlin.Any"
/-- The class of texts. -/
def string : String := "kotlin.String"
/-- The type with one value. -/
def unit : String := "kotlin.Unit"
/-- The bottom type. -/
def nothing : String := "kotlin.Nothing"
/-- The class of arrays, the only built-in one with a type parameter. -/
def array : String := "kotlin.Array"
/-- The name of that type parameter. -/
def arrayParameter : String := "T"

end Builtin

namespace Primitive

/-- Every primitive, in the order the tables list them. -/
def all : List Primitive := [.boolean, .byte, .short, .int, .long, .char, .float, .double]

/-- The qualified name of the primitive's class. -/
def name : Primitive → String
  | .boolean => "kotlin.Boolean"
  | .byte => "kotlin.Byte"
  | .short => "kotlin.Short"
  | .int => "kotlin.Int"
  | .long => "kotlin.Long"
  | .char => "kotlin.Char"
  | .float => "kotlin.Float"
  | .double => "kotlin.Double"

/-- The qualified name of the platform's wrapper class. -/
def wrapper : Primitive → String
  | .boolean => "java.lang.Boolean"
  | .byte => "java.lang.Byte"
  | .short => "java.lang.Short"
  | .int => "java.lang.Integer"
  | .long => "java.lang.Long"
  | .char => "java.lang.Character"
  | .float => "java.lang.Float"
  | .double => "java.lang.Double"

/-- The primitive whose class has this qualified name. -/
def ofName? (name : String) : Option Primitive := all.find? fun p => p.name == name

/-- The primitive whose wrapper has this qualified name. -/
def ofWrapper? (name : String) : Option Primitive := all.find? fun p => p.wrapper == name

/-- A wrapper's name becomes its primitive's; every other name stays. -/
def unwrap (name : String) : String :=
  match ofWrapper? name with
  | some p => p.name
  | none => name

theorem ofName?_name (p : Primitive) : ofName? p.name = some p := by cases p <;> decide

theorem ofWrapper?_wrapper (p : Primitive) : ofWrapper? p.wrapper = some p := by
  cases p <;> decide

end Primitive

/-- Every built-in class, in the order in which a table declares them. -/
def Builtin.all : List String :=
  [any] ++ Primitive.all.map Primitive.name ++ [string, unit, nothing, array]

end SymbolGraph

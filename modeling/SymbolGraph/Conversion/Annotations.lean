/-
# Converting annotations and constants

An annotation keeps the identity of its class and its arguments by name, the
last one of a name counting. The values of an array are converted at full
depth only, so a nested array is empty; an annotation inside an annotation is
converted one step further down, and has no arguments at the last step. All
other constants are the same at every depth. Classes are named, never
converted.

Key definitions: `SymbolTable.convertUsage`, `SymbolTable.convertConstant`.
-/
import SymbolGraph.Conversion.Depth
import SymbolGraph.Conversion.Identity
import SymbolGraph.Keyed

namespace SymbolGraph
namespace SymbolTable

/-- The type of an annotation class. -/
def annotationType (t : SymbolTable) (r : TypeRef) : Ty :=
  match t.resolve? r with
  | some id => t.headerType id
  | none => .unknown

/-- An annotation without its arguments. -/
def usageHeader (t : SymbolTable) (shortName : String) (type : TypeRef) : Annotation where
  type := t.annotationType type
  simpleName := shortName
  qualifiedName := t.annotationName? type
  arguments := []

/-- The value of a reference to an enum entry: the entry's identity, and the identity
type of what surrounds it. -/
def enumValue (t : SymbolTable) (entry : TypeRef) : Value :=
  match t.target? entry with
  | none => .unknown (entry.writtenName?.getD "")
  | some d =>
    let type :=
      match d.parent with
      | some owner => t.headerType owner
      | none => .unknown
    .enumConstant type (.stub d.stub)

/-- The value of a class literal: the names of the class. -/
def classValue (t : SymbolTable) (r : TypeRef) : Value :=
  match t.annotationName? r with
  | some name => .classLiteral name (QualifiedName.simpleName name)
  | none => .unknown ""

mutual

/-- An annotation with its arguments. -/
def convertUsage (t : SymbolTable) (depth : Depth) : Usage → Annotation
  | ⟨shortName, type, arguments⟩ =>
    { t.usageHeader shortName type with
      arguments := Keyed.ofList (t.convertArguments depth arguments) }

/-- A constant. -/
def convertConstant (t : SymbolTable) (depth : Depth) : Constant → Value
  | .string s => .string s
  | .literal l => .literal l
  | .enumEntry entry => t.enumValue entry
  | .classLiteral type => t.classValue type
  | .array values =>
    if depth.includesArrayValues then .array (t.convertConstants depth.descend values)
    else .array []
  | .nested usage =>
    if depth = .flat then .nested (t.usageHeader usage.shortName usage.type)
    else .nested (t.convertUsage depth.descend usage)
  | .null => .unknown "null"

/-- The constants of a list. -/
def convertConstants (t : SymbolTable) (depth : Depth) : List Constant → List Value
  | [] => []
  | c :: cs => t.convertConstant depth c :: t.convertConstants depth cs

/-- The named arguments of an annotation. -/
def convertArguments (t : SymbolTable) (depth : Depth) :
    List (String × Constant) → List (String × Value)
  | [] => []
  | (name, c) :: rest => (name, t.convertConstant depth c) :: t.convertArguments depth rest

end

end SymbolTable
end SymbolGraph

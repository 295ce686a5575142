/-
# Elements as JSON

An element is written out as an object with all that it carries, in a fixed
order of fields. A choice without content is a text, and one with content an
object with one field. Nothing is left out: what is missing is null, and a list
without items is written as such. Only floating point numbers lose something,
the ones that are no finite numbers becoming null.

Key definitions: `Element.toJson`, `Ty.toJson`, `Annotation.toJson`,
`Value.toJson`, `Element.jsonText`.
-/
import SymbolGraph.Element
import SymbolGraph.Text.Json

namespace SymbolGraph

open Text (Json)

/-- A choice with content. -/
def tagged (tag : String) (content : Json) : Json := .object [(tag, content)]

/-- The modifiers, as a list of words. -/
def ModifierSet.toJson (s : ModifierSet) : Json :=
  .array (s.toList.map fun m => .string m.label)

/-- A file reference. -/
def FileRef.toJson (f : FileRef) : Json :=
  .object [("file_name", .string f.fileName), ("file_path", .string f.filePath),
    ("package_name", .string f.packageName)]

/-- A file reference, or null if there is none. -/
def fileJson? : Option FileRef → Json
  | some f => f.toJson
  | none => .null

/-- An identity. -/
def Stub.toJson (s : Stub) : Json :=
  .object [("simple_name", .string s.simpleName), ("qualified_name", .ofText? s.qualifiedName),
    ("kind", .string s.kind.label), ("package_name", .ofText? s.packageName),
    ("modifiers", s.modifiers.toJson)]

/-- A floating point number; one that is not finite is null. -/
def numberJson : Option (List Char) → Json
  | some text => .number text
  | none => .null

/-- A primitive constant. -/
def Literal.toJson : Literal → Json
  | .boolean b => tagged "Boolean" (.bool b)
  | .byte v => tagged "Byte" (.whole v.toInt)
  | .short v => tagged "Short" (.whole v.toInt)
  | .int v => tagged "Int" (.whole v.toInt)
  | .long v => tagged "Long" (.whole v.toInt)
  | .char c => tagged "Char" (.string (String.singleton c))
  | .float x => tagged "Float" (numberJson x.text?)
  | .double x => tagged "Double" (numberJson x.text?)

mutual

/-- An element. -/
def Element.toJson (e : Element) : Json :=
  tagged e.label
    (match e with
    | .classLike c => c.toJson
    | .callable c => c.toJson
    | .variable v => v.toJson
    | .property p => p.toJson
    | .typeParameter p => p.toJson
    | .stub s => s.toJson)

/-- A header. -/
def Header.toJson : Header → Json
  | ⟨name, qualified, kind, package, enclosing, enclosed, annotations, modifiers, doc, file, valid⟩ =>
    .object [("simple_name", .string name), ("qualified_name", .ofText? qualified),
      ("kind", .string kind.label), ("package_name", .ofText? package),
      ("enclosing_element", elementJson? enclosing),
      ("enclosed_elements", .array (elementsJson enclosed)),
      ("annotations", .array (annotationsJson annotations)), ("modifiers", modifiers.toJson),
      ("documentation", .ofText? doc), ("source_file", fileJson? file), ("valid", .bool valid)]

/-- A class. -/
def ClassElement.toJson : ClassElement → Json
  | ⟨header, kind, superclass, interfaces, parameters, companion, supertypes, inner, isLocal,
      anonymous, isCompanion⟩ =>
    .object [("info", header.toJson), ("type_kind", .string kind.label),
      ("superclass", tyJson? superclass), ("interfaces", .array (tysJson interfaces)),
      ("type_parameters", .array (typeParametersJson parameters)),
      ("companion_object", classJson? companion),
      ("all_supertypes", .array (supertypes.map .string)), ("is_inner", .bool inner),
      ("is_local", .bool isLocal), ("is_anonymous", .bool anonymous),
      ("is_companion", .bool isCompanion)]

/-- A function. -/
def Callable.toJson : Callable → Json
  | ⟨header, returnType, parameters, typeParameters, thrown, receiver, varargs, isAbstract,
      isDefault, isSuspend, isInline, isOperator, isInfix⟩ =>
    .object [("info", header.toJson), ("return_type", returnType.toJson),
      ("parameters", .array (variablesJson parameters)),
      ("type_parameters", .array (typeParametersJson typeParameters)),
      ("thrown_types", .array (tysJson thrown)), ("receiver_type", tyJson? receiver),
      ("is_varargs", .bool varargs), ("is_abstract", .bool isAbstract),
      ("is_default", .bool isDefault), ("is_suspend", .bool isSuspend),
      ("is_inline", .bool isInline), ("is_operator", .bool isOperator),
      ("is_infix", .bool isInfix)]

/-- A variable. -/
def Variable.toJson : Variable → Json
  | ⟨header, type, kind, constant, isMutable, isConst, isLateinit, hasDefault⟩ =>
    .object [("info", header.toJson), ("ty", type.toJson), ("variable_kind", .string kind.label),
      ("constant_value", valueJson? constant), ("is_mutable", .bool isMutable),
      ("is_const", .bool isConst), ("is_lateinit", .bool isLateinit),
      ("has_default_value", .bool hasDefault)]

/-- A property. -/
def Property.toJson : Property → Json
  | ⟨header, type, constant, isMutable, isConst, isLateinit, getter, setter, field, customGetter,
      customSetter, delegate, receiver⟩ =>
    .object [("info", header.toJson), ("ty", type.toJson), ("constant_value", valueJson? constant),
      ("is_mutable", .bool isMutable), ("is_const", .bool isConst),
      ("is_lateinit", .bool isLateinit), ("getter", callableJson? getter),
      ("setter", callableJson? setter), ("backing_field", variableJson? field),
      ("has_custom_getter", .bool customGetter), ("has_custom_setter", .bool customSetter),
      ("delegate", .ofText? delegate), ("receiver_type", tyJson? receiver)]

/-- A type parameter. -/
def TypeParameter.toJson : TypeParameter → Json
  | ⟨header, bounds, variance, reified⟩ =>
    .object [("info", header.toJson), ("bounds", .array (tysJson bounds)),
      ("variance", .string variance.label), ("is_reified", .bool reified)]

/-- A type. -/
def Ty.toJson : Ty → Json
  | ⟨kind, name, qualified, nullable, arguments, upper, lower, declaration, annotations, form⟩ =>
    .object [("kind", .string kind.label), ("canonical_name", .string name),
      ("qualified_name", .ofText? qualified), ("nullable", .bool nullable),
      ("type_arguments", .array (tysJson arguments)), ("upper_bounds", .array (tysJson upper)),
      ("lower_bounds", .array (tysJson lower)), ("declaration", elementJson? declaration),
      ("annotations", .array (annotationsJson annotations)), ("variant", form.toJson)]

/-- What a type consists of. -/
def TyForm.toJson (form : TyForm) : Json :=
  match form with
  | .array component => tagged form.label (.object [("component", component.toJson)])
  | .declared element enclosing =>
    tagged form.label
      (.object [("element", element.toJson), ("enclosing_type", tyJson? enclosing)])
  | .variable parameter => tagged form.label (.object [("parameter", parameter.toJson)])
  | .primitive | .wildcard | .noType | .unknown => .string form.label

/-- An annotation. -/
def Annotation.toJson : Annotation → Json
  | ⟨type, name, qualified, arguments⟩ =>
    .object [("annotation_type", type.toJson), ("simple_name", .string name),
      ("qualified_name", .ofText? qualified), ("arguments", .object (argumentsJson arguments))]

/-- A value. -/
def Value.toJson : Value → Json
  | .string s => tagged "String" (.string s)
  | .literal l => tagged "Primitive" l.toJson
  | .enumConstant type constant =>
    tagged "Enum" (.object [("enum_type", type.toJson), ("constant", constant.toJson)])
  | .classLiteral qualified simple =>
    tagged "Class" (.object [("qualified_name", .string qualified), ("simple_name", .string simple)])
  | .array values => tagged "Array" (.array (valuesJson values))
  | .nested content => tagged "Annotation" content.toJson
  | .unknown text => tagged "Unknown" (.string text)

/-- The arguments of an annotation, by name. -/
def argumentsJson : List (String × Value) → List (String × Json)
  | [] => []
  | (name, v) :: rest => (name, v.toJson) :: argumentsJson rest

/-- An element, or null if there is none. -/
def elementJson? : Option Element → Json
  | some e => e.toJson
  | none => .null

/-- A list of elements. -/
def elementsJson : List Element → List Json
  | [] => []
  | e :: es => e.toJson :: elementsJson es

/-- A list of annotations. -/
def annotationsJson : List Annotation → List Json
  | [] => []
  | a :: as => a.toJson :: annotationsJson as

/-- A type, or null if there is none. -/
def tyJson? : Option Ty → Json
  | some t => t.toJson
  | none => .null

/-- A list of types. -/
def tysJson : List Ty → List Json
  | [] => []
  | t :: ts => t.toJson :: tysJson ts

/-- A list of type parameters. -/
def typeParametersJson : List TypeParameter → List Json
  | [] => []
  | p :: ps => p.toJson :: typeParametersJson ps

/-- A class, or null if there is none. -/
def classJson? : Option ClassElement → Json
  | some c => c.toJson
  | none => .null

/-- A function, or null if there is none. -/
def callableJson? : Option Callable → Json
  | some c => c.toJson
  | none => .null

/-- A variable, or null if there is none. -/
def variableJson? : Option Variable → Json
  | some v => v.toJson
  | none => .null

/-- A list of variables. -/
def variablesJson : List Variable → List Json
  | [] => []
  | v :: vs => v.toJson :: variablesJson vs

/-- A value, or null if there is none. -/
def valueJson? : Option Value → Json
  | some v => v.toJson
  | none => .null

/-- A list of values. -/
def valuesJson : List Value → List Json
  | [] => []
  | v :: vs => v.toJson :: valuesJson vs

end

/-- An element as indented JSON. -/
def Element.jsonText (e : Element) : String := e.toJson.text

end SymbolGraph

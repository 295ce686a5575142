/-
# Equal elements

Two trees are the same when they are built alike from the same parts, with two
provisos: floating point constants compare as numbers, and the arguments of an
annotation compare by name, whatever their order. So a tree with a constant
that is no number is not the same as itself.

Key definitions: `Literal.same`, `Element.same`, `Ty.same`, `Annotation.same`,
`Value.same`.
-/
import SymbolGraph.Element

namespace SymbolGraph

/-- Whether two primitive constants are the same; floating point ones compare as numbers. -/
def Literal.same : Literal → Literal → Bool
  | .boolean a, .boolean b => a == b
  | .byte a, .byte b => a == b
  | .short a, .short b => a == b
  | .int a, .int b => a == b
  | .long a, .long b => a == b
  | .char a, .char b => a == b
  | .float a, .float b => a.same b
  | .double a, .double b => a.same b
  | _, _ => false

mutual

/-- Whether two elements are the same. -/
def Element.same : Element → Element → Bool
  | .classLike a, .classLike b => a.same b
  | .callable a, .callable b => a.same b
  | .variable a, .variable b => a.same b
  | .property a, .property b => a.same b
  | .typeParameter a, .typeParameter b => a.same b
  | .stub a, .stub b => a == b
  | _, _ => false
termination_by structural a => a

/-- Whether two headers are the same. -/
def Header.same : Header → Header → Bool
  | ⟨name, qualified, kind, package, enclosing, enclosed, annotations, modifiers, doc, file, valid⟩,
    b =>
    name == b.simpleName && qualified == b.qualifiedName && kind == b.kind &&
      package == b.packageName && sameElement? enclosing b.enclosing &&
      sameElements enclosed b.enclosed && sameAnnotations annotations b.annotations &&
      modifiers == b.modifiers && doc == b.documentation && file == b.sourceFile &&
      valid == b.valid
termination_by structural a => a

/-- Whether two classes are the same. -/
def ClassElement.same : ClassElement → ClassElement → Bool
  | ⟨header, kind, superclass, interfaces, parameters, companion, supertypes, inner, isLocal,
      anonymous, isCompanion⟩, b =>
    header.same b.header && kind == b.kind && sameTy? superclass b.superclass &&
      sameTys interfaces b.interfaces && sameTypeParameters parameters b.typeParameters &&
      sameClass? companion b.companion && supertypes == b.allSupertypes && inner == b.isInner &&
      isLocal == b.isLocal && anonymous == b.isAnonymous && isCompanion == b.isCompanion
termination_by structural a => a

/-- Whether two functions are the same. -/
def Callable.same : Callable → Callable → Bool
  | ⟨header, returnType, parameters, typeParameters, thrown, receiver, varargs, isAbstract,
      isDefault, isSuspend, isInline, isOperator, isInfix⟩, b =>
    header.same b.header && returnType.same b.returnType && sameVariables parameters b.parameters &&
      sameTypeParameters typeParameters b.typeParameters && sameTys thrown b.thrownTypes &&
      sameTy? receiver b.receiverType && varargs == b.isVarargs && isAbstract == b.isAbstract &&
      isDefault == b.isDefault && isSuspend == b.isSuspend && isInline == b.isInline &&
      isOperator == b.isOperator && isInfix == b.isInfix
termination_by structural a => a

/-- Whether two variables are the same. -/
def Variable.same : Variable → Variable → Bool
  | ⟨header, type, kind, constant, isMutable, isConst, isLateinit, hasDefault⟩, b =>
    header.same b.header && type.same b.type && kind == b.kind &&
      sameValue? constant b.constantValue && isMutable == b.isMutable && isConst == b.isConst &&
      isLateinit == b.isLateinit && hasDefault == b.hasDefault
termination_by structural a => a

/-- Whether two properties are the same. -/
def Property.same : Property → Property → Bool
  | ⟨header, type, constant, isMutable, isConst, isLateinit, getter, setter, field, customGetter,
      customSetter, delegate, receiver⟩, b =>
    header.same b.header && type.same b.type && sameValue? constant b.constantValue &&
      isMutable == b.isMutable && isConst == b.isConst && isLateinit == b.isLateinit &&
      sameCallable? getter b.getter && sameCallable? setter b.setter &&
      sameVariable? field b.backingField && customGetter == b.hasCustomGetter &&
      customSetter == b.hasCustomSetter && delegate == b.delegate && sameTy? receiver b.receiverType
termination_by structural a => a

/-- Whether two type parameters are the same. -/
def TypeParameter.same : TypeParameter → TypeParameter → Bool
  | ⟨header, bounds, variance, reified⟩, b =>
    header.same b.header && sameTys bounds b.bounds && variance == b.variance &&
      reified == b.isReified
termination_by structural a => a

/-- Whether two types are the same. -/
def Ty.same : Ty → Ty → Bool
  | ⟨kind, name, qualified, nullable, arguments, upper, lower, declaration, annotations, form⟩, b =>
    kind == b.kind && name == b.canonicalName && qualified == b.qualifiedName &&
      nullable == b.nullable && sameTys arguments b.arguments && sameTys upper b.upperBounds &&
      sameTys lower b.lowerBounds && sameElement? declaration b.declaration &&
      sameAnnotations annotations b.annotations && form.same b.form
termination_by structural a => a

/-- Whether two types consist of the same. -/
def TyForm.same : TyForm → TyForm → Bool
  | .primitive, .primitive => true
  | .array a, .array b => a.same b
  | .declared a outer, .declared b outer' => a.same b && sameTy? outer outer'
  | .variable a, .variable b => a.same b
  | .wildcard, .wildcard => true
  | .noType, .noType => true
  | .unknown, .unknown => true
  | _, _ => false
termination_by structural a => a

/-- Whether two annotations are the same. -/
def Annotation.same : Annotation → Annotation → Bool
  | ⟨type, name, qualified, arguments⟩, b =>
    type.same b.type && name == b.simpleName && qualified == b.qualifiedName &&
      arguments.length == b.arguments.length && argumentsIn arguments b.arguments
termination_by structural a => a

/-- Whether two values are the same. -/
def Value.same : Value → Value → Bool
  | .string a, .string b => a == b
  | .literal a, .literal b => a.same b
  | .enumConstant t c, .enumConstant t' c' => t.same t' && c.same c'
  | .classLiteral q s, .classLiteral q' s' => q == q' && s == s'
  | .array as, .array bs => sameValues as bs
  | .nested a, .nested b => a.same b
  | .unknown a, .unknown b => a == b
  | _, _ => false
termination_by structural a => a

/-- Whether each argument of one list is among another's, by name. -/
def argumentsIn : List (String × Value) → List (String × Value) → Bool
  | [], _ => true
  | (name, a) :: rest, bs =>
    (match bs.lookup name with
      | some b => a.same b
      | none => false) && argumentsIn rest bs
termination_by structural a => a

/-- Whether two elements, or none, are the same. -/
def sameElement? : Option Element → Option Element → Bool
  | none, none => true
  | some a, some b => a.same b
  | _, _ => false
termination_by structural a => a

/-- Whether two lists of elements are the same. -/
def sameElements : List Element → List Element → Bool
  | [], [] => true
  | a :: as, b :: bs => a.same b && sameElements as bs
  | _, _ => false
termination_by structural a => a

/-- Whether two lists of annotations are the same. -/
def sameAnnotations : List Annotation → List Annotation → Bool
  | [], [] => true
  | a :: as, b :: bs => a.same b && sameAnnotations as bs
  | _, _ => false
termination_by structural a => a

/-- Whether two types, or none, are the same. -/
def sameTy? : Option Ty → Option Ty → Bool
  | none, none => true
  | some a, some b => a.same b
  | _, _ => false
termination_by structural a => a

/-- Whether two lists of types are the same. -/
def sameTys : List Ty → List Ty → Bool
  | [], [] => true
  | a :: as, b :: bs => a.same b && sameTys as bs
  | _, _ => false
termination_by structural a => a

/-- Whether two lists of type parameters are the same. -/
def sameTypeParameters : List TypeParameter → List TypeParameter → Bool
  | [], [] => true
  | a :: as, b :: bs => a.same b && sameTypeParameters as bs
  | _, _ => false
termination_by structural a => a

/-- Whether two classes, or none, are the same. -/
def sameClass? : Option ClassElement → Option ClassElement → Bool
  | none, none => true
  | some a, some b => a.same b
  | _, _ => false
termination_by structural a => a

/-- Whether two functions, or none, are the same. -/
def sameCallable? : Option Callable → Option Callable → Bool
  | none, none => true
  | some a, some b => a.same b
  | _, _ => false
termination_by structural a => a

/-- Whether two variables, or none, are the same. -/
def sameVariable? : Option Variable → Option Variable → Bool
  | none, none => true
  | some a, some b => a.same b
  | _, _ => false
termination_by structural a => a

/-- Whether two lists of variables are the same. -/
def sameVariables : List Variable → List Variable → Bool
  | [], [] => true
  | a :: as, b :: bs => a.same b && sameVariables as bs
  | _, _ => false
termination_by structural a => a

/-- Whether two values, or none, are the same. -/
def sameValue? : Option Value → Option Value → Bool
  | none, none => true
  | some a, some b => a.same b
  | _, _ => false
termination_by structural a => a

/-- Whether two lists of values are the same. -/
def sameValues : List Value → List Value → Bool
  | [], [] => true
  | a :: as, b :: bs => a.same b && sameValues as bs
  | _, _ => false
termination_by structural a => a

end
end SymbolGraph

/-
# Declarations

Placing a draft settles what it could not know: the package, the file, the
declaration around it and the qualified name. A placed declaration also lists
what was placed inside it, type parameters apart from the other members.
Whether a class is local, what kind of function a function is and what a
constructor returns follow from the place.

Key definitions: `Declaration`, `CallableKind`, `Declaration.callableKind`,
`Declaration.returnType?`, `SourceFile`, `fileName`.
-/
import SymbolGraph.Draft

namespace SymbolGraph

/-- A declaration in its place. -/
structure Declaration extends Draft where
  /-- The dotted name; type parameters and what lies inside functions have none. -/
  qualifiedName : Option String := none
  packageName : String := ""
  /-- The declaration around this one. -/
  parent : Option DeclId := none
  /-- The file it is written in; built-in classes have none. -/
  file : Option FileId := none
  /-- Whether the declaration around this one is a function. -/
  inFunction : Bool := false
  /-- The type parameters placed on a class or a function, in order. -/
  typeParameters : List DeclId := []
  /-- The other declarations placed in a class, in order. -/
  members : List DeclId := []

/-- Where a function stands. -/
inductive CallableKind
  | topLevel | member | constructor | localFunction
  deriving DecidableEq, Repr

/-- The word for where a function stands. -/
def CallableKind.label : CallableKind → String
  | .topLevel => "TopLevel"
  | .member => "Member"
  | .constructor => "Constructor"
  | .localFunction => "Local"

instance : Vocabulary CallableKind :=
  ⟨[.topLevel, .member, .constructor, .localFunction], CallableKind.label⟩

/-- A function nobody placed counts as a member. -/
def CallableShape.unplacedKind (c : CallableShape) : CallableKind :=
  if c.isConstructor then .constructor else .member

namespace Declaration

/-- What kind of function a callable declaration is: a constructor stays one
wherever it is placed. -/
def callableKind (d : Declaration) (c : CallableShape) : CallableKind :=
  if c.isConstructor then .constructor
  else if d.parent.isNone then .topLevel
  else if d.inFunction then .localFunction
  else .member

/-- What a function returns. A constructor without a return type of its own
returns what it is placed in. -/
def returnType? (d : Declaration) (c : CallableShape) : Option TypeRef :=
  match c.returnType with
  | some r => some r
  | none => if c.isConstructor then d.parent.map TypeRef.decl else none

/-- Whether a class is declared inside a function. -/
def isLocal (d : Declaration) : Bool := d.inFunction

/-- Enter a new declaration among what its owner contains: a class lists type
parameters and members, a function type parameters only. -/
def withChild (owner : Declaration) (isTypeParameter : Bool) (id : DeclId) :
    Declaration :=
  match owner.shape with
  | .classLike _ =>
    if isTypeParameter then { owner with typeParameters := owner.typeParameters ++ [id] }
    else { owner with members := owner.members ++ [id] }
  | .callable _ =>
    if isTypeParameter then { owner with typeParameters := owner.typeParameters ++ [id] } else owner
  | .property _ | .typeParameter _ => owner

end Declaration

/-- A source file. -/
structure SourceFile where
  fileName : String
  filePath : String
  packageName : String
  /-- The top-level declarations, in order. -/
  declarations : List DeclId := []
  deriving DecidableEq, Repr

/-- The text after the last slash or backslash. -/
def afterLastSeparator (path : List Char) : List Char :=
  (path.reverse.takeWhile fun c => c != '/' && c != '\\').reverse

/-- A file without declarations; its name is the last piece of its path. -/
def SourceFile.atPath (path package : String) : SourceFile where
  fileName := String.ofList (afterLastSeparator path.toList)
  filePath := path
  packageName := package

end SymbolGraph

/-
# Types and annotations as they are written

Source code names a class, or points at a declaration it stands inside of, and
adds type arguments, a nullability mark and annotations of its own. Nothing
here is looked up yet: a reference may name a class nobody declared, and a
declaration's handle may belong to no table. Annotations carry constants, and
constants may refer to types again, so the four kinds are defined together.

Key definitions: `DeclId`, `Target`, `Projection`, `Literal`, `TypeRef`,
`TypeArgument`, `Usage`, `Constant`.
-/
import SymbolGraph.QualifiedName
import SymbolGraph.Decimal.Binary
import SymbolGraph.Vocabulary

namespace SymbolGraph

open Decimal (Binary32 Binary64)

/-- A declaration's place in its table. -/
abbrev DeclId := Nat

/-- A source file's place in its table. -/
abbrev FileId := Nat

/-- A number as a handle; handles have 32 bits. -/
def handleOf (n : Nat) : Nat := n.toUInt32.toNat

/-- The text of a declaration's handle. -/
def DeclId.text (id : DeclId) : String := "decl#" ++ toString id

/-- The text of a file's handle. -/
def FileId.text (id : FileId) : String := "file#" ++ toString id

/-- What a type reference points at. -/
inductive Target
  /-- A class, by its qualified name. -/
  | named (name : String)
  /-- A declaration, by its handle. -/
  | decl (id : DeclId)
  deriving DecidableEq, Repr, Inhabited

/-- How a type argument, or a type parameter, is marked. -/
inductive Projection
  | invariant | covariant | contravariant
  /-- Any type at all. -/
  | star
  deriving DecidableEq, Repr, Inhabited

/-- The word for a mark. -/
def Projection.label : Projection → String
  | .invariant => "Invariant"
  | .covariant => "Covariant"
  | .contravariant => "Contravariant"
  | .star => "Star"

instance : Vocabulary Projection :=
  ⟨[.invariant, .covariant, .contravariant, .star], Projection.label⟩

/-- A constant of a primitive type. -/
inductive Literal
  | boolean (value : Bool)
  | byte (value : Int8)
  | short (value : Int16)
  | int (value : Int32)
  | long (value : Int64)
  | char (value : Char)
  | float (value : Binary32)
  | double (value : Binary64)
  deriving DecidableEq

mutual

/-- A type as it is written. -/
structure TypeRef where
  /-- What is referred to. -/
  target : Target
  /-- The type arguments. -/
  arguments : List TypeArgument
  /-- Whether the type is marked as admitting null. -/
  nullable : Bool
  /-- The annotations on this use of the type. -/
  annotations : List Usage

/-- A type argument, with or without a type. -/
structure TypeArgument where
  /-- How the argument is projected. -/
  projection : Projection
  /-- The type; a star has none. -/
  type : Option TypeRef

/-- An annotation as it is written. -/
structure Usage where
  /-- The name after the at sign. -/
  shortName : String
  /-- The annotation class. -/
  type : TypeRef
  /-- The named arguments, in order. -/
  arguments : List (String × Constant)

/-- A constant: an annotation argument or an initial value. -/
inductive Constant
  | string (text : String)
  | literal (value : Literal)
  /-- An entry of an enum class. -/
  | enumEntry (entry : TypeRef)
  /-- A class literal. -/
  | classLiteral (type : TypeRef)
  | array (values : List Constant)
  | nested (usage : Usage)
  | null

end

namespace TypeRef

/-- A plain reference to a target. -/
def plain (target : Target) : TypeRef := ⟨target, [], false, []⟩

/-- A plain reference to a class by name. -/
def named (name : String) : TypeRef := plain (.named name)

/-- A plain reference to a declaration. -/
def decl (id : DeclId) : TypeRef := plain (.decl id)

/-- The name a reference is written with, if it is written with one. -/
def writtenName? (r : TypeRef) : Option String :=
  match r.target with
  | .named name => some name
  | .decl _ => none

instance : Inhabited TypeRef := ⟨named ""⟩

end TypeRef

/-- The use of the annotation class of a given qualified name. -/
def Usage.named (name : String) : Usage := ⟨QualifiedName.simpleName name, .named name, []⟩

/-- The use with one more argument. -/
def Usage.withArgument (u : Usage) (name : String) (value : Constant) : Usage :=
  { u with arguments := u.arguments ++ [(name, value)] }

end SymbolGraph

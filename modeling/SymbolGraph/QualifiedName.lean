/-
# Qualified names

A declaration is known by a dotted name: the package, then the names of the
declarations around it, then its own. The last dot splits such a name into
what surrounds the declaration and its simple name; `qualify` puts the two
together again. A name without a dot lies in the root package, whose name is
the empty text, and `qualify` adds no dot for it.

Key definitions: `cutAtLastDot`, `simpleName`, `packageName`, `qualify`.
-/

namespace SymbolGraph
namespace QualifiedName

/-- A text cut at its last dot, the dot left out; `none` if it has no dot. -/
def cutAtLastDot : List Char → Option (List Char × List Char)
  | [] => none
  | c :: rest =>
    match cutAtLastDot rest with
    | some (before, after) => some (c :: before, after)
    | none => if c = '.' then some ([], rest) else none

/-- The text after the last dot, or all of it when there is no dot. -/
def simpleName (name : String) : String :=
  match cutAtLastDot name.toList with
  | some (_, after) => String.ofList after
  | none => name

/-- The text before the last dot, empty when there is no dot. -/
def packageName (name : String) : String :=
  match cutAtLastDot name.toList with
  | some (before, _) => String.ofList before
  | none => ""

/-- The name of a declaration inside `owner`; the root package adds no dot. -/
def qualify (owner name : String) : String :=
  if owner.isEmpty then name else owner ++ "." ++ name

end QualifiedName
end SymbolGraph

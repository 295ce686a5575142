/-
# Vocabularies

Many notions of the model are small enumerations: kinds, modifiers, severities.
Each value has a word under which it is written out, and a word is read back
as the first value that has it.

Key definitions: `Vocabulary`, `Vocabulary.ofLabel?`.
-/

namespace SymbolGraph

/-- An enumeration with a word for each value. -/
class Vocabulary (α : Type) where
  /-- Every value, in order. -/
  all : List α
  /-- The word for a value. -/
  label : α → String

namespace Vocabulary

variable {α : Type} [Vocabulary α]

/-- The first value that a word stands for. -/
def ofLabel? (word : String) : Option α := all.find? fun a => label a == word

end Vocabulary
end SymbolGraph

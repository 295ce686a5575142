/-
# Options of a processor

Options come as arguments `key=value`. A key is trimmed and must not be empty;
a value is kept as it is written, and may hold more equal signs. An option that
comes again keeps its place among the others and takes the new value.

Key definitions: `Options`, `cutAtFirst`, `Options.parse`, `Options.get?`,
`Options.getBool?`.
Key theorems: `cutAtFirst_append`.
-/
import SymbolGraph.Failure
import SymbolGraph.Keyed
import SymbolGraph.Text.Blank

namespace SymbolGraph

/-- Options by key, in the order of their first occurrence. -/
structure Options where
  entries : List (String × String)
  deriving DecidableEq, Repr

/-- A text cut at the first occurrence of a character, the character left out. -/
def cutAtFirst (mark : Char) : List Char → Option (List Char × List Char)
  | [] => none
  | c :: rest =>
    if c = mark then some ([], rest)
    else (cutAtFirst mark rest).map fun (before, after) => (c :: before, after)

/-- The cut is at the first occurrence: what precedes it holds none. -/
theorem cutAtFirst_append (mark : Char) (after : List Char) :
    ∀ before : List Char, mark ∉ before →
      cutAtFirst mark (before ++ mark :: after) = some (before, after)
  | [], _ => by simp [cutAtFirst]
  | c :: rest, h => by
    rw [List.mem_cons, not_or] at h
    simp [cutAtFirst, Ne.symm h.1, cutAtFirst_append mark after rest h.2]

namespace Options

/-- No options. -/
def empty : Options := ⟨[]⟩

/-- Set an option. -/
def set (o : Options) (key value : String) : Options := ⟨Keyed.insert key value o.entries⟩

/-- The options of some pairs, the later pairs winning. -/
def ofPairs (pairs : List (String × String)) : Options := ⟨Keyed.ofList pairs⟩

/-- An argument as a pair of key and value. -/
def pair? (argument : String) : Except Failure (String × String) :=
  match cutAtFirst '=' argument.toList with
  | none => .error (.invalidOption argument)
  | some (key, value) =>
    let key := Text.trim key
    if key.isEmpty then .error (.invalidOption argument)
    else .ok (String.ofList key, String.ofList value)

/-- Arguments as pairs; the first that is none fails. -/
def pairs? : List String → Except Failure (List (String × String))
  | [] => .ok []
  | argument :: rest =>
    match pair? argument with
    | .error f => .error f
    | .ok p =>
      match pairs? rest with
      | .error f => .error f
      | .ok ps => .ok (p :: ps)

/-- The options of some arguments. -/
def parse (arguments : List String) : Except Failure Options := (pairs? arguments).map ofPairs

/-- The value of an option. -/
def get? (o : Options) (key : String) : Option String := o.entries.lookup key

/-- The value of an option, or else a given one. -/
def getOr (o : Options) (key fallback : String) : String := (o.get? key).getD fallback

/-- Whether an option is set. -/
def contains (o : Options) (key : String) : Bool := (o.get? key).isSome

/-- The truth value a text spells, whatever the case of its letters. -/
def truth? (value : String) : Option Bool :=
  let word := String.ofList ((Text.trim value.toList).map Char.toLower)
  if word = "true" then some true else if word = "false" then some false else none

/-- The truth value of an option; any other text counts as none. -/
def getBool? (o : Options) (key : String) : Option Bool := (o.get? key).bind truth?

/-- The number of options. -/
def size (o : Options) : Nat := o.entries.length

end Options
end SymbolGraph

/-
# Indented JSON

A JSON value is written on many lines: each item of an array and each field of
an object has a line of its own, two spaces further in than the brackets
around it. Empty arrays and objects stay on one line. In a text only the quote,
the backslash and the control characters are escaped.

Key definitions: `Json`, `escapeChar`, `quoted`, `Json.pretty`, `Json.text`.
-/
import SymbolGraph.Decimal.Text
import SymbolGraph.Text.Hex

namespace SymbolGraph
namespace Text

/-- A JSON value; the fields of an object keep their order. -/
inductive Json
  | null
  | bool (value : Bool)
  | whole (value : Int)
  /-- A number by its text. -/
  | number (text : List Char)
  | string (text : String)
  | array (items : List Json)
  | object (fields : List (String × Json))

/-- A character inside quotes. -/
def escapeChar (c : Char) : List Char :=
  if c = '"' then ['\\', '"']
  else if c = '\\' then ['\\', '\\']
  else if c = '\n' then ['\\', 'n']
  else if c = '\t' then ['\\', 't']
  else if c = '\r' then ['\\', 'r']
  else if c.toNat = 8 then ['\\', 'b']
  else if c.toNat = 12 then ['\\', 'f']
  else if c.toNat < 32 then
    '\\' :: 'u' :: hexDigits 4 c.toNat
  else [c]

/-- A text in quotes. -/
def quoted (s : String) : List Char := '"' :: s.toList.flatMap escapeChar ++ ['"']

/-- The start of a line some levels in. -/
def newline (level : Nat) : List Char := '\n' :: List.replicate (2 * level) ' '

namespace Json

mutual

/-- A value whose brackets stand some levels in. -/
def pretty (level : Nat) : Json → List Char
  | .null => ['n', 'u', 'l', 'l']
  | .bool true => ['t', 'r', 'u', 'e']
  | .bool false => ['f', 'a', 'l', 's', 'e']
  | .whole n => Decimal.wholeText n
  | .number text => text
  | .string s => quoted s
  | .array [] => ['[', ']']
  | .array (item :: items) =>
    '[' :: newline (level + 1) ++ pretty (level + 1) item ++ prettyItems (level + 1) items ++
      newline level ++ [']']
  | .object [] => ['\x7b', '\x7d']
  | .object ((name, value) :: fields) =>
    '\x7b' :: newline (level + 1) ++ quoted name ++ ':' :: ' ' :: pretty (level + 1) value ++
      prettyFields (level + 1) fields ++ newline level ++ ['\x7d']

/-- The items of an array after the first. -/
def prettyItems (level : Nat) : List Json → List Char
  | [] => []
  | item :: items => ',' :: newline level ++ pretty level item ++ prettyItems level items

/-- The fields of an object after the first. -/
def prettyFields (level : Nat) : List (String × Json) → List Char
  | [] => []
  | (name, value) :: fields =>
    ',' :: newline level ++ quoted name ++ ':' :: ' ' :: pretty level value ++
      prettyFields level fields

end

/-- The text of a value. -/
def text (j : Json) : String := String.ofList (j.pretty 0)

/-- A text, or null if there is none. -/
def ofText? : Option String → Json
  | some s => .string s
  | none => .null

end Json
end Text
end SymbolGraph

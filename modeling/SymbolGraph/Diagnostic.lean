/-
# Diagnostics

A processor reports messages of four severities, with a code and a location
where there are any. They are collected in the order in which they were
reported. A location names a declaration and, unless it is built in, its file.

Key definitions: `Severity`, `Diagnostic`, `Diagnostic.text`, `Collected.count`,
`Diagnostic.logEvent`.
-/
import SymbolGraph.Vocabulary

namespace SymbolGraph

/-- How serious a message is, the most serious first. -/
inductive Severity
  | error | warning | info | logging
  deriving DecidableEq, Repr, Inhabited

namespace Severity

/-- Every severity, the most serious first. -/
def all : List Severity := [.error, .warning, .info, .logging]

/-- The word for a severity in a record. -/
def label : Severity → String
  | .error => "Error"
  | .warning => "Warning"
  | .info => "Info"
  | .logging => "Logging"

instance : Vocabulary Severity := ⟨all, label⟩

/-- The word for a severity in a message. -/
def text : Severity → String
  | .error => "error"
  | .warning => "warning"
  | .info => "info"
  | .logging => "logging"

/-- The place of a severity in the order of seriousness. -/
def rank : Severity → Nat
  | .error => 0
  | .warning => 1
  | .info => 2
  | .logging => 3

end Severity

/-- Where a message points. -/
structure Location where
  /-- The path of the file; built-in classes have none. -/
  file : Option String
  /-- The name of the declaration. -/
  symbol : String
  deriving DecidableEq, Repr

/-- A reported message. -/
structure Diagnostic where
  severity : Severity
  message : String
  code : Option String := none
  location : Option Location := none
  deriving DecidableEq, Repr

/-- The code of a failed round. -/
def roundFailedCode : String := "E0001"

/-- A location in brackets, after a blank. -/
def Location.text (l : Location) : String :=
  match l.file with
  | some file => " (" ++ l.symbol ++ " in " ++ file ++ ")"
  | none => " (" ++ l.symbol ++ ")"

/-- A message on one line: `severity[code]: message (symbol in file)`. -/
def Diagnostic.text (d : Diagnostic) : String :=
  let code :=
    match d.code with
    | some code => "[" ++ code ++ "]"
    | none => ""
  let location :=
    match d.location with
    | some l => l.text
    | none => ""
  d.severity.text ++ code ++ ": " ++ d.message ++ location

/-! ### Collections -/

/-- Everything reported so far, in order. -/
abbrev Collected := List Diagnostic

namespace Collected

/-- Report one more message. -/
def report (c : Collected) (d : Diagnostic) : Collected := c ++ [d]

/-- The number of messages of a severity. -/
def count (c : Collected) (s : Severity) : Nat := c.countP fun d => d.severity == s

/-- Whether there is an error among the messages. -/
def hasErrors (c : Collected) : Bool := 0 < count c .error

end Collected

/-! ### Messages as log events -/

/-- The levels of a log. -/
inductive LogLevel
  | error | warn | info | debug
  deriving DecidableEq, Repr

/-- The word for a level. -/
def LogLevel.label : LogLevel → String
  | .error => "ERROR"
  | .warn => "WARN"
  | .info => "INFO"
  | .debug => "DEBUG"

instance : Vocabulary LogLevel := ⟨[.error, .warn, .info, .debug], LogLevel.label⟩

/-- The level at which messages of a severity are logged. -/
def Severity.level : Severity → LogLevel
  | .error => .error
  | .warning => .warn
  | .info => .info
  | .logging => .debug

/-- What is logged of a message. -/
structure LogEvent where
  level : LogLevel
  message : String
  code : Option String
  symbol : Option String
  file : Option String
  deriving DecidableEq, Repr

/-- A message as a log event. -/
def Diagnostic.logEvent (d : Diagnostic) : LogEvent where
  level := d.severity.level
  message := d.message
  code := d.code
  symbol := d.location.map Location.symbol
  file := d.location.bind Location.file

end SymbolGraph

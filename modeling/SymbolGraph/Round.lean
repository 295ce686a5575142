/-
# A round of processing

A processor works on some state: the elements it asked for, the files it made
and what it reported. A round lets it work once. If it succeeds, it is told so,
and the elements it deferred are the result. If it fails, it is told so before
its failure is reported as an error, and the failure is the result.

Key definitions: `Processor`, `Diagnostic.ofFailure`, `Processor.run`.
-/
import SymbolGraph.Diagnostic
import SymbolGraph.Element
import SymbolGraph.Failure

namespace SymbolGraph

/-- A processor that works on a state. -/
structure Processor (σ : Type) where
  /-- The work of one round; it results in elements for a later round. -/
  process : σ → Except Failure (List Element) × σ
  /-- What it does after it succeeded. -/
  finish : σ → σ := id
  /-- What it does after it failed. -/
  onError : σ → σ := id

/-- The message that a round failed. -/
def Diagnostic.ofFailure (f : Failure) : Diagnostic where
  severity := .error
  message := f.message
  code := some roundFailedCode

/-- One round of a processor; `report` takes in a message. -/
def Processor.run {σ : Type} (p : Processor σ) (report : Diagnostic → σ → σ) (s : σ) :
    Except Failure (List Element) × σ :=
  match p.process s with
  | (.ok deferred, s') => (.ok deferred, p.finish s')
  | (.error f, s') => (.error f, report (.ofFailure f) (p.onError s'))

end SymbolGraph

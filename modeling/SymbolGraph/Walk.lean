/-
# Two ways through a graph

Both walks visit nodes one at a time, and look up what follows a node when
they visit it. The depth-first walk puts what follows in front of all that
still waits, and visits a node as often as it is met. The breadth-first walk
puts what follows behind, and takes a node once: at the first time it is met.
A walk stops after `fuel` visits at the latest.

Key definitions: `depthFirst`, `breadthFirst`.
-/
import SymbolGraph.Distinct

namespace SymbolGraph
namespace Walk

/-- The nodes visited depth-first from a list of nodes, in the order of the visits. -/
def depthFirst {α : Type} (next : α → List α) : Nat → List α → List α
  | 0, _ => []
  | _ + 1, [] => []
  | fuel + 1, x :: waiting => x :: depthFirst next fuel (next x ++ waiting)

/-- The nodes met breadth-first, in order: those already visited, those waiting, and
what follows them. -/
def breadthFirst {α : Type} [DecidableEq α] (next : α → List α) :
    Nat → List α → List α → List α
  | 0, visited, waiting => visited ++ waiting
  | _ + 1, visited, [] => visited
  | fuel + 1, visited, x :: waiting =>
    breadthFirst next fuel (visited ++ [x])
      (waiting ++ Distinct.fresh (visited ++ x :: waiting) (next x))

end Walk
end SymbolGraph

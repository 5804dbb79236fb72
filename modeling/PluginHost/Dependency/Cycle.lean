import PluginHost.Dependency.Graph

/-!
# Dependency cycles

A depth-first search along the dependencies that are nodes, from one node after the other.
What has been searched through without result is not searched again. The search carries the
number of steps that a path may still grow by, which `Graph.findCycle` sets so that it cannot
run out: the nodes on a path are distinct.

* `Graph.findCycle`: a cycle, if there is one; each of its nodes depends on the next one, and
  the last on the first.
-/
namespace PluginHost.Dependency

/-- How a search ended: with a cycle, or with the nodes that lead to none. -/
inductive Search where
  | cycle (nodes : List String)
  | clear (visited : List String)
  deriving DecidableEq, Repr

namespace Graph

/-- The part of a path, given backwards, that begins at a node on it. -/
def loopFrom (path : List String) (node : String) : List String :=
  (path.takeWhile (· ≠ node) ++ [node]).reverse

/-- Searches the dependencies of the innermost node of a path, one after the other. -/
def searchAll (search : List String → String → Search) (path : List String) :
    List String → List String → Search
  | visited, [] => .clear visited
  | visited, d :: ds =>
    if path.contains d then .cycle (loopFrom path d)
    else if visited.contains d then searchAll search path visited ds
    else
      match search visited d with
      | .cycle c => .cycle c
      | .clear visited => searchAll search path visited ds

/-- Searches on from a node; `path` leads to it, backwards. -/
def searchFrom (g : Graph) : Nat → List String → List String → String → Search
  | 0, _, visited, _ => .clear visited
  | fuel + 1, path, visited, node =>
    match searchAll (searchFrom g fuel (node :: path)) (node :: path) visited (g.known node) with
    | .cycle c => .cycle c
    | .clear visited => .clear (node :: visited)

/-- One cycle, if there is any. -/
def findCycle (g : Graph) : Option (List String) :=
  match searchAll (searchFrom g g.size []) [] [] g.nodes with
  | .cycle c => some c
  | .clear _ => none

end Graph

end PluginHost.Dependency

import PluginHost.Dependency.Cycle

/-!
# Dependency order

Nodes are taken from a queue; taking one releases the nodes that depend on it, and a node joins
the queue when nothing that it waits for is left. The queue starts with the nodes that wait for
nothing, in the order of the nodes, and dependents are released in that order too, so equal
graphs are ordered equally.

* `Graph.order`: all nodes, each after the dependencies that are nodes; or a cycle.
-/
namespace PluginHost.Dependency

/-- How far the ordering has come: how many dependencies each node still waits for, the nodes
that wait for none, and the nodes that were taken, the last one first. -/
structure Progress where
  waiting : List (String × Nat)
  queue : List String
  taken : List String
  deriving DecidableEq, Repr

namespace Progress

/-- How many dependencies a node waits for at the start. -/
def start (g : Graph) : Progress :=
  { waiting := g.nodes.map fun n => (n, (g.known n).length)
    queue := g.nodes.filter fun n => (g.known n).isEmpty
    taken := [] }

/-- One dependency less to wait for; with the last one the node joins the queue. -/
def release (p : Progress) (node : String) : Progress :=
  match p.waiting.lookup node with
  | none => p
  | some count =>
    { p with
      waiting := p.waiting.map fun w => if w.1 = node then (node, count - 1) else w
      queue := if count - 1 = 0 then p.queue ++ [node] else p.queue }

/-- Takes the first node of the queue and releases its dependents. -/
def take (g : Graph) (p : Progress) : Progress :=
  match p.queue with
  | [] => p
  | node :: queue =>
    (g.dependents node).foldl release { p with queue, taken := node :: p.taken }

/-- Takes as many nodes as there are steps, or as there are in the queue. -/
def run (g : Graph) : Nat → Progress → Progress
  | 0, p => p
  | steps + 1, p => if p.queue.isEmpty then p else run g steps (p.take g)

end Progress

namespace Graph

/-- The nodes that can be put in order, in that order. -/
def ordered (g : Graph) : List String :=
  (Progress.run g g.size (Progress.start g)).taken.reverse

/-- All nodes, each after the dependencies that are nodes; or else a cycle. -/
def order (g : Graph) : Except (List String) (List String) :=
  let done := g.ordered
  if done.length < g.size then
    .error (g.findCycle.getD (g.nodes.filter fun n => !done.contains n))
  else .ok done

end Graph

/-- What is said of a cycle. -/
def cycleMessage (cycle : List String) : String :=
  "Dependency cycle detected: " ++
    match cycle with
    | [] => ""
    | first :: _ => String.intercalate " -> " (cycle ++ [first])

end PluginHost.Dependency

import PluginHost.NameMap

/-!
# Dependency graphs

A graph maps each node to the names it depends on. Nodes keep the order in which they were
first added, and that order breaks every tie later on; a dependency need not be a node.
-/
namespace PluginHost.Dependency

/-- A graph: its nodes in the order of their first addition, each with the names it depends
on, none of them twice. -/
structure Graph where
  edges : List (String × List String)
  deriving DecidableEq, Repr

namespace Graph

/-- The graph without nodes. -/
def empty : Graph := ⟨[]⟩

instance : Inhabited Graph := ⟨empty⟩

/-- The nodes in the order of their first addition. -/
def nodes (g : Graph) : List String :=
  g.edges.map (·.1)

/-- The name is a node. -/
def contains (g : Graph) (name : String) : Bool :=
  (g.edges.lookup name).isSome

/-- What a node depends on, whether it is a node or not. -/
def dependencies (g : Graph) (name : String) : List String :=
  (g.edges.lookup name).getD []

/-- Adds a node, or replaces the dependencies of one that is there, which keeps its place. Of
a dependency that is named several times the first mention counts. -/
def add (g : Graph) (name : String) (deps : List String) : Graph :=
  if g.contains name then
    ⟨g.edges.map fun e => if e.1 = name then (name, deps.eraseDups) else e⟩
  else ⟨g.edges ++ [(name, deps.eraseDups)]⟩

/-- The graph of a list of nodes with their dependencies, added one after the other. -/
def ofList (ns : List (String × List String)) : Graph :=
  ns.foldl (fun g n => g.add n.1 n.2) empty

/-- How many nodes there are. -/
def size (g : Graph) : Nat :=
  g.nodes.length

/-- There is no node. -/
def isEmpty (g : Graph) : Bool :=
  g.nodes.isEmpty

/-- The dependencies of a node that are nodes themselves. -/
def known (g : Graph) (name : String) : List String :=
  (g.dependencies name).filter g.contains

/-- The nodes that depend on a name, in the order of the nodes. -/
def dependents (g : Graph) (name : String) : List String :=
  g.nodes.filter fun n => (g.known n).contains name

/-- The names in ascending order, each once. -/
def sortedNames (names : List String) : List String :=
  (NameMap.ofList (names.map fun n => (n, ()))).names

/-- The dependencies by node, both in name order. -/
def snapshot (g : Graph) : NameMap (List String) :=
  NameMap.ofList (g.edges.map fun e => (e.1, sortedNames e.2))

end Graph

end PluginHost.Dependency

import Mathlib.Data.List.Induction
import PluginHost.Proofs.Dependency.Graph

/-!
# What a row of additions leaves in a graph

A graph is built by adding nodes, some of them several times. Its nodes stand in the order in which
they were mentioned first, and a node has the dependencies that it was added with last, of which each
stands where it was mentioned first.

A graph keeps both in one list of edges. `Adjacency` is the other way to do it, a list of the nodes
beside a map from the nodes to their dependencies. No addition lets the two get apart: the map has
the nodes of the list as its names, and what it holds is what the graph holds.

* `FirstMentions`: a row of names, each where it was mentioned first.
* `FirstMentions.concat`: what one more mention adds to it.
* `Adjacency.Matches.add`: one addition keeps the two ways to store a graph alike.
* `graph_of_additions`: what is read off the graph of any row of additions.
-/
namespace PluginHost.Dependency

/-- The names of a row, each once and in the order of their first mentions. -/
structure FirstMentions (names kept : List String) : Prop where
  nodup : kept.Nodup
  mem : ∀ n, n ∈ kept ↔ n ∈ names
  order : kept.Pairwise fun m n => names.idxOf m < names.idxOf n

/-- Puts a name at the end unless it is there. -/
def mention (kept : List String) (name : String) : List String :=
  if kept.contains name then kept else kept ++ [name]

/-- The nodes of a graph in the order of their first addition, beside a map from each node to its
dependencies. -/
structure Adjacency where
  nodes : List String
  edges : NameMap (List String)

namespace Adjacency

/-- Without nodes. -/
def empty : Adjacency := ⟨[], ∅⟩

/-- Adds a node, or replaces the dependencies of one that is there. -/
def add (a : Adjacency) (name : String) (deps : List String) : Adjacency where
  nodes := if a.edges.contains name then a.nodes else a.nodes ++ [name]
  edges := a.edges.insert name (deps.foldl mention [])

/-- What the additions leave, one after the other. -/
def added (ns : List (String × List String)) : Adjacency :=
  ns.foldl (fun a n => a.add n.1 n.2) empty

/-- The list of nodes is that of a graph, and the map holds the edges of the graph. -/
structure Matches (a : Adjacency) (g : Graph) : Prop where
  nodes : a.nodes = g.nodes
  edges : ∀ n, a.edges.get? n = g.edges.lookup n

end Adjacency

/-- The graph that the additions leave, one after the other. -/
def Graph.added (ns : List (String × List String)) : Graph :=
  ns.foldl (fun g n => g.add n.1 n.2) empty

/-! ## First mentions -/

section
variable {names kept : List String}

theorem firstMentions_nil : FirstMentions [] [] :=
  ⟨.nil, fun _ => Iff.rfl, .nil⟩

/-- One more mention of a name moves none that was mentioned before. -/
theorem FirstMentions.concat (h : FirstMentions names kept) (name : String) :
    FirstMentions (names ++ [name]) (mention kept name) := by
  have horder : kept.Pairwise fun m n =>
      (names ++ [name]).idxOf m < (names ++ [name]).idxOf n := by
    refine h.order.imp_of_mem fun {m n} hm hn hlt => ?_
    rwa [List.idxOf_append_of_mem ((h.mem m).1 hm), List.idxOf_append_of_mem ((h.mem n).1 hn)]
  unfold mention
  by_cases hname : name ∈ kept
  · rw [if_pos (List.contains_iff_mem.2 hname)]
    refine ⟨h.nodup, fun n => ?_, horder⟩
    rw [List.mem_append, List.mem_singleton, h.mem]
    exact ⟨Or.inl, fun hn => hn.elim id fun heq => heq ▸ (h.mem name).1 hname⟩
  · rw [if_neg (mt List.contains_iff_mem.1 hname)]
    have hfresh : name ∉ names := mt (h.mem name).2 hname
    refine ⟨h.nodup.append (List.nodup_singleton name) (List.disjoint_singleton.2 hname),
      fun n => ?_, ?_⟩
    · rw [List.mem_append, List.mem_append, h.mem]
    · refine List.pairwise_append.2 ⟨horder, List.pairwise_singleton _ name, fun m hm n hn => ?_⟩
      obtain rfl := List.mem_singleton.1 hn
      rw [List.idxOf_append_of_mem ((h.mem m).1 hm), List.idxOf_append_of_notMem hfresh]
      have := List.idxOf_lt_length_of_mem ((h.mem m).1 hm)
      omega

theorem foldl_mention_concat (names : List String) (name : String) :
    (names ++ [name]).foldl mention [] = mention (names.foldl mention []) name := by
  rw [List.foldl_append]
  rfl

theorem firstMentions_foldl (names : List String) :
    FirstMentions names (names.foldl mention []) := by
  induction names using List.reverseRecOn with
  | nil => exact firstMentions_nil
  | append_singleton names name ih =>
    rw [foldl_mention_concat]
    exact ih.concat name

/-- Leaving out what was mentioned before comes to the same. -/
theorem eraseDups_eq_foldl_mention (names : List String) :
    names.eraseDups = names.foldl mention [] := by
  induction names using List.reverseRecOn with
  | nil => rfl
  | append_singleton names name ih =>
    rw [foldl_mention_concat, List.eraseDups_append, mention, ← ih]
    by_cases h : name ∈ names
    · simp [List.removeAll, h]
    · simp [List.removeAll, h, List.eraseDups_cons]

end

namespace Graph

variable {g : Graph} {ns : List (String × List String)}

/-! ## Nodes and dependencies of a row of additions -/

theorem ofList_concat (ns : List (String × List String)) (name : String) (deps : List String) :
    ofList (ns ++ [(name, deps)]) = (ofList ns).add name deps := by
  rw [ofList, List.foldl_append]
  rfl

theorem nodes_add_eq_mention (g : Graph) (name : String) (deps : List String) :
    (g.add name deps).nodes = mention g.nodes name := by
  rw [nodes_add, mention]
  simp only [List.contains_iff_mem]

/-- The nodes are the names that were added, in the order of their first additions. -/
theorem firstMentions_nodes (ns : List (String × List String)) :
    FirstMentions (ns.map (·.1)) (ofList ns).nodes := by
  induction ns using List.reverseRecOn with
  | nil => exact firstMentions_nil
  | append_singleton ns n ih =>
    rw [ofList_concat, nodes_add_eq_mention, List.map_append]
    exact ih.concat n.1

/-- The last addition of a node decides what it depends on. -/
theorem dependencies_ofList (ns : List (String × List String)) (n : String) :
    (ofList ns).dependencies n = ((ns.reverse.lookup n).map List.eraseDups).getD [] := by
  induction ns using List.reverseRecOn with
  | nil => rfl
  | append_singleton ns m ih =>
    rw [ofList_concat, dependencies_add, List.reverse_append, List.reverse_singleton,
      List.singleton_append, NameMap.lookup_cons]
    split
    · rfl
    · exact ih

theorem firstMentions_dependencies {before after : List (String × List String)} {n : String}
    {deps : List String} (hns : ns = before ++ (n, deps) :: after) (hlast : n ∉ after.map (·.1)) :
    FirstMentions deps ((ofList ns).dependencies n) := by
  have hafter : after.reverse.lookup n = none := by
    refine Option.not_isSome_iff_eq_none.1 fun hs => hlast ?_
    have hmem : n ∈ after.reverse.map (·.1) := (NameMap.mem_names_iff (m := ⟨after.reverse⟩)).2 hs
    rwa [List.map_reverse, List.mem_reverse] at hmem
  have hlookup : ns.reverse.lookup n = some deps := by
    simp [hns, List.lookup_append, hafter]
  rw [dependencies_ofList, hlookup, Option.map_some, Option.getD_some, eraseDups_eq_foldl_mention]
  exact firstMentions_foldl deps

theorem dependencies_eq_nil (hn : n ∉ g.nodes) : g.dependencies n = [] := by
  rw [dependencies, Option.not_isSome_iff_eq_none.1 (mt contains_iff.1 hn)]
  rfl

theorem isEmpty_iff : g.isEmpty = true ↔ g.nodes = [] :=
  List.isEmpty_iff

/-- The snapshot has the nodes as its names, and under a node the names it depends on. -/
theorem get?_snapshot (hg : g.nodes.Nodup) (n : String) :
    g.snapshot.get? n = (g.edges.lookup n).map sortedNames := by
  have hsorted : ((g.edges.map fun e => (e.1, sortedNames e.2)).map (·.1)).Nodup := by
    rwa [List.map_map]
  have hlookup : g.snapshot.get? n = (g.edges.map fun e => (e.1, sortedNames e.2)).lookup n := by
    rw [snapshot, NameMap.get?_ofList hsorted]
  rw [hlookup]
  exact NameMap.get?_map ⟨g.edges⟩ sortedNames n

end Graph

/-! ## A list of nodes beside a map -/

namespace Adjacency

theorem matches_empty : empty.Matches Graph.empty :=
  ⟨rfl, fun _ => rfl⟩

theorem Matches.contains_iff {a : Adjacency} {g : Graph} (h : a.Matches g) {n : String} :
    a.edges.contains n = true ↔ n ∈ g.nodes := by
  rw [NameMap.contains, h.edges]
  exact Graph.contains_iff

/-- An addition changes both alike. -/
theorem Matches.add {a : Adjacency} {g : Graph} (h : a.Matches g) (name : String)
    (deps : List String) : (a.add name deps).Matches (g.add name deps) := by
  refine ⟨?_, fun n => ?_⟩
  · rw [Graph.nodes_add, Adjacency.add, h.nodes]
    simp only [h.contains_iff]
  · rw [Graph.lookup_add, Adjacency.add, NameMap.get?_insert, h.edges, eraseDups_eq_foldl_mention]

theorem Matches.foldl_add {a : Adjacency} {g : Graph} (h : a.Matches g)
    (ns : List (String × List String)) : (ns.foldl (fun a n => a.add n.1 n.2) a).Matches
      (ns.foldl (fun g n => g.add n.1 n.2) g) := by
  induction ns generalizing a g with
  | nil => exact h
  | cons n ns ih => exact ih (h.add n.1 n.2)

end Adjacency

namespace Graph

/-- The graph of any row of additions, which may name nodes and dependencies several times: its
nodes are the names that were added, in the order of their first additions, and they are the names
of the map in the other way to store it; a node depends on what it was last added with, in the order
of first mentions, and what was never added on nothing; how many nodes there are, which these are
and the snapshot agree with the list of the nodes; and it is the graph of the row as a whole. -/
theorem graph_of_additions (ns : List (String × List String)) :
    (FirstMentions (ns.map (·.1)) (added ns).nodes ∧ (Adjacency.added ns).Matches (added ns) ∧
        ∀ n, n ∈ (Adjacency.added ns).nodes ↔ (Adjacency.added ns).edges.contains n = true) ∧
      (∀ before n deps after, ns = before ++ (n, deps) :: after → n ∉ after.map (·.1) →
        FirstMentions deps ((added ns).dependencies n)) ∧
      (∀ n, n ∉ ns.map (·.1) → (added ns).dependencies n = []) ∧
      (∀ n, (added ns).contains n = true ↔ n ∈ (added ns).nodes) ∧
      (added ns).size = (added ns).nodes.length ∧
      ((added ns).isEmpty = true ↔ (added ns).nodes = []) ∧
      (∀ n, (added ns).snapshot.contains n = true ↔ n ∈ (added ns).nodes) ∧
      (∀ n ds, (added ns).snapshot.get? n = some ds →
        ds.Pairwise (· < ·) ∧ ∀ d, d ∈ ds ↔ d ∈ (added ns).dependencies n) ∧
      ofList ns = added ns := by
  have hnodes : FirstMentions (ns.map (·.1)) (added ns).nodes := firstMentions_nodes ns
  have hmatches : (Adjacency.added ns).Matches (added ns) :=
    Adjacency.matches_empty.foldl_add ns
  have hsnapshot : ∀ n, (added ns).snapshot.get? n = ((added ns).edges.lookup n).map sortedNames :=
    get?_snapshot hnodes.nodup
  refine ⟨⟨hnodes, hmatches, fun n => ?_⟩, fun before n deps after => firstMentions_dependencies,
    fun n hn => dependencies_eq_nil (mt (hnodes.mem n).1 hn), fun n => contains_iff, rfl,
    isEmpty_iff, fun n => ?_, fun n ds hds => ?_, rfl⟩
  · rw [hmatches.nodes, hmatches.contains_iff]
  · rw [NameMap.contains, hsnapshot, Option.isSome_map]
    exact contains_iff
  · obtain ⟨deps, hdeps, rfl⟩ := Option.map_eq_some_iff.1 ((hsnapshot n).symm.trans hds)
    refine ⟨pairwise_sortedNames deps, fun d => ?_⟩
    rw [mem_sortedNames, dependencies, hdeps, Option.getD_some]

/-- A relay that is added again keeps its place before the socket and has its later dependencies, of
which the clock was never added. -/
theorem relay_added_again :
    let ns := [("relay", ["socket"]), ("socket", []), ("relay", ["clock", "socket", "clock"])]
    let g := added ns
    ns = [("relay", ["socket"]), ("socket", [])] ++
        ("relay", ["clock", "socket", "clock"]) :: [] ∧
      "relay" ∉ ([] : List (String × List String)).map (·.1) ∧
      FirstMentions ["clock", "socket", "clock"] (g.dependencies "relay") ∧
      "clock" ∉ ns.map (·.1) ∧ g.dependencies "clock" = [] ∧
      g.snapshot.get? "relay" = some ["clock", "socket"] ∧
      ∀ d, d ∈ ["clock", "socket"] ↔ d ∈ g.dependencies "relay" := by
  intro ns g
  obtain ⟨-, hlast, hnever, -, -, -, -, hsnapshot, -⟩ := graph_of_additions ns
  have hafter : "relay" ∉ ([] : List (String × List String)).map (·.1) := List.not_mem_nil
  have hclock : "clock" ∉ ns.map (·.1) := by decide
  have hshown : g.snapshot.get? "relay" = some ["clock", "socket"] := by decide
  exact ⟨rfl, hafter, hlast [("relay", ["socket"]), ("socket", [])] "relay" _ [] rfl hafter, hclock,
    hnever "clock" hclock, hshown, (hsnapshot "relay" _ hshown).2⟩

end Graph

end PluginHost.Dependency

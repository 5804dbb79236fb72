import Mathlib.Data.List.TakeWhile
import PluginHost.Proofs.Dependency.Cycle

/-!
# The search for cycles comes to an end

The search goes from a node to the nodes it depends on, and it stops at a node that it has come
through or that was searched before. Nothing in it counts steps, and `Unfolds` says what it comes to
without counting any. The number of steps that `Graph.findCycle` carries is never what ends a
search: the nodes of a path are distinct, so a path that has used up all steps has come through
every node.

What is found is cut off the path, so its nodes are distinct too.

* `Unfolds`: the search without a number of steps.
* `unfolds_searchFrom`: it comes to what the counted search returns, for any graph.
* `Unfolds.unique`, `Unfolds.nodup`: it comes to one end only, and lists no node twice.
* `findCycle_of_additions`: when a cycle is found, and which one.
-/
namespace PluginHost.Dependency

/-- How a search ends for those that come after a node when it is left: the node leads to no cycle
if none was found from it. -/
def Search.leave (node : String) : Search → Search
  | .cycle c => .cycle c
  | .clear visited => .clear (node :: visited)

namespace Graph

/-- The search through a row of nodes, with a path that leads to them and the nodes that were
visited before, and how it ends. -/
inductive Unfolds (g : Graph) : List String → List String → List String → Search → Prop where
  | done (path visited : List String) : Unfolds g path visited [] (.clear visited)
  | closes {path visited ds : List String} {d : String} (hd : d ∈ path) :
      Unfolds g path visited (d :: ds) (.cycle (loopFrom path d))
  | passes {path visited ds : List String} {d : String} {found : Search} (hd : d ∉ path)
      (hvisited : d ∈ visited) (hrest : Unfolds g path visited ds found) :
      Unfolds g path visited (d :: ds) found
  | finds {path visited ds cycle : List String} {d : String} (hd : d ∉ path)
      (hvisited : d ∉ visited)
      (hinner : Unfolds g (d :: path) visited (g.known d) (.cycle cycle)) :
      Unfolds g path visited (d :: ds) (.cycle cycle)
  | leaves {path visited left ds : List String} {d : String} {found : Search} (hd : d ∉ path)
      (hvisited : d ∉ visited) (hinner : Unfolds g (d :: path) visited (g.known d) (.clear left))
      (hrest : Unfolds g path (d :: left) ds found) : Unfolds g path visited (d :: ds) found

variable {g : Graph}

/-! ## The counted search -/

/-- Searching through a row of nodes, when the search from each of those that are not on the path
goes through its dependencies and leaves it. -/
theorem unfolds_searchAll {search : List String → String → Search} {path ds : List String}
    (hsearch : ∀ visited d, d ∈ ds → d ∉ path →
      ∃ inner, g.Unfolds (d :: path) visited (g.known d) inner ∧ search visited d = inner.leave d)
    (visited : List String) : g.Unfolds path visited ds (searchAll search path visited ds) := by
  induction ds generalizing visited with
  | nil => exact .done path visited
  | cons d ds ih =>
    have hrest : ∀ visited, g.Unfolds path visited ds (searchAll search path visited ds) :=
      ih fun visited d hd => hsearch visited d (List.mem_cons_of_mem _ hd)
    unfold searchAll
    split
    · rename_i hpath
      exact .closes (by simpa using hpath)
    rename_i hpath
    have hpath : d ∉ path := by simpa using hpath
    split
    · rename_i hvisited
      exact .passes hpath (by simpa using hvisited) (hrest visited)
    rename_i hvisited
    have hvisited : d ∉ visited := by simpa using hvisited
    obtain ⟨inner, hinner, heq⟩ := hsearch visited d List.mem_cons_self hpath
    cases inner with
    | cycle c =>
      rw [heq]
      exact .finds hpath hvisited hinner
    | clear left =>
      rw [heq]
      exact .leaves hpath hvisited hinner (hrest (d :: left))

/-- A search that may still go as deep as there are nodes off its path has steps enough. -/
theorem unfolds_searchFrom {fuel : Nat} {path : List String} {node : String}
    (hnodup : (node :: path).Nodup) (hpath : node :: path ⊆ g.nodes)
    (hfuel : g.size ≤ path.length + fuel) (visited : List String) :
    ∃ inner, g.Unfolds (node :: path) visited (g.known node) inner ∧
      searchFrom g fuel path visited node = inner.leave node := by
  induction fuel generalizing path visited node with
  | zero =>
    have hlength : path.length + 1 ≤ g.size := (List.subperm_of_subset hnodup hpath).length_le
    omega
  | succ fuel ih =>
    refine ⟨searchAll (searchFrom g fuel (node :: path)) (node :: path) visited (g.known node),
      unfolds_searchAll (fun visited d hd hnot => ?_) visited, ?_⟩
    · refine ih (List.nodup_cons.2 ⟨hnot, hnodup⟩)
        (List.cons_subset.2 ⟨(mem_known.1 hd).2, hpath⟩) ?_ visited
      rw [List.length_cons]
      omega
    · unfold searchFrom
      split <;> rename_i heq <;> rw [heq, Search.leave]

/-- The search through all nodes of a graph comes to an end, and that is what is returned. -/
theorem unfolds_nodes (g : Graph) :
    g.Unfolds [] [] g.nodes (searchAll (searchFrom g g.size []) [] [] g.nodes) :=
  unfolds_searchAll (fun visited d hd _ =>
    unfolds_searchFrom (List.nodup_singleton d) (by simpa using hd) (by simp) visited) []

theorem findCycle_eq_some_iff {cycle : List String} :
    g.findCycle = some cycle ↔
      searchAll (searchFrom g g.size []) [] [] g.nodes = .cycle cycle := by
  unfold findCycle
  split <;> rename_i heq <;> simp [heq]

/-! ## What it comes to -/

/-- The search through a row of nodes has only one end. -/
theorem Unfolds.unique {path visited ds : List String} {found other : Search}
    (h : g.Unfolds path visited ds found) (h' : g.Unfolds path visited ds other) :
    other = found := by
  induction h generalizing other with
  | done => cases h' with
    | done => rfl
  | closes hd => cases h' with
    | closes => rfl
    | passes hd' | finds hd' | leaves hd' => exact absurd hd hd'
  | passes hd hvisited _ ih => cases h' with
    | closes hd' => exact absurd hd' hd
    | passes _ _ hrest => exact ih hrest
    | finds _ hvisited' | leaves _ hvisited' => exact absurd hvisited hvisited'
  | finds hd hvisited _ ih => cases h' with
    | closes hd' => exact absurd hd' hd
    | passes _ hvisited' => exact absurd hvisited' hvisited
    | finds _ _ hinner => exact ih hinner
    | leaves _ _ hinner => cases ih hinner
  | leaves hd hvisited _ _ ihinner ihrest => cases h' with
    | closes hd' => exact absurd hd' hd
    | passes _ hvisited' => exact absurd hvisited' hvisited
    | finds _ _ hinner => cases ihinner hinner
    | leaves _ _ hinner hrest =>
      cases ihinner hinner
      exact ihrest hrest

theorem nodup_loopFrom {path : List String} (hpath : path.Nodup) (node : String) :
    (loopFrom path node).Nodup := by
  rw [loopFrom, List.nodup_reverse]
  refine (hpath.sublist (List.takeWhile_sublist _)).append (List.nodup_singleton node) ?_
  rw [List.disjoint_singleton]
  intro hmem
  simpa using List.mem_takeWhile_imp hmem

/-- A path never comes through a node twice, so no cycle that is cut off one does. -/
theorem Unfolds.nodup {path visited ds : List String} {found : Search}
    (h : g.Unfolds path visited ds found) (hpath : path.Nodup) {cycle : List String}
    (hfound : found = .cycle cycle) : cycle.Nodup := by
  induction h with
  | done => cases hfound
  | closes hd =>
    cases hfound
    exact nodup_loopFrom hpath _
  | passes _ _ _ ih => exact ih hpath hfound
  | finds hd _ _ ih => exact ih (List.nodup_cons.2 ⟨hd, hpath⟩) hfound
  | leaves _ _ _ _ _ ih => exact ih hpath hfound

theorem nodup_of_findCycle {cycle : List String} (h : g.findCycle = some cycle) :
    cycle.Nodup :=
  (unfolds_nodes g).nodup List.nodup_nil (findCycle_eq_some_iff.1 h)

theorem Loop.mem_nodes {cycle : List String} (h : g.Loop cycle) {n : String} (hn : n ∈ cycle) :
    n ∈ g.nodes := by
  obtain ⟨first, rest, rfl, hchain⟩ := h
  obtain ⟨before, after, hsplit⟩ := List.append_of_mem hn
  obtain ⟨next, behind, hnext⟩ : ∃ next behind, after ++ [first] = next :: behind :=
    List.exists_cons_of_ne_nil (by simp)
  -- whatever comes next on the way round, `n` depends on it
  have hround : first :: (rest ++ [first]) = before ++ n :: next :: behind := by
    rw [← List.cons_append, hsplit, List.append_assoc, List.cons_append, hnext]
  rw [hround, List.isChain_split] at hchain
  exact mem_nodes_of_mem_known (List.isChain_cons_cons.1 hchain.2).1

/-- The graph of any row of additions: a cycle is found exactly when some node depends on itself
along dependencies that are nodes; what is found is a row of distinct nodes in which each declares
the next one and the last declares the first; and the search comes to one end, whatever it meets. -/
theorem findCycle_of_additions (ns : List (String × List String)) :
    ((∃ cycle, (ofList ns).findCycle = some cycle) ↔
        ∃ n, Relation.TransGen (fun n d => d ∈ (ofList ns).dependencies n ∧
          (ofList ns).contains d = true) n n) ∧
      (∀ cycle, (ofList ns).findCycle = some cycle → cycle.Nodup ∧
        (∀ n ∈ cycle, (ofList ns).contains n = true) ∧ ∃ first rest, cycle = first :: rest ∧
          (first :: (rest ++ [first])).IsChain fun n d => d ∈ (ofList ns).dependencies n) ∧
      ∃ found, (ofList ns).Unfolds [] [] (ofList ns).nodes found ∧
        (∀ other, (ofList ns).Unfolds [] [] (ofList ns).nodes other → other = found) ∧
        ∀ cycle, (ofList ns).findCycle = some cycle ↔ found = .cycle cycle := by
  have hends := unfolds_nodes (ofList ns)
  refine ⟨?_, fun cycle hcycle => ?_, _, hends, fun other hother => hends.unique hother,
    fun cycle => findCycle_eq_some_iff⟩
  · have hedge : (fun n d => d ∈ (ofList ns).dependencies n ∧ (ofList ns).contains d = true) =
        fun n d => d ∈ (ofList ns).known n := by
      funext n d
      rw [mem_known, contains_iff]
    rw [hedge, ← Option.ne_none_iff_exists', ne_eq, findCycle_eq_none_iff (wellFormed_ofList ns),
      Acyclic, not_forall_not]
  · have hloop : (ofList ns).Loop cycle := loop_of_findCycle hcycle
    refine ⟨hends.nodup List.nodup_nil (findCycle_eq_some_iff.1 hcycle),
      fun n hn => contains_iff.2 (hloop.mem_nodes hn), ?_⟩
    obtain ⟨first, rest, heq, hchain⟩ := hloop
    exact ⟨first, rest, heq, hchain.imp fun n d hd => (mem_known.1 hd).1⟩

end Graph

end PluginHost.Dependency

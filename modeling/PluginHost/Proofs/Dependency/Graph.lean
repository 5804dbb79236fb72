import Mathlib.Data.List.Nodup
import PluginHost.Dependency.Graph

/-!
# What a dependency graph holds

A graph that is built by adding nodes names every node once, and under a node every dependency
once. The nodes and their dependencies are read off such a graph in these terms.

* `WellFormed`: nodes and the dependencies of a node are without repetitions.
* `wellFormed_ofList`: every list of nodes gives such a graph.
* `edges_ofList`: distinct nodes keep their order and their dependencies.
-/
namespace PluginHost.Dependency

theorem nodup_eraseDups (names : List String) : names.eraseDups.Nodup := by
  induction h : names.length using Nat.strongRecOn generalizing names with
  | ind n ih =>
    cases names with
    | nil => simp
    | cons a as =>
      rw [List.eraseDups_cons, List.nodup_cons, List.mem_eraseDups]
      refine ⟨by simp, ih _ ?_ _ rfl⟩
      have := List.length_filter_le (fun b => !b == a) as
      rw [List.length_cons] at h
      omega

namespace Graph

/-- No node and no dependency of a node is there twice. -/
structure WellFormed (g : Graph) : Prop where
  nodes : g.nodes.Nodup
  dependencies : ∀ n, (g.dependencies n).Nodup

theorem contains_iff {g : Graph} {n : String} : g.contains n = true ↔ n ∈ g.nodes :=
  (NameMap.mem_names_iff (m := ⟨g.edges⟩)).symm

theorem contains_eq_false_iff {g : Graph} {n : String} : g.contains n = false ↔ n ∉ g.nodes := by
  rw [← contains_iff, Bool.not_eq_true]

theorem mem_known {g : Graph} {n d : String} :
    d ∈ g.known n ↔ d ∈ g.dependencies n ∧ d ∈ g.nodes := by
  rw [known, List.mem_filter, contains_iff]

theorem WellFormed.known {g : Graph} (h : g.WellFormed) (n : String) : (g.known n).Nodup :=
  (h.dependencies n).filter _

theorem mem_dependents {g : Graph} {n m : String} :
    m ∈ g.dependents n ↔ m ∈ g.nodes ∧ n ∈ g.known m := by
  rw [dependents, List.mem_filter, List.contains_iff_mem]

theorem WellFormed.dependents {g : Graph} (h : g.WellFormed) (n : String) :
    (g.dependents n).Nodup :=
  h.nodes.filter _

/-! ## Adding nodes -/

theorem edges_add_of_not_mem {g : Graph} {name : String} (deps : List String)
    (h : name ∉ g.nodes) : (g.add name deps).edges = g.edges ++ [(name, deps.eraseDups)] := by
  rw [add, contains_eq_false_iff.2 h]
  rfl

theorem nodes_add (g : Graph) (name : String) (deps : List String) :
    (g.add name deps).nodes = if name ∈ g.nodes then g.nodes else g.nodes ++ [name] := by
  split
  · rename_i h
    rw [add, contains_iff.2 h]
    simp only [nodes, List.map_map, if_true]
    refine List.map_congr_left fun e _ => ?_
    by_cases he : e.1 = name <;> simp [he]
  · rename_i h
    simp [nodes, edges_add_of_not_mem deps h]

theorem lookup_add (g : Graph) (name other : String) (deps : List String) :
    (g.add name deps).edges.lookup other =
      if other = name then some deps.eraseDups else g.edges.lookup other := by
  by_cases h : name ∈ g.nodes
  · have hadd : g.add name deps =
        ⟨((⟨g.edges⟩ : NameMap (List String)).modify name fun _ => deps.eraseDups).entries⟩ := by
      rw [add, contains_iff.2 h]
      simp only [NameMap.modify, if_true, Graph.mk.injEq]
      refine List.map_congr_left fun e _ => ?_
      by_cases he : e.1 = name <;> simp [he]
    have hget := NameMap.get?_modify ⟨g.edges⟩ name other fun _ => deps.eraseDups
    simp only [NameMap.get?] at hget
    rw [hadd, hget]
    split
    · rename_i heq
      obtain ⟨old, hold⟩ := Option.isSome_iff_exists.1 (contains_iff.2 h)
      simp [heq, hold]
    · rfl
  · rw [edges_add_of_not_mem deps h, List.lookup_append]
    by_cases heq : other = name
    · have hnone : g.edges.lookup name = none :=
        Option.not_isSome_iff_eq_none.1 fun hs => h (contains_iff.1 hs)
      simp [heq, hnone]
    · simp [heq, NameMap.lookup_cons]

theorem dependencies_add (g : Graph) (name other : String) (deps : List String) :
    (g.add name deps).dependencies other =
      if other = name then deps.eraseDups else g.dependencies other := by
  rw [dependencies, lookup_add]
  split <;> rfl

theorem wellFormed_empty : Graph.empty.WellFormed :=
  ⟨List.nodup_nil, fun _ => List.nodup_nil⟩

theorem WellFormed.add {g : Graph} (h : g.WellFormed) (name : String) (deps : List String) :
    (g.add name deps).WellFormed := by
  refine ⟨?_, fun other => ?_⟩
  · rw [nodes_add]
    split
    · exact h.nodes
    · rename_i hn
      exact h.nodes.append (List.nodup_singleton name) (List.disjoint_singleton.2 hn)
  · rw [dependencies_add]
    split
    · exact nodup_eraseDups deps
    · exact h.dependencies other

theorem WellFormed.foldl_add {g : Graph} (h : g.WellFormed) (ns : List (String × List String)) :
    (ns.foldl (fun g n => g.add n.1 n.2) g).WellFormed := by
  induction ns generalizing g with
  | nil => exact h
  | cons n ns ih => exact ih (h.add n.1 n.2)

theorem wellFormed_ofList (ns : List (String × List String)) : (ofList ns).WellFormed :=
  wellFormed_empty.foldl_add ns

theorem edges_foldl_add {g : Graph} {ns : List (String × List String)}
    (h : (g.nodes ++ ns.map (·.1)).Nodup) :
    (ns.foldl (fun g n => g.add n.1 n.2) g).edges =
      g.edges ++ ns.map fun n => (n.1, n.2.eraseDups) := by
  induction ns generalizing g with
  | nil => simp
  | cons n ns ih =>
    have hn : n.1 ∉ g.nodes := by
      rw [List.map_cons, List.nodup_append] at h
      exact fun hmem => h.2.2 n.1 hmem n.1 List.mem_cons_self rfl
    rw [List.foldl_cons, ih, edges_add_of_not_mem _ hn, List.map_cons, List.append_assoc]
    · rfl
    · simpa [nodes_add, hn] using h

/-- The graph of distinct nodes holds them in their order, each with its dependencies. -/
theorem edges_ofList {ns : List (String × List String)} (h : (ns.map (·.1)).Nodup) :
    (ofList ns).edges = ns.map fun n => (n.1, n.2.eraseDups) :=
  (edges_foldl_add (g := empty) (by simpa [empty, nodes] using h)).trans (by simp [empty])

theorem nodes_ofList {ns : List (String × List String)} (h : (ns.map (·.1)).Nodup) :
    (ofList ns).nodes = ns.map (·.1) := by
  simp [nodes, edges_ofList h]

theorem mem_dependencies_ofList {ns : List (String × List String)} (h : (ns.map (·.1)).Nodup)
    {n : String × List String} (hn : n ∈ ns) {d : String} :
    d ∈ (ofList ns).dependencies n.1 ↔ d ∈ n.2 := by
  have hnodes : (ofList ns).nodes.Nodup := (wellFormed_ofList ns).nodes
  have hedge : (n.1, n.2.eraseDups) ∈ (ofList ns).edges := by
    rw [edges_ofList h]
    exact List.mem_map_of_mem hn
  rw [dependencies, (NameMap.lookup_eq_some_iff hnodes).2 hedge, Option.getD_some,
    List.mem_eraseDups]

/-! ## Names in order -/

theorem pairwise_sortedNames (names : List String) : (sortedNames names).Pairwise (· < ·) :=
  NameMap.ascending_ofList _

theorem mem_sortedNames {names : List String} {n : String} : n ∈ sortedNames names ↔ n ∈ names := by
  rw [sortedNames, NameMap.mem_names_ofList, List.map_map]
  exact iff_of_eq (congrArg _ (List.map_id names))

end Graph

end PluginHost.Dependency

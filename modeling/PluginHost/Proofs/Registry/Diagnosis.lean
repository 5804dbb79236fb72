import PluginHost.Proofs.Dependency.Search
import PluginHost.Proofs.Registry.Health

/-!
# The health check reports what is amiss

Plugins are admitted only with all that they need, and beside nothing that they refuse. Later a
plugin may be unregistered from under others, its replacement may fail, or the replacement may need
more than it did; so a dependency may be missing and a cycle may be closed, but no two registered
plugins ever conflict. The health check reports each missing dependency, and a cycle exactly when
there is one; it never reports more than one cycle, and what is missing takes no part in it.

* `mem_problems`: the two kinds of problems, and when each is reported.
* `reachable_problems`: the health check of any host that a run leads to.
-/
namespace PluginHost

variable {ω : Type}

namespace Host

section
variable {h : Host ω}

theorem mem_problems (hi : Coherent h.records) {e : RegistryError} : e ∈ h.problems ↔
    (∃ n d, e = .missingDependency n d ∧ h.Needs n d ∧ h.contains d = false) ∨
      ∃ cycle, e = .cycle cycle ∧ h.graph.findCycle = some cycle := by
  rw [problems_eq hi, List.mem_append, mem_missingDependencies hi]
  refine or_congr_right ?_
  cases h.graph.findCycle with
  | none => simp
  | some cycle => simp

/-- Whatever is missing, no more than one cycle is reported. -/
theorem countP_problems_le (hi : Coherent h.records) :
    h.problems.countP (·.kind = "CycleDetected") ≤ 1 := by
  have hmissing : h.missingDependencies.countP (·.kind = "CycleDetected") = 0 := by
    rw [List.countP_eq_zero]
    intro e he
    obtain ⟨n, d, rfl, -, -⟩ := (mem_missingDependencies hi).1 he
    simp [RegistryError.kind]
  rw [problems_eq hi, List.countP_append, hmissing, Nat.zero_add]
  refine List.countP_le_length.trans ?_
  cases h.graph.findCycle with
  | none => simp
  | some cycle => simp

/-- A cycle of the graph is one of registered plugins each of which needs the next. -/
theorem needs_of_loop (hi : Coherent h.records) {cycle : List String}
    (hloop : h.graph.Loop cycle) : (∀ n ∈ cycle, h.contains n = true) ∧
      ∃ first rest, cycle = first :: rest ∧ (first :: (rest ++ [first])).IsChain h.Needs := by
  constructor
  · intro n hn
    have hnode := hloop.mem_nodes hn
    rw [nodes_graph hi] at hnode
    exact NameMap.mem_names_iff.1 hnode
  · obtain ⟨first, rest, heq, hchain⟩ := hloop
    exact ⟨first, rest, heq, hchain.imp fun n d hd => ((mem_known_graph hi).1 hd).1⟩

end

/-- What the health check reports of a host that a run leads to, however callbacks ended and
whatever plugins reported on the way. A missing dependency is reported exactly if a registered
plugin declares it and it is not registered; a conflict never is; and a cycle is reported exactly if
the registered plugins have one, only one of them, and it is a row of distinct registered plugins
each of which declares the next, and the last one the first. So nothing is reported exactly if all
that is declared is registered and there is no cycle. -/
theorem reachable_problems {P : Plugins ω} {h : Host ω} (hr : Reachable P h) :
    (∀ n d, .missingDependency n d ∈ h.problems ↔ h.Needs n d ∧ h.contains d = false) ∧
    (∀ n m, .conflict n m ∉ h.problems) ∧
    h.problems.countP (·.kind = "CycleDetected") ≤ 1 ∧
    ((∃ cycle, .cycle cycle ∈ h.problems) ↔
      ∃ n, Relation.TransGen (fun n d => h.Needs n d ∧ h.contains d = true) n n) ∧
    (∀ cycle, .cycle cycle ∈ h.problems → cycle.Nodup ∧ (∀ n ∈ cycle, h.contains n = true) ∧
      ∃ first rest, cycle = first :: rest ∧ (first :: (rest ++ [first])).IsChain h.Needs) ∧
    (h.problems = [] ↔ (∀ n d, h.Needs n d → h.contains d = true) ∧
      ∀ n, ¬ Relation.TransGen (fun n d => h.Needs n d ∧ h.contains d = true) n n) := by
  have hi := hr.coherent
  have hfound : ∀ cycle, .cycle cycle ∈ h.problems ↔ h.graph.findCycle = some cycle := by
    intro cycle
    rw [mem_problems hi]
    simp
  -- what is missing is no node, so the edges of the graph are the needs that are met
  have hedges : (fun n d => h.Needs n d ∧ h.contains d = true) =
      fun n d => d ∈ h.graph.known n := by
    funext n d
    exact propext (mem_known_graph hi).symm
  have hgraph : h.graph.WellFormed := Dependency.Graph.wellFormed_ofList _
  refine ⟨fun n d => ?_, fun n m hconflict => ?_, countP_problems_le hi, ?_, ?_, ?_⟩
  · rw [mem_problems hi]
    simp
  · simpa using (mem_problems hi).1 hconflict
  · simp only [hfound]
    rw [hedges, ← Option.ne_none_iff_exists', ne_eq,
      Dependency.Graph.findCycle_eq_none_iff hgraph, Dependency.Graph.Acyclic, not_forall_not]
  · intro cycle hcycle
    have hcycle := (hfound cycle).1 hcycle
    exact ⟨Dependency.Graph.nodup_of_findCycle hcycle,
      needs_of_loop hi (Dependency.Graph.loop_of_findCycle hcycle)⟩
  · rw [problems_eq_nil_iff hi, ← acyclic_graph_iff hi, hedges]
    rfl

/-- A river, a mill that needs it, a bakery that needs the mill, and another mill that needs the
bakery as well. -/
def millPlugins : Plugins Unit :=
  .constant (fun plugin => match plugin.id with
    | 0 => ⟨"river", "", "1.0.0", [], []⟩
    | 1 => ⟨"mill", "", "1.0.0", ["river"], []⟩
    | 2 => ⟨"bakery", "", "1.0.0", ["mill"], []⟩
    | _ => ⟨"mill", "", "1.0.0", ["river", "bakery"], []⟩) fun _ _ => .ok

/-- The other mill has taken the place of the first one, and the river has run dry. -/
def millHost : Host Unit :=
  (start ()).runAll millPlugins
    [.register ⟨0⟩, .register ⟨1⟩, .register ⟨2⟩, .reloadWith "mill" ⟨3⟩, .unregister "river"]

/-- The river is reported as missing, and so is a cycle, since the mill and the bakery need each
other. -/
theorem mill_reported :
    Reachable millPlugins millHost ∧ .missingDependency "mill" "river" ∈ millHost.problems ∧
      ∃ cycle, .cycle cycle ∈ millHost.problems ∧ cycle.Nodup ∧
        ∀ n ∈ cycle, millHost.contains n = true := by
  have hr : Reachable millPlugins millHost := (Reachable.start ()).runAll _
  obtain ⟨hmissing, -, -, hreported, hcycles, -⟩ := reachable_problems hr
  have hmill : millHost.Needs "mill" "bakery" := ⟨_, rfl, by decide⟩
  have hbakery : millHost.Needs "bakery" "mill" := ⟨_, rfl, by decide⟩
  obtain ⟨cycle, hcycle⟩ := hreported.2 ⟨"mill", (Relation.TransGen.single ⟨hmill, rfl⟩).tail
    ⟨hbakery, rfl⟩⟩
  obtain ⟨hnodup, hregistered, -⟩ := hcycles cycle hcycle
  exact ⟨hr, (hmissing "mill" "river").2 ⟨⟨_, rfl, by decide⟩, rfl⟩, cycle, hcycle, hnodup,
    hregistered⟩

end Host

end PluginHost

import PluginHost.Proofs.Dependency.Cycle
import PluginHost.Proofs.Registry.Replacement

/-!
# The health check and replacements

A registry is healthy when every declared dependency is registered, no two plugins conflict and
the dependencies have no cycle. In a host that a run leads to nothing conflicts, but plugins may
be unregistered from under others, so dependencies can be missing, and what is registered anew
may need its own dependents.

A replacement that is granted cannot leave a dependency without a plugin: the new plugin finds
all it needs, and those that needed the old one find the new one under its name. Only the edges
out of one node of the dependency graph change, so a cycle that was not there before passes
through that node; there is one exactly when something that the new plugin needs had been
needing the old one.

* `mem_missingDependencies`, `problems_eq`: what is reported.
* `acyclic_graph_iff`: the graph has a cycle exactly when the declared dependencies have one.
* `problems_eq_nil_iff`: what it means that no problem is reported.
* `acyclic_of_changed_iff`: changing the edges out of one node of a graph without cycles.
* `renew_health`: what is reported after a replacement in a healthy registry.
* `cycle_introduced`: a replacement that makes a cycle.
-/
namespace PluginHost

variable {ω : Type}

/-! ## Edges out of one node -/

section
variable {α : Type} {r r' : α → α → Prop} {a : α} {targets : List α}

/-- A chain either uses no edge out of the changed node, or comes to that node and goes on from
one of its new targets. -/
theorem transGen_of_changed (hr : ∀ x y, r' x y → x ≠ a → r x y)
    (ha : ∀ y, r' a y → y ∈ targets) {x y : α} (h : Relation.TransGen r' x y) :
    Relation.TransGen r x y ∨ Relation.ReflTransGen r' x a ∧ Relation.TransGen r' a y ∧
      ∃ t ∈ targets, Relation.ReflTransGen r t y := by
  induction h with
  | @single y hxy =>
    by_cases hx : x = a
    · subst hx
      exact Or.inr ⟨.refl, .single hxy, y, ha y hxy, .refl⟩
    · exact Or.inl (.single (hr x y hxy hx))
  | @tail y z hxy hyz ih =>
    by_cases hy : y = a
    · subst hy
      exact Or.inr ⟨hxy.to_reflTransGen, .single hyz, z, ha z hyz, .refl⟩
    · have hold : r y z := hr y z hyz hy
      rcases ih with hchain | ⟨hxa, hay, t, ht, hty⟩
      · exact Or.inl (hchain.tail hold)
      · exact Or.inr ⟨hxa, hay.tail hyz, t, ht, hty.tail hold⟩

/-- A chain to the changed node uses no edge out of it, up to where it first comes there. -/
theorem reflTransGen_to_changed (hr : ∀ x y, r x y → x ≠ a → r' x y) {x : α}
    (h : Relation.ReflTransGen r x a) : Relation.ReflTransGen r' x a := by
  induction h using Relation.ReflTransGen.head_induction_on with
  | refl => exact .refl
  | @head x y hxy _ ih =>
    by_cases hx : x = a
    · exact hx ▸ .refl
    · exact .head (hr x y hxy hx) ih

/-- Where there was no cycle, new edges out of a node make none exactly when there is no way back
to the node from any of their targets. -/
theorem acyclic_of_changed_iff (hr : ∀ x y, x ≠ a → (r' x y ↔ r x y))
    (ha : ∀ y, r' a y ↔ y ∈ targets) (hacyclic : ∀ x, ¬ Relation.TransGen r x x) :
    (∀ x, ¬ Relation.TransGen r' x x) ↔ ∀ t ∈ targets, ¬ Relation.ReflTransGen r t a := by
  have hsplit : ∀ {x y}, Relation.TransGen r' x y → _ :=
    transGen_of_changed (r := r) (fun x y h hx => (hr x y hx).1 h) fun y => (ha y).1
  constructor
  · intro hnone t ht hback
    have hback' : Relation.ReflTransGen r' t a :=
      reflTransGen_to_changed (fun x y h hx => (hr x y hx).2 h) hback
    exact hnone a (.head' ((ha t).2 ht) hback')
  · intro hnone x hcycle
    -- a cycle that is new can be walked from the changed node on
    obtain hold | ⟨hxa, hax, -⟩ := hsplit hcycle
    · exact hacyclic x hold
    obtain hold | ⟨-, -, t, ht, hback⟩ := hsplit (hax.trans_left hxa)
    · exact hacyclic a hold
    · exact hnone t ht hback

end

/-! ## Problems -/

theorem clashesAmong_eq_nil_iff {ds : List Descriptor} :
    Host.clashesAmong ds = [] ↔ ds.Pairwise fun d e => d.clashes e = false := by
  induction ds with
  | nil => simp [Host.clashesAmong]
  | cons d ds ih => simp [Host.clashesAmong, ih, List.filter_eq_nil_iff]

theorem Coherent.pairwise {records : NameMap Record} (hi : Coherent records) :
    (records.values.map (·.descriptor)).Pairwise fun d e => d.clashes e = false := by
  rw [NameMap.values, List.map_map, List.pairwise_map]
  refine (List.pairwise_map.1 hi.ascending).imp_of_mem fun {e f} he hf hlt => ?_
  exact hi.compatible (hi.ascending.get?_eq_some_iff.2 he) (hi.ascending.get?_eq_some_iff.2 hf)
    (Std.ne_of_lt hlt)

namespace Host

/-- The plugin that is registered under a name declares the dependency. -/
def Needs (h : Host ω) (n d : String) : Prop :=
  ∃ r, h.records.get? n = some r ∧ d ∈ r.descriptor.dependencies

section
variable {h k : Host ω}

/-- What is reported as missing is declared by a registered plugin and not registered. -/
theorem mem_missingDependencies (hi : Coherent h.records) {e : RegistryError} :
    e ∈ h.missingDependencies ↔
      ∃ n d, e = .missingDependency n d ∧ h.Needs n d ∧ h.contains d = false := by
  unfold missingDependencies
  rw [List.mem_flatMap]
  constructor
  · rintro ⟨r, hr, he⟩
    obtain ⟨n, hn⟩ := hi.ascending.mem_values_iff.1 hr
    obtain ⟨d, hd, rfl⟩ := List.mem_map.1 he
    obtain ⟨hd, habsent⟩ := List.mem_filter.1 hd
    exact ⟨_, d, rfl, ⟨r, by rw [hi.named hn]; exact hn, hd⟩, by simpa using habsent⟩
  · rintro ⟨n, d, rfl, ⟨r, hr, hd⟩, habsent⟩
    refine ⟨r, NameMap.mem_values_of_get? hr, List.mem_map.2 ⟨d, ?_, ?_⟩⟩
    · exact List.mem_filter.2 ⟨hd, by simp [habsent]⟩
    · rw [hi.named hr]

theorem missingDependencies_eq_nil_iff (hi : Coherent h.records) :
    h.missingDependencies = [] ↔ ∀ n d, h.Needs n d → h.contains d = true := by
  simp only [List.eq_nil_iff_forall_not_mem, mem_missingDependencies hi]
  constructor
  · intro hnone n d hneeds
    cases habsent : h.contains d with
    | true => rfl
    | false => exact absurd ⟨n, d, rfl, hneeds, habsent⟩ (hnone _)
  · rintro hall e ⟨n, d, -, hneeds, habsent⟩
    rw [hall n d hneeds] at habsent
    cases habsent

theorem mem_known_graph (hi : Coherent h.records) {n d : String} :
    d ∈ h.graph.known n ↔ h.Needs n d ∧ h.contains d = true := by
  have hnodes : ∀ m, m ∈ h.graph.nodes ↔ h.contains m = true := by
    intro m
    rw [nodes_graph hi, NameMap.mem_names_iff]
    rfl
  have hdeps : ∀ r, h.records.get? n = some r →
      (d ∈ h.graph.dependencies n ↔ d ∈ r.descriptor.dependencies) := by
    intro r hr
    have hmem := NameMap.mem_values_of_get? hr
    rw [← hi.named hr]
    exact Dependency.Graph.mem_dependencies_ofList hi.nodup_nodes
      (n := (r.descriptor.name, r.descriptor.dependencies))
      (List.mem_map_of_mem (f := fun r => (r.descriptor.name, r.descriptor.dependencies)) hmem)
  constructor
  · intro hknown
    have hn := (hnodes n).1 (Dependency.Graph.mem_nodes_of_mem_known hknown)
    obtain ⟨r, hr⟩ := NameMap.contains_iff.1 hn
    obtain ⟨hd, hnode⟩ := Dependency.Graph.mem_known.1 hknown
    exact ⟨⟨r, hr, (hdeps r hr).1 hd⟩, (hnodes d).1 hnode⟩
  · rintro ⟨⟨r, hr, hd⟩, hregistered⟩
    exact Dependency.Graph.mem_known.2 ⟨(hdeps r hr).2 hd, (hnodes d).2 hregistered⟩

/-- A chain of dependencies that ends at a registered plugin runs through registered ones. -/
theorem transGen_known (hi : Coherent h.records) {n d : String}
    (hchain : Relation.TransGen h.Needs n d) (hd : h.contains d = true) :
    Relation.TransGen (fun n d => d ∈ h.graph.known n) n d := by
  induction hchain with
  | single hneeds => exact .single ((mem_known_graph hi).2 ⟨hneeds, hd⟩)
  | tail _ hneeds ih =>
    obtain ⟨r, hr, -⟩ := id hneeds
    exact (ih (NameMap.contains_iff.2 ⟨r, hr⟩)).tail ((mem_known_graph hi).2 ⟨hneeds, hd⟩)

/-- Dependencies that are not registered take no part in a cycle. -/
theorem acyclic_graph_iff (hi : Coherent h.records) :
    h.graph.Acyclic ↔ ∀ n, ¬ Relation.TransGen h.Needs n n := by
  constructor
  · intro hacyclic n hcycle
    obtain ⟨d, ⟨r, hr, -⟩, -⟩ := Relation.TransGen.head'_iff.1 hcycle
    exact hacyclic n (transGen_known hi hcycle (NameMap.contains_iff.2 ⟨r, hr⟩))
  · intro hloops n hcycle
    exact hloops n (Relation.TransGen.mono (fun n d hd => ((mem_known_graph hi).1 hd).1) n n hcycle)

/-- No two plugins conflict, so nothing is reported but missing dependencies and a cycle. -/
theorem problems_eq (hi : Coherent h.records) :
    h.problems = h.missingDependencies ++ (h.graph.findCycle.map .cycle).toList := by
  rw [problems, clashesAmong_eq_nil_iff.2 hi.pairwise, List.append_nil]

theorem problems_of_present (hi : Coherent h.records)
    (hpresent : ∀ n d, h.Needs n d → h.contains d = true) :
    h.problems = (h.graph.findCycle.map .cycle).toList := by
  rw [problems_eq hi, (missingDependencies_eq_nil_iff hi).2 hpresent, List.nil_append]

/-- Nothing is reported exactly when all that is needed is registered and nothing needs itself,
be it through others. -/
theorem problems_eq_nil_iff (hi : Coherent h.records) : h.problems = [] ↔
    (∀ n d, h.Needs n d → h.contains d = true) ∧ ∀ n, ¬ Relation.TransGen h.Needs n n := by
  have hgraph : h.graph.WellFormed := Dependency.Graph.wellFormed_ofList _
  rw [problems_eq hi, List.append_eq_nil_iff, missingDependencies_eq_nil_iff hi,
    ← acyclic_graph_iff hi, ← Dependency.Graph.findCycle_eq_none_iff hgraph]
  cases h.graph.findCycle <;> simp

/-! ## Replacements -/

section
variable {name : String} {d : Descriptor}

theorem Exchanged.needs_iff (hx : Exchanged h name d k) (n m : String) :
    k.Needs n m ↔ if n = name then m ∈ d.dependencies else h.Needs n m := by
  have hneeds : ∀ g : Host ω, g.Needs n m ↔
      ∃ e, (g.records.get? n).map (·.descriptor) = some e ∧ m ∈ e.dependencies := by
    intro g
    simp [Needs]
  rw [hneeds k, hx n]
  split
  · simp
  · rw [hneeds h]

theorem Exchanged.contains (hx : Exchanged h name d k) {n : String} (hn : h.contains n = true) :
    k.contains n = true := by
  have hsome := congrArg Option.isSome (hx n)
  rw [Option.isSome_map] at hsome
  refine Eq.trans hsome ?_
  split
  · rfl
  · rw [Option.isSome_map]
    exact hn

/-- All that is needed stays registered when what comes in finds what it needs. -/
theorem Exchanged.present (hx : Exchanged h name d k) (ha : Admissible (h.records.erase name) [] d)
    (hpresent : ∀ n m, h.Needs n m → h.contains m = true) (n m : String) (hneeds : k.Needs n m) :
    k.contains m = true := by
  rw [hx.needs_iff] at hneeds
  refine hx.contains ?_
  split at hneeds
  · have hregistered : (h.records.erase name).contains m = true := by
      simpa using ha.present m hneeds
    obtain ⟨r, hr⟩ := NameMap.contains_iff.1 hregistered
    exact NameMap.contains_iff.2 ⟨r, NameMap.get?_of_erase hr⟩
  · exact hpresent n m hneeds

/-- A cycle that was not there before passes through the name whose descriptor is another one. -/
theorem Exchanged.mem_loop (hx : Exchanged h name d k) (hi : Coherent h.records)
    (hk : Coherent k.records) (hhealthy : h.problems = []) {cycle : List String}
    (hloop : k.graph.Loop cycle) : name ∈ cycle := by
  obtain ⟨hpresent, hacyclic⟩ := (problems_eq_nil_iff hi).1 hhealthy
  refine Classical.byContradiction fun hnot => ?_
  have hold : h.graph.Loop cycle := by
    refine hloop.mono fun n hn m hm => ?_
    have hneeds : h.Needs n m := by
      have := ((mem_known_graph hk).1 hm).1
      rwa [hx.needs_iff, if_neg (ne_of_mem_of_not_mem hn hnot)] at this
    exact (mem_known_graph hi).2 ⟨hneeds, hpresent n m hneeds⟩
  obtain ⟨n, -, hcycle⟩ := hold.transGen
  have hneeds : ∀ n m, m ∈ h.graph.known n → h.Needs n m := fun n m hm =>
    ((mem_known_graph hi).1 hm).1
  exact hacyclic n (Relation.TransGen.mono hneeds n n hcycle)

end

/-- After a replacement that was granted in a healthy registry, no dependency is missing and
nothing conflicts. A cycle is reported, of plugins each of which needs the next, exactly when
something that the new plugin needs had been needing the old one, directly or through others; it
passes through the new plugin. So nothing is reported if the new plugin needs no more than the
old one. -/
theorem renew_health {P : Plugins ω} (hr : Reachable P h) (hhealthy : h.problems = [])
    {name : String} {fresh : Option Instance} (hok : h.renew P name fresh = (.ok (), k)) :
    ∃ old new, h.records.get? name = some old ∧ k.records.get? name = some new ∧
      (k.problems = [] ∨ ∃ cycle, k.problems = [.cycle cycle] ∧ k.graph.Loop cycle ∧
        name ∈ cycle) ∧
      (k.problems = [] ↔
        ∀ d ∈ new.descriptor.dependencies, ¬ Relation.ReflTransGen h.Needs d name) ∧
      (new.descriptor.dependencies ⊆ old.descriptor.dependencies → k.problems = []) := by
  obtain ⟨old, d, hold, -, ha, hx⟩ := renew_of_ok hok
  obtain ⟨new, hnew, rfl⟩ : ∃ new, k.records.get? name = some new ∧ new.descriptor = d :=
    Option.map_eq_some_iff.1 ((hx name).trans (if_pos rfl))
  have hi : Coherent h.records := hr.coherent
  have hk : Coherent k.records := by
    have hstrides := strides_replace P (fresh.getD old.plugin) hold
    rw [← renew_of_some hold, hok] at hstrides
    exact Moves.invariant (I := fun h => Coherent h.records) (fun _ _ => coherent_move)
      hstrides.moves hi
  obtain ⟨hpresent, hacyclic⟩ := (problems_eq_nil_iff hi).1 hhealthy
  have hpresent' : ∀ n m, k.Needs n m → k.contains m = true := hx.present ha hpresent
  have hiff : k.problems = [] ↔
      ∀ d ∈ new.descriptor.dependencies, ¬ Relation.ReflTransGen h.Needs d name := by
    rw [problems_eq_nil_iff hk, and_iff_right hpresent']
    exact acyclic_of_changed_iff (fun n m hn => by rw [hx.needs_iff, if_neg hn])
      (fun m => by rw [hx.needs_iff, if_pos rfl]) hacyclic
  refine ⟨old, new, hold, hnew, ?_, hiff, fun hfewer => hiff.2 fun m hm hback => ?_⟩
  · rw [problems_of_present hk hpresent']
    cases hfound : k.graph.findCycle with
    | none => exact Or.inl rfl
    | some cycle =>
      have hloop := Dependency.Graph.loop_of_findCycle hfound
      exact Or.inr ⟨cycle, rfl, hloop, hx.mem_loop hi hk hhealthy hloop⟩
  · exact hacyclic name (.head' ⟨old, hold, hfewer hm⟩ hback)

end

/-- A base, an application that needs it, and another base that needs the application. -/
def ringPlugins : Plugins Unit :=
  .constant (fun plugin => match plugin.id with
    | 0 => ⟨"base", "", "1.0.0", [], []⟩
    | 1 => ⟨"app", "", "1.0.0", ["base"], []⟩
    | _ => ⟨"base", "", "1.0.0", ["app"], []⟩) fun _ _ => .ok

/-- The first base and the application are registered. -/
def ringHost : Host Unit :=
  (start ()).runAll ringPlugins [.register ⟨0⟩, .register ⟨1⟩]

/-- The application may be initialised again; with the second base, a cycle is reported that
passes through it. -/
theorem ring_reported :
    ∃ k l : Host Unit, Reachable ringPlugins ringHost ∧ ringHost.problems = [] ∧
      ringHost.renew ringPlugins "app" none = (.ok (), k) ∧ k.problems = [] ∧
      ringHost.renew ringPlugins "base" (some ⟨2⟩) = (.ok (), l) ∧
      ∃ cycle, l.problems = [.cycle cycle] ∧ l.graph.Loop cycle ∧ "base" ∈ cycle := by
  have hr : Reachable ringPlugins ringHost := (Reachable.start ()).runAll _
  have hhealthy : ringHost.problems = [] := by decide
  obtain ⟨k, happ⟩ : ∃ k, ringHost.renew ringPlugins "app" none = (.ok (), k) := ⟨_, rfl⟩
  obtain ⟨l, hbase, hreported⟩ : ∃ l, ringHost.renew ringPlugins "base" (some ⟨2⟩) = (.ok (), l) ∧
      l.problems ≠ [] := ⟨_, rfl, by decide⟩
  refine ⟨k, l, hr, hhealthy, happ, ?_, hbase, ?_⟩
  · obtain ⟨old, new, hold, hnew, -, -, hfewer⟩ := renew_health hr hhealthy happ
    cases happ
    cases hold
    cases hnew
    exact hfewer (List.Subset.refl _)
  · obtain ⟨-, -, -, -, hcases, -⟩ := renew_health hr hhealthy hbase
    exact hcases.resolve_left hreported

/-- Not every replacement that is granted leaves a healthy registry healthy. -/
theorem cycle_introduced :
    ¬ ∀ h k name plugin, Reachable ringPlugins h → h.problems = [] →
      h.reloadWith ringPlugins name plugin = (.ok (), k) → k.problems = [] := by
  intro hall
  have hr : Reachable ringPlugins ringHost := (Reachable.start ()).runAll _
  have hnone := hall ringHost _ "base" ⟨2⟩ hr (by decide) rfl
  revert hnone
  decide

end Host

end PluginHost

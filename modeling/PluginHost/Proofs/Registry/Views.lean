import PluginHost.Proofs.Registry.Coherence

/-!
# The views of a registry agree

Some views are read off the records by the names they stand under, some by the names that their
descriptors give, and the dependency graph is built anew from the descriptors, which would merge
two of one name. They agree because a record stands under the name that it was admitted with; and
they keep to what was reported then, whatever a plugin reports later, since none of them asks it.

* `Reachable.not_blank`: no name of a registered plugin is blank.
* `Reachable.captured`: the routes of a record are those reported at the admission.
* `dependencyGraph_eq`: the dependency graph as a view of each record by itself.
* `views_agree`: the views of every host that a run leads to.
-/
namespace PluginHost

variable {ω : Type}

/-! ## What a record keeps -/

/-- What was captured for a record is so as long as it has the same plugin and the same routes. -/
theorem Record.Captured.of_retained {P : Plugins ω} {r s : Record} (hs : s.Captured P)
    (hplugin : r.plugin = s.plugin) (hroutes : r.routes = s.routes) : r.Captured P := by
  rw [Record.Captured, hplugin, hroutes]
  exact hs

namespace Host

section
variable {P : Plugins ω} {h k : Host ω}

theorem not_blank_move (hm : Move h k) (hi : ∀ n, h.contains n = true → Text.isBlank n = false)
    (n : String) (hn : k.contains n = true) : Text.isBlank n = false := by
  obtain ⟨r, hr⟩ := NameMap.contains_iff.1 hn
  rcases hm.registered hr with ⟨s, hs, -⟩ | ⟨ha, rfl, -⟩
  · exact hi n (NameMap.contains_iff.2 ⟨s, hs⟩)
  · exact ha.named

/-- No plugin is registered under a blank name. -/
theorem Reachable.not_blank (hr : Reachable P h) :
    ∀ n, h.contains n = true → Text.isBlank n = false :=
  hr.invariant (fun _ _ hn => nomatch hn) fun _ _ => not_blank_move

/-- A stride captures the routes of the plugin that it registers, and changes no others. -/
theorem captured_stride (hs : Stride P h k)
    (hi : ∀ {n r}, h.records.get? n = some r → r.Captured P) {n : String} {r : Record}
    (hr : k.records.get? n = some r) : r.Captured P := by
  cases hs with
  | move hmove _ _ _ hcaptured =>
    rcases hmove.registered hr with ⟨s, hs, hplugin, -, hroutes⟩ | ⟨ha, rfl, -⟩
    · exact (hi hs).of_retained hplugin.symm hroutes.symm
    · exact hcaptured (get?_eq_none_of_fresh ha.fresh) hr
  | swap _ _ _ _ hcaptured =>
    rw [enter_records, NameMap.get?_insert] at hr
    split at hr
    · cases hr
      exact hcaptured
    · exact hi (NameMap.get?_of_erase hr)

/-- The routes of every registered plugin are those that it reported when it was admitted. -/
theorem Reachable.captured (hr : Reachable P h) {n : String} {r : Record}
    (hn : h.records.get? n = some r) : r.Captured P := by
  refine hr.invariant_of_strides (I := fun h => ∀ {n r}, h.records.get? n = some r → r.Captured P)
    (fun _ _ _ hn => nomatch hn) (fun _ _ _ hs hi => captured_stride hs hi) ?_
    (fun _ _ hi => hi) hn
  intro h router hi n r hn
  cases router with
  | some router => exact hi hn
  | none =>
    rw [setRouter_none_records, NameMap.get?_map] at hn
    obtain ⟨s, hs, rfl⟩ := Option.map_eq_some_iff.1 hn
    exact (hi hs).of_retained rfl rfl

end

/-! ## Views of each record by itself -/

/-- The dependency graph has under each name the dependencies of its record. -/
theorem dependencyGraph_eq {h : Host ω} (hi : Coherent h.records) :
    h.dependencyGraph = h.records.map fun r =>
      Dependency.Graph.sortedNames r.descriptor.dependencies.eraseDups := by
  have hedges := Dependency.Graph.edges_ofList hi.nodup_nodes
  rw [dependencyGraph, Dependency.Graph.snapshot, graph, hedges,
    ← (hi.ascending.map _).ofList_entries]
  simp only [NameMap.values, NameMap.map, List.map_map]
  refine congrArg NameMap.ofList (List.map_congr_left fun e he => ?_)
  exact congrArg (·, _) (hi.named (hi.ascending.get?_eq_some_iff.2 he))

/-- What is reported of a plugin is read off its record. -/
theorem info?_eq_some_iff {h : Host ω} {n : String} {i : PluginInfo} :
    h.info? n = some i ↔ ∃ r, h.records.get? n = some r ∧ r.info = i :=
  Option.map_eq_some_iff

/-- In every host that a run leads to, all views speak of the same plugins: the names are listed in
ascending order and none of them is blank, they are the names of the reports, the keys of the
dependency graph and the keys of the routes, and it is for them that status, report and instance
are there. The report under a name is on a plugin of this name; its routes are those that its
instance reported when it was admitted, each under its full path, and the same as in the view of
all routes; and its dependencies are those of the dependency graph, where they are in order. -/
theorem views_agree {P : Plugins ω} {h : Host ω} (hr : Reachable P h) :
    h.list.Pairwise (· < ·) ∧ (∀ n ∈ h.list, Text.isBlank n = false) ∧
    h.infos.map (·.name) = h.list ∧ h.dependencyGraph.names = h.list ∧ h.allRoutes.names = h.list ∧
    (∀ n, (h.contains n = true ↔ n ∈ h.list) ∧ ((h.status? n).isSome ↔ n ∈ h.list) ∧
      ((h.info? n).isSome ↔ n ∈ h.list) ∧ ((h.plugin? n).isSome ↔ n ∈ h.list)) ∧
    ∀ n i, h.info? n = some i →
      i.name = n ∧ h.allRoutes.get? n = some i.routes ∧
      (∃ plugin before admitted, h.plugin? n = some plugin ∧
        P.callback .init plugin (P.attach plugin before) = (.ok, admitted) ∧
        i.routes = (P.routes plugin admitted).1.map (RouteSummary.of n)) ∧
      ∃ ds, h.dependencyGraph.get? n = some ds ∧ ds.Pairwise (· < ·) ∧
        ∀ d, d ∈ ds ↔ d ∈ i.dependencies := by
  have hi : Coherent h.records := hr.coherent
  have hmem : ∀ n, h.contains n = true ↔ n ∈ h.list := fun n => NameMap.mem_names_iff.symm
  have hsome : ∀ {α : Type} (f : Record → α) n,
      ((h.records.get? n).map f).isSome ↔ n ∈ h.list := by
    intro α f n
    rw [Option.isSome_map]
    exact hmem n
  refine ⟨hi.ascending, fun n hn => hr.not_blank n ((hmem n).2 hn), ?_, ?_, NameMap.names_map _ _,
    fun n => ⟨hmem n, hsome _ n, hsome _ n, hsome _ n⟩, fun n i hinfo => ?_⟩
  · rw [infos, List.map_map]
    exact hi.map_name_values
  · rw [dependencyGraph_eq hi]
    exact NameMap.names_map _ _
  · obtain ⟨r, hget, rfl⟩ := info?_eq_some_iff.1 hinfo
    obtain ⟨before, admitted, hinit, hroutes⟩ := hr.captured hget
    have hname : r.descriptor.name = n := hi.named hget
    refine ⟨hname, ?_, ⟨r.plugin, before, admitted, ?_, hinit, ?_⟩, ?_⟩
    · rw [allRoutes, NameMap.get?_map, hget]
      rfl
    · rw [plugin?, hget]
      rfl
    · rw [hroutes, ← hname]
      rfl
    · refine ⟨_, ?_, Dependency.Graph.pairwise_sortedNames _, fun d =>
        Dependency.Graph.mem_sortedNames.trans List.mem_eraseDups⟩
      rw [dependencyGraph_eq hi, NameMap.get?_map, hget]
      rfl

/-- A socket, and a lamp that calls itself a candle with another route and without any needs once
it was to be disabled, which it panics at. -/
def candlePlugins : Plugins Bool where
  descriptor plugin burning :=
    (if plugin.id = 0 then ⟨"socket", "", "1.0.0", [], []⟩
      else if burning then ⟨"candle", "", "1.0.0", [], []⟩
      else ⟨"lamp", "", "1.0.0", ["socket", "socket"], []⟩, burning)
  routes plugin burning :=
    (if plugin.id = 0 then []
      else [⟨.get, if burning then "/light" else "/on", .greeter plugin, [], false, [], ""⟩],
      burning)
  middlewares _ burning := ([], burning)
  attach _ burning := burning
  callback stage _ burning :=
    match stage with
    | .disable => (.panicked "fire", true)
    | _ => (.ok, burning)
  execute _ params burning := (.answered params, burning)
  construct _ burning := (⟨0⟩, burning)
  intercept _ _ burning := (none, burning)
  serve _ _ burning := (.empty 200, burning)

/-- The views show the lamp as it was when it was registered. -/
theorem candle_shown_as_lamp :
    ∃ (h : Host Bool) (i : PluginInfo), Reachable candlePlugins h ∧
      (candlePlugins.descriptor ⟨1⟩ h.world).1.name = "candle" ∧ h.list = ["lamp", "socket"] ∧
      h.info? "lamp" = some i ∧ i.name = "lamp" ∧ i.routes.map (·.path) = ["/plugins/lamp/on"] ∧
      h.allRoutes.get? "lamp" = some i.routes ∧
      ∃ ds, h.dependencyGraph.get? "lamp" = some ds ∧ ∀ d, d ∈ ds ↔ d ∈ ["socket", "socket"] := by
  have hr : Reachable candlePlugins ((start false).runAll candlePlugins
      [.register ⟨0⟩, .register ⟨1⟩, .disable "lamp"]) := (Reachable.start false).runAll _
  obtain ⟨-, -, -, -, -, -, hinfo⟩ := views_agree hr
  obtain ⟨hname, hroutes, -, ds, hds, -, hmem⟩ := hinfo "lamp" _ rfl
  exact ⟨_, _, hr, rfl, rfl, rfl, hname, rfl, hroutes, ds, hds, hmem⟩

end Host

end PluginHost

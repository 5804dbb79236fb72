import PluginHost.Proofs.Registry.Run

/-!
# Records stand together

The records of a host are in order, each stands under the name that its plugin was admitted
with, and no two of the plugins conflict. A plugin gets its record only after it was checked
against all records there are by then, and every other change takes records out or leaves their
descriptors alone; so this holds of every host that a run leads to, whatever plugins report
later and wherever a callback fails or panics.

* `Coherent`: the invariant.
* `coherent_move`, `Reachable.coherent`: it is kept by every move, and so along every run.
* `Reachable.invariant_of_moves`, `Reachable.invariant_of_strides`: other invariants may use it.
* `reachable_conflict_free`: neither of two registered plugins names the other as a conflict.
-/
namespace PluginHost

variable {ω : Type}

/-- Records in order under the names of their descriptors, no two of which clash. -/
structure Coherent (records : NameMap Record) : Prop where
  ascending : records.Ascending
  named : ∀ {n r}, records.get? n = some r → r.descriptor.name = n
  compatible : ∀ {n m r s}, records.get? n = some r → records.get? m = some s → n ≠ m →
    r.descriptor.clashes s.descriptor = false

theorem coherent_empty : Coherent ∅ where
  ascending := NameMap.ascending_empty
  named h := by simp at h
  compatible h := by simp at h

/-- Records stay together as long as none is added and no descriptor changes. -/
theorem Coherent.of_fewer {records fewer : NameMap Record} (h : Coherent records)
    (hasc : fewer.Ascending) (hold : ∀ {n r}, fewer.get? n = some r →
      ∃ s, records.get? n = some s ∧ s.descriptor = r.descriptor) : Coherent fewer where
  ascending := hasc
  named hr := by
    obtain ⟨s, hs, heq⟩ := hold hr
    exact heq ▸ h.named hs
  compatible hr hs hne := by
    obtain ⟨r', hr', heqr⟩ := hold hr
    obtain ⟨s', hs', heqs⟩ := hold hs
    exact heqr ▸ heqs ▸ h.compatible hr' hs' hne

theorem Coherent.erase {records : NameMap Record} (h : Coherent records) (name : String) :
    Coherent (records.erase name) :=
  h.of_fewer (h.ascending.erase name) fun hr => ⟨_, NameMap.get?_of_erase hr, rfl⟩

theorem Coherent.modify {records : NameMap Record} (h : Coherent records) (name : String)
    {f : Record → Record} (hf : ∀ r, (f r).descriptor = r.descriptor) :
    Coherent (records.modify name f) := by
  refine h.of_fewer (h.ascending.modify name f) fun {n r} hr => ?_
  obtain ⟨s, hs, rfl | rfl⟩ := NameMap.get?_of_modify hr
  · exact ⟨r, hs, rfl⟩
  · exact ⟨s, hs, (hf s).symm⟩

theorem Coherent.map {records : NameMap Record} (h : Coherent records) {f : Record → Record}
    (hf : ∀ r, (f r).descriptor = r.descriptor) : Coherent (records.map f) := by
  refine h.of_fewer (h.ascending.map f) fun {n r} hr => ?_
  rw [NameMap.get?_map] at hr
  obtain ⟨s, hs, rfl⟩ := Option.map_eq_some_iff.1 hr
  exact ⟨s, hs, (hf s).symm⟩

/-- An admissible plugin may join. -/
theorem Coherent.insert {records : NameMap Record} (h : Coherent records) {d : Descriptor}
    (ha : Admissible records [] d) {r : Record} (hr : r.descriptor = d) :
    Coherent (records.insert d.name r) where
  ascending := h.ascending.insert _ r
  named {n s} hs := by
    rw [NameMap.get?_insert] at hs
    split at hs
    · cases hs
      rename_i hn
      rw [hr, hn]
    · exact h.named hs
  compatible {n m s t} hs ht hne := by
    rw [NameMap.get?_insert] at hs ht
    split at hs <;> split at ht
    · rename_i hn hm
      exact absurd (hn.trans hm.symm) hne
    · cases hs
      exact hr ▸ ha.compatible t (NameMap.mem_values_of_get? ht)
    · cases ht
      rw [Descriptor.clashes_comm, hr]
      exact ha.compatible s (NameMap.mem_values_of_get? hs)
    · exact h.compatible hs ht hne

/-- Records are listed under the names that their plugins report. -/
theorem Coherent.map_name_values {records : NameMap Record} (h : Coherent records) :
    records.values.map (·.descriptor.name) = records.names := by
  rw [NameMap.values, NameMap.names, List.map_map]
  refine List.map_congr_left fun e he => ?_
  exact h.named (h.ascending.get?_eq_some_iff.2 he)

/-- The dependency graph is built from the registered names. -/
theorem Coherent.map_nodes {records : NameMap Record} (h : Coherent records) :
    (records.values.map fun r => (r.descriptor.name, r.descriptor.dependencies)).map (·.1) =
      records.names := by
  rw [List.map_map]
  exact h.map_name_values

theorem Coherent.nodup_nodes {records : NameMap Record} (h : Coherent records) :
    ((records.values.map fun r => (r.descriptor.name, r.descriptor.dependencies)).map
      (·.1)).Nodup :=
  h.map_nodes ▸ h.ascending.nodup

namespace Host

/-- The nodes of the dependency graph are the registered names. -/
theorem nodes_graph {h : Host ω} (hi : Coherent h.records) : h.graph.nodes = h.records.names := by
  rw [graph, Dependency.Graph.nodes_ofList hi.nodup_nodes, hi.map_nodes]

/-- The dependency order leaves no plugin out. -/
theorem mem_dependencyOrder {h : Host ω} (hi : Coherent h.records) {n : String}
    (hn : n ∈ h.records.names) : n ∈ h.dependencyOrder := by
  unfold dependencyOrder
  split
  · rename_i order horder
    have hperm := (Dependency.Graph.order_eq_ok (Dependency.Graph.wellFormed_ofList _) horder).1
    rw [← nodes_graph hi] at hn
    exact hperm.symm.subset hn
  · exact hn

/-- Every move leaves the records standing together. -/
theorem coherent_move {h k : Host ω} (hm : Move h k) (hi : Coherent h.records) :
    Coherent k.records := by
  cases hm with
  | world => exact hi
  | enrol ha => exact hi.insert ha rfl
  | turnAway => exact hi
  | evict => exact hi.erase _
  | keep => exact hi
  | enable =>
    rw [modify_records]
    exact hi.modify _ fun _ => rfl
  | enableFails => exact hi
  | disable =>
    rw [modify_records]
    exact hi.modify _ fun _ => rfl
  | disableFails => exact hi
  | bind =>
    rw [modify_records]
    exact hi.modify _ fun _ => rfl
  | bindFails => exact hi
  | attachRouter => exact hi
  | detachRouter =>
    rw [setRouter_none_records]
    exact hi.map fun _ => rfl

theorem Stride.coherent {P : Plugins ω} {h k : Host ω} (hs : Stride P h k)
    (hi : Coherent h.records) : Coherent k.records :=
  Moves.invariant (I := fun h => Coherent h.records) (fun _ _ => coherent_move) hs.moves hi

/-- What every stride keeps, as far as the records stand together, is kept by a run of them. -/
theorem Strides.invariant {P : Plugins ω} {I : Host ω → Prop}
    (hstride : ∀ h k, Coherent h.records → Stride P h k → I h → I k) {h k : Host ω}
    (hs : Strides P h k) (hcoherent : Coherent h.records) (hi : I h) : I k := by
  have hboth : Coherent k.records ∧ I k := by
    induction hs with
    | refl => exact ⟨hcoherent, hi⟩
    | tail _ hlast ih => exact ⟨hlast.coherent ih.1, hstride _ _ ih.1 hlast ih.2⟩
  exact hboth.2

theorem coherent_setRouter {h : Host ω} (hi : Coherent h.records) (router : Option Router) :
    Coherent (h.setRouter router).records :=
  Moves.invariant (I := fun h => Coherent h.records) (fun _ _ => coherent_move)
    (moves_setRouter router h) hi

theorem Reachable.coherent {P : Plugins ω} {h : Host ω} (hr : Reachable P h) :
    Coherent h.records :=
  hr.invariant (I := fun h => Coherent h.records) (fun _ => coherent_empty)
    fun _ _ hm hi => coherent_move hm hi

/-- What holds at the start and is kept by every move of a host whose records stand together
holds of every host that a run leads to. -/
theorem Reachable.invariant_of_moves {P : Plugins ω} {I : Host ω → Prop}
    (hstart : ∀ world, I (Host.start world))
    (hmove : ∀ h k, Coherent h.records → Move h k → I h → I k) {h : Host ω}
    (hr : Reachable P h) : I h := by
  have hboth : Coherent h.records ∧ I h :=
    hr.invariant (I := fun h => Coherent h.records ∧ I h)
      (fun world => ⟨coherent_empty, hstart world⟩)
      fun h k hm hi => ⟨coherent_move hm hi.1, hmove h k hi.1 hm hi.2⟩
  exact hboth.2

/-- So does what is kept by every stride, by the router and by the world. -/
theorem Reachable.invariant_of_strides {P : Plugins ω} {I : Host ω → Prop}
    (hstart : ∀ world, I (Host.start world))
    (hstride : ∀ h k, Coherent h.records → Stride P h k → I h → I k)
    (hrouter : ∀ h router, I h → I (h.setRouter router))
    (hworld : ∀ h world, I h → I { h with world }) {h : Host ω} (hr : Reachable P h) : I h := by
  induction hr with
  | start world => exact hstart world
  | command c hbefore ih =>
    obtain ⟨k, hk, hend⟩ := strides_run P c _
    have hi : I k := Strides.invariant hstride hk hbefore.coherent ih
    rcases hend with hend | ⟨router, hend⟩
    · exact hend ▸ hi
    · exact hend ▸ hrouter k router hi
  | world world _ ih => exact hworld _ world ih

/-- Neither of two registered plugins names the other as a conflict, in every host that a run
leads to. -/
theorem reachable_conflict_free {P : Plugins ω} {h : Host ω} (hr : Reachable P h)
    {p q : String} {r s : Record} (hp : h.records.get? p = some r)
    (hq : h.records.get? q = some s) (hne : p ≠ q) :
    q ∉ r.descriptor.conflicts ∧ p ∉ s.descriptor.conflicts := by
  have hcoherent := hr.coherent
  have hclash := hcoherent.compatible hp hq hne
  rw [Descriptor.clashes_eq_false_iff, hcoherent.named hp, hcoherent.named hq] at hclash
  exact hclash

/-- An alarm that refuses a silencer, a bell, and the silencer. -/
def alarmPlugins : Plugins Unit :=
  .constant (fun plugin => match plugin.id with
    | 0 => ⟨"alarm", "", "1.0.0", [], ["silencer"]⟩
    | 1 => ⟨"bell", "", "1.0.0", ["alarm"], []⟩
    | _ => ⟨"silencer", "", "1.0.0", [], []⟩) fun _ _ => .ok

/-- The silencer is turned away, and the two that are registered do not conflict. -/
theorem alarm_bell_conflict_free :
    ∃ (h : Host Unit) (r s : Record), Reachable alarmPlugins h ∧
      h.records.get? "alarm" = some r ∧ h.records.get? "bell" = some s ∧
      h.records.get? "silencer" = none ∧
      "bell" ∉ r.descriptor.conflicts ∧ "alarm" ∉ s.descriptor.conflicts := by
  have hr : Reachable alarmPlugins ((start ()).runAll alarmPlugins
      [.registerPlugins [⟨1⟩, ⟨0⟩], .register ⟨2⟩]) := (Reachable.start ()).runAll _
  refine ⟨_, _, _, hr, rfl, rfl, rfl, ?_⟩
  exact reachable_conflict_free hr rfl rfl (by decide)

end Host

end PluginHost

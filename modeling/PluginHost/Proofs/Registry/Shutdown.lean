import Mathlib.Data.List.Forall2
import PluginHost.Proofs.Registry.Balance
import PluginHost.Proofs.Registry.Batch
import PluginHost.Proofs.Registry.Health

/-!
# Shutting everything down

A host that is shut down calls every plugin once and keeps none, whatever state it was left in:
dependencies may be missing, since a plugin can be unregistered from under others, and a
replacement may have closed a cycle. What is missing is passed over by the dependency order, and
where there is a cycle the names alone decide; in both cases no registered plugin is left out,
because the nodes of the graph are the names that the records stand under.

* `dependencyOrder_ends`: what is known of the order, with and without a cycle.
* `evictAll_ends`: what evicting registered plugins comes to.
* `reachable_shutdownAll`: shutting everything down.
-/
namespace PluginHost

variable {ω : Type}

/-- The call shuts down the plugin that the records have under a name. -/
def Call.ShutsDown (records : NameMap Record) (c : Call) (name : String) : Prop :=
  c.kind = .stage .shutdown ∧
    ∃ r, records.get? name = some r ∧ c.plugin = r.plugin ∧ c.descriptor = r.descriptor

namespace Host

section
variable {P : Plugins ω} {h : Host ω}

/-! ## Order -/

/-- The dependency order lists the registered names once each: every dependency before those
that need it, or, when there is a cycle, all in the order of the names. -/
theorem dependencyOrder_ends (hi : Coherent h.records) :
    h.dependencyOrder.Perm h.records.names ∧
      ((∀ n, ¬ Relation.TransGen h.Needs n n) → ∀ p d, h.Needs p d → h.contains d = true →
        [d, p].Sublist h.dependencyOrder) ∧
      ((∃ n, Relation.TransGen h.Needs n n) → h.dependencyOrder = h.records.names) := by
  have hgraph : h.graph.WellFormed := Dependency.Graph.wellFormed_ofList _
  unfold dependencyOrder
  split
  · rename_i order horder
    obtain ⟨hperm, hrespects⟩ := Dependency.Graph.order_eq_ok hgraph horder
    rw [nodes_graph hi] at hperm
    refine ⟨hperm, fun _ p d hneeds hd => ?_, fun ⟨n, hcycle⟩ => ?_⟩
    · obtain ⟨r, hr, -⟩ := id hneeds
      have hp : p ∈ order :=
        hperm.symm.subset (NameMap.mem_names_iff.2 (NameMap.contains_iff.2 ⟨r, hr⟩))
      obtain ⟨before, after, rfl⟩ := List.append_of_mem hp
      have hbefore : d ∈ before :=
        hrespects before p after rfl d ((mem_known_graph hi).2 ⟨hneeds, hd⟩)
      exact (List.singleton_sublist.2 hbefore).append
        (List.singleton_sublist.2 List.mem_cons_self)
    · have hacyclic := (Dependency.Graph.order_eq_ok_iff hgraph).1 ⟨order, horder⟩
      exact absurd hcycle ((acyclic_graph_iff hi).1 hacyclic n)
  · rename_i cycle herror
    refine ⟨.refl _, fun hloops => ?_, fun _ => rfl⟩
    obtain ⟨order, horder⟩ :=
      (Dependency.Graph.order_eq_ok_iff hgraph).2 ((acyclic_graph_iff hi).2 hloops)
    rw [herror] at horder
    cases horder

/-! ## Evictions -/

/-- Evicting registered plugins, none of them twice, shuts each of them down in turn and takes
its record out; unless one of them panics. -/
theorem evictAll_ends {names : List String} (hnodup : names.Nodup)
    (hregistered : ∀ n ∈ names, h.contains n = true) :
    ∃ calls, Calls calls h (h.evictAll P names).2 ∧
      ((h.evictAll P names).1 = .ok () ∧
          List.Forall₂ (Call.ShutsDown h.records) calls names ∧
          (∀ n, (h.evictAll P names).2.records.get? n =
            if n ∈ names then none else h.records.get? n) ∨
        ∃ m, (h.evictAll P names).1 = .error (.panicked m) ∧
          ∃ c ∈ calls, c.outcome = .panicked m) := by
  induction names generalizing h with
  | nil => exact ⟨[], calls_refl h, Or.inl ⟨rfl, .nil, fun n => by simp [evictAll]⟩⟩
  | cons name names ih =>
    obtain ⟨hname, hnodup⟩ := List.nodup_cons.1 hnodup
    obtain ⟨r, hr⟩ := NameMap.contains_iff.1 (hregistered name List.mem_cons_self)
    rcases hcall : P.callback .shutdown r.plugin h.world with ⟨outcome, world⟩
    by_cases hpanic : ∃ m, outcome = .panicked m
    · obtain ⟨m, rfl⟩ := hpanic
      rw [evictAll_cons_of_panicked hr hcall]
      exact ⟨_, calls_called h (.stage .shutdown) r.plugin r.descriptor r.enabled (.panicked m)
        world, Or.inr ⟨m, rfl, by simp⟩⟩
    · have ho : ∀ m, outcome ≠ .panicked m := by simpa using hpanic
      rw [evictAll_cons_of_some hr hcall ho]
      have hfirst : Calls [⟨.stage .shutdown, r.plugin, r.descriptor, r.enabled, outcome,
          h.records⟩] h (h.evicted name r outcome world) := ⟨rfl, rfl, rfl⟩
      -- the plugins that are left stand where they stood
      have hkept : ∀ n ∈ names, (h.evicted name r outcome world).records.get? n =
          h.records.get? n := fun n hn =>
        (NameMap.get?_erase _ _ _).trans (if_neg (ne_of_mem_of_not_mem hn hname))
      obtain ⟨calls, hcalls, hend⟩ := ih (h := h.evicted name r outcome world) hnodup
        fun n hn => by
          rw [contains, NameMap.contains, hkept n hn]
          exact hregistered n (List.mem_cons_of_mem _ hn)
      refine ⟨_, hfirst.trans hcalls, hend.imp ?_ ?_⟩
      · rintro ⟨hok, hshut, hrecords⟩
        refine ⟨hok, .cons ⟨rfl, r, hr, rfl, rfl⟩ (hshut.imp ?_), fun n => ?_⟩
        · rintro c n ⟨hkind, s, hs, hsame⟩
          exact ⟨hkind, s, NameMap.get?_of_erase hs, hsame⟩
        · refine (hrecords n).trans ?_
          by_cases hn : n ∈ names
          · simp [hn]
          · by_cases heq : n = name
            · simp [heq, hname, NameMap.get?_erase]
            · simp [hn, heq, NameMap.get?_erase]
      · rintro ⟨m, hm, c, hc, hcm⟩
        exact ⟨m, hm, c, List.mem_cons_of_mem _ hc, hcm⟩

end

/-! ## Everything -/

/-- Shutting everything down calls plugins for nothing else, and changes neither the router nor
a table. If none of the calls panics, each registered plugin is shut down once, whether that
fails or not, and no record is left; a plugin comes before the registered plugins that it needs,
and if some plugin needs itself, be it through others, all come in descending order. -/
theorem reachable_shutdownAll {P : Plugins ω} {h : Host ω} (hr : Reachable P h) :
    ∃ calls, Calls calls h (h.shutdownAll P).2 ∧
      ((∀ c ∈ calls, c.outcome.returned = true) →
        (h.shutdownAll P).1 = .ok () ∧ (h.shutdownAll P).2.records = ∅ ∧
        ∃ order, order.Perm h.records.names ∧
          List.Forall₂ (Call.ShutsDown h.records) calls order ∧
          ((∀ n, ¬ Relation.TransGen h.Needs n n) →
            ∀ p d, h.Needs p d → h.contains d = true → [p, d].Sublist order) ∧
          ((∃ n, Relation.TransGen h.Needs n n) → order.Pairwise fun n m => m < n)) := by
  have hi := hr.coherent
  obtain ⟨hperm, hfirst, hcyclic⟩ := dependencyOrder_ends hi
  have hperm : h.dependencyOrder.reverse.Perm h.records.names :=
    (List.reverse_perm _).trans hperm
  obtain ⟨calls, hcalls, hend⟩ := evictAll_ends (P := P)
    (hperm.nodup_iff.2 hi.ascending.nodup)
    fun n hn => NameMap.mem_names_iff.1 (hperm.subset hn)
  refine ⟨calls, hcalls, fun hquiet => ?_⟩
  rcases hend with ⟨hok, hshut, hrecords⟩ | ⟨m, -, c, hc, hcm⟩
  · refine ⟨hok, ?_, _, hperm, hshut, fun hloops p d hneeds hd => ?_, fun hloop => ?_⟩
    · have hasc : (h.shutdownAll P).2.records.Ascending := by
        have := (hr.command .shutdownAll).coherent.ascending
        rwa [Command.run, answerOk_snd] at this
      refine hasc.ext NameMap.ascending_empty fun n => (hrecords n).trans ?_
      split
      · rfl
      · rename_i hn
        have hnot : n ∉ h.records.names := fun hmem => hn (hperm.symm.subset hmem)
        rw [NameMap.mem_names_iff] at hnot
        simpa [NameMap.contains] using hnot
    · exact List.reverse_sublist.2 (hfirst hloops p d hneeds hd)
    · rw [hcyclic hloop]
      exact List.pairwise_reverse.2 hi.ascending
  · have := hquiet c hc
    rw [hcm] at this
    cases this

/-- A ground, a floor that stands on it and fails when it is shut down, and an attic on top. -/
def floorPlugins : Plugins Unit :=
  .constant (fun plugin => match plugin.id with
    | 0 => ⟨"ground", "", "1.0.0", [], []⟩
    | 1 => ⟨"floor", "", "1.0.0", ["ground"], []⟩
    | _ => ⟨"attic", "", "1.0.0", ["floor"], []⟩)
    fun stage plugin =>
      if stage = .shutdown ∧ plugin.id = 1 then .failed (.custom "stuck") else .ok

/-- The ground was unregistered from under the others. -/
def floorHost : Host Unit :=
  (start ()).runAll floorPlugins
    [.register ⟨0⟩, .register ⟨1⟩, .register ⟨2⟩, .unregister "ground"]

/-- With the ground gone, the attic is shut down before the floor. -/
theorem attic_shut_down_first :
    ∃ calls order, Reachable floorPlugins floorHost ∧ floorHost.Needs "floor" "ground" ∧
      floorHost.contains "ground" = false ∧
      Calls calls floorHost (floorHost.shutdownAll floorPlugins).2 ∧
      (floorHost.shutdownAll floorPlugins).2.records = ∅ ∧ order.Perm ["attic", "floor"] ∧
      List.Forall₂ (Call.ShutsDown floorHost.records) calls order ∧
      ["attic", "floor"].Sublist order := by
  have hr : Reachable floorPlugins floorHost := (Reachable.start ()).runAll _
  obtain ⟨calls, hcalls, hend⟩ := reachable_shutdownAll hr
  have hreturned : ∀ c ∈ (floorHost.shutdownAll floorPlugins).2.journal,
      c.outcome.returned = true := by decide
  have hquiet : ∀ c ∈ calls, c.outcome.returned = true := by
    rw [hcalls.journal] at hreturned
    exact fun c hc => hreturned c (List.mem_append_left _ (List.mem_reverse.2 hc))
  obtain ⟨-, hnone, order, hperm, hshut, hfirst, -⟩ := hend hquiet
  have hloops : ∀ n, ¬ Relation.TransGen floorHost.Needs n n :=
    (acyclic_graph_iff hr.coherent).1
      ((Dependency.Graph.order_eq_ok_iff (Dependency.Graph.wellFormed_ofList _)).1 ⟨_, rfl⟩)
  exact ⟨calls, order, hr, ⟨_, rfl, List.mem_cons_self⟩, rfl, hcalls, hnone, hperm, hshut,
    hfirst hloops _ _ ⟨_, rfl, List.mem_cons_self⟩ rfl⟩

end Host

end PluginHost

import PluginHost.Proofs.Registry.Coherence

/-!
# Initialisations and shutdowns balance

A plugin that was initialised holds on to what it needs until it is shut down. The host counts
on it that each plugin it has no record of any more was shut down as often as it was
initialised, and that one with records was initialised once more for each of them: nothing is
leaked, and nothing is shut down twice. A panic in a shutdown leaves the record where it is, so
it is not counted as one.

* `Balanced`: the invariant, for one plugin.
* `balanced_move`: it is kept by every move.
* `reachable_balanced`: it holds of every host that a run leads to.
-/
namespace PluginHost

variable {ω : Type}

/-- The callback came back to the host, with success or not. -/
def Outcome.returned : Outcome → Bool
  | .panicked _ => false
  | .ok | .failed _ => true

/-- The call initialised the plugin with success. -/
def Call.starts (c : Call) (plugin : Instance) : Bool :=
  decide (c.kind = .stage .init ∧ c.outcome = .ok ∧ c.plugin = plugin)

/-- The call shut the plugin down, whether that failed or not. -/
def Call.stops (c : Call) (plugin : Instance) : Bool :=
  decide (c.kind = .stage .shutdown ∧ c.outcome.returned = true ∧ c.plugin = plugin)

/-- How many records are those of the plugin. -/
def holders (records : NameMap Record) (plugin : Instance) : Nat :=
  (records.values.map (·.plugin)).count plugin

section
variable {records : NameMap Record} {name : String}

theorem holders_insert {r : Record} (hfresh : records.get? name = none) (plugin : Instance) :
    holders (records.insert name r) plugin =
      holders records plugin + if r.plugin = plugin then 1 else 0 := by
  have hperm := (NameMap.values_insert_perm r hfresh).map (·.plugin)
  rw [holders, hperm.count_eq, List.map_cons, List.count_cons]
  simp only [holders, beq_iff_eq]

theorem holders_erase {r : Record} (hasc : records.Ascending) (hr : records.get? name = some r)
    (plugin : Instance) :
    holders records plugin =
      holders (records.erase name) plugin + if r.plugin = plugin then 1 else 0 := by
  have hperm := (hasc.values_erase_perm hr).map (·.plugin)
  rw [holders, hperm.count_eq, List.map_cons, List.count_cons]
  simp only [holders, beq_iff_eq]

theorem holders_modify {f : Record → Record} (hf : ∀ r, (f r).plugin = r.plugin)
    (plugin : Instance) : holders (records.modify name f) plugin = holders records plugin := by
  rw [holders, NameMap.map_values_modify _ _ _ hf, holders]

theorem holders_map {f : Record → Record} (hf : ∀ r, (f r).plugin = r.plugin)
    (plugin : Instance) : holders (records.map f) plugin = holders records plugin := by
  rw [holders, NameMap.values_map, List.map_map, holders]
  exact congrArg (List.count plugin) (List.map_congr_left fun r _ => hf r)

theorem holders_eq_zero (hasc : records.Ascending) {plugin : Instance}
    (hnone : ∀ n r, records.get? n = some r → r.plugin ≠ plugin) : holders records plugin = 0 := by
  rw [holders, List.count_eq_zero]
  intro hmem
  obtain ⟨r, hr, hplugin⟩ := List.mem_map.1 hmem
  obtain ⟨n, hn⟩ := hasc.mem_values_iff.1 hr
  exact hnone n r hn hplugin

end

namespace Host

/-- How often the host initialised the plugin with success. -/
def initsOf (h : Host ω) (plugin : Instance) : Nat :=
  h.journal.countP (·.starts plugin)

/-- How often the host shut the plugin down. -/
def shutdownsOf (h : Host ω) (plugin : Instance) : Nat :=
  h.journal.countP (·.stops plugin)

/-- The plugin was initialised once more for each record of it than it was shut down. -/
def Balanced (h : Host ω) (plugin : Instance) : Prop :=
  h.initsOf plugin = h.shutdownsOf plugin + holders h.records plugin

section
variable {h k : Host ω} {kind : CallKind} {plugin p : Instance} {d : Descriptor} {enabled : Bool}
  {outcome : Outcome} {world : ω}

theorem initsOf_called : (h.called kind plugin d enabled outcome world).initsOf p =
    h.initsOf p + if kind = .stage .init ∧ outcome = .ok ∧ plugin = p then 1 else 0 := by
  simp only [initsOf, called, List.countP_cons, Call.starts, decide_eq_true_eq]

theorem shutdownsOf_called : (h.called kind plugin d enabled outcome world).shutdownsOf p =
    h.shutdownsOf p +
      if kind = .stage .shutdown ∧ outcome.returned = true ∧ plugin = p then 1 else 0 := by
  simp only [shutdownsOf, called, List.countP_cons, Call.stops, decide_eq_true_eq]

/-- Only what the journal and the records say of a plugin counts. -/
theorem Balanced.of_eq (hb : h.Balanced p) (hjournal : k.journal = h.journal)
    (hholders : holders k.records p = holders h.records p) : k.Balanced p := by
  rw [Balanced, initsOf, shutdownsOf, hjournal, hholders]
  exact hb

/-- A call that neither initialises a plugin nor shuts it down does not count. -/
theorem Balanced.called (hb : h.Balanced p) (hinit : kind = .stage .init → outcome ≠ .ok)
    (hshutdown : kind = .stage .shutdown → outcome.returned = false) :
    (h.called kind plugin d enabled outcome world).Balanced p := by
  rw [Balanced, initsOf_called, shutdownsOf_called, if_neg fun ⟨hk, ho, _⟩ => hinit hk ho,
    if_neg fun ⟨hk, ho, _⟩ => by simp [hshutdown hk] at ho]
  exact hb

/-- Neither does a change of a record that leaves its plugin alone. -/
theorem Balanced.modify (hb : h.Balanced p) (name : String) {f : Record → Record}
    (hf : ∀ r, (f r).plugin = r.plugin) : (h.modify name f).Balanced p := by
  refine hb.of_eq rfl ?_
  rw [modify_records]
  exact holders_modify hf p

/-- A plugin that was initialised with success and gets a record. -/
theorem Balanced.enrol (hb : h.Balanced p) (hfresh : h.records.get? d.name = none)
    (routes : List Route) :
    ((h.initialised plugin d enabled .ok world).enter plugin d enabled routes).Balanced p := by
  have hinits : ((h.initialised plugin d enabled .ok world).enter plugin d enabled
      routes).initsOf p = h.initsOf p + if plugin = p then 1 else 0 := by
    change (h.initialised plugin d enabled .ok world).initsOf p = _
    rw [initialised, initsOf_called, initsOf_called]
    simp
  have hshutdowns : ((h.initialised plugin d enabled .ok world).enter plugin d enabled
      routes).shutdownsOf p = h.shutdownsOf p := by
    change (h.initialised plugin d enabled .ok world).shutdownsOf p = _
    rw [initialised, shutdownsOf_called, shutdownsOf_called]
    simp
  rw [Balanced, hinits, hshutdowns, enter, initialised_records, holders_insert hfresh,
    ← Nat.add_assoc, hb]

/-- A plugin that is shut down and loses its record. -/
theorem Balanced.evict (hb : h.Balanced p) (hasc : h.records.Ascending) {name : String}
    {r : Record} (hr : h.records.get? name = some r) (ho : outcome.returned = true) :
    Balanced { h.recalled .shutdown r outcome world with records := h.records.erase name } p := by
  have hinits : (h.recalled .shutdown r outcome world).initsOf p = h.initsOf p := by
    rw [recalled, initsOf_called]
    simp
  have hshutdowns : (h.recalled .shutdown r outcome world).shutdownsOf p =
      h.shutdownsOf p + if r.plugin = p then 1 else 0 := by
    rw [recalled, shutdownsOf_called]
    simp [ho]
  change (h.recalled .shutdown r outcome world).initsOf p =
    (h.recalled .shutdown r outcome world).shutdownsOf p + holders (h.records.erase name) p
  rw [hinits, hshutdowns, hb, holders_erase hasc hr, Nat.add_assoc,
    Nat.add_comm (holders _ _)]

end

theorem returned_eq_true_iff {outcome : Outcome} :
    outcome.returned = true ↔ ∀ m, outcome ≠ .panicked m := by
  cases outcome <;> simp [Outcome.returned]

/-- Every move leaves the initialisations and shutdowns of each plugin balanced. -/
theorem balanced_move {h k : Host ω} (hm : Move h k) (hi : Coherent h.records) {p : Instance}
    (hb : h.Balanced p) : k.Balanced p := by
  cases hm with
  | world => exact hb
  | enrol ha => exact hb.enrol (get?_eq_none_of_fresh ha.fresh) _
  | turnAway ha ho => exact (hb.called (by simp) (by simp)).called (fun _ => ho) (by simp)
  | evict hr ho => exact hb.evict hi.ascending hr (returned_eq_true_iff.2 ho)
  | keep hr => exact hb.called (by simp) fun _ => rfl
  | enable hr => exact (hb.called (by simp) (by simp)).modify _ fun _ => rfl
  | enableFails hr => exact hb.called (by simp) (by simp)
  | disable hr => exact (hb.called (by simp) (by simp)).modify _ fun _ => rfl
  | disableFails hr => exact hb.called (by simp) (by simp)
  | bind hr => exact (hb.of_eq rfl rfl).modify _ fun _ => rfl
  | bindFails hr => exact hb.of_eq rfl rfl
  | attachRouter => exact hb
  | detachRouter =>
    refine hb.of_eq rfl ?_
    rw [setRouter_none_records]
    refine holders_map ?_ p
    exact fun _ => rfl

/-- In every host that a run leads to, each plugin was initialised with success as often as it
was shut down, and once more for every record of it; as often as that, if it has none. -/
theorem reachable_balanced {P : Plugins ω} {h : Host ω} (hr : Reachable P h) (p : Instance) :
    (h.initsOf p : Int) - h.shutdownsOf p = holders h.records p ∧
      h.shutdownsOf p ≤ h.initsOf p ∧
      ((∀ n r, h.records.get? n = some r → r.plugin ≠ p) → h.initsOf p = h.shutdownsOf p) := by
  obtain ⟨hcoherent, hb⟩ : Coherent h.records ∧ h.Balanced p :=
    hr.invariant (I := fun h => Coherent h.records ∧ h.Balanced p)
      (fun _ => ⟨coherent_empty, rfl⟩)
      fun _ _ hm hi => ⟨coherent_move hm hi.1, balanced_move hm hi.1 hi.2⟩
  rw [Balanced] at hb
  refine ⟨by omega, by omega, fun hnone => ?_⟩
  rw [hb, holders_eq_zero hcoherent.ascending hnone, Nat.add_zero]

/-- Two clocks of which the second panics when it is shut down. -/
def clockPlugins : Plugins Unit :=
  .constant (fun plugin => ⟨if plugin.id = 0 then "clock" else "timer", "", "1.0.0", [], []⟩)
    fun stage plugin => if stage = .shutdown ∧ plugin.id = 1 then .panicked "stuck" else .ok

/-- A shutdown of both takes the first out and leaves the second one in. -/
theorem clock_timer_balanced :
    ∃ h : Host Unit, Reachable clockPlugins h ∧ h.records.names = ["timer"] ∧
      (h.initsOf ⟨0⟩ : Int) - h.shutdownsOf ⟨0⟩ = 0 ∧
      (h.initsOf ⟨1⟩ : Int) - h.shutdownsOf ⟨1⟩ = 1 := by
  have hr : Reachable clockPlugins ((start ()).runAll clockPlugins
      [.register ⟨0⟩, .register ⟨1⟩, .unregister "timer", .unregister "clock"]) :=
    (Reachable.start ()).runAll _
  exact ⟨_, hr, rfl, (reachable_balanced hr ⟨0⟩).1, (reachable_balanced hr ⟨1⟩).1⟩

end Host

end PluginHost

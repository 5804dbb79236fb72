import PluginHost.Proofs.Registry.Coherence

/-!
# Enabled plugins and the plugins they need

Enabling a plugin asks that everything it needs be enabled, and disabling one is refused while
an enabled plugin needs it. Admission asks less: what a plugin needs has to be registered, but
the plugin is enabled even when a dependency of it is not. From then on an enabled plugin stands
over a disabled one, until the latter is enabled or either of them goes; there is no other way
to that state.

* `Excused`: the journal tells of such an admission, and nothing has put it right.
* `reliant_stride`: every stride keeps all other enabled plugins on enabled dependencies.
* `reachable_reliant`: so it is in every host that a run leads to.
* `late_dependent_enabled`: a plugin that is admitted over a disabled one.
-/
namespace PluginHost

variable {ω : Type}

/-- The plugin of a record stands enabled, and the named dependency does not. -/
structure Overlooks (p : String) (r : Record) (d : String) (records : NameMap Record) :
    Prop where
  standing : ∃ q, records.get? p = some q ∧ q.enabled = true ∧ q.plugin = r.plugin ∧
    q.descriptor = r.descriptor
  lacking : ∀ s, records.get? d = some s → s.enabled = false

/-- The plugin of a record was initialised, to be enabled, while a dependency of it was disabled;
at every call since then it stood enabled, and the dependency did not. -/
inductive Excused (p : String) (r : Record) (d : String) : List Call → Prop where
  | admitted {c : Call} {earlier : List Call} {s : Record} (hkind : c.kind = .stage .init)
      (hok : c.outcome = .ok) (hplugin : c.plugin = r.plugin)
      (hdescriptor : c.descriptor = r.descriptor) (hon : c.enabled = true)
      (hs : c.records.get? d = some s) (hoff : s.enabled = false) : Excused p r d (c :: earlier)
  | since {c : Call} {earlier : List Call} (h : Excused p r d earlier)
      (hc : Overlooks p r d c.records) : Excused p r d (c :: earlier)

section
variable {p d : String} {r q : Record} {records : NameMap Record} {journal : List Call}

theorem Overlooks.congr (h : Overlooks p r d records) (hplugin : q.plugin = r.plugin)
    (hdescriptor : q.descriptor = r.descriptor) : Overlooks p q d records := by
  obtain ⟨⟨s, hs, hon, hsp, hsd⟩, hlacking⟩ := h
  exact ⟨⟨s, hs, hon, hsp.trans hplugin.symm, hsd.trans hdescriptor.symm⟩, hlacking⟩

/-- Only the plugin and the descriptor of a record count. -/
theorem Excused.congr (h : Excused p r d journal) (hplugin : q.plugin = r.plugin)
    (hdescriptor : q.descriptor = r.descriptor) : Excused p q d journal := by
  induction h with
  | admitted hkind hok hp hd hon hs hoff =>
    exact .admitted hkind hok (hp.trans hplugin.symm) (hd.trans hdescriptor.symm) hon hs hoff
  | since _ hc ih => exact .since ih (hc.congr hplugin hdescriptor)

theorem Excused.append (h : Excused p r d journal) {calls : List Call}
    (hcalls : ∀ c ∈ calls, Overlooks p r d c.records) : Excused p r d (calls ++ journal) := by
  induction calls with
  | nil => exact h
  | cons c calls ih =>
    have hrest : Excused p r d (calls ++ journal) :=
      ih fun e he => hcalls e (List.mem_cons_of_mem _ he)
    exact .since hrest (hcalls c List.mem_cons_self)

theorem overlooks_of_get? {s : Record} (hp : records.get? p = some r) (hon : r.enabled = true)
    (hd : records.get? d = some s) (hoff : s.enabled = false) : Overlooks p r d records := by
  refine ⟨⟨r, hp, hon, rfl, rfl⟩, fun t ht => ?_⟩
  rw [hd] at ht
  cases ht
  exact hoff

/-- It does not matter to them that another plugin is gone for a moment. -/
theorem Overlooks.erase (h : Overlooks p r d records) {name : String} (hne : p ≠ name) :
    Overlooks p r d (records.erase name) := by
  obtain ⟨⟨q, hq, hon, hplugin, hdescriptor⟩, hlacking⟩ := h
  refine ⟨⟨q, ?_, hon, hplugin, hdescriptor⟩, fun s hs => ?_⟩
  · rw [NameMap.get?_erase, if_neg hne]
    exact hq
  · exact hlacking s (NameMap.get?_of_erase hs)

end

namespace Host

/-- What an enabled plugin needs, and is registered, is enabled, unless the plugin is excused. -/
def Reliant (h : Host ω) : Prop :=
  ∀ p d r s, h.records.get? p = some r → r.enabled = true → d ∈ r.descriptor.dependencies →
    h.records.get? d = some s → s.enabled = true ∨ Excused p r d h.journal

section
variable {h k : Host ω}

/-- An excuse lasts over calls during which plugin and dependency stay as they are. -/
theorem Reliant.persist (hi : h.Reliant) {p d : String} {r s : Record}
    (hp : h.records.get? p = some r) (hon : r.enabled = true)
    (hd : d ∈ r.descriptor.dependencies) (hs : h.records.get? d = some s) (calls : List Call)
    (hcalls : ∀ c ∈ calls, Overlooks p r d h.records → Overlooks p r d c.records) :
    s.enabled = true ∨ Excused p r d (calls ++ h.journal) := by
  cases hoff : s.enabled with
  | true => exact Or.inl rfl
  | false =>
    have hexcused := (hi _ _ _ _ hp hon hd hs).resolve_left (by simp [hoff])
    have hover : Overlooks p r d h.records := overlooks_of_get? hp hon hs hoff
    exact Or.inr (hexcused.append fun c hc => hcalls c hc hover)

/-- Nothing is lost as long as no plugin is added and none is enabled or disabled. -/
theorem Reliant.of_fewer (hi : h.Reliant) (calls : List Call)
    (hjournal : k.journal = calls ++ h.journal) (hcalls : ∀ c ∈ calls, c.records = h.records)
    (hold : ∀ {n r}, k.records.get? n = some r → ∃ s, h.records.get? n = some s ∧
      s.plugin = r.plugin ∧ s.descriptor = r.descriptor ∧ s.enabled = r.enabled) :
    k.Reliant := by
  intro p d r s hp hon hd hs
  obtain ⟨r', hr', hplugin, hdescriptor, henabled⟩ := hold hp
  obtain ⟨s', hs', -, -, hsame⟩ := hold hs
  have hkept := hi.persist hr' (henabled ▸ hon) (hdescriptor ▸ hd) hs' calls
    fun c hc hover => (hcalls c hc).symm ▸ hover
  rw [hjournal, ← hsame]
  exact hkept.imp_right fun hexcused => hexcused.congr hplugin.symm hdescriptor.symm

theorem Reliant.setRouter (hi : h.Reliant) (router : Option Router) :
    (h.setRouter router).Reliant := by
  cases router with
  | some => exact hi
  | none =>
    refine hi.of_fewer [] rfl (by simp) fun {n r} hr => ?_
    rw [setRouter_none_records, NameMap.get?_map] at hr
    obtain ⟨t, ht, rfl⟩ := Option.map_eq_some_iff.1 hr
    exact ⟨t, ht, rfl, rfl, rfl⟩

theorem Reliant.recalled (hi : h.Reliant) (stage : Stage) (r : Record) (outcome : Outcome)
    (world : ω) : (h.recalled stage r outcome world).Reliant :=
  hi.of_fewer [_] rfl (by simp) fun hr => ⟨_, hr, rfl, rfl, rfl⟩

theorem Reliant.evicted (hi : h.Reliant) (name : String) (r : Record) (outcome : Outcome)
    (world : ω) : (h.evicted name r outcome world).Reliant :=
  hi.of_fewer [_] rfl (by simp) fun hr => ⟨_, NameMap.get?_of_erase hr, rfl, rfl, rfl⟩

/-- A plugin that is admitted as enabled: it is excused for what is disabled by then, and to
those that need it it is enabled. -/
theorem Reliant.enrol (hi : h.Reliant) {plugin : Instance} {d : Descriptor} (world : ω)
    (routes : List Route) :
    ((h.initialised plugin d true .ok world).enter plugin d true routes).Reliant := by
  intro p e r s hp hon he hs
  rw [enter_records, initialised_records, NameMap.get?_insert] at hp hs
  -- the newcomer as the dependency is enabled; as the plugin it has just been initialised
  split at hs
  · cases hs
    exact Or.inl rfl
  split at hp
  · cases hp
    cases hoff : s.enabled with
    | true => exact Or.inl rfl
    | false => exact Or.inr (.admitted rfl rfl rfl rfl rfl hs hoff)
  · refine hi.persist hp hon he hs [_, _] fun c hc hover => ?_
    simp only [List.mem_cons, List.not_mem_nil, or_false] at hc
    rcases hc with rfl | rfl <;> exact hover

/-- A plugin is enabled after all it needs. -/
theorem Reliant.enable (hi : h.Reliant) {name : String} {r : Record} (world : ω)
    (hr : h.records.get? name = some r)
    (hready : ∀ n ∈ r.descriptor.dependencies, h.isEnabled n = true) :
    ((h.recalled .enable r .ok world).modify name
      fun r => { r with enabled := true }).Reliant := by
  intro p d q s hp hon hd hs
  rw [modify_records, recalled_records, NameMap.get?_modify] at hp hs
  split at hs
  · obtain ⟨t, -, rfl⟩ := Option.map_eq_some_iff.1 hs
    exact Or.inl rfl
  split at hp
  · rename_i hname
    subst hname
    rw [hr] at hp
    cases hp
    have hready := hready d hd
    rw [isEnabled, hs] at hready
    exact Or.inl hready
  · refine hi.persist hp hon hd hs [_] fun c hc hover => ?_
    rw [List.mem_singleton.1 hc]
    exact hover

/-- A plugin is disabled when no other one that is enabled needs it. -/
theorem Reliant.disable (hi : h.Reliant) (hcoherent : Coherent h.records) {name : String}
    {r : Record} (world : ω) (hfree : h.blocker? name = none) :
    ((h.recalled .disable r .ok world).modify name
      fun r => { r with enabled := false }).Reliant := by
  intro p d q s hp hon hd hs
  rw [modify_records, recalled_records, NameMap.get?_modify] at hp hs
  split at hp
  · obtain ⟨t, -, rfl⟩ := Option.map_eq_some_iff.1 hp
    cases hon
  rename_i hne
  split at hs
  · -- an enabled plugin that needs the disabled one would have kept it from that
    rename_i hname
    subst hname
    rw [← hcoherent.named hp] at hne
    have hfree := not_mem_dependencies_of_blocker? hfree (NameMap.mem_values_of_get? hp) hon hne
    exact absurd hd hfree
  · refine hi.persist hp hon hd hs [_] fun c hc hover => ?_
    rw [List.mem_singleton.1 hc]
    exact hover

/-- A disabled plugin in place of a disabled one. -/
theorem Reliant.swap (hi : h.Reliant) {old : Record} {d : Descriptor} {plugin : Instance}
    {routes : List Route} {gone world : ω} (hold : h.records.get? d.name = some old)
    (hoff : old.enabled = false) :
    (((h.evicted d.name old .ok gone).initialised plugin d false .ok world).enter plugin d false
      routes).Reliant := by
  intro p e r s hp hon he hs
  rw [enter_records, initialised_records, evicted_records, NameMap.get?_insert,
    NameMap.get?_erase] at hp hs
  split at hp
  · cases hp
    cases hon
  rename_i hne
  -- whoever is needed now was needed before, and was as little enabled
  obtain ⟨t, ht, hsame⟩ : ∃ t, h.records.get? e = some t ∧ t.enabled = s.enabled := by
    split at hs
    · rename_i heq
      cases hs
      exact ⟨old, heq ▸ hold, hoff⟩
    · exact ⟨s, hs, rfl⟩
  rw [← hsame]
  refine hi.persist hp hon he ht [_, _, _] fun c hc hover => ?_
  simp only [List.mem_cons, List.not_mem_nil, or_false] at hc
  -- the new plugin is called when the old one is gone, the old one when it is still there
  rcases hc with rfl | rfl | rfl
  · exact hover.erase hne
  · exact hover.erase hne
  · exact hover

/-- Every stride keeps enabled plugins on enabled dependencies, or adds an excuse. -/
theorem reliant_stride {P : Plugins ω} (hs : Stride P h k) (hcoherent : Coherent h.records)
    (hi : h.Reliant) : k.Reliant := by
  cases hs with
  | swap hold hoff => exact hi.swap hold hoff
  | move hmove _ henabled =>
    cases hmove with
    | world => exact hi
    | @enrol plugin d enabled routes world ha =>
      obtain rfl : enabled = true := enabled_of_entered ha henabled
      exact hi.enrol _ _
    | turnAway => exact hi.of_fewer [_, _] rfl (by simp) fun hr => ⟨_, hr, rfl, rfl, rfl⟩
    | evict => exact hi.evicted _ _ _ _
    | keep => exact hi.recalled _ _ _ _
    | enable hr _ hready => exact hi.enable _ hr hready
    | enableFails => exact hi.recalled _ _ _ _
    | disable _ _ hfree => exact hi.disable hcoherent _ hfree
    | disableFails => exact hi.recalled _ _ _ _
    | bind hr =>
      refine hi.of_fewer [] rfl (by simp) fun {n r} hr => ?_
      obtain ⟨t, ht, rfl | rfl⟩ := NameMap.get?_of_modify hr
      · exact ⟨_, ht, rfl, rfl, rfl⟩
      · exact ⟨_, ht, rfl, rfl, rfl⟩
    | bindFails => exact hi
    | attachRouter router => exact hi.setRouter (some router)
    | detachRouter => exact hi.setRouter none

end

theorem Reachable.reliant {P : Plugins ω} {h : Host ω} (hr : Reachable P h) : h.Reliant :=
  hr.invariant_of_strides (fun _ _ _ _ _ hp => by simp [Host.start] at hp)
    (fun _ _ hcoherent hs hi => reliant_stride hs hcoherent hi)
    (fun _ router hi => hi.setRouter router) fun _ _ hi => hi

/-- In every host that a run leads to, an enabled plugin stands on enabled plugins, as far as
those it needs are registered; save where it was admitted over a disabled one, from then on,
as long as the plugin stays enabled and the other one is not enabled. -/
theorem reachable_reliant {P : Plugins ω} {h : Host ω} (hr : Reachable P h) {p d : String}
    {r s : Record} (hp : h.records.get? p = some r) (hon : r.enabled = true)
    (hd : d ∈ r.descriptor.dependencies) (hs : h.records.get? d = some s) :
    s.enabled = true ∨ Excused p r d h.journal :=
  hr.reliant _ _ _ _ hp hon hd hs

/-- A base and an application that needs it. -/
def basePlugins : Plugins Unit :=
  .constant (fun plugin =>
    ⟨if plugin.id = 0 then "base" else "app", "", "1.0.0",
      if plugin.id = 0 then [] else ["base"], []⟩) fun _ _ => .ok

/-- The base is disabled when the application is registered. -/
def lateCommands : List Command :=
  [.register ⟨0⟩, .disable "base", .register ⟨1⟩]

/-- The application is enabled, the base it needs is not, and the journal tells why. -/
theorem app_excused :
    ∃ (h : Host Unit) (r s : Record), Reachable basePlugins h ∧
      h.records.get? "app" = some r ∧ h.records.get? "base" = some s ∧ s.enabled = false ∧
      Excused "app" r "base" h.journal := by
  have hr : Reachable basePlugins ((start ()).runAll basePlugins lateCommands) :=
    (Reachable.start ()).runAll _
  refine ⟨_, _, _, hr, rfl, rfl, rfl, ?_⟩
  have hkept := reachable_reliant hr (p := "app") (d := "base") rfl rfl (by decide) rfl
  exact hkept.resolve_left (by decide)

/-- Not every enabled plugin stands on enabled plugins. -/
theorem late_dependent_enabled :
    ¬ ∀ h, Reachable basePlugins h → ∀ p d r s, h.records.get? p = some r → r.enabled = true →
      d ∈ r.descriptor.dependencies → h.records.get? d = some s → s.enabled = true := by
  intro hall
  have hr : Reachable basePlugins ((start ()).runAll basePlugins lateCommands) :=
    (Reachable.start ()).runAll _
  have hon := hall _ hr "app" "base" _ _ rfl rfl (by decide) rfl
  cases hon

end Host

end PluginHost

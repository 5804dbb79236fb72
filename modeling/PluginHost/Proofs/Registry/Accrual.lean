import PluginHost.Proofs.Registry.Health

/-!
# Registries that only grow

A plugin is admitted when all that it needs is registered, and then nobody needs it yet. So as
long as no plugin is taken out, each one came later than all that it needs: nothing is missing,
and no chain of needs comes back to where it began, although the registration of one plugin does
not look for cycles.

A batch that fails takes plugins out again, but in the order opposite to that in which they came,
so that none of them is missed by one that is still there, wherever a panic may stop it.

* `Supplied`: every plugin came later than all that it needs.
* `Layered`: plugins that can be taken off the records again without being missed.
* `supplied_run`: commands that take no plugin out keep the records supplied.
* `Accrued.problems_eq_nil`: nothing is reported after a run of them.
-/
namespace PluginHost

variable {ω : Type}

/-- All that is needed is registered, and `since` ranks it before what needs it. -/
def Supplied (records : NameMap Record) : Prop :=
  ∃ since : String → Nat, ∀ {n r}, records.get? n = some r → ∀ d ∈ r.descriptor.dependencies,
    records.contains d = true ∧ since d < since n

/-- The names can be taken off the records one after the other: each was the last to come. -/
inductive Layered : List String → NameMap Record → Prop where
  | nil {records : NameMap Record} (hs : Supplied records) : Layered [] records
  | cons {names : List String} {records : NameMap Record} {d : Descriptor} {r : Record}
      (hrest : Layered names records) (ha : Admissible records [] d) (hr : r.descriptor = d) :
      Layered (d.name :: names) (records.insert d.name r)

/-- The command and those that are carried out within it take no plugin out. -/
def Command.keepsPlugins : Command → Bool
  | .unregister _ | .reload _ | .reloadWith .. | .shutdownAll => false
  | .executeCalling _ _ command => command.keepsPlugins
  | .register _ | .registerPlugins _ | .enable _ | .disable _ | .setRouter _
  | .registerAllRoutes | .execute .. | .query _ => true

section
variable {records others : NameMap Record} {d : Descriptor} {r : Record} {names : List String}

theorem supplied_empty : Supplied ∅ :=
  ⟨fun _ => 0, fun h => by simp at h⟩

/-- Only the descriptors matter. -/
theorem Supplied.of_descriptors (hs : Supplied records)
    (heq : ∀ n, (others.get? n).map (·.descriptor) = (records.get? n).map (·.descriptor)) :
    Supplied others := by
  obtain ⟨since, hsince⟩ := hs
  refine ⟨since, fun {n r} hr d hd => ?_⟩
  obtain ⟨s, hs, hsame⟩ : ∃ s, records.get? n = some s ∧ s.descriptor = r.descriptor :=
    Option.map_eq_some_iff.1 ((heq n).symm.trans (congrArg _ hr))
  obtain ⟨hcontains, hlt⟩ := hsince hs d (hsame ▸ hd)
  refine ⟨?_, hlt⟩
  have hsome := congrArg Option.isSome (heq d)
  rw [Option.isSome_map, Option.isSome_map] at hsome
  exact hsome.trans hcontains

theorem Supplied.modify (hs : Supplied records) (name : String) {f : Record → Record}
    (hf : ∀ r, (f r).descriptor = r.descriptor) : Supplied (records.modify name f) := by
  refine hs.of_descriptors fun n => ?_
  rw [NameMap.get?_modify]
  split
  · rw [Option.map_map]
    exact Option.map_congr fun r _ => hf r
  · rfl

/-- An admissible plugin comes after all that is there. -/
theorem Supplied.insert (hs : Supplied records) (ha : Admissible records [] d)
    (hr : r.descriptor = d) : Supplied (records.insert d.name r) := by
  obtain ⟨since, hsince⟩ := hs
  have hpresent : ∀ n ∈ d.dependencies, records.contains n = true := by simpa using ha.present
  have hother : ∀ {n}, records.contains n = true → n ≠ d.name := by
    rintro n hn rfl
    rw [ha.fresh] at hn
    cases hn
  have hkept : ∀ {n}, records.contains n = true →
      (records.insert d.name r).contains n = true := by
    intro n hn
    rw [NameMap.contains_insert, hn, Bool.or_true]
  refine ⟨Function.update since d.name (d.dependencies.toFinset.sup since + 1),
    fun {n s} hs m hm => ?_⟩
  rw [NameMap.get?_insert] at hs
  split at hs
  · rename_i hn
    cases hs
    rw [hr] at hm
    refine ⟨hkept (hpresent m hm), ?_⟩
    rw [hn, Function.update_self, Function.update_of_ne (hother (hpresent m hm))]
    exact Nat.lt_succ_of_le (Finset.le_sup (f := since) (List.mem_toFinset.2 hm))
  · rename_i hn
    obtain ⟨hm, hlt⟩ := hsince hs m hm
    rw [Function.update_of_ne hn, Function.update_of_ne (hother hm)]
    exact ⟨hkept hm, hlt⟩

theorem Layered.supplied (hl : Layered names records) : Supplied records := by
  induction hl with
  | nil hs => exact hs
  | cons _ ha hr ih => exact ih.insert ha hr

end

namespace Host

section
variable {P : Plugins ω} {h : Host ω} {names : List String}

theorem supplied_bindRoutes (P : Plugins ω) (name : String) (hs : Supplied h.records) :
    Supplied (h.bindRoutes P name).2.records :=
  hs.of_descriptors (bindRoutes_descriptor P name h)

theorem supplied_bindEach (P : Plugins ω) (names : List String) (hs : Supplied h.records) :
    Supplied (h.bindEach P names).2.records := by
  induction names generalizing h with
  | nil => exact hs
  | cons name names ih =>
    have hbind := supplied_bindRoutes P name hs
    unfold bindEach
    split
    · rename_i heq
      rw [heq] at hbind
      exact ih hbind
    · rename_i heq
      rw [heq] at hbind
      exact hbind

theorem supplied_bindUnbound (P : Plugins ω) (names : List String) (hs : Supplied h.records) :
    Supplied (h.bindUnbound P names).2.records := by
  induction names generalizing h with
  | nil => exact hs
  | cons name names ih =>
    have hbind := supplied_bindRoutes P name hs
    unfold bindUnbound
    split
    · exact ih hs
    split
    · rename_i heq
      rw [heq] at hbind
      exact ih hbind
    · rename_i heq
      rw [heq] at hbind
      exact hbind

theorem supplied_enrol (P : Plugins ω) (plugin : Instance) {d : Descriptor} (enabled : Bool)
    (hs : Supplied h.records) (ha : Admissible h.records [] d) :
    Supplied (h.enrol P plugin d enabled).2.records := by
  rcases hcall : P.callback .init plugin (P.attach plugin h.world) with ⟨outcome, world⟩
  by_cases ho : outcome = .ok
  · subst ho
    rw [enrol_of_ok hcall]
    exact hs.insert ha rfl
  · rw [enrol_of_ne_ok hcall ho]
    exact hs

theorem supplied_register (P : Plugins ω) (plugin : Instance) (hs : Supplied h.records) :
    Supplied (h.register P plugin).2.records := by
  rcases hasked : P.descriptor plugin h.world with ⟨d, asked⟩
  unfold register
  rw [describe_of_eq hasked]
  simp only
  split
  · exact hs
  rename_i hok
  have henrol := supplied_enrol (h := { h with world := asked }) P plugin true hs
    (admissible_eq_ok_iff.1 hok)
  split
  · rename_i heq
    rw [heq] at henrol
    exact henrol
  · rename_i heq
    rw [heq] at henrol
    exact supplied_bindRoutes P _ henrol

/-! ## Batches -/

/-- Wherever the eviction of the last to come stops, nothing is missed. -/
theorem supplied_evictAll (hl : Layered names h.records) :
    Supplied (h.evictAll P names).2.records := by
  generalize hrecords : h.records = records at hl
  induction hl generalizing h with
  | nil hs => exact hrecords ▸ hs
  | @cons names records d r hrest ha hr ih =>
    have hget : h.records.get? d.name = some r := by
      rw [hrecords, NameMap.get?_insert, if_pos rfl]
    rcases hcall : P.callback .shutdown r.plugin h.world with ⟨outcome, world⟩
    by_cases hpanic : ∃ m, outcome = .panicked m
    · obtain ⟨m, rfl⟩ := hpanic
      rw [evictAll_cons_of_panicked hget hcall, recalled_records, hrecords]
      exact hrest.supplied.insert ha hr
    · rw [evictAll_cons_of_some hget hcall (by simpa using hpanic)]
      refine ih ?_
      rw [hrecords, NameMap.erase_insert _ (get?_eq_none_of_fresh ha.fresh)]

theorem supplied_enrolAll {base : NameMap Record} {earlier : List Descriptor} {done : List String}
    {batch : List Candidate} (hl : Layered done h.records)
    (hgrown : Grown base earlier h.records)
    (hall : allAdmissible base earlier (batch.map (·.2)) = .ok ())
    (hnames : (earlier.map (·.name) ++ batch.map (·.2.name)).Nodup) :
    Supplied (h.enrolAll P done batch).2.records := by
  induction batch generalizing earlier done h with
  | nil => exact hl.supplied
  | cons c batch ih =>
    obtain ⟨plugin, d⟩ := c
    obtain ⟨hfirst, hrest⟩ := allAdmissible_cons_eq_ok_iff.1 hall
    have hname : d.name ∉ earlier.map (·.name) := by
      rw [List.nodup_append] at hnames
      exact fun hmem => hnames.2.2 _ hmem _ List.mem_cons_self rfl
    have ha : Admissible h.records [] d := hgrown.admissible_iff.2 ⟨hfirst, hname⟩
    unfold enrolAll
    rcases hcall : P.callback .init plugin (P.attach plugin h.world) with ⟨outcome, world⟩
    cases outcome with
    | ok =>
      rw [enrol_of_ok hcall]
      refine ih (hl.cons ha rfl) (hgrown.insert rfl ha.fresh) hrest ?_
      simpa using hnames
    | failed e =>
      have hevict : Supplied
          (evictAll P done (h.initialised plugin d true (.failed e) world)).2.records :=
        supplied_evictAll hl
      rw [enrol_of_ne_ok hcall (by simp)]
      simp only [Outcome.result]
      split
      · rename_i heq
        rw [heq] at hevict
        exact hevict
      · rename_i heq
        rw [heq] at hevict
        exact hevict
    | panicked m =>
      rw [enrol_of_ne_ok hcall (by simp)]
      exact hl.supplied

theorem supplied_registerPlugins (P : Plugins ω) (plugins : List Instance)
    (hs : Supplied h.records) : Supplied (h.registerPlugins P plugins).2.records := by
  obtain ⟨asked, hasked⟩ := describeAll_eq P [] plugins h
  rcases heq : h.describeAll P [] plugins with ⟨described, k⟩
  obtain rfl : k = { h with world := asked } := by rw [← hasked, heq]
  unfold registerPlugins
  rw [heq]
  split
  · rename_i hended
    cases hended
    exact hs
  rename_i batch k hended
  cases hended
  obtain ⟨-, hnames, -⟩ := describeAll_of_ok (congrArg Prod.fst heq)
  split
  · exact hs
  rename_i ordered hordered
  split
  · exact hs
  rename_i hall
  have hperm := (batchOrder_perm hnames hordered).1
  have henrol : Supplied
      (enrolAll P [] ordered { h with world := asked }).2.records := by
    refine supplied_enrolAll (.nil hs) (grown_nil _) hall ?_
    simpa using (hperm.map _).nodup_iff.2 hnames
  split
  · rename_i hended
    rw [hended] at henrol
    exact henrol
  · rename_i hended
    rw [hended] at henrol
    exact supplied_bindEach P _ henrol

/-! ## Registered plugins -/

theorem supplied_enable (P : Plugins ω) (name : String) (hs : Supplied h.records) :
    Supplied (h.enable P name).2.records := by
  unfold enable
  split
  · exact hs
  rename_i r hr
  split
  · exact hs
  split
  · exact hs
  rcases hcall : P.callback .enable r.plugin h.world with ⟨outcome, world⟩
  rw [runStage_eq hcall]
  cases outcome with
  | ok =>
    have henable : Supplied ((h.called (.stage .enable) r.plugin r.descriptor r.enabled .ok
        world).modify name fun r => { r with enabled := true }).records :=
      hs.modify name fun _ => rfl
    simp only [Outcome.result]
    split
    · exact henable
    · exact supplied_bindRoutes P name henable
  | failed e => exact hs
  | panicked m => exact hs

theorem supplied_disable (P : Plugins ω) (name : String) (hs : Supplied h.records) :
    Supplied (h.disable P name).2.records := by
  unfold disable
  split
  · exact hs
  rename_i r hr
  split
  · exact hs
  split
  · exact hs
  rcases hcall : P.callback .disable r.plugin h.world with ⟨outcome, world⟩
  rw [runStage_eq hcall]
  cases outcome with
  | ok => exact hs.modify name fun _ => rfl
  | failed e => exact hs
  | panicked m => exact hs

theorem execute_records (P : Plugins ω) (name : String) (params : Json) (h : Host ω) :
    (h.execute P name params).2.records = h.records := by
  unfold execute
  split
  · rfl
  split
  · rfl
  · generalize P.execute _ params h.world = executed
    obtain ⟨execution, world⟩ := executed
    cases execution <;> rfl

theorem supplied_setRouter (router : Option Router) (hs : Supplied h.records) :
    Supplied (h.setRouter router).records := by
  cases router with
  | none =>
    refine hs.of_descriptors fun n => ?_
    rw [setRouter_none_records, NameMap.get?_map, Option.map_map]
    rfl
  | some router => exact hs

theorem supplied_registerAllRoutes (P : Plugins ω) (hs : Supplied h.records) :
    Supplied (h.registerAllRoutes P).2.records := by
  unfold registerAllRoutes
  split
  · exact hs
  · exact supplied_bindUnbound P _ hs

/-- A command that takes no plugin out keeps the records supplied, however it ends. -/
theorem supplied_run (P : Plugins ω) (c : Command) (hc : c.keepsPlugins = true)
    (hs : Supplied h.records) : Supplied (c.run P h).2.records := by
  induction c generalizing h with
  | register plugin => exact (answerOk_snd _).symm ▸ supplied_register P plugin hs
  | registerPlugins plugins => exact (answerOk_snd _).symm ▸ supplied_registerPlugins P plugins hs
  | enable name => exact (answerOk_snd _).symm ▸ supplied_enable P name hs
  | disable name => exact (answerOk_snd _).symm ▸ supplied_disable P name hs
  | setRouter router => exact supplied_setRouter router hs
  | registerAllRoutes => exact (answerOk_snd _).symm ▸ supplied_registerAllRoutes P hs
  | execute name params =>
    rw [Command.run]
    rw [← execute_records P name params h] at hs
    split <;> rename_i heq <;> rw [heq] at hs <;> exact hs
  | executeCalling name params command ih =>
    rw [Command.run]
    rw [← execute_records P name params h] at hs
    split <;> rename_i heq <;> rw [heq] at hs
    · exact hs
    · have hrun := ih hc hs
      split
      · rename_i hended
        rw [hended] at hrun
        exact hrun
      · exact hrun
    · exact hs
  | query q => exact hs
  | unregister | reload | reloadWith | shutdownAll => cases hc

end

/-! ## Runs -/

/-- The hosts that a run leads to which takes no plugin out: commands are carried out one after
the other, and between them the world of the plugins may become any other one. -/
inductive Accrued (P : Plugins ω) : Host ω → Prop where
  | start (world : ω) : Accrued P (Host.start world)
  | command {h : Host ω} (c : Command) (hc : c.keepsPlugins = true) :
      Accrued P h → Accrued P (c.run P h).2
  | world {h : Host ω} (world : ω) : Accrued P h → Accrued P { h with world }

section
variable {P : Plugins ω} {h : Host ω}

theorem Accrued.reachable (ha : Accrued P h) : Reachable P h := by
  induction ha with
  | start world => exact .start world
  | command c _ _ ih => exact ih.command c
  | world world _ ih => exact ih.world world

theorem Accrued.supplied (ha : Accrued P h) : Supplied h.records := by
  induction ha with
  | start _ => exact supplied_empty
  | command c hc _ ih => exact supplied_run P c hc ih
  | world _ _ ih => exact ih

theorem Accrued.register (ha : Accrued P h) (plugin : Instance) :
    Accrued P (h.register P plugin).2 := by
  have hrun := ha.command (.register plugin) rfl
  rwa [Command.run, answerOk_snd] at hrun

end

end Host

end PluginHost

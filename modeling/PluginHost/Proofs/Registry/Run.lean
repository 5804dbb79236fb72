import PluginHost.Proofs.Registry.Move

/-!
# What a run of commands can do

Every operation is made of moves, and most of them only of moves that leave the router alone and
register plugins as enabled. The exceptions are the change of the router itself and the
replacement of a disabled plugin, which evicts one plugin and admits another one under the same
name as disabled; taken together these two moves are one `Stride`. A property of all hosts that
a run leads to need only be kept by each stride and by a change of the router, or by each move.
A stride also says where the routes of a new record come from: the plugin reported them right after
it was initialised.

A panic ends an operation after some of its moves; what has been done so far is a run of moves
as well.

* `Served`: what the calls of plugins make of their world.
* `Record.Captured`: where the routes of a record come from.
* `strides_run`: a command is a run of strides, after which the router may change.
* `Reachable.invariant`: what holds of a host without plugins and is kept by every move holds of
  every host that commands lead to.
-/
namespace PluginHost

variable {ω : Type}

/-- What a call of a plugin makes of the world of plugins. A plugin is initialised only right
after it was handed the host. -/
inductive Served (P : Plugins ω) : ω → ω → Prop where
  | descriptor (plugin : Instance) (w : ω) : Served P w (P.descriptor plugin w).2
  | routes (plugin : Instance) (w : ω) : Served P w (P.routes plugin w).2
  | middlewares (plugin : Instance) (w : ω) : Served P w (P.middlewares plugin w).2
  | start {plugin : Instance} {w w' : ω} {outcome : Outcome}
      (hcall : P.callback .init plugin (P.attach plugin w) = (outcome, w')) : Served P w w'
  | callback {stage : Stage} {plugin : Instance} {w w' : ω} {outcome : Outcome}
      (hstage : stage ≠ .init) (hcall : P.callback stage plugin w = (outcome, w')) :
      Served P w w'
  | execute (plugin : Instance) (params : Json) (w : ω) :
      Served P w (P.execute plugin params w).2

/-- The routes of a record are those that its plugin reported when it was admitted, right after it
was initialised. -/
def Record.Captured (P : Plugins ω) (r : Record) : Prop :=
  ∃ before admitted, P.callback .init r.plugin (P.attach r.plugin before) = (.ok, admitted) ∧
    (P.routes r.plugin admitted).1 = r.routes

namespace Host

/-- One move that leaves the router alone and registers plugins as enabled only, or the two
moves that replace a disabled plugin. -/
inductive Stride (P : Plugins ω) : Host ω → Host ω → Prop where
  | move {h k : Host ω} (hmove : Move h k) (hrouter : k.router = h.router)
      (henabled : ∀ {n r}, h.records.get? n = none → k.records.get? n = some r →
        r.enabled = true)
      (hserved : Relation.ReflTransGen (Served P) h.world k.world)
      (hcaptured : ∀ {n r}, h.records.get? n = none → k.records.get? n = some r →
        r.Captured P) : Stride P h k
  | swap {h : Host ω} {old : Record} {d : Descriptor} {plugin : Instance} {routes : List Route}
      {gone world : ω} (hold : h.records.get? d.name = some old) (hoff : old.enabled = false)
      (ha : Admissible (h.records.erase d.name) [] d)
      (hserved : Relation.ReflTransGen (Served P) h.world world)
      (hcaptured : Record.Captured P ⟨plugin, d, routes, false, false⟩) :
      Stride P h (((h.evicted d.name old .ok gone).initialised plugin d false .ok world).enter
        plugin d false routes)

/-- A run of strides. -/
abbrev Strides (P : Plugins ω) : Host ω → Host ω → Prop :=
  Relation.ReflTransGen (Stride P)

section
variable {P : Plugins ω} {h k : Host ω}

/-- A move that leaves the router alone and registers nobody. -/
theorem Stride.of_names (hmove : Move h k) (hrouter : k.router = h.router)
    (hnames : k.records.names ⊆ h.records.names)
    (hserved : Relation.ReflTransGen (Served P) h.world k.world) : Stride P h k := by
  have hold : ∀ {n r}, h.records.get? n = none → k.records.get? n ≠ some r := by
    intro n r hnone hr
    have hmem : n ∈ h.records.names :=
      hnames (NameMap.mem_names_iff.2 (NameMap.contains_iff.2 ⟨r, hr⟩))
    obtain ⟨s, hs⟩ := NameMap.contains_iff.1 (NameMap.mem_names_iff.1 hmem)
    rw [hnone] at hs
    cases hs
  exact .move hmove hrouter (fun hnone hr => absurd hr (hold hnone)) hserved
    fun hnone hr => absurd hr (hold hnone)

/-- Where plugins are registered as enabled only, a plugin that enters is enabled. -/
theorem enabled_of_entered {plugin : Instance} {d : Descriptor} {enabled : Bool}
    {routes : List Route} (ha : Admissible h.records [] d)
    (henabled : ∀ {n r}, h.records.get? n = none →
      (k.enter plugin d enabled routes).records.get? n = some r → r.enabled = true) :
    enabled = true := by
  refine henabled (get?_eq_none_of_fresh ha.fresh) (r := ⟨plugin, d, routes, enabled, false⟩) ?_
  rw [enter_records, NameMap.get?_insert, if_pos rfl]

theorem Stride.moves (hs : Stride P h k) : Moves h k := by
  cases hs with
  | move hmove => exact .single hmove
  | swap hold _ ha =>
    exact (Relation.ReflTransGen.single (.evict hold (by simp))).tail (.enrol ha)

theorem Stride.router (hs : Stride P h k) : k.router = h.router := by
  cases hs with
  | move _ hrouter => exact hrouter
  | swap => rfl

theorem Stride.served (hs : Stride P h k) :
    Relation.ReflTransGen (Served P) h.world k.world := by
  cases hs with
  | move _ _ _ hserved => exact hserved
  | swap _ _ _ hserved => exact hserved

theorem Strides.moves (hs : Strides P h k) : Moves h k := by
  induction hs with
  | refl => exact .refl
  | tail _ hlast ih => exact ih.trans hlast.moves

theorem Strides.router (hs : Strides P h k) : k.router = h.router := by
  induction hs with
  | refl => rfl
  | tail _ hlast ih => exact hlast.router.trans ih

theorem Strides.served (hs : Strides P h k) :
    Relation.ReflTransGen (Served P) h.world k.world := by
  induction hs with
  | refl => exact .refl
  | tail _ hlast ih => exact ih.trans hlast.served

end

section
variable {P : Plugins ω} {h : Host ω}

/-! ## Operations as runs of strides -/

theorem strides_describe (P : Plugins ω) (plugin : Instance) (h : Host ω) :
    Strides P h (h.describe P plugin).2 :=
  .single (.of_names (.world h _) rfl (List.Subset.refl _) (.single (.descriptor plugin h.world)))

/-- A plugin is admitted as enabled, or turned away. -/
theorem strides_enrol (P : Plugins ω) (plugin : Instance) {d : Descriptor} {h : Host ω}
    (ha : Admissible h.records [] d) : Strides P h (h.enrol P plugin d true).2 := by
  rcases hcall : P.callback .init plugin (P.attach plugin h.world) with ⟨outcome, world⟩
  have hstart : Relation.ReflTransGen (Served P) h.world world := .single (.start hcall)
  by_cases ho : outcome = .ok
  · subst ho
    rw [enrol_of_ok hcall]
    have hnew : ∀ {n r}, h.records.get? n = none →
        ((h.initialised plugin d true .ok (P.routes plugin world).2).enter plugin d true
          (P.routes plugin world).1).records.get? n = some r →
        r = ⟨plugin, d, (P.routes plugin world).1, true, false⟩ := by
      intro n r hnone hr
      rw [enter_records, NameMap.get?_insert] at hr
      split at hr
      · exact (Option.some.inj hr).symm
      · rw [initialised_records, hnone] at hr
        cases hr
    refine .single (.move (.enrol ha) rfl (fun hnone hr => ?_)
      (hstart.tail (.routes plugin world)) fun hnone hr => ?_)
    · rw [hnew hnone hr]
    · rw [hnew hnone hr]
      exact ⟨h.world, world, hcall, rfl⟩
  · rw [enrol_of_ne_ok hcall ho]
    exact .single (.of_names (.turnAway ha ho) rfl (List.Subset.refl _) hstart)

theorem strides_evict (P : Plugins ω) (name : String) (h : Host ω) :
    Strides P h (h.evict P name).2 := by
  cases hr : h.records.get? name with
  | none =>
    rw [evict_of_none hr]
  | some r =>
    rcases hcall : P.callback .shutdown r.plugin h.world with ⟨outcome, world⟩
    have hshutdown : Relation.ReflTransGen (Served P) h.world world :=
      .single (.callback (by simp) hcall)
    by_cases ho : ∀ m, outcome ≠ .panicked m
    · rw [evict_of_some hr hcall ho]
      exact .single (.of_names (.evict hr ho) rfl (NameMap.names_erase_subset _ _) hshutdown)
    · obtain ⟨m, rfl⟩ : ∃ m, outcome = .panicked m := by simpa using ho
      rw [evict_of_panicked hr hcall]
      exact .single (.of_names (.keep hr) rfl (List.Subset.refl _) hshutdown)

theorem strides_evictAll (P : Plugins ω) (names : List String) (h : Host ω) :
    Strides P h (h.evictAll P names).2 := by
  induction names generalizing h with
  | nil => exact .refl
  | cons name names ih =>
    have hevict := strides_evict P name h
    unfold evictAll
    split
    · rename_i heq
      exact heq ▸ hevict
    · rename_i heq
      exact (heq ▸ hevict).trans (ih _)

theorem strides_bindRoutes (P : Plugins ω) (name : String) (h : Host ω) :
    Strides P h (h.bindRoutes P name).2 := by
  unfold bindRoutes
  split
  · exact .refl
  rename_i router hrouter
  split
  · exact .refl
  rename_i r hr
  have hmiddlewares : Relation.ReflTransGen (Served P) h.world (P.middlewares r.plugin h.world).2 :=
    .single (.middlewares r.plugin h.world)
  simp only
  split
  · rename_i hbind
    exact .single (.of_names (.bindFails hr hrouter hbind) rfl (List.Subset.refl _) hmiddlewares)
  · rename_i hbind
    refine .single (.of_names (.bind hr hrouter hbind) rfl ?_ hmiddlewares)
    rw [modify_records, NameMap.names_modify]
    exact List.Subset.refl _

theorem strides_bindEach (P : Plugins ω) (names : List String) (h : Host ω) :
    Strides P h (h.bindEach P names).2 := by
  induction names generalizing h with
  | nil => exact .refl
  | cons name names ih =>
    have hbind := strides_bindRoutes P name h
    unfold bindEach
    split
    · rename_i heq
      exact (heq ▸ hbind).trans (ih _)
    · rename_i heq
      exact heq ▸ hbind

theorem strides_bindUnbound (P : Plugins ω) (names : List String) (h : Host ω) :
    Strides P h (h.bindUnbound P names).2 := by
  induction names generalizing h with
  | nil => exact .refl
  | cons name names ih =>
    have hbind := strides_bindRoutes P name h
    unfold bindUnbound
    split
    · exact ih h
    split
    · rename_i heq
      exact (heq ▸ hbind).trans (ih _)
    · rename_i heq
      exact heq ▸ hbind

theorem strides_registerAllRoutes (P : Plugins ω) (h : Host ω) :
    Strides P h (h.registerAllRoutes P).2 := by
  unfold registerAllRoutes
  split
  · exact .refl
  · exact strides_bindUnbound P _ h

theorem strides_register (P : Plugins ω) (plugin : Instance) (h : Host ω) :
    Strides P h (h.register P plugin).2 := by
  refine (strides_describe P plugin h).trans ?_
  unfold register
  generalize h.describe P plugin = described
  obtain ⟨d, h⟩ := described
  simp only
  split
  · exact .refl
  rename_i hok
  have henrol := strides_enrol P plugin (admissible_eq_ok_iff.1 hok)
  split
  · rename_i heq
    exact heq ▸ henrol
  · rename_i heq
    exact (heq ▸ henrol).trans (strides_bindRoutes P _ _)

/-! ## Batches -/

theorem strides_describeAll (P : Plugins ω) (seen : List String) (plugins : List Instance)
    (h : Host ω) : Strides P h (h.describeAll P seen plugins).2 := by
  induction plugins generalizing seen h with
  | nil => exact .refl
  | cons plugin plugins ih =>
    have hdescribe := strides_describe P plugin h
    rw [describeAll]
    generalize h.describe P plugin = described at hdescribe ⊢
    obtain ⟨d, k⟩ := described
    simp only
    split
    · exact hdescribe
    · have hrest := hdescribe.trans (ih (d.name :: seen) k)
      split
      · rename_i heq
        rw [heq] at hrest
        exact hrest
      · rename_i heq
        rw [heq] at hrest
        exact hrest

theorem strides_enrolAll {base : NameMap Record} {earlier : List Descriptor}
    {batch : List Candidate} (done : List String) (hgrown : Grown base earlier h.records)
    (hall : allAdmissible base earlier (batch.map (·.2)) = .ok ())
    (hnames : (earlier.map (·.name) ++ batch.map (·.2.name)).Nodup) :
    Strides P h (h.enrolAll P done batch).2 := by
  induction batch generalizing earlier done h with
  | nil => exact .refl
  | cons c batch ih =>
    obtain ⟨plugin, d⟩ := c
    obtain ⟨hfirst, hrest⟩ := allAdmissible_cons_eq_ok_iff.1 hall
    have hname : d.name ∉ earlier.map (·.name) := by
      rw [List.nodup_append] at hnames
      exact fun hmem => hnames.2.2 _ hmem _ List.mem_cons_self rfl
    have ha : Admissible h.records [] d := hgrown.admissible_iff.2 ⟨hfirst, hname⟩
    have henrol := strides_enrol P plugin ha
    unfold enrolAll
    rcases hcall : P.callback .init plugin (P.attach plugin h.world) with ⟨outcome, world⟩
    cases outcome with
    | ok =>
      rw [enrol_of_ok hcall] at henrol ⊢
      refine henrol.trans (ih _ (hgrown.insert rfl ha.fresh) hrest ?_)
      simpa using hnames
    | failed e =>
      rw [enrol_of_ne_ok hcall (by simp)] at henrol ⊢
      refine henrol.trans ?_
      have hevict := strides_evictAll P done (h.initialised plugin d true (.failed e) world)
      simp only [Outcome.result]
      split
      · rename_i heq
        rw [heq] at hevict
        exact hevict
      · rename_i heq
        rw [heq] at hevict
        exact hevict
    | panicked m =>
      rw [enrol_of_ne_ok hcall (by simp)] at henrol ⊢
      exact henrol

theorem strides_registerPlugins (P : Plugins ω) (plugins : List Instance) (h : Host ω) :
    Strides P h (h.registerPlugins P plugins).2 := by
  have hdescribe := strides_describeAll P [] plugins h
  unfold registerPlugins
  split
  · rename_i heq
    rw [heq] at hdescribe
    exact hdescribe
  rename_i batch k heq
  rw [heq] at hdescribe
  refine hdescribe.trans ?_
  obtain ⟨-, hnames, -⟩ := describeAll_of_ok (congrArg Prod.fst heq)
  split
  · exact .refl
  rename_i ordered hordered
  split
  · exact .refl
  rename_i hall
  have hperm := (batchOrder_perm hnames hordered).1
  have henrol : Strides P k (k.enrolAll P [] ordered).2 := by
    refine strides_enrolAll [] (grown_nil _) hall ?_
    simpa using (hperm.map _).nodup_iff.2 hnames
  split
  · rename_i heq
    exact heq ▸ henrol
  · rename_i heq
    exact (heq ▸ henrol).trans (strides_bindEach P _ _)

/-! ## Registered plugins -/

theorem strides_enable (P : Plugins ω) (name : String) (h : Host ω) :
    Strides P h (h.enable P name).2 := by
  unfold enable
  split
  · exact .refl
  rename_i r hr
  split
  · exact .refl
  rename_i hoff
  split
  · exact .refl
  rename_i hready
  have hready : ∀ n ∈ r.descriptor.dependencies, h.isEnabled n = true := by
    intro n hn
    simpa using List.find?_eq_none.1 hready n hn
  have hoff : r.enabled = false := by simpa using hoff
  rcases hcall : P.callback .enable r.plugin h.world with ⟨outcome, world⟩
  have hserved : Relation.ReflTransGen (Served P) h.world world :=
    .single (.callback (by simp) hcall)
  have hfails : ∀ ho : outcome ≠ .ok, Strides P h (h.recalled .enable r outcome world) := fun ho =>
    .single (.of_names (.enableFails hr hoff hready ho) rfl (List.Subset.refl _) hserved)
  rw [runStage_eq hcall]
  cases outcome with
  | ok =>
    have henable : Strides P h ((h.recalled .enable r .ok world).modify name
        fun r => { r with enabled := true }) := by
      refine .single (.of_names (.enable hr hoff hready) rfl ?_ hserved)
      rw [modify_records, NameMap.names_modify]
      exact List.Subset.refl _
    simp only [Outcome.result]
    split
    · exact henable
    · exact henable.trans (strides_bindRoutes P _ _)
  | failed e => exact hfails (by simp)
  | panicked m => exact hfails (by simp)

theorem strides_disable (P : Plugins ω) (name : String) (h : Host ω) :
    Strides P h (h.disable P name).2 := by
  unfold disable
  split
  · exact .refl
  rename_i r hr
  split
  · exact .refl
  rename_i hon
  split
  · exact .refl
  rename_i hfree
  have hon : r.enabled = true := by simpa using hon
  rcases hcall : P.callback .disable r.plugin h.world with ⟨outcome, world⟩
  have hserved : Relation.ReflTransGen (Served P) h.world world :=
    .single (.callback (by simp) hcall)
  have hfails : ∀ ho : outcome ≠ .ok, Strides P h (h.recalled .disable r outcome world) := fun ho =>
    .single (.of_names (.disableFails hr hon hfree ho) rfl (List.Subset.refl _) hserved)
  rw [runStage_eq hcall]
  cases outcome with
  | ok =>
    have hdisable : Strides P h ((h.recalled .disable r .ok world).modify name
        fun r => { r with enabled := false }) := by
      refine .single (.of_names (.disable hr hon hfree) rfl ?_ hserved)
      rw [modify_records, NameMap.names_modify]
      exact List.Subset.refl _
    exact hdisable
  | failed e => exact hfails (by simp)
  | panicked m => exact hfails (by simp)

/-- The second half of a replacement: the old plugin was shut down, and the new one is admitted
with its enabled state, or turned away. -/
theorem strides_enrol_evicted {old : Record} {d : Descriptor} {gone : ω}
    (hold : h.records.get? d.name = some old)
    (hgone : Strides P h (h.evicted d.name old .ok gone))
    (ha : Admissible (h.records.erase d.name) [] d) (plugin : Instance) :
    Strides P h ((h.evicted d.name old .ok gone).enrol P plugin d old.enabled).2 := by
  cases hoff : old.enabled with
  | true => exact hgone.trans (strides_enrol P plugin ha)
  | false =>
    rcases hcall : P.callback .init plugin (P.attach plugin gone) with ⟨outcome, world⟩
    have hstart : Relation.ReflTransGen (Served P) gone world := .single (.start hcall)
    by_cases ho : outcome = .ok
    · subst ho
      rw [enrol_of_ok (h := h.evicted d.name old .ok gone) hcall]
      exact .single (.swap hold hoff ha ((hgone.served.trans hstart).tail (.routes plugin world))
        ⟨gone, world, hcall, rfl⟩)
    · rw [enrol_of_ne_ok (h := h.evicted d.name old .ok gone) hcall ho]
      exact hgone.tail (.of_names (.turnAway ha ho) rfl (List.Subset.refl _) hstart)

theorem strides_replace (P : Plugins ω) {name : String} {old : Record} (plugin : Instance)
    (hold : h.records.get? name = some old) : Strides P h (h.replace P name old plugin).2 := by
  rcases hasked : P.descriptor plugin h.world with ⟨d, asked⟩
  have hdescribe : Strides P h { h with world := asked } := by
    have := strides_describe P plugin h
    rwa [describe_of_eq hasked] at this
  unfold replace
  rw [describe_of_eq hasked]
  simp only
  split
  · exact hdescribe
  rename_i hname
  obtain rfl : d.name = name := by simpa using hname
  have hevict := hdescribe.trans (strides_evict P d.name { h with world := asked })
  rcases hcall : P.callback .shutdown old.plugin asked with ⟨outcome, gone⟩
  cases outcome with
  | ok =>
    rw [evict_of_some (h := { h with world := asked }) hold hcall (by simp)] at hevict ⊢
    simp only [Outcome.result]
    split
    · exact hevict
    rename_i hok
    have henrol := strides_enrol_evicted hold hevict (admissible_eq_ok_iff.1 hok) plugin
    split
    · rename_i heq
      rw [← heq]
      exact henrol
    rename_i heq
    split
    · exact (heq ▸ henrol).trans (strides_bindRoutes P _ _)
    · exact heq ▸ henrol
  | failed e =>
    rw [evict_of_some (h := { h with world := asked }) hold hcall (by simp)] at hevict ⊢
    exact hevict
  | panicked m =>
    rw [evict_of_panicked (h := { h with world := asked }) hold hcall] at hevict ⊢
    exact hevict

theorem strides_reloadWith (P : Plugins ω) (name : String) (plugin : Instance) (h : Host ω) :
    Strides P h (h.reloadWith P name plugin).2 := by
  unfold reloadWith
  split
  · exact .refl
  · rename_i hold
    exact strides_replace P _ hold

theorem strides_reload (P : Plugins ω) (name : String) (h : Host ω) :
    Strides P h (h.reload P name).2 := by
  unfold reload
  split
  · exact .refl
  · rename_i hold
    exact strides_replace P _ hold

theorem strides_execute (P : Plugins ω) (name : String) (params : Json) (h : Host ω) :
    Strides P h (h.execute P name params).2 := by
  unfold execute
  split
  · exact .refl
  rename_i r hr
  split
  · exact .refl
  have hexecute : Strides P h { h with world := (P.execute r.plugin params h.world).2 } :=
    .single (.of_names (.world h _) rfl (List.Subset.refl _)
      (.single (.execute r.plugin params h.world)))
  generalize P.execute r.plugin params h.world = executed at hexecute ⊢
  obtain ⟨execution, world⟩ := executed
  cases execution <;> exact hexecute

theorem answerOk_snd (result : Except Stop Unit × Host ω) : (answerOk result).2 = result.2 := by
  unfold answerOk
  split <;> rfl

/-- A command is a run of strides, however it ends, after which the router may change. -/
theorem strides_run (P : Plugins ω) (c : Command) (h : Host ω) :
    ∃ k, Strides P h k ∧ ((c.run P h).2 = k ∨ ∃ router, (c.run P h).2 = k.setRouter router) := by
  induction c generalizing h with
  | register plugin => exact ⟨_, strides_register P plugin h, Or.inl (answerOk_snd _)⟩
  | registerPlugins plugins =>
    exact ⟨_, strides_registerPlugins P plugins h, Or.inl (answerOk_snd _)⟩
  | unregister name => exact ⟨_, strides_evict P name h, Or.inl (answerOk_snd _)⟩
  | enable name => exact ⟨_, strides_enable P name h, Or.inl (answerOk_snd _)⟩
  | disable name => exact ⟨_, strides_disable P name h, Or.inl (answerOk_snd _)⟩
  | reload name => exact ⟨_, strides_reload P name h, Or.inl (answerOk_snd _)⟩
  | reloadWith name plugin =>
    exact ⟨_, strides_reloadWith P name plugin h, Or.inl (answerOk_snd _)⟩
  | setRouter router => exact ⟨h, .refl, Or.inr ⟨router, rfl⟩⟩
  | registerAllRoutes =>
    exact ⟨_, strides_registerAllRoutes P h, Or.inl (answerOk_snd _)⟩
  | shutdownAll => exact ⟨_, strides_evictAll P _ h, Or.inl (answerOk_snd _)⟩
  | execute name params =>
    refine ⟨_, strides_execute P name params h, Or.inl ?_⟩
    rw [Command.run]
    split <;> rename_i heq <;> rw [heq]
  | executeCalling name params command ih =>
    have hexecute := strides_execute P name params h
    rw [Command.run]
    split <;> rename_i heq <;> rw [heq] at hexecute
    · exact ⟨_, hexecute, Or.inl rfl⟩
    · rename_i called
      obtain ⟨k, hk, hend⟩ := ih called
      refine ⟨k, hexecute.trans hk, ?_⟩
      split
      · rename_i hrun
        rw [hrun] at hend
        exact hend
      · exact hend
    · exact ⟨_, hexecute, Or.inl rfl⟩
  | query q => exact ⟨h, .refl, Or.inl rfl⟩

theorem moves_setRouter (router : Option Router) (h : Host ω) : Moves h (h.setRouter router) := by
  cases router with
  | none => exact .single (.detachRouter h)
  | some router => exact .single (.attachRouter h router)

/-- A command is a run of moves, however it ends. -/
theorem moves_run (P : Plugins ω) (c : Command) (h : Host ω) : Moves h (c.run P h).2 := by
  obtain ⟨k, hk, hend | ⟨router, hend⟩⟩ := strides_run P c h
  · exact hend ▸ hk.moves
  · exact hend ▸ hk.moves.trans (moves_setRouter router k)

end

/-! ## Runs -/

/-- The hosts that a run leads to: commands are carried out one after the other, and between
them the world of the plugins may become any other one. -/
inductive Reachable (P : Plugins ω) : Host ω → Prop where
  | start (world : ω) : Reachable P (Host.start world)
  | command {h : Host ω} (c : Command) : Reachable P h → Reachable P (c.run P h).2
  | world {h : Host ω} (world : ω) : Reachable P h → Reachable P { h with world }

theorem Reachable.runAll {P : Plugins ω} {h : Host ω} (hr : Reachable P h)
    (commands : List Command) : Reachable P (h.runAll P commands) := by
  induction commands generalizing h with
  | nil => exact hr
  | cons c commands ih => exact ih (hr.command c)

theorem Moves.invariant {I : Host ω → Prop} (hmove : ∀ h k, Move h k → I h → I k) {h k : Host ω}
    (hmoves : Moves h k) (hi : I h) : I k := by
  induction hmoves with
  | refl => exact hi
  | tail _ hlast ih => exact hmove _ _ hlast ih

/-- What holds at the start and is kept by every move holds of every host that a run leads
to. -/
theorem Reachable.invariant {P : Plugins ω} {I : Host ω → Prop}
    (hstart : ∀ world, I (Host.start world)) (hmove : ∀ h k, Move h k → I h → I k) {h : Host ω}
    (hr : Reachable P h) : I h := by
  induction hr with
  | start world => exact hstart world
  | command c _ ih => exact Moves.invariant hmove (moves_run P c _) ih
  | world world _ ih => exact hmove _ _ (.world _ world) ih

end Host

/-- Plugins that report the same and end their callbacks the same way each time. They have no
routes, and there is no world that they change. -/
def Plugins.constant (descriptor : Instance → Descriptor) (outcome : Stage → Instance → Outcome) :
    Plugins Unit where
  descriptor plugin world := (descriptor plugin, world)
  routes _ world := ([], world)
  middlewares _ world := ([], world)
  attach _ world := world
  callback stage plugin world := (outcome stage plugin, world)
  execute _ params world := (.answered params, world)
  construct _ world := (⟨0⟩, world)
  intercept _ _ world := (none, world)
  serve _ _ world := (.empty 200, world)

end PluginHost

import Mathlib.Logic.Relation
import PluginHost.Registry.Command
import PluginHost.Proofs.Registry.Admission

/-!
# What a host can do

Every operation of the registry is made of a few moves: a plugin is admitted or turned away,
shut down and taken out, enabled or disabled, its routes are bound, the router changes, or only
the world of the plugins moves on. `Move` lists them with what has been checked when they are
made, and leaves open what the plugins do.

* `Move`: the moves.
* `Move.registered`: where the records come from.
* `enrol_of_ok`, `enrol_of_ne_ok`, `evict_of_some`, `evict_of_panicked`: what becomes of an
  admission and of an eviction.
* `bindRoutes_ends`: what becomes of the routes of a registered plugin.
* `describeAll_of_ok`: what is known of a batch whose members were asked what they are.
-/
namespace PluginHost

variable {ω : Type}

/-- How an operation ends that makes only one callback. -/
def Outcome.result (name : String) (stage : Stage) : Outcome → Except Stop Unit
  | .ok => .ok ()
  | .failed e => .error (.refused (.lifecycle name stage e))
  | .panicked m => .error (.panicked m)

namespace Host

/-- A call of a plugin: it is in the journal, and the world is what the plugin made of it. -/
def called (h : Host ω) (kind : CallKind) (plugin : Instance) (descriptor : Descriptor)
    (enabled : Bool) (outcome : Outcome) (world : ω) : Host ω :=
  { h with world, journal := ⟨kind, plugin, descriptor, enabled, outcome, h.records⟩ :: h.journal }

/-- A plugin was handed the host and initialised. -/
def initialised (h : Host ω) (plugin : Instance) (descriptor : Descriptor) (enabled : Bool)
    (outcome : Outcome) (world : ω) : Host ω :=
  (h.called .attach plugin descriptor enabled .ok world).called (.stage .init) plugin descriptor
    enabled outcome world

/-- A registered plugin was called back. -/
def recalled (h : Host ω) (stage : Stage) (r : Record) (outcome : Outcome) (world : ω) : Host ω :=
  h.called (.stage stage) r.plugin r.descriptor r.enabled outcome world

/-- A registered plugin was shut down and lost its record. -/
def evicted (h : Host ω) (name : String) (r : Record) (outcome : Outcome) (world : ω) : Host ω :=
  { h.recalled .shutdown r outcome world with records := h.records.erase name }

/-- A plugin got a record, and its routes are not bound yet. -/
def enter (h : Host ω) (plugin : Instance) (descriptor : Descriptor) (enabled : Bool)
    (routes : List Route) : Host ω :=
  { h with
    records := h.records.insert descriptor.name ⟨plugin, descriptor, routes, enabled, false⟩ }

@[simp] theorem called_records (h : Host ω) (kind : CallKind) (plugin : Instance)
    (descriptor : Descriptor) (enabled : Bool) (outcome : Outcome) (world : ω) :
    (h.called kind plugin descriptor enabled outcome world).records = h.records := rfl

@[simp] theorem initialised_records (h : Host ω) (plugin : Instance) (descriptor : Descriptor)
    (enabled : Bool) (outcome : Outcome) (world : ω) :
    (h.initialised plugin descriptor enabled outcome world).records = h.records := rfl

@[simp] theorem recalled_records (h : Host ω) (stage : Stage) (r : Record) (outcome : Outcome)
    (world : ω) : (h.recalled stage r outcome world).records = h.records := rfl

@[simp] theorem evicted_records (h : Host ω) (name : String) (r : Record) (outcome : Outcome)
    (world : ω) : (h.evicted name r outcome world).records = h.records.erase name := rfl

@[simp] theorem enter_records (h : Host ω) (plugin : Instance) (d : Descriptor) (enabled : Bool)
    (routes : List Route) : (h.enter plugin d enabled routes).records =
      h.records.insert d.name ⟨plugin, d, routes, enabled, false⟩ := rfl

@[simp] theorem modify_records (h : Host ω) (name : String) (f : Record → Record) :
    (h.modify name f).records = h.records.modify name f := rfl

@[simp] theorem setRouter_none_records (h : Host ω) :
    (h.setRouter none).records = h.records.map fun r => { r with bound := false } := rfl

/-! ## Moves -/

/-- One move of a host. -/
inductive Move : Host ω → Host ω → Prop where
  | world (h : Host ω) (world : ω) : Move h { h with world }
  | enrol {h : Host ω} {plugin : Instance} {d : Descriptor} {enabled : Bool}
      {routes : List Route} {world : ω} (ha : Admissible h.records [] d) :
      Move h ((h.initialised plugin d enabled .ok world).enter plugin d enabled routes)
  | turnAway {h : Host ω} {plugin : Instance} {d : Descriptor} {enabled : Bool}
      {outcome : Outcome} {world : ω} (ha : Admissible h.records [] d) (ho : outcome ≠ .ok) :
      Move h (h.initialised plugin d enabled outcome world)
  | evict {h : Host ω} {name : String} {r : Record} {outcome : Outcome} {world : ω}
      (hr : h.records.get? name = some r) (ho : ∀ m, outcome ≠ .panicked m) :
      Move h { h.recalled .shutdown r outcome world with records := h.records.erase name }
  | keep {h : Host ω} {name : String} {r : Record} {message : String} {world : ω}
      (hr : h.records.get? name = some r) :
      Move h (h.recalled .shutdown r (.panicked message) world)
  | enable {h : Host ω} {name : String} {r : Record} {world : ω}
      (hr : h.records.get? name = some r) (hoff : r.enabled = false)
      (hready : ∀ n ∈ r.descriptor.dependencies, h.isEnabled n = true) :
      Move h ((h.recalled .enable r .ok world).modify name fun r => { r with enabled := true })
  | enableFails {h : Host ω} {name : String} {r : Record} {outcome : Outcome} {world : ω}
      (hr : h.records.get? name = some r) (hoff : r.enabled = false)
      (hready : ∀ n ∈ r.descriptor.dependencies, h.isEnabled n = true) (ho : outcome ≠ .ok) :
      Move h (h.recalled .enable r outcome world)
  | disable {h : Host ω} {name : String} {r : Record} {world : ω}
      (hr : h.records.get? name = some r) (hon : r.enabled = true)
      (hfree : h.blocker? name = none) :
      Move h ((h.recalled .disable r .ok world).modify name fun r => { r with enabled := false })
  | disableFails {h : Host ω} {name : String} {r : Record} {outcome : Outcome} {world : ω}
      (hr : h.records.get? name = some r) (hon : r.enabled = true)
      (hfree : h.blocker? name = none) (ho : outcome ≠ .ok) :
      Move h (h.recalled .disable r outcome world)
  | bind {h : Host ω} {name : String} {r : Record} {router : Router}
      {defaults : List Middleware} {t : Route.Table} {world : ω}
      (hr : h.records.get? name = some r) (hrouter : h.router = some router)
      (hbind : router.bindAll (h.table router.table) (r.routes.map (Route.bind name defaults)) =
        (.ok (), t)) :
      Move h ({ h with world, tables := h.tables.insert router.table t }.modify name
        fun r => { r with bound := true })
  | bindFails {h : Host ω} {name : String} {r : Record} {router : Router}
      {defaults : List Middleware} {e : Route.Rejection} {t : Route.Table} {world : ω}
      (hr : h.records.get? name = some r) (hrouter : h.router = some router)
      (hbind : router.bindAll (h.table router.table) (r.routes.map (Route.bind name defaults)) =
        (.error e, t)) :
      Move h { h with world, tables := h.tables.insert router.table t }
  | attachRouter (h : Host ω) (router : Router) : Move h (h.setRouter (some router))
  | detachRouter (h : Host ω) : Move h (h.setRouter none)

/-- A run of moves. -/
abbrev Moves : Host ω → Host ω → Prop :=
  Relation.ReflTransGen Move

section
variable {h k : Host ω}

theorem Move.journal_suffix (hm : Move h k) : h.journal <:+ k.journal := by
  cases hm with
  | enrol | turnAway => exact (List.suffix_cons _ _).trans (List.suffix_cons _ _)
  | evict | keep | enable | enableFails | disable | disableFails => exact List.suffix_cons _ _
  | world | bind | bindFails | attachRouter | detachRouter => exact List.suffix_refl _

/-- Who is registered after a move was registered before as the same plugin, or has just been
admitted and initialised. -/
theorem Move.registered (hm : Move h k) {n : String} {r : Record}
    (hr : k.records.get? n = some r) :
    (∃ s, h.records.get? n = some s ∧ s.plugin = r.plugin ∧ s.descriptor = r.descriptor ∧
        s.routes = r.routes) ∨
      Admissible h.records [] r.descriptor ∧ r.descriptor.name = n ∧
        ∃ c ∈ k.journal, c.kind = .stage .init ∧ c.outcome = .ok ∧ c.plugin = r.plugin ∧
          c.descriptor = r.descriptor := by
  cases hm with
  | enrol ha =>
    rw [enter_records, NameMap.get?_insert] at hr
    split at hr
    · rename_i hn
      cases hr
      exact Or.inr ⟨ha, hn.symm, _, List.mem_cons_self, rfl, rfl, rfl, rfl⟩
    · exact Or.inl ⟨r, hr, rfl, rfl, rfl⟩
  | evict => exact Or.inl ⟨r, NameMap.get?_of_erase hr, rfl, rfl, rfl⟩
  | enable | disable | bind =>
    obtain ⟨s, hs, rfl | rfl⟩ := NameMap.get?_of_modify hr
    · exact Or.inl ⟨_, hs, rfl, rfl, rfl⟩
    · exact Or.inl ⟨_, hs, rfl, rfl, rfl⟩
  | detachRouter =>
    rw [setRouter_none_records, NameMap.get?_map] at hr
    obtain ⟨s, hs, rfl⟩ := Option.map_eq_some_iff.1 hr
    exact Or.inl ⟨s, hs, rfl, rfl, rfl⟩
  | world | turnAway | keep | enableFails | disableFails | bindFails | attachRouter =>
    exact Or.inl ⟨r, hr, rfl, rfl, rfl⟩

theorem not_mem_dependencies_of_blocker? {name : String} (hfree : h.blocker? name = none)
    {r : Record} (hr : r ∈ h.records.values) (hon : r.enabled = true)
    (hne : r.descriptor.name ≠ name) : name ∉ r.descriptor.dependencies := by
  have := List.find?_eq_none.1 hfree r hr
  simpa [hon, hne, Descriptor.dependsOn] using this

end

section
variable {P : Plugins ω} {h : Host ω}

/-! ## Calls -/

theorem runStage_eq {stage : Stage} {plugin : Instance} {outcome : Outcome} {world : ω}
    (hcall : P.callback stage plugin h.world = (outcome, world)) (d : Descriptor)
    (enabled : Bool) :
    h.runStage P stage plugin d enabled = (outcome.result d.name stage,
      h.called (.stage stage) plugin d enabled outcome world) := by
  unfold runStage call
  rw [hcall]
  cases outcome <;> rfl

theorem enrol_of_ok {plugin : Instance} {world : ω}
    (hcall : P.callback .init plugin (P.attach plugin h.world) = (.ok, world)) (d : Descriptor)
    (enabled : Bool) :
    h.enrol P plugin d enabled = (.ok (),
      (h.initialised plugin d enabled .ok (P.routes plugin world).2).enter plugin d enabled
        (P.routes plugin world).1) := by
  unfold enrol
  rw [runStage_eq (h := h.attach P plugin d enabled) hcall]
  rfl

theorem enrol_of_ne_ok {plugin : Instance} {outcome : Outcome} {world : ω}
    (hcall : P.callback .init plugin (P.attach plugin h.world) = (outcome, world))
    (ho : outcome ≠ .ok) (d : Descriptor) (enabled : Bool) :
    h.enrol P plugin d enabled =
      (outcome.result d.name .init, h.initialised plugin d enabled outcome world) := by
  unfold enrol
  rw [runStage_eq (h := h.attach P plugin d enabled) hcall]
  cases outcome with
  | ok => exact absurd rfl ho
  | failed e => rfl
  | panicked m => rfl

theorem evict_of_none {name : String} (hr : h.records.get? name = none) :
    h.evict P name = (.ok (), h) := by
  rw [evict, hr]

theorem evict_of_some {name : String} {r : Record} {outcome : Outcome} {world : ω}
    (hr : h.records.get? name = some r)
    (hcall : P.callback .shutdown r.plugin h.world = (outcome, world))
    (ho : ∀ m, outcome ≠ .panicked m) :
    h.evict P name = (outcome.result r.descriptor.name .shutdown,
      { h.recalled .shutdown r outcome world with records := h.records.erase name }) := by
  unfold evict
  rw [hr]
  simp only [runStage_eq hcall]
  cases outcome with
  | ok => rfl
  | failed e => rfl
  | panicked m => exact absurd rfl (ho m)

theorem evict_of_panicked {name : String} {r : Record} {message : String} {world : ω}
    (hr : h.records.get? name = some r)
    (hcall : P.callback .shutdown r.plugin h.world = (.panicked message, world)) :
    h.evict P name =
      (.error (.panicked message), h.recalled .shutdown r (.panicked message) world) := by
  unfold evict
  rw [hr]
  simp only [runStage_eq hcall]
  rfl

theorem evictAll_cons_of_some {name : String} {r : Record} {outcome : Outcome} {world : ω}
    (hr : h.records.get? name = some r)
    (hcall : P.callback .shutdown r.plugin h.world = (outcome, world))
    (ho : ∀ m, outcome ≠ .panicked m) (names : List String) :
    h.evictAll P (name :: names) = evictAll P names
      { h.recalled .shutdown r outcome world with records := h.records.erase name } := by
  rw [evictAll, evict_of_some hr hcall ho]
  cases outcome with
  | ok => rfl
  | failed e => rfl
  | panicked m => exact absurd rfl (ho m)

theorem evictAll_cons_of_panicked {name : String} {r : Record} {message : String} {world : ω}
    (hr : h.records.get? name = some r)
    (hcall : P.callback .shutdown r.plugin h.world = (.panicked message, world))
    (names : List String) :
    h.evictAll P (name :: names) =
      (.error (.panicked message), h.recalled .shutdown r (.panicked message) world) := by
  rw [evictAll, evict_of_panicked hr hcall]

/-! ## Routes -/

theorem table_insert (h : Host ω) (name other : String) (t : Route.Table) :
    ((h.tables.insert name t).get? other).getD ∅ = if other = name then t else h.table other := by
  rw [NameMap.get?_insert]
  split
  · rfl
  · rfl

theorem bindRoutes_of_no_router (hrouter : h.router = none) (name : String) :
    h.bindRoutes P name = (.ok (), h) := by
  rw [bindRoutes, hrouter]

/-- The routes of a registered plugin are bound, or rejected by the router. -/
theorem bindRoutes_ends {name : String} {r : Record} (hr : h.records.get? name = some r) :
    (h.bindRoutes P name).1 = .ok () ∨
      ∃ e, (h.bindRoutes P name).1 = .error (.refused (.routeBinding name e)) := by
  unfold bindRoutes
  split
  · exact Or.inl rfl
  rw [hr]
  simp only
  split
  · rename_i e _ _
    exact Or.inr ⟨e, rfl⟩
  · exact Or.inl rfl

/-- No descriptor changes when routes are bound. -/
theorem bindRoutes_descriptor (P : Plugins ω) (name : String) (h : Host ω) (n : String) :
    ((h.bindRoutes P name).2.records.get? n).map (·.descriptor) =
      (h.records.get? n).map (·.descriptor) := by
  unfold bindRoutes
  split
  · rfl
  split
  · rfl
  simp only
  split
  · rfl
  · rw [modify_records, NameMap.get?_modify]
    split
    · rw [Option.map_map]
      rfl
    · rfl

/-- The routes were bound without refusal: the table has them, and the plugin is marked. -/
theorem bindRoutes_of_ok {k : Host ω} {name : String} {router : Router}
    (hok : h.bindRoutes P name = (.ok (), k)) (hrouter : h.router = some router) :
    ∃ r t, h.records.get? name = some r ∧
      router.bindAll (h.table router.table)
        (r.routes.map (Route.bind name (P.middlewares r.plugin h.world).1)) = (.ok (), t) ∧
      k = { h with
        world := (P.middlewares r.plugin h.world).2
        tables := h.tables.insert router.table t }.modify name
          fun r => { r with bound := true } := by
  unfold bindRoutes at hok
  split at hok
  · rename_i hnone
    rw [hrouter] at hnone
    cases hnone
  rename_i attached hattached
  obtain rfl : router = attached := Option.some.inj (hrouter.symm.trans hattached)
  split at hok
  · cases hok
  rename_i r hr
  simp only at hok
  split at hok
  · cases hok
  · rename_i t hbind
    cases hok
    exact ⟨r, t, hr, hbind, rfl⟩

/-! ## Descriptors -/

theorem describe_of_eq {plugin : Instance} {d : Descriptor} {world : ω}
    (hcall : P.descriptor plugin h.world = (d, world)) :
    h.describe P plugin = (d, { h with world }) := by
  rw [describe, hcall]

theorem describeAll_eq (P : Plugins ω) (seen : List String) (plugins : List Instance)
    (h : Host ω) : ∃ world, (h.describeAll P seen plugins).2 = { h with world } := by
  induction plugins generalizing seen h with
  | nil => exact ⟨h.world, rfl⟩
  | cons plugin plugins ih =>
    rcases hcall : P.descriptor plugin h.world with ⟨d, asked⟩
    rw [describeAll, describe_of_eq hcall]
    simp only
    split
    · exact ⟨_, rfl⟩
    · obtain ⟨world, hworld⟩ := ih (d.name :: seen) { h with world := asked }
      refine ⟨world, ?_⟩
      split
      · rename_i heq
        rw [heq] at hworld
        exact hworld
      · rename_i heq
        rw [heq] at hworld
        exact hworld

/-- A batch that is asked without finding a name twice: its members in their order, under
distinct names. -/
theorem describeAll_of_ok {seen : List String} {plugins : List Instance}
    {batch : List Candidate} (hok : (h.describeAll P seen plugins).1 = .ok batch) :
    batch.map (·.1) = plugins ∧ (batch.map (·.2.name)).Nodup ∧
      ∀ n ∈ batch.map (·.2.name), n ∉ seen := by
  induction plugins generalizing seen h batch with
  | nil =>
    cases hok
    simp
  | cons plugin plugins ih =>
    rcases hcall : P.descriptor plugin h.world with ⟨d, asked⟩
    rw [describeAll, describe_of_eq hcall] at hok
    simp only at hok
    split at hok
    · cases hok
    rename_i hseen
    split at hok
    · cases hok
    rename_i rest _ heq
    cases hok
    obtain ⟨hplugins, hnodup, hfresh⟩ := ih (congrArg Prod.fst heq)
    refine ⟨by simp [hplugins], ?_, ?_⟩
    · rw [List.map_cons, List.nodup_cons]
      exact ⟨fun hmem => hfresh _ hmem List.mem_cons_self, hnodup⟩
    · intro n hn
      rcases List.mem_cons.1 hn with rfl | hn
      · simpa using hseen
      · exact fun hmem => hfresh n hn (List.mem_cons_of_mem _ hmem)

end

end Host

end PluginHost

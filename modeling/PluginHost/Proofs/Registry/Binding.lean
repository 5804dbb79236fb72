import PluginHost.Proofs.Dependency.Order
import PluginHost.Proofs.Registry.Coherence
import PluginHost.Proofs.Route.Table

/-!
# Bound routes

The mark of a plugin that its routes are bound goes with the record, and the routes go into a
table that belongs to somebody else. Tables lose no entries, so what a mark says stays true of
the table that the routes were bound into. It need not be the table that is attached now: a
router may be put in the place of another one, and only detaching forgets the marks.

* `Truthful`: the invariant, for the tables that a plugin may have its routes in.
* `truthful_stride`: it is kept as long as the router stays.
* `Tracked`: the runs, with the tables that were attached since no plugin was marked.
* `settled_of_registerAllRoutes`: when all routes were bound without refusal, all are marked.
* `tracked_bound`: where the routes of the marked plugins are, and of all of them after that.
* `routes_left_behind`: a plugin whose mark speaks of a table that is not attached any more.
-/
namespace PluginHost

variable {ω : Type}

/-- The routes of a plugin, as they are reported, have entries in a table. -/
def Record.BoundIn (r : Record) (t : Route.Table) : Prop :=
  ∀ s ∈ r.summaries, (s.method, s.path) ∈ t.keys

theorem Record.BoundIn.mono {r s : Record} {t next : Route.Table} (h : r.BoundIn t)
    (hkeys : t.keys ⊆ next.keys) (hroutes : s.routes = r.routes)
    (hdescriptor : s.descriptor = r.descriptor) : s.BoundIn next := by
  intro summary hsummary
  rw [Record.summaries, hroutes, hdescriptor] at hsummary
  exact hkeys (h summary hsummary)

/-- A router that binds the routes of a plugin under its name leaves them all in the table. -/
theorem Record.boundIn_of_bindAll {router : Router} {t next : Route.Table} {r : Record}
    {name : String} {defaults : List Middleware} (hname : r.descriptor.name = name)
    (h : router.bindAll t (r.routes.map (Route.bind name defaults)) = (.ok (), next)) :
    r.BoundIn next := by
  subst hname
  intro s hs
  obtain ⟨route, hroute, rfl⟩ := List.mem_map.1 hs
  exact Router.mem_keys_of_bindAll h (List.mem_map_of_mem hroute)

namespace Host

/-- The names of the tables that are attached, one or none. -/
def attached (h : Host ω) : List String :=
  (h.router.map (·.table)).toList

theorem mem_attached {h : Host ω} {router : Router} (hrouter : h.router = some router) :
    router.table ∈ h.attached := by
  simp [attached, hrouter]

/-- A plugin that is marked has its routes in one of the tables where they may be. -/
def Truthful (place : String → String → Prop) (h : Host ω) : Prop :=
  ∀ n r, h.records.get? n = some r → r.bound = true → ∃ t, place n t ∧ r.BoundIn (h.table t)

section
variable {place : String → String → Prop} {h k : Host ω}

/-- Nothing is lost as long as no plugin is marked, no record gets other routes and the tables
keep what they have. -/
theorem Truthful.of_fewer (hi : h.Truthful place)
    (htables : ∀ t, (h.table t).keys ⊆ (k.table t).keys)
    (hold : ∀ {n r}, k.records.get? n = some r → r.bound = true →
      ∃ s, h.records.get? n = some s ∧ s.bound = true ∧ s.routes = r.routes ∧
        s.descriptor = r.descriptor) : k.Truthful place := by
  intro n r hr hbound
  obtain ⟨s, hs, hmarked, hroutes, hdescriptor⟩ := hold hr hbound
  obtain ⟨t, ht, hin⟩ := hi n s hs hmarked
  exact ⟨t, ht, hin.mono (htables t) hroutes.symm hdescriptor.symm⟩

theorem Truthful.mono {place' : String → String → Prop} (hi : h.Truthful place)
    (hplace : ∀ n t, place n t → place' n t) : h.Truthful place' := by
  intro n r hr hbound
  obtain ⟨t, ht, hin⟩ := hi n r hr hbound
  exact ⟨t, hplace n t ht, hin⟩

/-- A table that gets more entries. -/
theorem Truthful.insert_table (hi : h.Truthful place) {name : String} {t : Route.Table}
    (hkeys : (h.table name).keys ⊆ t.keys) (world : ω) :
    Truthful place { h with world, tables := h.tables.insert name t } := by
  refine hi.of_fewer (fun other => ?_) fun hr hbound => ⟨_, hr, hbound, rfl, rfl⟩
  change _ ⊆ (((h.tables.insert name t).get? other).getD ∅).keys
  rw [table_insert]
  split
  · rename_i heq
    exact heq ▸ hkeys
  · exact List.Subset.refl _

theorem Truthful.of_eq (hi : h.Truthful place) (hrecords : k.records = h.records)
    (htables : k.tables = h.tables) : k.Truthful place := by
  refine hi.of_fewer (fun t => ?_) fun hr hbound => ⟨_, hrecords ▸ hr, hbound, rfl, rfl⟩
  rw [table, table, htables]
  exact List.Subset.refl _

theorem Truthful.erase (hi : h.Truthful place) (name : String) :
    Truthful place { h with records := h.records.erase name } :=
  hi.of_fewer (fun _ => List.Subset.refl _) fun hr hbound =>
    ⟨_, NameMap.get?_of_erase hr, hbound, rfl, rfl⟩

/-- Who gets a record has no mark yet. -/
theorem Truthful.enter (hi : h.Truthful place) (plugin : Instance) (d : Descriptor)
    (enabled : Bool) (routes : List Route) : (h.enter plugin d enabled routes).Truthful place := by
  refine hi.of_fewer (fun _ => List.Subset.refl _) fun {n r} hr hbound => ?_
  rw [enter_records, NameMap.get?_insert] at hr
  split at hr
  · cases hr
    cases hbound
  · exact ⟨r, hr, hbound, rfl, rfl⟩

/-- A record that is changed but keeps its routes and gets no mark. -/
theorem Truthful.modify (hi : h.Truthful place) (name : String) {f : Record → Record}
    (hf : ∀ r, (f r).bound = r.bound ∧ (f r).routes = r.routes ∧
      (f r).descriptor = r.descriptor) : (h.modify name f).Truthful place := by
  refine hi.of_fewer (fun _ => List.Subset.refl _) fun {n r} hr hbound => ?_
  obtain ⟨s, hs, rfl | rfl⟩ := NameMap.get?_of_modify hr
  · exact ⟨_, hs, hbound, rfl, rfl⟩
  · obtain ⟨hmark, hroutes, hdescriptor⟩ := hf s
    exact ⟨s, hs, hmark ▸ hbound, hroutes.symm, hdescriptor.symm⟩

/-- The routes of a plugin were bound: it is marked, and they are in the attached table. -/
theorem Truthful.bind (hi : h.Truthful place) (hcoherent : Coherent h.records) {name : String}
    {r : Record} {router : Router} {defaults : List Middleware} {t : Route.Table} (world : ω)
    (hr : h.records.get? name = some r) (hplace : place name router.table)
    (hbind : router.bindAll (h.table router.table) (r.routes.map (Route.bind name defaults)) =
      (.ok (), t)) :
    ({ h with world, tables := h.tables.insert router.table t }.modify name
      fun r => { r with bound := true }).Truthful place := by
  have hkeys : (h.table router.table).keys ⊆ t.keys := Router.keys_subset_of_bindAll hbind
  intro n s hs hbound
  rw [modify_records, NameMap.get?_modify] at hs
  split at hs
  · rename_i hname
    subst hname
    obtain ⟨q, hq, rfl⟩ := Option.map_eq_some_iff.1 hs
    obtain rfl : q = r := Option.some.inj (hq.symm.trans hr)
    refine ⟨router.table, hplace, ?_⟩
    change Record.BoundIn _ (((h.tables.insert router.table t).get? router.table).getD ∅)
    rw [table_insert, if_pos rfl]
    exact (Record.boundIn_of_bindAll (hcoherent.named hr) hbind).mono (List.Subset.refl _) rfl rfl
  · exact hi.insert_table hkeys world n s hs hbound

/-- Marks are forgotten with the router. -/
theorem bound_of_detached {n : String} {r : Record}
    (hr : (h.setRouter none).records.get? n = some r) : r.bound = false := by
  rw [setRouter_none_records, NameMap.get?_map] at hr
  obtain ⟨s, -, rfl⟩ := Option.map_eq_some_iff.1 hr
  rfl

theorem truthful_of_no_mark (hnone : ∀ n r, h.records.get? n = some r → r.bound = false) :
    h.Truthful place := by
  intro n r hr hbound
  rw [hnone n r hr] at hbound
  cases hbound

theorem Truthful.setRouter (hi : h.Truthful place) (router : Option Router) :
    (h.setRouter router).Truthful place := by
  cases router with
  | none => exact truthful_of_no_mark fun _ _ => bound_of_detached
  | some router => exact hi.insert_table (List.Subset.refl _) h.world

/-- Every stride leaves the marks truthful, if routes may be in the table that is attached. -/
theorem truthful_stride {P : Plugins ω} (hs : Stride P h k) (hcoherent : Coherent h.records)
    (hplace : ∀ n router, h.router = some router → place n router.table)
    (hi : h.Truthful place) : k.Truthful place := by
  cases hs with
  | @swap old d _ _ gone =>
    have hgone : (h.evicted d.name old .ok gone).Truthful place :=
      (hi.of_eq (k := h.recalled .shutdown old .ok gone) rfl rfl).erase d.name
    exact Truthful.enter (hgone.of_eq rfl rfl) _ _ _ _
  | move hmove =>
    cases hmove with
    | world => exact hi
    | enrol => exact Truthful.enter (hi.of_eq rfl rfl) _ _ _ _
    | turnAway => exact hi.of_eq rfl rfl
    | @evict name r outcome world =>
      exact (hi.of_eq (k := h.recalled .shutdown r outcome world) rfl rfl).erase name
    | keep => exact hi.of_eq rfl rfl
    | enable => exact Truthful.modify (hi.of_eq rfl rfl) _ fun _ => ⟨rfl, rfl, rfl⟩
    | enableFails => exact hi.of_eq rfl rfl
    | disable => exact Truthful.modify (hi.of_eq rfl rfl) _ fun _ => ⟨rfl, rfl, rfl⟩
    | disableFails => exact hi.of_eq rfl rfl
    | bind hr hrouter hbind =>
      exact hi.bind hcoherent _ hr (hplace _ _ hrouter) hbind
    | bindFails _ _ hbind => exact hi.insert_table (Router.keys_subset_of_bindAll hbind) _
    | attachRouter router => exact hi.setRouter (some router)
    | detachRouter => exact hi.setRouter none

theorem truthful_strides {P : Plugins ω} (hs : Strides P h k) (hcoherent : Coherent h.records)
    (hplace : ∀ n router, h.router = some router → place n router.table)
    (hi : h.Truthful place) : k.Truthful place := by
  have hboth : k.router = h.router ∧ k.Truthful place := by
    refine Strides.invariant (I := fun k => k.router = h.router ∧ k.Truthful place) ?_ hs
      hcoherent ⟨rfl, hi⟩
    rintro g k hg hlast ⟨hrouter, hi⟩
    exact ⟨hlast.router.trans hrouter, truthful_stride hlast hg (hrouter ▸ hplace) hi⟩
  exact hboth.2

end

/-! ## All routes -/

section
variable {P : Plugins ω} {h k : Host ω}

/-- There is no record under the name, or it is marked. -/
def Settled (h : Host ω) (name : String) : Prop :=
  ∀ r, h.records.get? name = some r → r.bound = true

theorem settled_iff {name : String} :
    ((h.records.get? name).map (·.bound)).getD true = true ↔ h.Settled name := by
  cases hr : h.records.get? name with
  | none => simp [Settled, hr]
  | some r => simp [Settled, hr]

/-- Binding the routes of a plugin marks it, and no mark is taken away. -/
theorem settled_of_bindRoutes {name : String} (hrouter : h.router ≠ none)
    (hok : h.bindRoutes P name = (.ok (), k)) :
    k.Settled name ∧ (∀ n, h.Settled n → k.Settled n) ∧ k.router = h.router := by
  obtain ⟨router, hattached⟩ := Option.ne_none_iff_exists'.1 hrouter
  obtain ⟨s, t, -, -, rfl⟩ := bindRoutes_of_ok hok hattached
  refine ⟨fun r hr => ?_, fun n hn r hr => ?_, rfl⟩
  · rw [modify_records, NameMap.get?_modify, if_pos rfl] at hr
    obtain ⟨s, -, rfl⟩ := Option.map_eq_some_iff.1 hr
    rfl
  · obtain ⟨s, hs, rfl | rfl⟩ := NameMap.get?_of_modify hr
    · exact hn r hs
    · rfl

theorem settled_of_bindUnbound {names : List String} (hrouter : h.router ≠ none)
    (hok : h.bindUnbound P names = (.ok (), k)) :
    (∀ n ∈ names, k.Settled n) ∧ ∀ n, h.Settled n → k.Settled n := by
  induction names generalizing h with
  | nil =>
    cases hok
    exact ⟨by simp, fun _ => id⟩
  | cons name names ih =>
    unfold bindUnbound at hok
    split at hok
    · rename_i hsettled
      obtain ⟨hnames, hkept⟩ := ih hrouter hok
      refine ⟨fun n hn => ?_, hkept⟩
      rcases List.mem_cons.1 hn with rfl | hn
      · exact hkept n (settled_iff.1 hsettled)
      · exact hnames n hn
    split at hok
    · rename_i between hbind
      obtain ⟨hname, hbefore, hsame⟩ := settled_of_bindRoutes hrouter hbind
      obtain ⟨hnames, hkept⟩ := ih (hsame ▸ hrouter) hok
      refine ⟨fun n hn => ?_, fun n hn => hkept n (hbefore n hn)⟩
      rcases List.mem_cons.1 hn with rfl | hn
      · exact hkept n hname
      · exact hnames n hn
    · cases hok

/-- When the routes of all plugins were bound without refusal, all plugins are marked. -/
theorem settled_of_registerAllRoutes (hcoherent : Coherent h.records)
    (hok : h.registerAllRoutes P = (.ok (), k)) (n : String) : k.Settled n := by
  unfold registerAllRoutes at hok
  split at hok
  · cases hok
  rename_i hrouter
  obtain ⟨hnames, hkept⟩ := settled_of_bindUnbound (by simpa using hrouter) hok
  cases hr : h.records.get? n with
  | none => exact hkept n fun r hs => by simp [hr] at hs
  | some r =>
    have hmem : n ∈ h.records.names :=
      NameMap.mem_names_iff.2 (NameMap.contains_iff.2 ⟨r, hr⟩)
    exact hnames n (mem_dependencyOrder hcoherent hmem)

end

/-! ## Runs and their tables -/

/-- The hosts that a run leads to, with the names of the tables that were attached. Those from
before a moment when no plugin was marked are of no account. -/
inductive Tracked (P : Plugins ω) : List String → Host ω → Prop where
  | start (world : ω) : Tracked P [] (Host.start world)
  | command {tables : List String} {h : Host ω} (c : Command) (ht : Tracked P tables h) :
      Tracked P ((c.run P h).2.attached ++ tables) (c.run P h).2
  | world {tables : List String} {h : Host ω} (world : ω) (ht : Tracked P tables h) :
      Tracked P tables { h with world }
  | forget {tables : List String} {h : Host ω} (ht : Tracked P tables h)
      (hnone : ∀ n r, h.records.get? n = some r → r.bound = false) : Tracked P h.attached h

section
variable {P : Plugins ω} {tables : List String} {h : Host ω}

theorem Tracked.reachable (ht : Tracked P tables h) : Reachable P h := by
  induction ht with
  | start world => exact .start world
  | command c _ ih => exact ih.command c
  | world world _ ih => exact ih.world world
  | forget _ _ ih => exact ih

theorem Reachable.tracked (hr : Reachable P h) : ∃ tables, Tracked P tables h := by
  induction hr with
  | start world => exact ⟨_, .start world⟩
  | command c _ ih =>
    obtain ⟨tables, ht⟩ := ih
    exact ⟨_, ht.command c⟩
  | world world _ ih =>
    obtain ⟨tables, ht⟩ := ih
    exact ⟨tables, ht.world world⟩

theorem Tracked.attached (ht : Tracked P tables h) : h.attached ⊆ tables := by
  induction ht with
  | start => exact List.nil_subset _
  | command => exact List.subset_append_left _ _
  | world _ _ ih => exact ih
  | forget => exact List.Subset.refl _

/-- A marked plugin has its routes in one of the tables of the run. -/
theorem Tracked.truthful (ht : Tracked P tables h) : h.Truthful fun _ t => t ∈ tables := by
  induction ht with
  | start => exact fun n r hr => by simp [Host.start] at hr
  | @command tables h c ht ih =>
    obtain ⟨k, hk, hend⟩ := strides_run P c h
    have hplace : ∀ (n : String) router, h.router = some router → router.table ∈ tables :=
      fun _ _ hrouter => ht.attached (mem_attached hrouter)
    have hi : k.Truthful fun _ t => t ∈ tables :=
      truthful_strides hk ht.reachable.coherent hplace ih
    have hlast : (c.run P h).2.Truthful fun _ t => t ∈ tables := by
      rcases hend with hend | ⟨router, hend⟩
      · exact hend ▸ hi
      · exact hend ▸ hi.setRouter router
    exact hlast.mono fun _ t hmem => List.mem_append_right _ hmem
  | world _ _ ih => exact ih
  | forget _ hnone => exact truthful_of_no_mark hnone

/-- A marked plugin has its routes in one of the tables that were attached since no plugin was
marked; and after a router is attached and all routes are bound without refusal, every plugin
has its routes in the table of that router, if it had no mark or no other table was attached. -/
theorem tracked_bound (ht : Tracked P tables h) :
    (∀ n r routes, h.records.get? n = some r → r.bound = true →
      h.allRoutes.get? n = some routes →
      ∃ t ∈ tables, ∀ s ∈ routes, (s.method, s.path) ∈ (h.table t).keys) ∧
    ∀ router k, (h.setRouter (some router)).registerAllRoutes P = (.ok (), k) →
      ∀ n routes, k.allRoutes.get? n = some routes →
        (∀ r, h.records.get? n = some r → r.bound = true → ∀ t ∈ tables, t = router.table) →
        ∀ s ∈ routes, (s.method, s.path) ∈ (k.table router.table).keys := by
  constructor
  · intro n r routes hr hbound hroutes
    rw [allRoutes, NameMap.get?_map, hr] at hroutes
    cases hroutes
    exact ht.truthful n r hr hbound
  · intro router k hok n routes hroutes honly
    have hcoherent := coherent_setRouter ht.reachable.coherent (some router)
    -- a mark that was there before may speak of any table of the run, a new one only of this
    have hi : (h.setRouter (some router)).Truthful fun n t =>
        t = router.table ∨ t ∈ tables ∧ ∃ r, h.records.get? n = some r ∧ r.bound = true := by
      intro n r hr hbound
      obtain ⟨t, hmem, hin⟩ := ht.truthful.setRouter (some router) n r hr hbound
      exact ⟨t, Or.inr ⟨hmem, r, hr, hbound⟩, hin⟩
    have hstrides := strides_registerAllRoutes P (h.setRouter (some router))
    rw [hok] at hstrides
    have hend := truthful_strides hstrides hcoherent (fun n _ hrouter => by
      cases hrouter
      exact Or.inl rfl) hi
    rw [allRoutes, NameMap.get?_map] at hroutes
    obtain ⟨r, hr, rfl⟩ := Option.map_eq_some_iff.1 hroutes
    obtain ⟨t, hplace, hin⟩ := hend n r hr (settled_of_registerAllRoutes hcoherent hok n r hr)
    obtain rfl : t = router.table := by
      rcases hplace with heq | ⟨hmem, old, hold, hmarked⟩
      · exact heq
      · exact honly old hold hmarked t hmem
    exact hin

end

/-- A plugin with one route. -/
def pingPlugins : Plugins Unit :=
  { Plugins.constant (fun _ => ⟨"ping", "", "1.0.0", [], []⟩) fun _ _ => .ok with
    routes := fun _ world =>
      ([⟨.get, "/x", .scripted "ping" (.empty 200), [], false, [], ""⟩], world) }

/-- The route is bound in the first table when the plugin is registered; and in the second one,
when the first one was detached before. -/
theorem ping_bound :
    ∃ (h detached k : Host Unit) (routes : List RouteSummary),
      Tracked pingPlugins ["first", "first"] h ∧ Tracked pingPlugins [] detached ∧
      h.allRoutes.get? "ping" = some routes ∧ k.allRoutes.get? "ping" = some routes ∧
      (∃ t ∈ ["first", "first"], ∀ s ∈ routes, (s.method, s.path) ∈ (h.table t).keys) ∧
      (detached.setRouter (some ⟨"second", none⟩)).registerAllRoutes pingPlugins = (.ok (), k) ∧
      ∀ s ∈ routes, (s.method, s.path) ∈ (k.table "second").keys := by
  have ht := ((Tracked.start (P := pingPlugins) ()).command
    (.setRouter (some ⟨"first", none⟩))).command (.register ⟨0⟩)
  have hdetached := (ht.command (.setRouter none)).forget fun _ _ => bound_of_detached
  refine ⟨_, _, _, _, ht, hdetached, rfl, rfl, ?_, rfl, ?_⟩
  · exact (tracked_bound ht).1 "ping" _ _ rfl rfl rfl
  · exact (tracked_bound hdetached).2 ⟨"second", none⟩ _ rfl "ping" _ rfl
      fun _ _ _ _ hmem => nomatch hmem

/-- The mark of a plugin may speak of a table that is not attached any more, and then binding all
routes passes the plugin over. -/
theorem routes_left_behind :
    ∃ (h : Host Unit) (router : Router) (r : Record) (routes : List RouteSummary)
      (s : RouteSummary), Reachable pingPlugins h ∧ h.router = some router ∧
      h.records.get? "ping" = some r ∧ r.bound = true ∧
      h.allRoutes.get? "ping" = some routes ∧ s ∈ routes ∧
      h.registerAllRoutes pingPlugins = (.ok (), h) ∧
      (s.method, s.path) ∉ (h.table router.table).keys := by
  have hr : Reachable pingPlugins ((start ()).runAll pingPlugins
      [.setRouter (some ⟨"first", none⟩), .register ⟨0⟩, .setRouter (some ⟨"second", none⟩)]) :=
    (Reachable.start ()).runAll _
  refine ⟨_, ⟨"second", none⟩, _, _, _, hr, rfl, rfl, rfl, rfl, List.mem_cons_self, rfl, ?_⟩
  exact List.not_mem_nil

end Host

end PluginHost

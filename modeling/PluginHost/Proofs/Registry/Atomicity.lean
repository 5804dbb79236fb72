import PluginHost.Proofs.Registry.Frame

/-!
# Operations that are refused

A registration is refused for one of three reasons, and so is a switch. A check fails: then no
plugin has been called, save that a candidate was asked what it is. The plugin fails: then it was
called, and nothing has come of it. Or the router rejects one of its routes: then the plugin is
registered and enabled all the same, its routes are bound up to the one that was rejected, and it
is not marked, so that they can be bound another time.

* `Router.bindAll_eq_error_iff`: which routes of a row are bound when one is rejected.
* `bindRoutes_of_error`: what is left of a plugin's routes when one is rejected.
* `RefusalEnd`: the three ways to be refused, and the host that each of them leaves.
* `refusalEnd_of_register`, `refusalEnd_of_enable`, `refusalEnd_of_disable`: every refusal is one of
  them.
* `refused_whole`: what is left of an operation that was refused.
-/
namespace PluginHost

variable {ω : Type}

/-- The kinds of refusals that come of a check, be it of a candidate or before a switch. -/
def validationKinds : List String :=
  checkKinds ++ ["NotFound", "DependencyNotEnabled", "DependencyBlocked"]

/-- The command registers, enables or disables one plugin, of the given name; and what the world of
plugins is once a candidate was asked what it is. -/
inductive Command.Attempts (P : Plugins ω) (w : ω) : Command → String → ω → Prop where
  | register (plugin : Instance) :
      Attempts P w (.register plugin) (P.descriptor plugin w).1.name (P.descriptor plugin w).2
  | enable (name : String) : Attempts P w (.enable name) name w
  | disable (name : String) : Attempts P w (.disable name) name w

/-- Binding routes goes on where the ones before them were bound. -/
theorem Router.bindAll_append {router : Router} {t next : Route.Table} {rs : List BoundRoute}
    (h : router.bindAll t rs = (.ok (), next)) (more : List BoundRoute) :
    router.bindAll t (rs ++ more) = router.bindAll next more := by
  induction rs generalizing t with
  | nil =>
    cases h
    rfl
  | cons r rs ih =>
    rw [bindAll] at h
    rw [List.cons_append, bindAll]
    split at h
    · cases h
    · exact ih h

/-- A row of routes is not bound as a whole exactly if one of them is rejected when those before it
are bound, and then these are what is bound. -/
theorem Router.bindAll_eq_error_iff {router : Router} {t next : Route.Table}
    {rs : List BoundRoute} {e : Route.Rejection} : router.bindAll t rs = (.error e, next) ↔
      ∃ first rejected rest, rs = first ++ rejected :: rest ∧
        router.bindAll t first = (.ok (), next) ∧ router.bind next rejected = .error e := by
  constructor
  · intro h
    induction rs generalizing t with
    | nil => cases h
    | cons r rs ih =>
      rw [bindAll] at h
      split at h
      · rename_i hr
        cases h
        exact ⟨[], r, rs, rfl, rfl, hr⟩
      · rename_i between hr
        obtain ⟨first, rejected, rest, rfl, hfirst, hrejected⟩ := ih h
        exact ⟨r :: first, rejected, rest, rfl, by rw [bindAll, hr]; exact hfirst, hrejected⟩
  · rintro ⟨first, rejected, rest, rfl, hfirst, hrejected⟩
    rw [bindAll_append hfirst, bindAll, hrejected]

namespace Host

/-- The plugin that a command is about has a record, the one that it had if it had one, and is
enabled, and its routes were bound into the attached table up to one that the router rejects, under
the middlewares that the plugin reported for them. It is not marked, and there is no other
change. -/
def PartlyBound (P : Plugins ω) (c : Command) (name : String) (rejection : Route.Rejection)
    (h k : Host ω) : Prop :=
  ∃ router r world first rejected rest t,
    h.router = some router ∧ k.router = some router ∧
    k.records.get? name = some r ∧ c.Involves h name r.plugin ∧ r.enabled = true ∧
    r.bound = false ∧ (∀ old, h.records.get? name = some old → r = { old with enabled := true }) ∧
    Spares name h k ∧ r.routes = first ++ rejected :: rest ∧
    router.bindAll (h.table router.table)
      (first.map (Route.bind name (P.middlewares r.plugin world).1)) = (.ok (), t) ∧
    router.bind t (Route.bind name (P.middlewares r.plugin world).1 rejected) = .error rejection ∧
    k.tables = h.tables.insert router.table t ∧ k.world = (P.middlewares r.plugin world).2

/-- How a command that registers, enables or disables a plugin is refused: by a check, by the
plugin, or by the router. -/
inductive RefusalEnd (P : Plugins ω) (c : Command) (name : String) (asked : ω) (h : Host ω) :
    RegistryError → Host ω → Prop where
  | checked {e : RegistryError} (hkind : e.kind ∈ validationKinds) :
      RefusalEnd P c name asked h e { h with world := asked }
  | failed {plugin : String} {stage : Stage} {source : PluginError} {k : Host ω}
      (hrecords : k.records = h.records) (hrouter : k.router = h.router)
      (htables : k.tables = h.tables) :
      RefusalEnd P c name asked h (.lifecycle plugin stage source) k
  | rejected {rejection : Route.Rejection} {k : Host ω}
      (hk : PartlyBound P c name rejection h k) :
      RefusalEnd P c name asked h (.routeBinding name rejection) k

section
variable {P : Plugins ω} {c : Command} {name : String} {asked : ω} {h j k : Host ω}
  {plugin : Instance} {e : RegistryError}

/-- The routes of a registered plugin are bound up to one that the router rejects, and it is not
marked. -/
theorem bindRoutes_of_error {router : Router} {r : Record} {stop : Stop}
    (hrouter : j.router = some router) (hr : j.records.get? name = some r)
    (hrefused : j.bindRoutes P name = (.error stop, k)) :
    ∃ first rejected rest rejection t, stop = .refused (.routeBinding name rejection) ∧
      r.routes = first ++ rejected :: rest ∧
      router.bindAll (j.table router.table)
        (first.map (Route.bind name (P.middlewares r.plugin j.world).1)) = (.ok (), t) ∧
      router.bind t (Route.bind name (P.middlewares r.plugin j.world).1 rejected) =
        .error rejection ∧
      k = { j with
        world := (P.middlewares r.plugin j.world).2
        tables := j.tables.insert router.table t } := by
  unfold bindRoutes at hrefused
  split at hrefused
  · cases hrefused
  rename_i attached hattached
  obtain rfl : router = attached := Option.some.inj (hrouter.symm.trans hattached)
  rw [hr] at hrefused
  simp only at hrefused
  split at hrefused
  · rename_i rejection t hbind
    cases hrefused
    obtain ⟨bound, _, _, hsplit, hfirst, hrejected⟩ := Router.bindAll_eq_error_iff.1 hbind
    obtain ⟨first, others, hroutes, rfl, hothers⟩ := List.map_eq_append_iff.1 hsplit
    obtain ⟨rejected, rest, rfl, rfl, rfl⟩ := List.map_eq_cons_iff.1 hothers
    exact ⟨first, rejected, rest, rejection, t, rfl, hroutes, hfirst, hrejected, rfl⟩
  · cases hrefused

/-- A plugin has got its record or was enabled, and then one of its routes is rejected. -/
theorem refusalEnd_of_bindRoutes {r : Record}
    (hrefused : j.bindRoutes P name = (.error (.refused e), k)) (hspares : Spares name h j)
    (hrouter : j.router = h.router) (htables : j.tables = h.tables)
    (hr : j.records.get? name = some r) (hplugin : c.Involves h name r.plugin)
    (henabled : r.enabled = true) (hbound : r.bound = false)
    (hold : ∀ old, h.records.get? name = some old → r = { old with enabled := true }) :
    RefusalEnd P c name asked h e k := by
  have htable : ∀ t, j.table t = h.table t := fun t => by rw [table, htables, table]
  cases hattached : j.router with
  | none =>
    rw [bindRoutes_of_no_router hattached] at hrefused
    cases hrefused
  | some router =>
    obtain ⟨first, rejected, rest, rejection, t, heq, hroutes, hfirst, hrejected, rfl⟩ :=
      bindRoutes_of_error hattached hr hrefused
    cases heq
    refine .rejected ⟨router, r, j.world, first, rejected, rest, t, hrouter ▸ hattached, hattached,
      hr, hplugin, henabled, hbound, hold, hspares, hroutes, htable _ ▸ hfirst, hrejected, ?_, rfl⟩
    rw [← htables]

theorem refusalEnd_of_register
    (hrefused : h.register P plugin = (.error (.refused e), k)) :
    RefusalEnd P (.register plugin) (P.descriptor plugin h.world).1.name
      (P.descriptor plugin h.world).2 h e k := by
  rcases hasked : P.descriptor plugin h.world with ⟨d, asked⟩
  rw [register_eq_settle hasked, settle] at hrefused
  split at hrefused
  · rename_i error herror
    cases hrefused
    exact .checked (List.mem_append_left _ (kind_of_admissible herror))
  rename_i hadmissible
  rcases hcall : P.callback .init plugin (P.attach plugin asked) with ⟨outcome, world⟩
  cases outcome with
  | ok =>
    rw [enrol_of_ok (h := { h with world := asked }) hcall] at hrefused
    simp only [if_true] at hrefused
    refine refusalEnd_of_bindRoutes hrefused (spares_enter _ plugin d true _) rfl rfl
      ((NameMap.get?_insert _ _ _ _).trans (if_pos rfl)) (Or.inl rfl) rfl rfl fun old hold => ?_
    have hfresh : h.records.get? d.name = none :=
      NameMap.contains_eq_false_iff.1 (admissible_eq_ok_iff.1 hadmissible).fresh
    cases hfresh.symm.trans hold
  | failed source =>
    rw [enrol_of_ne_ok (h := { h with world := asked }) hcall (by simp)] at hrefused
    cases hrefused
    exact .failed rfl rfl rfl
  | panicked m =>
    rw [enrol_of_ne_ok (h := { h with world := asked }) hcall (by simp)] at hrefused
    cases hrefused

theorem refusalEnd_of_enable (hrefused : h.enable P name = (.error (.refused e), k)) :
    RefusalEnd P (.enable name) name h.world h e k := by
  unfold enable at hrefused
  split at hrefused
  · cases hrefused
    exact .checked (by simp [RegistryError.kind, validationKinds])
  rename_i r hr
  split at hrefused
  · cases hrefused
  split at hrefused
  · cases hrefused
    exact .checked (by simp [RegistryError.kind, validationKinds])
  rcases hcall : P.callback .enable r.plugin h.world with ⟨outcome, world⟩
  rw [runStage_eq hcall] at hrefused
  cases outcome with
  | ok =>
    simp only [Outcome.result] at hrefused
    split at hrefused
    · cases hrefused
    rename_i hbound
    have hswitched : ((h.recalled .enable r .ok world).modify name
        fun r => { r with enabled := true }).records.get? name =
          some { r with enabled := true } := by
      rw [modify_records, NameMap.get?_modify, if_pos rfl, recalled_records, hr]
      rfl
    have hspares : Spares name h ((h.recalled .enable r .ok world).modify name
        fun r => { r with enabled := true }) := fun n hn => by
      rw [modify_records, NameMap.get?_modify, if_neg hn, recalled_records]
    refine refusalEnd_of_bindRoutes hrefused hspares rfl rfl hswitched (Or.inr ⟨r, hr, rfl⟩) rfl
      (by simpa using hbound) fun old hold => ?_
    rw [Option.some.inj (hr.symm.trans hold)]
  | failed source =>
    cases hrefused
    exact .failed rfl rfl rfl
  | panicked m => cases hrefused

theorem refusalEnd_of_disable (hrefused : h.disable P name = (.error (.refused e), k)) :
    RefusalEnd P (.disable name) name h.world h e k := by
  unfold disable at hrefused
  split at hrefused
  · cases hrefused
    exact .checked (by simp [RegistryError.kind, validationKinds])
  rename_i r hr
  split at hrefused
  · cases hrefused
  split at hrefused
  · cases hrefused
    exact .checked (by simp [RegistryError.kind, validationKinds])
  rcases hcall : P.callback .disable r.plugin h.world with ⟨outcome, world⟩
  rw [runStage_eq hcall] at hrefused
  cases outcome with
  | ok => cases hrefused
  | failed source =>
    cases hrefused
    exact .failed rfl rfl rfl
  | panicked m => cases hrefused

theorem eq_of_answerOk {result : Except Stop Unit × Host ω} {stop : Stop}
    (hstop : answerOk result = (.error stop, k)) : result = (.error stop, k) := by
  unfold answerOk at hstop
  split at hstop
  · cases hstop
  · cases hstop
    rfl

theorem refusalEnd_of_attempts (hc : c.Attempts P h.world name asked)
    (hrefused : c.run P h = (.error (.refused e), k)) : RefusalEnd P c name asked h e k := by
  cases hc with
  | register => exact refusalEnd_of_register (eq_of_answerOk hrefused)
  | enable => exact refusalEnd_of_enable (eq_of_answerOk hrefused)
  | disable => exact refusalEnd_of_disable (eq_of_answerOk hrefused)

/-- A command that registers, enables or disables a plugin and is refused leaves records, marks,
router and tables as they are, unless it is the plugin's routes that were rejected. If it was
refused by a check, then the host is the same but for what a candidate does when it is asked what
it is: no plugin was handed the host or called back. If a route was rejected, the plugin is
registered and enabled without a mark, the other records are as they were, and just the routes
before that one were bound into the attached table. -/
theorem refused_whole (hc : c.Attempts P h.world name asked)
    (hrefused : c.run P h = (.error (.refused e), k)) :
    (e.kind ≠ "RouteBinding" →
        k.records = h.records ∧ k.router = h.router ∧ k.tables = h.tables) ∧
      (e.kind ∈ validationKinds → k = { h with world := asked }) ∧
      (e.kind = "RouteBinding" → ∃ rejection, e = .routeBinding name rejection ∧
        PartlyBound P c name rejection h k) := by
  cases refusalEnd_of_attempts hc hrefused with
  | checked hchecked =>
    refine ⟨fun _ => ⟨rfl, rfl, rfl⟩, fun _ => rfl, fun hkind => absurd hchecked ?_⟩
    rw [hkind]
    decide
  | failed hrecords hrouter htables =>
    exact ⟨fun _ => ⟨hrecords, hrouter, htables⟩,
      fun hkind => absurd (show "Lifecycle" ∈ validationKinds from hkind) (by decide),
      fun hkind => absurd hkind (by simp [RegistryError.kind])⟩
  | rejected hk =>
    exact ⟨fun hkind => absurd rfl hkind,
      fun hkind => absurd (show "RouteBinding" ∈ validationKinds from hkind) (by decide),
      fun _ => ⟨_, rfl, hk⟩⟩

end

/-- The second route of the moon is rejected, and the moon is registered with the first one bound.
It cannot be registered once more after that, and nothing comes of the attempt. -/
theorem moon_partly_bound :
    ∃ h j k : Host Bool, Reachable nightPlugins h ∧
      (Command.register ⟨1⟩).run nightPlugins h = (.error (.refused
        (.routeBinding "moon" ⟨.get, "/plugins/moon/:", "empty path parameter name"⟩)), j) ∧
      PartlyBound nightPlugins (.register ⟨1⟩) "moon"
        ⟨.get, "/plugins/moon/:", "empty path parameter name"⟩ h j ∧
      (j.table "main").keys = [(.get, "/plugins/moon/glow")] ∧
      (Command.register ⟨1⟩).run nightPlugins j =
        (.error (.refused (.alreadyRegistered "moon")), k) ∧
      k = j := by
  have hr : Reachable nightPlugins ((start false).runAll nightPlugins
      [.setRouter (some ⟨"main", none⟩)]) := (Reachable.start false).runAll _
  obtain ⟨rejection, herror, hbound⟩ := (refused_whole (P := nightPlugins)
    (h := (start false).runAll nightPlugins [.setRouter (some ⟨"main", none⟩)])
    (k := (start false).runAll nightPlugins [.setRouter (some ⟨"main", none⟩), .register ⟨1⟩])
    (e := .routeBinding "moon" ⟨.get, "/plugins/moon/:", "empty path parameter name"⟩)
    (.register ⟨1⟩) rfl).2.2 rfl
  cases herror
  have hchecked := (refused_whole (P := nightPlugins)
    (h := (start false).runAll nightPlugins [.setRouter (some ⟨"main", none⟩), .register ⟨1⟩])
    (k := (start false).runAll nightPlugins
      [.setRouter (some ⟨"main", none⟩), .register ⟨1⟩, .register ⟨1⟩])
    (e := .alreadyRegistered "moon") (.register ⟨1⟩) rfl).2.1 (by decide)
  exact ⟨_, _, _, hr, rfl, hbound, rfl, rfl, hchecked⟩

end Host

end PluginHost

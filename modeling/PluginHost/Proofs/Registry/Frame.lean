import PluginHost.Proofs.Registry.Locality
import PluginHost.Proofs.Route.Table

/-!
# What an operation on one plugin touches

To register, replace, take out, enable or disable a plugin is to work on one name. However such an
operation ends, be it in a panic halfway, all else is as it was: the records of the other names, the
router, and every entry of a table that is not under a full path of the plugin's own routes. And it
calls no plugins but the one that is registered under the name and the one that it was given.

The host keeps instances apart by the names they are registered under, and an instance may be
registered under several. So the plugin that an operation was given may at the same time be
registered under another name; it is called all the same.

* `Confined`: what is left alone between two hosts, with one lemma for each step of an operation.
* `Router.beside_of_bindAll`: the entries that a row of routes leaves alone.
* `confined_settle`, `confined_replace`: an admission, and a replacement as a whole.
* `others_left_alone`: what every operation on one plugin leaves alone.
* `namesake_called`: an instance of another name that is called.
-/
namespace PluginHost

variable {ω : Type}

/-- What a call of one plugin makes of the world of plugins. -/
inductive Plugins.Calls (P : Plugins ω) (plugin : Instance) : ω → ω → Prop where
  | descriptor (w : ω) : Calls P plugin w (P.descriptor plugin w).2
  | routes (w : ω) : Calls P plugin w (P.routes plugin w).2
  | middlewares (w : ω) : Calls P plugin w (P.middlewares plugin w).2
  | attach (w : ω) : Calls P plugin w (P.attach plugin w)
  | callback {stage : Stage} {w w' : ω} {outcome : Outcome}
      (hcall : P.callback stage plugin w = (outcome, w')) : Calls P plugin w w'

/-- What a row of calls makes of the world of plugins, if only some of the plugins are called. -/
def Plugins.CallsOf (P : Plugins ω) (involved : Instance → Prop) : ω → ω → Prop :=
  Relation.ReflTransGen fun v w => ∃ p, involved p ∧ P.Calls p v w

/-- The entries that a table has under other keys, in their order. -/
def Route.Table.beside (t : Table) (keys : List (Method × String)) : List Entry :=
  t.entries.filter fun e => e.key ∉ keys

/-! ## Entries under other keys -/

theorem Route.Table.filter_putEntry {keys : List (Method × String)} {e : Entry}
    (he : e.key ∈ keys) (es : List Entry) :
    (putEntry e es).filter (fun e => e.key ∉ keys) = es.filter fun e => e.key ∉ keys := by
  induction es with
  | nil => simp [putEntry, he]
  | cons f fs ih =>
    unfold putEntry
    split
    · rename_i heq
      simp [he, heq]
    · rw [List.filter_cons, List.filter_cons, ih]

/-- A row of routes leaves the entries alone that are not under one of their keys, however many of
the routes are bound. -/
theorem Router.beside_of_bindAll {router : Router} {keys : List (Method × String)}
    {t next : Route.Table} {rs : List BoundRoute} {result : Except Route.Rejection Unit}
    (h : router.bindAll t rs = (result, next)) (hrs : ∀ r ∈ rs, r.key ∈ keys) :
    next.beside keys = t.beside keys := by
  induction rs generalizing t with
  | nil =>
    cases h
    rfl
  | cons r rs ih =>
    unfold bindAll at h
    split at h
    · cases h
      rfl
    rename_i between hbind
    obtain ⟨pattern, -, rfl⟩ := Route.Table.bind_eq_ok_iff.1 (bind_of_ok hbind)
    refine (ih h fun r hr => hrs r (List.mem_cons_of_mem _ hr)).trans ?_
    exact Route.Table.filter_putEntry (hrs r List.mem_cons_self) t.entries

namespace Host

/-- Method and full path of the routes of a registered plugin. -/
def keysOf (h : Host ω) (name : String) : List (Method × String) :=
  ((h.records.get? name).map fun r =>
    r.routes.map fun route => (route.method, Route.fullPath name route.path)).getD []

/-- Between two hosts nothing was changed but the record of a name and the entries under some
keys, and no plugins were called but some. -/
structure Confined (P : Plugins ω) (name : String) (involved : Instance → Prop)
    (keys : List (Method × String)) (h k : Host ω) : Prop where
  records : Spares name h k
  router : k.router = h.router
  journal : ∃ calls, k.journal = calls ++ h.journal ∧ ∀ c ∈ calls, involved c.plugin
  world : P.CallsOf involved h.world k.world
  tables : ∀ t, (k.table t).beside keys = (h.table t).beside keys

section
variable {P : Plugins ω} {name : String} {involved : Instance → Prop}
  {keys : List (Method × String)} {h k l : Host ω} {plugin : Instance} {d : Descriptor}
  {enabled : Bool} {world : ω}

/-- If no call is recorded between two hosts, there is none to account for. -/
theorem confined_of_journal (hrecords : Spares name h k) (hrouter : k.router = h.router)
    (hjournal : k.journal = h.journal) (hworld : P.CallsOf involved h.world k.world)
    (htables : ∀ t, (k.table t).beside keys = (h.table t).beside keys) :
    Confined P name involved keys h k :=
  ⟨hrecords, hrouter, ⟨[], hjournal, fun _ hc => nomatch hc⟩, hworld, htables⟩

theorem Confined.refl (P : Plugins ω) (name : String) (involved : Instance → Prop)
    (keys : List (Method × String)) (h : Host ω) : Confined P name involved keys h h :=
  confined_of_journal (.refl name h) rfl rfl .refl fun _ => rfl

theorem Confined.trans (hhk : Confined P name involved keys h k)
    (hkl : Confined P name involved keys k l) : Confined P name involved keys h l := by
  obtain ⟨first, hfirst, hearlier⟩ := hhk.journal
  obtain ⟨rest, hrest, hlater⟩ := hkl.journal
  refine ⟨hhk.records.trans hkl.records, hkl.router.trans hhk.router,
    ⟨rest ++ first, by rw [hrest, hfirst, List.append_assoc], fun c hc => ?_⟩,
    hhk.world.trans hkl.world, fun t => (hkl.tables t).trans (hhk.tables t)⟩
  exact (List.mem_append.1 hc).elim (hlater c) (hearlier c)

/-! ## Steps -/

theorem confined_asked (hp : involved plugin) (hasked : P.descriptor plugin h.world = (d, world)) :
    Confined P name involved keys h { h with world } := by
  refine confined_of_journal (.refl name h) rfl rfl (.single ⟨plugin, hp, ?_⟩) fun _ => rfl
  have hcalled : P.Calls plugin h.world (P.descriptor plugin h.world).2 := .descriptor _
  rwa [hasked] at hcalled

theorem confined_called {kind : CallKind} {outcome : Outcome} (hp : involved plugin)
    (hworld : P.CallsOf involved h.world world) :
    Confined P name involved keys h (h.called kind plugin d enabled outcome world) :=
  ⟨.refl name h, rfl, ⟨[_], rfl, by simpa using hp⟩, hworld, fun _ => rfl⟩

theorem confined_initialised {outcome : Outcome} (hp : involved plugin)
    (hworld : P.CallsOf involved h.world world) :
    Confined P name involved keys h (h.initialised plugin d enabled outcome world) :=
  (confined_called hp hworld).trans (confined_called hp .refl)

theorem confined_enter (routes : List Route) :
    Confined P d.name involved keys h (h.enter plugin d enabled routes) :=
  confined_of_journal (spares_enter h plugin d enabled routes) rfl rfl .refl fun _ => rfl

theorem confined_modify (f : Record → Record) :
    Confined P name involved keys h (h.modify name f) := by
  refine confined_of_journal (fun n hn => ?_) rfl rfl .refl fun _ => rfl
  rw [modify_records, NameMap.get?_modify, if_neg hn]

theorem confined_evict (hold : ∀ r, h.records.get? name = some r → involved r.plugin) :
    Confined P name involved keys h (h.evict P name).2 := by
  cases hr : h.records.get? name with
  | none =>
    rw [evict_of_none hr]
    exact .refl P name involved keys h
  | some r =>
    have hspares := spares_evict P name h
    have hp := hold r hr
    rcases hcall : P.callback .shutdown r.plugin h.world with ⟨outcome, world⟩
    have hworld : P.CallsOf involved h.world world := .single ⟨r.plugin, hp, .callback hcall⟩
    by_cases ho : ∀ m, outcome ≠ .panicked m
    · rw [evict_of_some hr hcall ho] at hspares ⊢
      exact ⟨hspares, rfl, ⟨[_], rfl, by simpa using hp⟩, hworld, fun _ => rfl⟩
    · obtain ⟨m, rfl⟩ : ∃ m, outcome = .panicked m := by simpa using ho
      rw [evict_of_panicked hr hcall]
      exact confined_called hp hworld

theorem confined_bindRoutes (hold : ∀ r, h.records.get? name = some r → involved r.plugin) :
    Confined P name involved (h.keysOf name) h (h.bindRoutes P name).2 := by
  unfold bindRoutes
  split
  · exact .refl P name involved _ h
  rename_i router _
  split
  · exact .refl P name involved _ h
  rename_i r hr
  have hworld : P.CallsOf involved h.world (P.middlewares r.plugin h.world).2 :=
    .single ⟨r.plugin, hold r hr, .middlewares h.world⟩
  have hbound : ∀ {result next}, router.bindAll (h.table router.table)
      (r.routes.map (Route.bind name (P.middlewares r.plugin h.world).1)) = (result, next) →
      Confined P name involved (h.keysOf name) h { h with
        world := (P.middlewares r.plugin h.world).2
        tables := h.tables.insert router.table next } := by
    intro result next hbind
    refine confined_of_journal (.refl name h) rfl rfl hworld fun t => ?_
    change (((h.tables.insert router.table next).get? t).getD ∅).beside _ = _
    rw [table_insert]
    split
    · rename_i heq
      subst heq
      refine Router.beside_of_bindAll hbind fun bound hmem => ?_
      obtain ⟨route, hroute, rfl⟩ := List.mem_map.1 hmem
      rw [keysOf, hr]
      exact List.mem_map.2 ⟨route, hroute, rfl⟩
    · rfl
  simp only
  split
  · rename_i hbind
    exact hbound hbind
  · rename_i hbind
    exact (hbound hbind).trans (confined_modify _)

theorem keysOf_modify (name : String) {f : Record → Record} (hf : ∀ r, (f r).routes = r.routes)
    (h : Host ω) : (h.modify name f).keysOf name = h.keysOf name := by
  rw [keysOf, modify_records, NameMap.get?_modify, if_pos rfl, Option.map_map, keysOf]
  simp only [Function.comp_def, hf]

/-- Binding its routes does not change which routes a plugin has. -/
theorem keysOf_bindRoutes (P : Plugins ω) (name : String) (h : Host ω) :
    (h.bindRoutes P name).2.keysOf name = h.keysOf name := by
  unfold bindRoutes
  split
  · rfl
  split
  · rfl
  simp only
  split
  · rfl
  · exact keysOf_modify name (f := fun r => { r with bound := true }) (fun _ => rfl) _

/-- A host to which only these plugins were called, and whose routes are then bound. -/
theorem Confined.bindRoutes (hk : ∀ keys, Confined P name involved keys h k)
    (hold : ∀ r, k.records.get? name = some r → involved r.plugin) :
    Confined P name involved ((k.bindRoutes P name).2.keysOf name) h (k.bindRoutes P name).2 := by
  rw [keysOf_bindRoutes]
  exact (hk _).trans (confined_bindRoutes hold)

/-! ## Operations -/

theorem confined_settle (hp : involved plugin) :
    Confined P d.name involved ((h.settle P plugin d enabled).2.keysOf d.name) h
      (h.settle P plugin d enabled).2 := by
  unfold settle
  split
  · exact .refl P d.name involved _ h
  rcases hcall : P.callback .init plugin (P.attach plugin h.world) with ⟨outcome, world⟩
  have hstart : P.CallsOf involved h.world world :=
    (Relation.ReflTransGen.single ⟨plugin, hp, .attach h.world⟩).tail
      ⟨plugin, hp, .callback hcall⟩
  by_cases ho : outcome = .ok
  · subst ho
    rw [enrol_of_ok hcall]
    have hentered : ∀ keys, Confined P d.name involved keys h
        ((h.initialised plugin d enabled .ok (P.routes plugin world).2).enter plugin d enabled
          (P.routes plugin world).1) := fun keys =>
      (confined_initialised hp (hstart.tail ⟨plugin, hp, .routes world⟩)).trans
        (confined_enter (P.routes plugin world).1)
    cases enabled with
    | false => exact hentered _
    | true =>
      refine Confined.bindRoutes hentered fun r hr => ?_
      rw [enter_records, NameMap.get?_insert, if_pos rfl] at hr
      cases hr
      exact hp
  · rw [enrol_of_ne_ok hcall ho]
    cases outcome with
    | ok => exact absurd rfl ho
    | failed e => exact confined_initialised hp hstart
    | panicked m => exact confined_initialised hp hstart

theorem confined_replace {old : Record} (hold : h.records.get? name = some old)
    (hp : involved plugin) (hpold : involved old.plugin) :
    Confined P name involved ((h.replace P name old plugin).2.keysOf name) h
      (h.replace P name old plugin).2 := by
  rcases hasked : P.descriptor plugin h.world with ⟨d, asked⟩
  have hdescribed : ∀ keys, Confined P name involved keys h { h with world := asked } :=
    fun _ => confined_asked hp hasked
  by_cases hname : d.name = name
  · subst hname
    have hevicted : ∀ keys, Confined P d.name involved keys h
        (evict P d.name { h with world := asked }).2 := fun keys =>
      (hdescribed keys).trans (confined_evict fun r hr => by
        obtain rfl : old = r := Option.some.inj (hold.symm.trans hr)
        exact hpold)
    rw [replace_eq_settle hasked rfl]
    generalize evict P d.name { h with world := asked } = left at hevicted ⊢
    obtain ⟨result, k⟩ := left
    cases result with
    | error s => exact hevicted _
    | ok => exact (hevicted _).trans (confined_settle hp)
  · rw [replace_of_renamed hasked hname]
    exact hdescribed _

theorem confined_enable (hold : ∀ r, h.records.get? name = some r → involved r.plugin) :
    Confined P name involved ((h.enable P name).2.keysOf name) h (h.enable P name).2 := by
  unfold enable
  split
  · exact .refl P name involved _ h
  rename_i r hr
  split
  · exact .refl P name involved _ h
  split
  · exact .refl P name involved _ h
  have hp := hold r hr
  rcases hcall : P.callback .enable r.plugin h.world with ⟨outcome, world⟩
  have hworld : P.CallsOf involved h.world world := .single ⟨r.plugin, hp, .callback hcall⟩
  rw [runStage_eq hcall]
  cases outcome with
  | ok =>
    have hswitched : ∀ keys, Confined P name involved keys h
        ((h.recalled .enable r .ok world).modify name fun r => { r with enabled := true }) :=
      fun _ => (confined_called hp hworld).trans (confined_modify _)
    simp only [Outcome.result]
    split
    · exact hswitched _
    · refine Confined.bindRoutes hswitched fun s hs => ?_
      obtain ⟨q, hq, rfl | rfl⟩ := NameMap.get?_of_modify hs
      · exact hold _ hq
      · exact hold q hq
  | failed e => exact confined_called hp hworld
  | panicked m => exact confined_called hp hworld

theorem confined_disable (hold : ∀ r, h.records.get? name = some r → involved r.plugin) :
    Confined P name involved keys h (h.disable P name).2 := by
  unfold disable
  split
  · exact .refl P name involved _ h
  rename_i r hr
  split
  · exact .refl P name involved _ h
  split
  · exact .refl P name involved _ h
  have hp := hold r hr
  rcases hcall : P.callback .disable r.plugin h.world with ⟨outcome, world⟩
  have hworld : P.CallsOf involved h.world world := .single ⟨r.plugin, hp, .callback hcall⟩
  rw [runStage_eq hcall]
  cases outcome with
  | ok => exact (confined_called hp hworld).trans (confined_modify _)
  | failed e => exact confined_called hp hworld
  | panicked m => exact confined_called hp hworld

end

end Host

/-! ## Commands -/

/-- The command is about one plugin: the one whose name it gives, or that the instance reports
which it is to register. -/
inductive Command.Concerns (P : Plugins ω) (w : ω) (name : String) : Command → Prop where
  | register {plugin : Instance} (hname : (P.descriptor plugin w).1.name = name) :
      Concerns P w name (.register plugin)
  | unregister : Concerns P w name (.unregister name)
  | enable : Concerns P w name (.enable name)
  | disable : Concerns P w name (.disable name)
  | reload : Concerns P w name (.reload name)
  | reloadWith (plugin : Instance) : Concerns P w name (.reloadWith name plugin)

/-- The instance that a command was given, if it was given one. -/
def Command.given? : Command → Option Instance
  | .register plugin | .reloadWith _ plugin => some plugin
  | _ => none

/-- The command was given the instance, or it is the one that is registered under the name. -/
def Command.Involves (c : Command) (h : Host ω) (name : String) (p : Instance) : Prop :=
  c.given? = some p ∨ ∃ r, h.records.get? name = some r ∧ r.plugin = p

namespace Host

theorem confined_run {P : Plugins ω} {h : Host ω} {c : Command} {name : String}
    (hc : c.Concerns P h.world name) : Confined P name (c.Involves h name)
      ((c.run P h).2.keysOf name) h (c.run P h).2 := by
  have hold : ∀ r, h.records.get? name = some r → c.Involves h name r.plugin :=
    fun r hr => Or.inr ⟨r, hr, rfl⟩
  cases hc with
  | @register plugin hname =>
    rcases hasked : P.descriptor plugin h.world with ⟨d, asked⟩
    obtain rfl : d.name = name := by rw [hasked] at hname; exact hname
    rw [Command.run, answerOk_snd, register_eq_settle hasked]
    exact (confined_asked (Or.inl rfl) hasked).trans (confined_settle (Or.inl rfl))
  | unregister =>
    rw [Command.run, answerOk_snd]
    exact confined_evict hold
  | enable =>
    rw [Command.run, answerOk_snd]
    exact confined_enable hold
  | disable =>
    rw [Command.run, answerOk_snd]
    exact confined_disable hold
  | reload =>
    rw [Command.run, answerOk_snd, reload]
    split
    · exact .refl P name _ _ h
    · rename_i old hr
      exact confined_replace hr (hold old hr) (hold old hr)
  | reloadWith plugin =>
    rw [Command.run, answerOk_snd, reloadWith]
    split
    · exact .refl P name _ _ h
    · rename_i old hr
      exact confined_replace hr (Or.inl rfl) (hold old hr)

/-- However a command ends that is about one plugin: the records of all other names and the router
are as they were; only the instance that is registered under the name and the one that the command
was given were called, be it back or for what they report; and in every table the entries that are
not under method and full path of a route of the plugin are the same, in the same order. -/
theorem others_left_alone {P : Plugins ω} {h : Host ω} {c : Command} {name : String}
    (hc : c.Concerns P h.world name) :
    (∀ n, n ≠ name → (c.run P h).2.records.get? n = h.records.get? n) ∧
      (c.run P h).2.router = h.router ∧
      (∃ calls, (c.run P h).2.journal = calls ++ h.journal ∧
        ∀ call ∈ calls, c.Involves h name call.plugin) ∧
      P.CallsOf (c.Involves h name) h.world (c.run P h).2.world ∧
      ∀ t, ((c.run P h).2.table t).beside ((c.run P h).2.keysOf name) =
        (h.table t).beside ((c.run P h).2.keysOf name) := by
  obtain ⟨hrecords, hrouter, hjournal, hworld, htables⟩ := confined_run hc
  exact ⟨hrecords, hrouter, hjournal, hworld, htables⟩

/-- Plugins that have one name as long as the world is dark and another one when it is light, and
that can only be initialised in the dark. Each has one route, except that the second has two, of
which the second one is no pattern. -/
def nightPlugins : Plugins Bool where
  descriptor plugin light :=
    (⟨if plugin.id = 1 then "moon" else if light then "bulb" else "lamp", "", "1.0.0", [], []⟩,
      light)
  routes plugin light := ([⟨.get, "/glow", .greeter plugin, [], false, [], ""⟩] ++
    if plugin.id = 1 then [⟨.get, "/:", .greeter plugin, [], false, [], ""⟩] else [], light)
  middlewares _ light := ([], light)
  attach _ light := light
  callback stage _ light :=
    (if stage = .init && light then .failed .notInitialized else .ok, light)
  execute _ params light := (.answered params, light)
  construct _ light := (⟨0⟩, light)
  intercept _ _ light := (none, light)
  serve _ _ light := (.empty 200, light)

/-- The routes of the moon are bound up to the second one, which is rejected, and the lamp and its
entry are as they were. -/
theorem moon_beside_lamp :
    ∃ h k : Host Bool, Reachable nightPlugins h ∧
      (Command.register ⟨1⟩).run nightPlugins h = (.error (.refused
        (.routeBinding "moon" ⟨.get, "/plugins/moon/:", "empty path parameter name"⟩)), k) ∧
      (k.table "main").keys = [(.get, "/plugins/lamp/glow"), (.get, "/plugins/moon/glow")] ∧
      k.records.get? "lamp" = h.records.get? "lamp" ∧ (h.records.get? "lamp").isSome = true ∧
      (k.table "main").beside (k.keysOf "moon") = (h.table "main").entries := by
  have hr : Reachable nightPlugins ((start false).runAll nightPlugins
      [.setRouter (some ⟨"main", none⟩), .register ⟨0⟩]) := (Reachable.start false).runAll _
  have hc : (Command.register ⟨1⟩).Concerns nightPlugins ((start false).runAll nightPlugins
      [.setRouter (some ⟨"main", none⟩), .register ⟨0⟩]).world "moon" := .register rfl
  obtain ⟨hrecords, -, -, -, htables⟩ := others_left_alone hc
  exact ⟨_, _, hr, rfl, rfl, hrecords "lamp" (by decide), rfl, (htables "main").trans rfl⟩

/-- An instance may be called that is registered under another name and under no other: the one
that is registered once more, when it reports another name than before. -/
theorem namesake_called :
    ¬ ∀ (h : Host Bool) (c : Command) (name : String) (p : Instance), Reachable nightPlugins h →
      c.Concerns nightPlugins h.world name → (∃ n r, h.records.get? n = some r ∧ r.plugin = p) →
      (∀ r, h.records.get? name = some r → r.plugin ≠ p) →
      (∀ r, (c.run nightPlugins h).2.records.get? name = some r → r.plugin ≠ p) →
      ∀ calls, (c.run nightPlugins h).2.journal = calls ++ h.journal →
        ∀ call ∈ calls, call.plugin ≠ p := by
  intro hall
  have hr : Reachable nightPlugins { (start false).runAll nightPlugins [.register ⟨0⟩] with
      world := true } := ((Reachable.start false).runAll [.register ⟨0⟩]).world true
  refine hall _ (.register ⟨0⟩) "bulb" ⟨0⟩ hr (.register rfl) ⟨"lamp", _, rfl, rfl⟩
    (fun r hnone => ?_) (fun r hnone => ?_) [_, _] rfl _ List.mem_cons_self rfl
  · cases hnone
  · cases hnone

end Host

end PluginHost

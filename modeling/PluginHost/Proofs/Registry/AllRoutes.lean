import PluginHost.Proofs.Registry.Atomicity
import PluginHost.Proofs.Registry.Binding
import PluginHost.Proofs.Registry.Serving
import PluginHost.Proofs.Registry.Shutdown

/-!
# Binding what is not bound yet

To bind all routes is to go through the plugins in dependency order and to bind the routes of those
that are not marked, one plugin after the other, until the router rejects a route. Each is marked
when it is done, and that changes nothing for those that come after it, since no name comes twice.
So the marks at the beginning say who is to be bound, and the order says who was when a route is
rejected.

* `bindUnbound_eq_bindEach`: the marks at the beginning decide.
* `boundRows`: the routes of plugins as they are bound one plugin after the other.
* `Advanced`: what has happened when some plugins are done; it holds after one plugin and composes.
* `RejectedAt`: what is left when a route of a plugin is rejected.
* `reachable_registerAllRoutes`: binding all routes of any host that a run leads to.
-/
namespace PluginHost

variable {ω : Type}

namespace Host

/-- There is a record under the name, and it is not marked. -/
def isUnbound (h : Host ω) (name : String) : Bool :=
  !((h.records.get? name).map (·.bound)).getD true

/-- The routes of plugins as they are bound one plugin after the other, each under its name and
behind the middlewares that it reports when it is its turn; and what these reports make of the
world. -/
def boundRows (P : Plugins ω) (records : NameMap Record) : List String → ω → List BoundRoute × ω
  | [], w => ([], w)
  | name :: names, w =>
    match records.get? name with
    | none => boundRows P records names w
    | some r =>
      let (defaults, w) := P.middlewares r.plugin w
      let (rows, w) := boundRows P records names w
      (r.routes.map (Route.bind name defaults) ++ rows, w)

/-- Between two hosts some plugins were marked, rows of routes were bound into the attached table
without refusal, and the world has changed; all else is as it was. -/
structure Advanced (router : Router) (done : List String) (rows : List BoundRoute × ω)
    (h k : Host ω) : Prop where
  records : ∀ n, k.records.get? n =
    (h.records.get? n).map fun r => { r with bound := r.bound || decide (n ∈ done) }
  kept : k.router = h.router
  journal : k.journal = h.journal
  attached : router.bindAll (h.table router.table) rows.1 = (.ok (), k.table router.table)
  others : ∀ t, t ≠ router.table → k.table t = h.table t
  world : k.world = rows.2

/-- Some plugins are done, and then the router rejected a route of another one. Those are marked,
their routes were bound, and so were the routes of the other plugin before the rejected one: each
of these has its entry, and the entry is from the plugin. -/
def RejectedAt (P : Plugins ω) (router : Router) (done : List String) (p : String)
    (rejection : Route.Rejection) (h k : Host ω) : Prop :=
  ∃ r rows w defaults w' first rejected rest,
    h.records.get? p = some r ∧ r.routes = first ++ rejected :: rest ∧
    boundRows P h.records done h.world = (rows, w) ∧ P.middlewares r.plugin w = (defaults, w') ∧
    Advanced router done (rows ++ first.map (Route.bind p defaults), w') h k ∧
    router.bind (k.table router.table) (Route.bind p defaults rejected) = .error rejection ∧
    ∀ route ∈ first, ∃ e ∈ (k.table router.table).entries,
      e.key = (route.method, Route.fullPath p route.path) ∧
      e.route ∈ first.map (Route.bind p defaults)

section
variable {P : Plugins ω} {h j k : Host ω} {router : Router} {name : String}

/-! ## Who is bound -/

theorem isUnbound_eq_false_iff : h.isUnbound name = false ↔ h.Settled name := by
  rw [← settled_iff, isUnbound, Bool.not_eq_false']

theorem isUnbound_congr (hrecords : k.records.get? name = h.records.get? name) :
    k.isUnbound name = h.isUnbound name := by
  rw [isUnbound, hrecords, isUnbound]

/-- Where no name comes twice, the plugins whose routes are bound are those that are not marked at
the beginning. -/
theorem bindUnbound_eq_bindEach (P : Plugins ω) {names : List String} (hnodup : names.Nodup)
    (h : Host ω) : h.bindUnbound P names = h.bindEach P (names.filter h.isUnbound) := by
  induction names generalizing h with
  | nil => rfl
  | cons name names ih =>
    obtain ⟨hname, hnodup⟩ := List.nodup_cons.1 hnodup
    unfold bindUnbound
    split
    · rename_i hsettled
      have hbound : h.isUnbound name = false := isUnbound_eq_false_iff.2 (settled_iff.1 hsettled)
      rw [List.filter_cons_of_neg (by simp [hbound])]
      exact ih hnodup h
    · rename_i hsettled
      have hunbound : h.isUnbound name = true := by
        rw [← Bool.not_eq_false, isUnbound_eq_false_iff, ← settled_iff]
        exact hsettled
      have hspares := spares_bindRoutes P name h
      rw [List.filter_cons_of_pos hunbound, bindEach]
      rcases hbind : h.bindRoutes P name with ⟨result, k⟩
      rw [hbind] at hspares
      cases result with
      | error stop => rfl
      | ok =>
        -- marking this plugin says nothing of the others
        have hsame : ∀ n ∈ names, k.isUnbound n = h.isUnbound n := fun n hn =>
          isUnbound_congr (hspares n (ne_of_mem_of_not_mem hn hname))
        rw [← List.filter_congr hsame]
        exact ih hnodup k

/-! ## Steps -/

theorem boundRows_cons {r : Record} (hr : h.records.get? name = some r) (names : List String)
    (w : ω) : boundRows P h.records (name :: names) w =
      (r.routes.map (Route.bind name (P.middlewares r.plugin w).1) ++
          (boundRows P h.records names (P.middlewares r.plugin w).2).1,
        (boundRows P h.records names (P.middlewares r.plugin w).2).2) := by
  rw [boundRows, hr]

/-- Marks do not matter for what is bound. -/
theorem boundRows_congr (P : Plugins ω) {mark : String → Record → Bool}
    (hrecords : ∀ n, k.records.get? n =
      (h.records.get? n).map fun r => { r with bound := mark n r })
    (names : List String) (w : ω) :
    boundRows P k.records names w = boundRows P h.records names w := by
  induction names generalizing w with
  | nil => rfl
  | cons name names ih =>
    rw [boundRows, boundRows, hrecords]
    cases h.records.get? name with
    | none => exact ih w
    | some r =>
      simp only [Option.map_some]
      rw [ih]

theorem Advanced.refl (router : Router) (h : Host ω) : Advanced router [] ([], h.world) h h := by
  refine ⟨fun n => ?_, rfl, rfl, rfl, fun _ _ => rfl, rfl⟩
  simp

theorem Advanced.trans {first rest : List String} {rows rows' : List BoundRoute} {w w' : ω}
    (hhj : Advanced router first (rows, w) h j) (hjk : Advanced router rest (rows', w') j k) :
    Advanced router (first ++ rest) (rows ++ rows', w') h k where
  records n := by
    rw [hjk.records, hhj.records, Option.map_map]
    congr 1
    funext r
    simp [Bool.or_assoc]
  kept := hjk.kept.trans hhj.kept
  journal := hjk.journal.trans hhj.journal
  attached := (Router.bindAll_append hhj.attached rows').trans hjk.attached
  others t ht := (hjk.others t ht).trans (hhj.others t ht)
  world := hjk.world

/-- Routes were bound into the attached table, and nobody is marked yet. -/
theorem advanced_unmarked {rows : List BoundRoute} {t : Route.Table}
    (hbind : router.bindAll (h.table router.table) rows = (.ok (), t)) (world : ω) :
    Advanced router [] (rows, world) h
      { h with world, tables := h.tables.insert router.table t } := by
  refine ⟨fun n => ?_, rfl, rfl, hbind.trans ?_, fun other hother => ?_, rfl⟩
  · simp
  · rw [table, table_insert, if_pos rfl]
  · rw [table, table_insert, if_neg hother]

theorem advanced_marked (router : Router) (name : String) (h : Host ω) :
    Advanced router [name] ([], h.world) h (h.modify name fun r => { r with bound := true }) := by
  refine ⟨fun n => ?_, rfl, rfl, rfl, fun _ _ => rfl, rfl⟩
  rw [modify_records, NameMap.get?_modify]
  split
  · rename_i heq
    simp [heq]
  · rename_i hne
    simp [hne]

theorem advanced_of_bindRoutes {r : Record} (hrouter : h.router = some router)
    (hr : h.records.get? name = some r) (hok : h.bindRoutes P name = (.ok (), k)) :
    Advanced router [name] (r.routes.map (Route.bind name (P.middlewares r.plugin h.world).1),
      (P.middlewares r.plugin h.world).2) h k := by
  obtain ⟨s, t, hs, hrows, rfl⟩ := bindRoutes_of_ok hok hrouter
  obtain rfl : s = r := Option.some.inj (hs.symm.trans hr)
  have hmarked := (advanced_unmarked hrows (P.middlewares s.plugin h.world).2).trans
    (advanced_marked router name _)
  rw [List.append_nil] at hmarked
  exact hmarked

/-- The routes of plugins that were bound one after the other without refusal. -/
theorem advanced_of_bindEach {names : List String} (hrouter : h.router = some router)
    (hok : h.bindEach P names = (.ok (), k)) :
    Advanced router names (boundRows P h.records names h.world) h k := by
  induction names generalizing h with
  | nil =>
    cases hok
    exact .refl router _
  | cons name names ih =>
    unfold bindEach at hok
    split at hok
    · rename_i j hbind
      obtain ⟨r, -, hr, -⟩ := bindRoutes_of_ok hbind hrouter
      have hfirst := advanced_of_bindRoutes hrouter hr hbind
      have hrest := ih (hfirst.kept.trans hrouter) hok
      -- the records that the rest is bound from differ by a mark, and that is not bound
      rw [boundRows_congr P hfirst.records, hfirst.world] at hrest
      rw [boundRows_cons hr]
      exact hfirst.trans hrest
    · cases hok

/-- Plugins were bound one after the other up to a refusal: those before one of them were, and it
was refused. -/
theorem bindEach_of_error {names : List String} {stop : Stop}
    (hrefused : h.bindEach P names = (.error stop, k)) :
    ∃ before p after j, names = before ++ p :: after ∧ h.bindEach P before = (.ok (), j) ∧
      j.bindRoutes P p = (.error stop, k) := by
  induction names generalizing h with
  | nil => cases hrefused
  | cons name names ih =>
    unfold bindEach at hrefused
    split at hrefused
    · rename_i between hbind
      obtain ⟨before, p, after, j, rfl, hbefore, hp⟩ := ih hrefused
      exact ⟨name :: before, p, after, j, rfl, by rw [bindEach, hbind]; exact hbefore, hp⟩
    · rename_i hbind
      cases hrefused
      exact ⟨[], name, names, h, rfl, rfl, hbind⟩

theorem RejectedAt.advanced {done : List String} {p : String} {rejection : Route.Rejection}
    (hk : RejectedAt P router done p rejection h k) : ∃ rows, Advanced router done rows h k := by
  obtain ⟨_, _, _, _, _, _, _, _, -, -, -, -, hk, -⟩ := hk
  exact ⟨_, hk⟩

/-- A refusal comes of a route that the router rejects. -/
theorem rejectedAt_of_bindEach {names : List String} {stop : Stop}
    (hrouter : h.router = some router) (htables : (h.table router.table).WellFormed)
    (hregistered : ∀ n ∈ names, h.contains n = true)
    (hrefused : h.bindEach P names = (.error stop, k)) :
    ∃ before p after rejection, stop = .refused (.routeBinding p rejection) ∧
      names = before ++ p :: after ∧ RejectedAt P router before p rejection h k := by
  obtain ⟨before, p, after, j, rfl, hbefore, hp⟩ := bindEach_of_error hrefused
  have hdone := advanced_of_bindEach hrouter hbefore
  obtain ⟨r, hr⟩ : ∃ r, h.records.get? p = some r :=
    NameMap.contains_iff.1 (hregistered p (by simp))
  -- the record of `p` as it was at the beginning, but for its mark
  have hrj : j.records.get? p = some { r with bound := r.bound || decide (p ∈ before) } := by
    rw [hdone.records, hr, Option.map_some]
  obtain ⟨first, rejected, rest, rejection, t, rfl, hroutes, hfirst, hrejected, rfl⟩ :=
    bindRoutes_of_error (hdone.kept.trans hrouter) hrj hp
  have hlast := hdone.trans (advanced_unmarked hfirst (P.middlewares r.plugin j.world).2)
  rw [List.append_nil] at hlast
  have hattached : Host.table { j with
      world := (P.middlewares r.plugin j.world).2
      tables := j.tables.insert router.table t } router.table = t := by
    rw [table, table_insert, if_pos rfl]
  have hbetween := Router.wellFormed_of_bindAll htables hdone.attached
  refine ⟨before, p, after, rejection, rfl, rfl, r, _, j.world, _, _, first, rejected, rest, hr,
    hroutes, Prod.ext rfl hdone.world.symm, rfl, hlast, hattached.symm ▸ hrejected,
    fun route hroute => ?_⟩
  rw [hattached]
  exact Router.exists_entry_of_bindAll hbetween hfirst (List.mem_map_of_mem hroute)

/-- Where all are marked, nothing is done. -/
theorem bindUnbound_of_settled {names : List String} (hsettled : ∀ n ∈ names, h.Settled n) :
    h.bindUnbound P names = (.ok (), h) := by
  induction names with
  | nil => rfl
  | cons name names ih =>
    rw [bindUnbound, if_pos (settled_iff.2 (hsettled name List.mem_cons_self))]
    exact ih fun n hn => hsettled n (List.mem_cons_of_mem _ hn)

theorem registerAllRoutes_eq (P : Plugins ω) (hrouter : h.router = some router) :
    h.registerAllRoutes P = h.bindUnbound P h.dependencyOrder := by
  rw [registerAllRoutes, hrouter]
  rfl

/-- Nothing of a record is changed but its mark. -/
theorem Advanced.plugin?_status? {done : List String} {rows : List BoundRoute × ω}
    (hk : Advanced router done rows h k) (n : String) :
    k.plugin? n = h.plugin? n ∧ k.status? n = h.status? n := by
  rw [plugin?, status?, hk.records, Option.map_map, Option.map_map]
  exact ⟨rfl, rfl⟩

theorem Advanced.isUnbound_eq {done : List String} {rows : List BoundRoute × ω}
    (hk : Advanced router done rows h k) {n : String} (hn : n ∉ done) :
    k.isUnbound n = h.isUnbound n := by
  refine isUnbound_congr ?_
  rw [hk.records]
  simp [hn]

end

/-! ## Runs -/

/-- To bind all routes of a host that a run leads to and that has a router is to go through the
registered plugins, each of them once and what it needs before it if that is possible, and to bind
the routes of those that were not marked at the beginning. Whether a plugin is enabled and which
instance it is does not change. If there is no refusal, all plugins are marked at the end, and
binding all routes once more changes nothing. If there is one, it is of a route that the router
rejects: the plugins before that one are marked, it and those that come after it are not, and its
routes before the rejected one are in the table. -/
theorem reachable_registerAllRoutes {P : Plugins ω} {h : Host ω} {router : Router}
    (hr : Reachable P h) (hrouter : h.router = some router) :
    ∃ order unbound, order.Perm h.records.names ∧ order.Nodup ∧
      ((∀ n, ¬ Relation.TransGen h.Needs n n) → ∀ p d, h.Needs p d → h.contains d = true →
        [d, p].Sublist order) ∧
      unbound = order.filter h.isUnbound ∧
      h.registerAllRoutes P = h.bindUnbound P order ∧
      h.registerAllRoutes P = h.bindEach P unbound ∧
      (∀ n, (h.registerAllRoutes P).2.plugin? n = h.plugin? n ∧
        (h.registerAllRoutes P).2.status? n = h.status? n) ∧
      (∀ k, h.registerAllRoutes P = (.ok (), k) →
        Advanced router unbound (boundRows P h.records unbound h.world) h k ∧
        (∀ n r, k.records.get? n = some r → r.bound = true) ∧
        k.registerAllRoutes P = (.ok (), k)) ∧
      ∀ stop k, h.registerAllRoutes P = (.error stop, k) →
        ∃ before p after rejection, stop = .refused (.routeBinding p rejection) ∧
          unbound = before ++ p :: after ∧ RejectedAt P router before p rejection h k ∧
          ∀ n ∈ p :: after, k.isUnbound n = true := by
  have hi := hr.coherent
  obtain ⟨hperm, hfirst, -⟩ := dependencyOrder_ends hi
  have hnodup : h.dependencyOrder.Nodup := hperm.nodup_iff.2 hi.ascending.nodup
  have hvisits := registerAllRoutes_eq P hrouter
  have hbinds := hvisits.trans (bindUnbound_eq_bindEach P hnodup h)
  have hregistered : ∀ n ∈ h.dependencyOrder.filter h.isUnbound, h.contains n = true :=
    fun n hn => NameMap.mem_names_iff.1 (hperm.subset (List.mem_of_mem_filter hn))
  have hgranted : ∀ k, h.registerAllRoutes P = (.ok (), k) → Advanced router
      (h.dependencyOrder.filter h.isUnbound)
      (boundRows P h.records (h.dependencyOrder.filter h.isUnbound) h.world) h k :=
    fun k hok => advanced_of_bindEach hrouter (hbinds.symm.trans hok)
  have hrefused : ∀ stop k, h.registerAllRoutes P = (.error stop, k) →
      ∃ before p after rejection, stop = .refused (.routeBinding p rejection) ∧
        h.dependencyOrder.filter h.isUnbound = before ++ p :: after ∧
        RejectedAt P router before p rejection h k := fun stop k hstop =>
    rejectedAt_of_bindEach hrouter (hr.wellFormed_table _) hregistered (hbinds.symm.trans hstop)
  refine ⟨h.dependencyOrder, _, hperm, hnodup, hfirst, rfl, hvisits, hbinds, fun n => ?_,
    fun k hok => ⟨hgranted k hok, ?_, ?_⟩, fun stop k hstop => ?_⟩
  · rcases hend : h.registerAllRoutes P with ⟨result, k⟩
    cases result with
    | ok => exact (hgranted k hend).plugin?_status? n
    | error stop =>
      obtain ⟨_, _, _, _, -, -, hrejected⟩ := hrefused stop k hend
      obtain ⟨_, hk⟩ := hrejected.advanced
      exact hk.plugin?_status? n
  · exact settled_of_registerAllRoutes hi hok
  · rw [registerAllRoutes_eq P ((hgranted k hok).kept.trans hrouter)]
    exact bindUnbound_of_settled fun n _ => settled_of_registerAllRoutes hi hok n
  · obtain ⟨before, p, after, rejection, rfl, hsplit, hrejected⟩ := hrefused stop k hstop
    refine ⟨before, p, after, rejection, rfl, hsplit, hrejected, fun n hn => ?_⟩
    obtain ⟨_, hk⟩ := hrejected.advanced
    have hlater : n ∉ before := fun hbefore => by
      have hparts := hsplit ▸ hnodup.filter h.isUnbound
      exact (List.nodup_append.1 hparts).2.2 n hbefore n hn rfl
    rw [hk.isUnbound_eq hlater]
    exact (List.mem_filter.1 (hsplit ▸ List.mem_append_right before hn)).2

/-- A pier, a crane that needs it, and a barge that needs both. Each has one route, except that the
crane has another one that is no pattern. -/
def harbourPlugins : Plugins Unit :=
  { Plugins.constant (fun plugin => match plugin.id with
      | 0 => ⟨"pier", "", "1.0.0", [], []⟩
      | 1 => ⟨"crane", "", "1.0.0", ["pier"], []⟩
      | _ => ⟨"barge", "", "1.0.0", ["crane", "pier"], []⟩) fun _ _ => .ok with
    routes := fun plugin world =>
      ([⟨.get, "/state", .greeter plugin, [], false, [], ""⟩] ++
        if plugin.id = 1 then [⟨.get, "/:", .greeter plugin, [], false, [], ""⟩] else [], world) }

/-- All three are registered before there is a router. -/
def harbourHost : Host Unit :=
  (start ()).runAll harbourPlugins
    [.register ⟨0⟩, .register ⟨1⟩, .register ⟨2⟩, .setRouter (some ⟨"main", none⟩)]

/-- The crane was unregistered from under the barge. -/
def quietHarbour : Host Unit :=
  harbourHost.runAll harbourPlugins [.unregister "crane"]

/-- The second route of the crane is rejected, and the barge is left unbound as well. Without the
crane there is no refusal, though the barge still needs it. -/
theorem crane_rejected :
    ∃ k l, Reachable harbourPlugins harbourHost ∧
      harbourHost.registerAllRoutes harbourPlugins = (.error (.refused
        (.routeBinding "crane" ⟨.get, "/plugins/crane/:", "empty path parameter name"⟩)), k) ∧
      (k.table "main").keys = [(.get, "/plugins/pier/state"), (.get, "/plugins/crane/state")] ∧
      (∃ before, RejectedAt harbourPlugins ⟨"main", none⟩ before "crane"
          ⟨.get, "/plugins/crane/:", "empty path parameter name"⟩ harbourHost k ∧
        k.isUnbound "crane" = true ∧ k.isUnbound "barge" = true ∧ k.isUnbound "pier" = false) ∧
      quietHarbour.registerAllRoutes harbourPlugins = (.ok (), l) ∧
      (l.table "main").keys = [(.get, "/plugins/pier/state"), (.get, "/plugins/barge/state")] ∧
      l.registerAllRoutes harbourPlugins = (.ok (), l) := by
  have hr : Reachable harbourPlugins harbourHost := (Reachable.start ()).runAll _
  have hrouter : harbourHost.router = some ⟨"main", none⟩ := rfl
  have hquiet : quietHarbour.router = some ⟨"main", none⟩ := rfl
  obtain ⟨_, _, -, -, -, -, -, -, -, -, hrefused⟩ := reachable_registerAllRoutes hr hrouter
  obtain ⟨_, _, -, -, -, -, -, -, -, hgranted, -⟩ :=
    reachable_registerAllRoutes (hr.runAll [.unregister "crane"]) hquiet
  obtain ⟨k, hk, hkeys, hbarge, hpier⟩ : ∃ k, harbourHost.registerAllRoutes harbourPlugins =
      (.error (.refused
        (.routeBinding "crane" ⟨.get, "/plugins/crane/:", "empty path parameter name"⟩)), k) ∧
      (k.table "main").keys = [(.get, "/plugins/pier/state"), (.get, "/plugins/crane/state")] ∧
      k.isUnbound "barge" = true ∧ k.isUnbound "pier" = false := ⟨_, rfl, rfl, rfl, rfl⟩
  obtain ⟨l, hl, hall⟩ : ∃ l, quietHarbour.registerAllRoutes harbourPlugins = (.ok (), l) ∧
      (l.table "main").keys = [(.get, "/plugins/pier/state"), (.get, "/plugins/barge/state")] :=
    ⟨_, rfl, rfl⟩
  obtain ⟨before, p, after, rejection, heq, -, hrejected, hlater⟩ := hrefused _ k hk
  cases heq
  obtain ⟨-, -, hagain⟩ := hgranted l hl
  exact ⟨k, l, hr, hk, hkeys, ⟨before, hrejected, hlater "crane" List.mem_cons_self, hbarge, hpier⟩,
    hl, hall, hagain⟩

end Host

end PluginHost

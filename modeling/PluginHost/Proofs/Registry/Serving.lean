import PluginHost.Proofs.Registry.Replacement
import PluginHost.Proofs.Route.Table

/-!
# Requests after a replacement

A plugin leaves its routes behind in the tables when it goes: a router takes routes and gives
none back. When an enabled plugin is replaced, the routes of the new instance are bound in the
table that is attached, and each takes the place of what stood there under its method and full
path, handler and middlewares together. What the old instance had under another path stays, and
it stands where it was first bound; a request that fits both goes to it if it comes first.

* `Move.table_invariant`: what is kept of tables when the routes of a plugin are bound.
* `wellFormed_move`, `Reachable.wellFormed_table`: the tables of a host are well-formed.
* `reloadWith_serves`: where the requests for the routes of the new instance go.
* `stale_pattern_answers`: a request that the old instance still answers.
-/
namespace PluginHost

open Route Route.Table

variable {ω : Type}

namespace Host

/-- What the routes of a plugin leave true of a table when they are bound into it, every move
leaves true of all tables: they change in no other way. -/
theorem Move.table_invariant {I : Table → Prop}
    (hbound : ∀ {router : Router} {t next : Table} {name : String} {routes : List Route}
      {defaults : List Middleware} {result : Except Rejection Unit}, I t →
      router.bindAll t (routes.map (Route.bind name defaults)) = (result, next) → I next)
    {h k : Host ω} (hm : Move h k) (hi : ∀ t, I (h.table t)) : ∀ t, I (k.table t) := by
  have hinsert : ∀ name t', I t' → ∀ t, I (((h.tables.insert name t').get? t).getD ∅) := by
    intro name t' ht' t
    rw [table_insert]
    split
    · exact ht'
    · exact hi t
  cases hm with
  | bind _ _ hbind => exact hinsert _ _ (hbound (hi _) hbind)
  | bindFails _ _ hbind => exact hinsert _ _ (hbound (hi _) hbind)
  | attachRouter router => exact hinsert router.table _ (hi router.table)
  | world | enrol | turnAway | evict | keep | enable | enableFails | disable | disableFails
  | detachRouter => exact hi

/-- Every move leaves the tables well-formed. -/
theorem wellFormed_move {h k : Host ω} (hm : Move h k) (hi : ∀ t, (h.table t).WellFormed) :
    ∀ t, (k.table t).WellFormed :=
  hm.table_invariant (I := WellFormed) (fun ht hbind => Router.wellFormed_of_bindAll ht hbind) hi

theorem Reachable.wellFormed_table {P : Plugins ω} {h : Host ω} (hr : Reachable P h) :
    ∀ t, (h.table t).WellFormed :=
  hr.invariant (I := fun h => ∀ t, (h.table t).WellFormed) (fun _ _ => wellFormed_empty)
    fun _ _ => wellFormed_move

/-- An enabled plugin was replaced without refusal, in a host that a run leads to: the routes and
the default middlewares of the new instance are served by the attached table, as far as no entry
from before shadows them. -/
theorem reloadWith_serves {P : Plugins ω} {h k : Host ω} (hr : Reachable P h) {router : Router}
    (hrouter : h.router = some router) {name : String} {old : Record}
    (hold : h.records.get? name = some old) (hon : old.enabled = true) {plugin : Instance}
    (hok : h.reloadWith P name plugin = (.ok (), k)) :
    ∃ new v w, k.router = some router ∧ k.records.get? name = some new ∧ new.plugin = plugin ∧
      new.routes = (P.routes plugin v).1 ∧
      Serves (h.table router.table) (k.table router.table)
        (new.routes.map (Route.bind name (P.middlewares plugin w).1)) := by
  rw [reloadWith, hold] at hok
  obtain ⟨d, asked, gone, -, rfl, hsettled⟩ := replace_of_ok hold hok
  rw [hon] at hsettled
  obtain ⟨-, world, hbound⟩ := settle_of_ok hsettled
  rw [if_pos rfl] at hbound
  obtain ⟨r, t, hget, hbind, rfl⟩ := bindRoutes_of_ok hbound hrouter
  rw [enter_records, NameMap.get?_insert, if_pos rfl] at hget
  cases hget
  refine ⟨⟨plugin, d, (P.routes plugin world).1, true, true⟩, world, (P.routes plugin world).2,
    hrouter, ?_, rfl, rfl, ?_⟩
  · rw [modify_records, NameMap.get?_modify, if_pos rfl]
    exact congrArg _ ((NameMap.get?_insert _ _ _ _).trans (if_pos rfl))
  · change Serves _ (((h.tables.insert router.table t).get? router.table).getD ∅) _
    rw [table_insert, if_pos rfl]
    exact Router.serves_of_bindAll (hr.wellFormed_table router.table) hbind

/-- The second door answers where the first one did: its route has the same path. -/
theorem door_serves :
    ∃ (h k : Host Unit) (new : Record) (defaults : List Middleware), Reachable doorPlugins h ∧
      h.reloadWith doorPlugins "door" ⟨1⟩ = (.ok (), k) ∧
      k.records.get? "door" = some new ∧ new.plugin = ⟨1⟩ ∧
      Serves (h.table "main") (k.table "main") (new.routes.map (Route.bind "door" defaults)) := by
  obtain ⟨h, hr, hrouter, ⟨old, hold, hon⟩, k, hok⟩ : ∃ h, Reachable doorPlugins h ∧
      h.router = some ⟨"main", none⟩ ∧
      (∃ old, h.records.get? "door" = some old ∧ old.enabled = true) ∧
      ∃ k, h.reloadWith doorPlugins "door" ⟨1⟩ = (.ok (), k) :=
    ⟨_, (Reachable.start ()).runAll [.setRouter (some ⟨"main", none⟩), .register ⟨0⟩], rfl,
      ⟨_, rfl, rfl⟩, _, rfl⟩
  obtain ⟨new, _, _, -, hnew, hplugin, -, hserves⟩ := reloadWith_serves hr hrouter hold hon hok
  exact ⟨h, k, new, _, hr, hok, hnew, hplugin, hserves⟩

/-- Two instances of a room that give the parameter of their one route different names. -/
def roomPlugins : Plugins Unit :=
  { Plugins.constant (fun _ => ⟨"room", "", "1.0.0", [], []⟩) fun _ _ => .ok with
    routes := fun plugin world =>
      ([⟨.get, if plugin.id = 0 then "/:id" else "/:name", .greeter plugin, [], false, [], ""⟩],
        world) }

/-- Not every request for a route of the new instance is answered by it. -/
theorem stale_pattern_answers :
    ¬ ∀ h k router old new, Reachable roomPlugins h → h.router = some router →
      h.records.get? "room" = some old → old.enabled = true →
      h.reloadWith roomPlugins "room" ⟨1⟩ = (.ok (), k) → k.records.get? "room" = some new →
      ∀ route ∈ new.routes, ∀ path, (Route.bind "room" [] route).Matches path →
        ∃ found, (k.table router.table).Answers route.method path found ∧
          ∃ defaults, found ∈ new.routes.map (Route.bind "room" defaults) := by
  intro hall
  have hr : Reachable roomPlugins ((start ()).runAll roomPlugins
      [.setRouter (some ⟨"main", none⟩), .register ⟨0⟩]) := (Reachable.start ()).runAll _
  obtain ⟨found, ⟨params, hfound, -⟩, defaults, hmem⟩ :=
    hall _ _ ⟨"main", none⟩ _ _ hr rfl rfl rfl rfl rfl _ List.mem_cons_self "/plugins/room/7"
      ⟨_, _, rfl, rfl⟩
  -- the route that is found is the one that the old instance was bound with
  cases hfound
  cases List.mem_singleton.1 hmem

end Host

end PluginHost

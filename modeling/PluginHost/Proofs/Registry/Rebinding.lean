import PluginHost.Proofs.Registry.Atomicity

/-!
# Binding the same routes again

What a router makes of a row of routes does not depend on the table: it rejects the same route
every time, and the ones before it are put into the table as the same entries. To put a row of
entries a second time changes nothing, since every key has its place by then, and the entry that
stands there is the last one of the row under that key. So a registry may try again to bind the
routes of a plugin of which one was rejected.

* `Table.putAll`: a row of entries, put one after the other.
* `Table.putAll_putAll`: the second time.
* `Router.bindAll_eq_putAll`: routes are bound as entries that the table has no part in.
* `rebound_alike`: tables and hosts to which the same routes are bound again.
-/
namespace PluginHost

namespace Route.Table

/-- Puts a row of entries, one after the other. -/
def putAll (es ts : List Entry) : List Entry :=
  es.foldl (fun ts e => putEntry e ts) ts

/-- The first entry of a method and full path. -/
def first? (t : Table) (key : Method × String) : Option Entry :=
  t.entries.find? fun e => e.key = key

section
variable {e f : Entry} {es ts : List Entry} {key : Method × String}

theorem putEntry_cons_of_eq (h : f.key = e.key) (ts : List Entry) :
    putEntry e (f :: ts) = e :: ts := by
  rw [putEntry, if_pos h]

theorem putEntry_cons_of_ne (h : f.key ≠ e.key) (ts : List Entry) :
    putEntry e (f :: ts) = f :: putEntry e ts := by
  rw [putEntry, if_neg h]

theorem mem_keys_putEntry_self (e : Entry) (ts : List Entry) :
    e.key ∈ (putEntry e ts).map Entry.key :=
  mem_keys_putEntry.2 (Or.inl rfl)

/-- Of two entries with one key the second stays. -/
theorem putEntry_putEntry (h : f.key = e.key) (ts : List Entry) :
    putEntry e (putEntry f ts) = putEntry e ts := by
  induction ts with
  | nil => exact putEntry_cons_of_eq h []
  | cons g ts ih =>
    by_cases hg : g.key = f.key
    · rw [putEntry_cons_of_eq hg, putEntry_cons_of_eq h, putEntry_cons_of_eq (hg.trans h)]
    · have hne : g.key ≠ e.key := fun heq => hg (heq.trans h.symm)
      rw [putEntry_cons_of_ne hg, putEntry_cons_of_ne hne, putEntry_cons_of_ne hne, ih]

/-- Two entries with different keys may change turns if one of them has a place already. -/
theorem putEntry_comm (hne : f.key ≠ e.key) (hmem : e.key ∈ ts.map Entry.key) :
    putEntry f (putEntry e ts) = putEntry e (putEntry f ts) := by
  induction ts with
  | nil => cases hmem
  | cons g ts ih =>
    by_cases hge : g.key = e.key
    · have hgf : g.key ≠ f.key := fun heq => hne (heq.symm.trans hge)
      rw [putEntry_cons_of_eq hge, putEntry_cons_of_ne (Ne.symm hne), putEntry_cons_of_ne hgf,
        putEntry_cons_of_eq hge]
    · have hrest : e.key ∈ ts.map Entry.key :=
        (List.mem_cons.1 hmem).resolve_left (Ne.symm hge)
      rw [putEntry_cons_of_ne hge]
      by_cases hgf : g.key = f.key
      · rw [putEntry_cons_of_eq hgf, putEntry_cons_of_eq hgf, putEntry_cons_of_ne hne]
      · rw [putEntry_cons_of_ne hgf, putEntry_cons_of_ne hgf, putEntry_cons_of_ne hge, ih hrest]

theorem mem_keys_putAll (hmem : key ∈ ts.map Entry.key) :
    key ∈ (putAll es ts).map Entry.key := by
  induction es generalizing ts with
  | nil => exact hmem
  | cons e es ih => exact ih (mem_keys_putEntry.2 (Or.inr hmem))

/-- An entry that is put before a row leaves no trace when its key comes again in the row. -/
theorem putAll_putEntry_of_mem (hplace : e.key ∈ ts.map Entry.key)
    (hagain : e.key ∈ es.map Entry.key) : putAll es (putEntry e ts) = putAll es ts := by
  induction es generalizing ts with
  | nil => cases hagain
  | cons f es ih =>
    change putAll es (putEntry f (putEntry e ts)) = putAll es (putEntry f ts)
    by_cases heq : f.key = e.key
    · rw [putEntry_putEntry heq.symm]
    · have hrest : e.key ∈ es.map Entry.key :=
        (List.mem_cons.1 hagain).resolve_left (Ne.symm heq)
      rw [putEntry_comm heq hplace]
      exact ih (mem_keys_putEntry.2 (Or.inr hplace)) hrest

/-- An entry that has a place may as well be put after a row that its key is not in. -/
theorem putAll_putEntry_of_not_mem (hplace : e.key ∈ ts.map Entry.key)
    (hnew : e.key ∉ es.map Entry.key) : putAll es (putEntry e ts) = putEntry e (putAll es ts) := by
  induction es generalizing ts with
  | nil => rfl
  | cons f es ih =>
    obtain ⟨hne, hrest⟩ := not_or.1 (List.mem_cons.not.1 hnew)
    change putAll es (putEntry f (putEntry e ts)) = putEntry e (putAll es (putEntry f ts))
    rw [putEntry_comm (Ne.symm hne) hplace]
    exact ih (mem_keys_putEntry.2 (Or.inr hplace)) hrest

/-- A row of entries that is put a second time changes nothing. -/
theorem putAll_putAll (es ts : List Entry) : putAll es (putAll es ts) = putAll es ts := by
  induction es generalizing ts with
  | nil => rfl
  | cons e es ih =>
    change putAll es (putEntry e (putAll es (putEntry e ts))) = putAll es (putEntry e ts)
    have hplace : e.key ∈ (putAll es (putEntry e ts)).map Entry.key :=
      mem_keys_putAll (mem_keys_putEntry_self e ts)
    by_cases hagain : e.key ∈ es.map Entry.key
    · rw [putAll_putEntry_of_mem hplace hagain, ih]
    · -- nothing of the row has touched the entry, so it is put onto itself
      rw [putAll_putEntry_of_not_mem hplace hagain, ih,
        ← putAll_putEntry_of_not_mem (mem_keys_putEntry_self e ts) hagain, putEntry_putEntry rfl]

theorem find?_putEntry (e : Entry) (ts : List Entry) (key : Method × String) :
    (putEntry e ts).find? (fun f => f.key = key) =
      if e.key = key then some e else ts.find? fun f => f.key = key := by
  induction ts with
  | nil => by_cases he : e.key = key <;> simp [putEntry, he]
  | cons g ts ih =>
    by_cases hg : g.key = e.key
    · rw [putEntry_cons_of_eq hg]
      by_cases he : e.key = key <;> simp [he, hg]
    · rw [putEntry_cons_of_ne hg]
      by_cases hkey : g.key = key
      · have he : e.key ≠ key := fun heq => hg (hkey.trans heq.symm)
        simp [hkey, he]
      · simp [hkey, ih]

/-- The first entry of a key is the last one of the row, or else the one that was there. -/
theorem find?_putAll (es ts : List Entry) (key : Method × String) :
    (putAll es ts).find? (fun f => f.key = key) =
      (es.reverse.find? fun f => f.key = key).or (ts.find? fun f => f.key = key) := by
  induction es generalizing ts with
  | nil => rfl
  | cons e es ih =>
    change (putAll es (putEntry e ts)).find? (fun f => f.key = key) = _
    rw [ih, find?_putEntry, List.reverse_cons, List.find?_append, Option.or_assoc]
    by_cases he : e.key = key <;> simp [he]

end

end Route.Table

open Route Route.Table

namespace Router

/-- What a router makes of a route does not depend on the table. -/
theorem bind_eq_putEntry (router : Router) (r : BoundRoute) :
    (∃ e, ∀ t, router.bind t r = .error e) ∨
      ∃ entry : Entry, entry.route = r ∧
        ∀ t, router.bind t r = .ok ⟨putEntry entry t.entries⟩ := by
  unfold bind Table.bind
  cases router.isRefused r.path with
  | true => exact Or.inl ⟨_, fun _ => rfl⟩
  | false =>
    cases Pattern.ofPath r.path with
    | error e => exact Or.inl ⟨_, fun _ => rfl⟩
    | ok pattern => exact Or.inr ⟨⟨r, pattern⟩, rfl, fun _ => rfl⟩

/-- The routes before the first that is rejected are put into a table as entries, and the table has
no part in that. -/
theorem bindAll_eq_putAll (router : Router) (rs : List BoundRoute) :
    ∃ (result : Except Rejection Unit) (es : List Entry) (rest : List BoundRoute),
      es.map (·.route) ++ rest = rs ∧ (result = .ok () ↔ rest = []) ∧
        ∀ t, router.bindAll t rs = (result, ⟨putAll es t.entries⟩) := by
  induction rs with
  | nil => exact ⟨.ok (), [], [], rfl, iff_of_true rfl rfl, fun _ => rfl⟩
  | cons r rs ih =>
    rcases router.bind_eq_putEntry r with ⟨e, hrejected⟩ | ⟨entry, rfl, hbound⟩
    · refine ⟨.error e, [], r :: rs, rfl, by simp, fun t => ?_⟩
      rw [bindAll, hrejected]
      rfl
    · obtain ⟨result, es, rest, rfl, hresult, hall⟩ := ih
      refine ⟨result, entry :: es, rest, rfl, hresult, fun t => ?_⟩
      rw [bindAll, hbound]
      exact hall _

/-- A row of routes that is bound a second time ends as it did the first time and leaves the table
as it is. -/
theorem bindAll_bindAll (router : Router) (t : Table) (rs : List BoundRoute) :
    router.bindAll (router.bindAll t rs).2 rs = router.bindAll t rs := by
  obtain ⟨result, es, rest, -, -, hall⟩ := router.bindAll_eq_putAll rs
  rw [hall t, hall, putAll_putAll]

/-- Under each method and full path the route that was bound last comes first, and where none was
bound the one that was there. -/
theorem first?_bindAll (router : Router) (t : Table) (rs : List BoundRoute) :
    ∃ bound rest, bound ++ rest = rs ∧ ((router.bindAll t rs).1 = .ok () ↔ rest = []) ∧
      ∀ key, ((router.bindAll t rs).2.first? key).map (·.route) =
        (bound.reverse.find? fun r => r.key = key).or ((t.first? key).map (·.route)) := by
  obtain ⟨result, es, rest, hsplit, hresult, hall⟩ := router.bindAll_eq_putAll rs
  refine ⟨es.map (·.route), rest, hsplit, ?_, fun key => ?_⟩
  · rw [hall t]
    exact hresult
  · rw [hall t, first?, find?_putAll, Option.map_or, ← List.map_reverse, List.find?_map]
    rfl

end Router

namespace Host

variable {ω : Type}

section
variable {P : Plugins ω} {h : Host ω} {name : String} {router : Router} {r : Record}
  {defaults : List Middleware} {t next : Table}

theorem bindRoutes_of_bound (hrouter : h.router = some router)
    (hr : h.records.get? name = some r) (hdefaults : (P.middlewares r.plugin h.world).1 = defaults)
    (htable : h.table router.table = t)
    (hbind : router.bindAll t (r.routes.map (Route.bind name defaults)) = (.ok (), next)) :
    h.bindRoutes P name = (.ok (), { h with
      world := (P.middlewares r.plugin h.world).2
      tables := h.tables.insert router.table next
      records := h.records.modify name fun r => { r with bound := true } }) := by
  subst hdefaults htable
  unfold bindRoutes
  simp only [hrouter, hr, hbind]
  rfl

theorem bindRoutes_of_rejected {e : Rejection} (hrouter : h.router = some router)
    (hr : h.records.get? name = some r) (hdefaults : (P.middlewares r.plugin h.world).1 = defaults)
    (htable : h.table router.table = t)
    (hbind : router.bindAll t (r.routes.map (Route.bind name defaults)) = (.error e, next)) :
    h.bindRoutes P name = (.error (.refused (.routeBinding name e)), { h with
      world := (P.middlewares r.plugin h.world).2
      tables := h.tables.insert router.table next }) := by
  subst hdefaults htable
  unfold bindRoutes
  simp only [hrouter, hr, hbind]

/-- A registry that binds the routes of a plugin again ends as it did the first time, and nothing
but the world of the plugins changes, if the plugin reports the same middlewares. -/
theorem bindRoutes_bindRoutes (hr : h.records.get? name = some r)
    (hsame : (P.middlewares r.plugin (h.bindRoutes P name).2.world).1 =
      (P.middlewares r.plugin h.world).1) :
    ∃ world, (h.bindRoutes P name).2.bindRoutes P name =
      ((h.bindRoutes P name).1, { (h.bindRoutes P name).2 with world }) := by
  cases hrouter : h.router with
  | none =>
    rw [bindRoutes_of_no_router hrouter, bindRoutes_of_no_router hrouter]
    exact ⟨h.world, rfl⟩
  | some router =>
    have hagain := router.bindAll_bindAll (h.table router.table)
      (r.routes.map (Route.bind name (P.middlewares r.plugin h.world).1))
    rcases hbind : router.bindAll (h.table router.table)
      (r.routes.map (Route.bind name (P.middlewares r.plugin h.world).1)) with ⟨result, next⟩
    rw [hbind] at hagain
    have htable : ((h.tables.insert router.table next).get? router.table).getD ∅ = next :=
      (table_insert h router.table router.table next).trans (if_pos rfl)
    refine ⟨(P.middlewares r.plugin (P.middlewares r.plugin h.world).2).2, ?_⟩
    cases result with
    | error e =>
      rw [bindRoutes_of_rejected hrouter hr rfl rfl hbind] at hsame ⊢
      refine (bindRoutes_of_rejected ?_ ?_ hsame htable hagain).trans ?_
      · exact hrouter
      · exact hr
      · simp only [NameMap.insert_insert]
    | ok =>
      rw [bindRoutes_of_bound hrouter hr rfl rfl hbind] at hsame ⊢
      refine (bindRoutes_of_bound (r := { r with bound := true }) ?_ ?_ hsame htable
        hagain).trans ?_
      · exact hrouter
      · exact (NameMap.get?_modify ..).trans (by rw [if_pos rfl, hr, Option.map_some])
      · simp only [NameMap.insert_insert, NameMap.modify_modify]
        rfl

end

/-- To bind the routes of a plugin again changes nothing. Whatever the table, the router, the name,
the routes and the middlewares, a row that is bound up to the first route that is rejected, and
then once more, ends the same way and leaves the very same table. What it leaves the first time is,
under each method and full path, the route of the row that was bound last, or else the one that was
there before. So a registry that tries again to bind the routes of a registered plugin, be it that
one of them was rejected or not, ends as before, and only the world of the plugins can change, if
the plugin reports the same middlewares again. -/
theorem rebound_alike (router : Router) (t : Table) (plugin : String) (defaults : List Middleware)
    (routes : List Route) :
    let rows := routes.map (Route.bind plugin defaults)
    let once := router.bindAll t rows
    router.bindAll once.2 rows = once ∧
      (∃ bound rest, bound ++ rest = rows ∧ (once.1 = .ok () ↔ rest = []) ∧
        ∀ key, (once.2.first? key).map (·.route) =
          (bound.reverse.find? fun r => r.key = key).or ((t.first? key).map (·.route))) ∧
      ∀ (ω : Type) (P : Plugins ω) (h : Host ω) (name : String) (r : Record),
        h.records.get? name = some r →
        (P.middlewares r.plugin (h.bindRoutes P name).2.world).1 =
          (P.middlewares r.plugin h.world).1 →
        ∃ world, (h.bindRoutes P name).2.bindRoutes P name =
          ((h.bindRoutes P name).1, { (h.bindRoutes P name).2 with world }) :=
  ⟨router.bindAll_bindAll t _, router.first?_bindAll t _,
    fun _ _ _ _ _ hr hsame => bindRoutes_bindRoutes hr hsame⟩

/-- The second route of the moon is rejected every time, and the first is bound once. -/
theorem moon_rebound :
    ∃ h : Host Bool, Reachable nightPlugins h ∧
      (h.bindRoutes nightPlugins "moon").1 = .error (.refused
        (.routeBinding "moon" ⟨.get, "/plugins/moon/:", "empty path parameter name"⟩)) ∧
      ((h.bindRoutes nightPlugins "moon").2.table "main").keys =
        [(.get, "/plugins/lamp/glow"), (.get, "/plugins/moon/glow")] ∧
      ∃ world, (h.bindRoutes nightPlugins "moon").2.bindRoutes nightPlugins "moon" =
        ((h.bindRoutes nightPlugins "moon").1,
          { (h.bindRoutes nightPlugins "moon").2 with world }) := by
  have hreachable : Reachable nightPlugins ((start false).runAll nightPlugins
      [.setRouter (some ⟨"main", none⟩), .register ⟨0⟩, .register ⟨1⟩]) :=
    (Reachable.start false).runAll _
  have hagain := (rebound_alike ⟨"main", none⟩ ∅ "moon" [] []).2.2 Bool nightPlugins
    ((start false).runAll nightPlugins
      [.setRouter (some ⟨"main", none⟩), .register ⟨0⟩, .register ⟨1⟩]) "moon" _ rfl rfl
  exact ⟨_, hreachable, rfl, rfl, hagain⟩

end Host

end PluginHost

import PluginHost.Proofs.Registry.Serving
import PluginHost.Proofs.Route.Path

/-!
# Whose route answers

All that keeps the routes of two plugins apart is their names, and these are put into full paths
as they are; of a name it is only asked that it is not blank. A name with a slash lies within the
paths of another plugin if it is nested in its name, and one that begins with a colon matches
those of any other plugin. Where neither is the case, a request below the path of one plugin is
never answered by the other, and the routes of one never take the place of those of the other.

* `Owned`: the path of every entry is a full path of the plugin that its route belongs to.
* `Reachable.owned_table`: it holds of all tables along every run.
* `routes_isolated`: the names between which routes are isolated.
* `names_overlap`: names between which they are not.
-/
namespace PluginHost

open Route Route.Table

variable {ω : Type}

/-- The path of every entry is a full path of the plugin that its route belongs to. -/
def Owned (t : Table) : Prop :=
  ∀ e ∈ t.entries, ∃ path, e.route.path = fullPath e.route.plugin path

/-! ## Entries -/

theorem Route.Table.mem_of_mem_putEntry {e f : Entry} {es : List Entry} (h : f ∈ putEntry e es) :
    f = e ∨ f ∈ es := by
  induction es with
  | nil => exact Or.inl (List.mem_singleton.1 h)
  | cons g gs ih =>
    unfold putEntry at h
    split at h
    · exact (List.mem_cons.1 h).imp id (List.mem_cons_of_mem _)
    · rcases List.mem_cons.1 h with rfl | h
      · exact Or.inr List.mem_cons_self
      · exact (ih h).imp id (List.mem_cons_of_mem _)

namespace Router

variable {router : Router} {t next : Table} {rs : List BoundRoute} {result : Except Rejection Unit}

/-- However far a row of routes was bound, every entry was there before or is that of a route of
the row. -/
theorem mem_of_bindAll (h : router.bindAll t rs = (result, next)) {e : Entry}
    (he : e ∈ next.entries) : e.route ∈ rs ∨ e ∈ t.entries := by
  induction rs generalizing t with
  | nil =>
    cases h
    exact Or.inr he
  | cons r rs ih =>
    unfold bindAll at h
    split at h
    · cases h
      exact Or.inr he
    rename_i between hbind
    obtain ⟨pattern, -, rfl⟩ := bind_eq_ok_iff.1 (bind_of_ok hbind)
    rcases ih h with hmem | hbetween
    · exact Or.inl (List.mem_cons_of_mem _ hmem)
    rcases mem_of_mem_putEntry hbetween with rfl | hbefore
    · exact Or.inl List.mem_cons_self
    · exact Or.inr hbefore

/-- An entry stays if no route of the row has its method and full path. -/
theorem mem_entries_of_not_mem (ht : t.WellFormed) (h : router.bindAll t rs = (result, next))
    {e : Entry} (he : e ∈ t.entries) (hkey : e.key ∉ rs.map BoundRoute.key) :
    e ∈ next.entries := by
  induction rs generalizing t with
  | nil =>
    cases h
    exact he
  | cons r rs ih =>
    obtain ⟨hne, hkey⟩ := not_or.1 (List.mem_cons.not.1 hkey)
    unfold bindAll at h
    split at h
    · cases h
      exact he
    rename_i between hbind
    have hbind := bind_of_ok hbind
    refine ih (ht.bind hbind) h ?_ hkey
    obtain ⟨pattern, -, rfl⟩ := bind_eq_ok_iff.1 hbind
    exact (mem_putEntry ht.keys).2 (Or.inr ⟨he, hne⟩)

/-- The routes of a plugin are bound under full paths of its own. -/
theorem owned_of_bindAll {name : String} {routes : List Route} {defaults : List Middleware}
    (ht : Owned t) (h : router.bindAll t (routes.map (Route.bind name defaults)) =
      (result, next)) : Owned next := by
  intro e he
  rcases mem_of_bindAll h he with hmem | hbefore
  · obtain ⟨route, -, heq⟩ := List.mem_map.1 hmem
    rw [← heq]
    exact ⟨route.path, rfl⟩
  · exact ht e hbefore

end Router

section
variable {t : Table} {p q : String}

/-- Below the path of a plugin no route of one is found whose name is apart. -/
theorem Owned.plugin_ne_of_find? (hi : Owned t) (ht : t.WellFormed) (ha : Apart p q)
    {method : Method} {x : String} {route : BoundRoute} {params : NameMap String}
    (h : t.find? method (fullPath q x) = some (route, params)) : route.plugin ≠ p := by
  obtain ⟨e, he, rfl, hmatch⟩ := exists_entry_of_find? h
  rintro rfl
  obtain ⟨path, hpath⟩ := hi e he
  have hpattern := ht.pattern e he
  rw [hpath] at hpattern
  rw [ha.not_matches hpattern] at hmatch
  cases hmatch

/-- Entries of two plugins are known by different keys if neither name is nested in the other. -/
theorem Owned.key_ne (hi : Owned t) (hne : p ≠ q) (hnested : ¬ Nested p q) {e : Entry}
    (he : e ∈ t.entries) (howner : e.route.plugin = q) (method : Method) (path : String) :
    e.key ≠ (method, fullPath p path) := by
  intro hkey
  obtain ⟨x, hx⟩ := hi e he
  have hpath : fullPath p path = fullPath q x := by
    rw [← howner, ← hx]
    exact (congrArg Prod.snd hkey).symm
  exact hnested (nested_of_fullPath_eq hne hpath)

end

namespace Host

/-! ## Runs -/

theorem Reachable.owned_table {P : Plugins ω} {h : Host ω} (hr : Reachable P h) :
    ∀ t, Owned (h.table t) :=
  hr.invariant (I := fun h => ∀ t, Owned (h.table t)) (fun _ _ _ he => nomatch he)
    fun _ _ hm => hm.table_invariant fun hi hbind => Router.owned_of_bindAll hi hbind

/-- An entry stays when the routes of a plugin are bound, be it only in part, unless one of them
has its method and full path. -/
theorem mem_entries_of_bindRoutes {P : Plugins ω} {h : Host ω} {p : String} {t : String}
    (ht : ∀ t, (h.table t).WellFormed) {e : Entry} (he : e ∈ (h.table t).entries)
    (hkey : ∀ method path, e.key ≠ (method, fullPath p path)) :
    e ∈ ((h.bindRoutes P p).2.table t).entries := by
  unfold bindRoutes
  split
  · exact he
  rename_i router _
  split
  · exact he
  rename_i r _
  have hkept : ∀ {result next}, router.bindAll (h.table router.table)
      (r.routes.map (Route.bind p (P.middlewares r.plugin h.world).1)) = (result, next) →
      e ∈ (((h.tables.insert router.table next).get? t).getD ∅).entries := by
    intro result next hbind
    rw [table_insert]
    split
    · rename_i heq
      subst heq
      refine Router.mem_entries_of_not_mem (ht _) hbind he fun hmem => ?_
      obtain ⟨bound, hbound, hsame⟩ := List.mem_map.1 hmem
      obtain ⟨route, -, rfl⟩ := List.mem_map.1 hbound
      exact hkey route.method route.path hsame.symm
    · exact he
  simp only
  split
  · rename_i hbind
    exact hkept hbind
  · rename_i hbind
    exact hkept hbind

/-- In every host that a run leads to, and of any two plugins: if the first name is apart from
the second one, then no request below the path of the second plugin goes to a route of the first;
and if the names are not nested, the routes of the first plugin take the place of no entry of the
second when they are bound, nor does any command put them there. -/
theorem routes_isolated {P : Plugins ω} {h : Host ω} (hr : Reachable P h) (t p q : String) :
    (Apart p q → ∀ method x route params,
      (h.table t).find? method (fullPath q x) = some (route, params) → route.plugin ≠ p) ∧
    (p ≠ q → ¬ Nested p q → ∀ e ∈ (h.table t).entries, e.route.plugin = q →
      e ∈ ((h.bindRoutes P p).2.table t).entries ∧
      ∀ c : Command, ∀ f ∈ ((c.run P h).2.table t).entries, f.key = e.key →
        f.route.plugin ≠ p) := by
  refine ⟨fun ha method x route params hfind =>
    (hr.owned_table t).plugin_ne_of_find? (hr.wellFormed_table t) ha hfind,
    fun hne hnested e he howner => ?_⟩
  have hkey := (hr.owned_table t).key_ne hne hnested he howner
  refine ⟨mem_entries_of_bindRoutes hr.wellFormed_table he hkey, fun c f hf hsame => ?_⟩
  rintro rfl
  obtain ⟨path, hpath⟩ := (hr.command c).owned_table t f hf
  exact hkey f.route.method path (hsame.symm.trans (congrArg _ hpath))

/-- A door and a window with a route each, a plugin whose name is the door's with more behind it
and one whose name is a parameter. -/
def housePlugins : Plugins Unit :=
  { Plugins.constant (fun plugin => match plugin.id with
      | 0 => ⟨"door", "", "1.0.0", [], []⟩
      | 1 => ⟨"window", "", "1.0.0", [], []⟩
      | 2 => ⟨"door/bell", "", "1.0.0", [], []⟩
      | _ => ⟨":any", "", "1.0.0", [], []⟩) fun _ _ => .ok with
    routes := fun plugin world =>
      ([⟨.get, if plugin.id = 0 then "/bell/ring" else "/ring", .greeter plugin, [], false, [],
        ""⟩], world) }

/-- The door is registered without its route being bound, and another plugin with its route. -/
def houseHost (other : Instance) : Host Unit :=
  (start ()).runAll housePlugins
    [.register ⟨0⟩, .setRouter (some ⟨"main", none⟩), .register other]

theorem reachable_houseHost (other : Instance) : Reachable housePlugins (houseHost other) :=
  (Reachable.start ()).runAll _

/-- The window is found below its own path, and the door leaves its entry alone. -/
theorem window_isolated :
    ∃ (e : Entry) (route : BoundRoute), (houseHost ⟨1⟩).contains "door" = true ∧
      (houseHost ⟨1⟩).contains "window" = true ∧
      (((houseHost ⟨1⟩).table "main").find? .get (fullPath "window" "/ring")).map (·.1) =
        some route ∧ route.plugin ≠ "door" ∧ e.route.plugin = "window" ∧
      e ∈ (((houseHost ⟨1⟩).bindRoutes housePlugins "door").2.table "main").entries := by
  obtain ⟨hfound, hkept⟩ := routes_isolated (reachable_houseHost ⟨1⟩) "main" "door" "window"
  have hapart : Apart "door" "window" :=
    apart_of_plain (by decide) (by decide) (by decide) (by decide) (by decide) (by decide)
  obtain ⟨e, he, howner⟩ : ∃ e ∈ ((houseHost ⟨1⟩).table "main").entries,
      e.route.plugin = "window" := ⟨_, List.mem_cons_self, rfl⟩
  refine ⟨e, _, rfl, rfl, rfl, hfound hapart .get "/ring" _ _ rfl, howner, ?_⟩
  exact (hkept (by decide) (not_nested_of_plain (by decide) (by decide)) e he howner).1

/-- Routes are not isolated between all names: a request below the path of one plugin may go to a
route of another one, and a plugin may take the place of another one's entry. -/
theorem names_overlap :
    (¬ ∀ h router p q, Reachable housePlugins h → h.router = some router →
      h.contains p = true → h.contains q = true → p ≠ q → ∀ method x route params,
        (h.table router.table).find? method (fullPath q x) = some (route, params) →
          route.plugin ≠ p) ∧
    ¬ ∀ h router p q, Reachable housePlugins h → h.router = some router →
      h.contains p = true → h.contains q = true → p ≠ q → ∀ e ∈ (h.table router.table).entries,
        e.route.plugin = q → ∃ f ∈ ((h.bindRoutes housePlugins p).2.table router.table).entries,
          f.key = e.key ∧ f.route.plugin = q := by
  constructor
  · -- any plugin's path matches a name that begins with a colon
    intro hall
    have hr : Reachable housePlugins ((start ()).runAll housePlugins
        [.setRouter (some ⟨"main", none⟩), .register ⟨3⟩, .register ⟨1⟩]) :=
      (Reachable.start ()).runAll _
    exact hall _ ⟨"main", none⟩ ":any" "window" hr rfl rfl rfl (by decide) .get "/ring" _ _ rfl rfl
  · -- the routes of the door lie below the path of its bell
    intro hall
    obtain ⟨f, hf, -, howner⟩ := hall (houseHost ⟨2⟩) ⟨"main", none⟩ "door" "door/bell"
      (reachable_houseHost ⟨2⟩) rfl rfl rfl (by decide) _ List.mem_cons_self rfl
    obtain rfl := List.mem_singleton.1 hf
    exact absurd howner (by decide)

end Host

end PluginHost

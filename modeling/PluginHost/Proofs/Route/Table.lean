import Mathlib.Data.List.Nodup
import PluginHost.Registry.Router

/-!
# What is bound in a table

A table is known by the methods and full paths that it has entries for. Binding a route adds its
own and takes none away; a router binds a row of routes up to the first that it rejects.

A route takes the place of an entry only when method and full path are the same, letter by
letter, and a request goes to the first entry whose pattern its path fits. So an entry that was
there before a row of routes was bound may still come before one of theirs: it stands under
another path, of which the request is an instance as well.

* `Table.mem_keys_of_bind`: the keys of a table after a route was bound.
* `Router.bindAll_keys`: the keys of a table after a row of routes was.
* `Table.WellFormed`: one entry for each key, with the pattern of its path.
* `Router.mem_entries_of_bindAll`: where the entries of a table come from.
* `Table.find?_eq_some_iff`: the entry that a request is resolved to.
* `Router.serves_of_bindAll`: where the requests go that fit a route of the row.
-/
namespace PluginHost

/-- What the entry of a bound route is known by. -/
def BoundRoute.key (r : BoundRoute) : Method × String :=
  (r.method, r.path)

namespace Route.Table

/-- Method and full path of all entries. -/
def keys (t : Table) : List (Method × String) :=
  t.entries.map Entry.key

theorem mem_keys_putEntry {e : Entry} {es : List Entry} {key : Method × String} :
    key ∈ (putEntry e es).map Entry.key ↔ key = e.key ∨ key ∈ es.map Entry.key := by
  induction es with
  | nil => simp [putEntry]
  | cons f fs ih =>
    unfold putEntry
    split
    · rename_i heq
      -- the new entry stands for the one it replaces
      rw [List.map_cons, List.map_cons, List.mem_cons, List.mem_cons, heq, ← or_assoc, or_self]
    · rw [List.map_cons, List.map_cons, List.mem_cons, List.mem_cons, ih]
      exact or_left_comm

theorem mem_keys_of_bind {t next : Table} {r : BoundRoute} (h : t.bind r = .ok next)
    {key : Method × String} : key ∈ next.keys ↔ key = r.key ∨ key ∈ t.keys := by
  unfold bind at h
  split at h
  · cases h
  · cases h
    exact mem_keys_putEntry

end Route.Table

namespace Router

variable {router : Router}

theorem mem_keys_of_bind {t next : Route.Table} {r : BoundRoute} (h : router.bind t r = .ok next)
    {key : Method × String} : key ∈ next.keys ↔ key = r.key ∨ key ∈ t.keys := by
  unfold bind at h
  split at h
  · cases h
  · exact Route.Table.mem_keys_of_bind h

/-- Routes are bound up to the first that is rejected, and nothing that was bound is lost. -/
theorem bindAll_keys (router : Router) (t : Route.Table) (rs : List BoundRoute) :
    ∃ bound rest, bound ++ rest = rs ∧ ((router.bindAll t rs).1 = .ok () ↔ rest = []) ∧
      ∀ key, key ∈ (router.bindAll t rs).2.keys ↔
        key ∈ t.keys ∨ key ∈ bound.map BoundRoute.key := by
  induction rs generalizing t with
  | nil => exact ⟨[], [], rfl, by simp [bindAll], by simp [bindAll]⟩
  | cons r rs ih =>
    unfold bindAll
    split
    · exact ⟨[], r :: rs, rfl, by simp, by simp⟩
    · rename_i next hbind
      obtain ⟨bound, rest, rfl, hok, hkeys⟩ := ih next
      refine ⟨r :: bound, rest, rfl, hok, fun key => ?_⟩
      rw [hkeys, mem_keys_of_bind hbind, List.map_cons, List.mem_cons,
        or_assoc]
      exact or_left_comm

theorem keys_subset_of_bindAll {t next : Route.Table} {rs : List BoundRoute}
    {result : Except Route.Rejection Unit} (h : router.bindAll t rs = (result, next)) :
    t.keys ⊆ next.keys := by
  obtain ⟨_, _, _, _, hkeys⟩ := router.bindAll_keys t rs
  rw [h] at hkeys
  exact fun key hkey => (hkeys key).2 (Or.inl hkey)

theorem mem_keys_of_bindAll {t next : Route.Table} {rs : List BoundRoute}
    (h : router.bindAll t rs = (.ok (), next)) {r : BoundRoute} (hr : r ∈ rs) :
    r.key ∈ next.keys := by
  obtain ⟨bound, rest, rfl, hok, hkeys⟩ := router.bindAll_keys t rs
  rw [h] at hok hkeys
  obtain rfl : rest = [] := hok.1 rfl
  rw [List.append_nil] at hr
  exact (hkeys _).2 (Or.inr (List.mem_map_of_mem hr))

end Router

/-! ## Entries -/

namespace Route.Table

/-- No method and full path has two entries, and each entry has the pattern of its path. -/
structure WellFormed (t : Table) : Prop where
  keys : t.keys.Nodup
  pattern : ∀ e ∈ t.entries, Pattern.ofPath e.route.path = .ok e.pattern

theorem wellFormed_empty : (∅ : Table).WellFormed :=
  ⟨List.nodup_nil, fun _ he => nomatch he⟩

theorem mem_putEntry {e f : Entry} {es : List Entry} (hes : (es.map Entry.key).Nodup) :
    f ∈ putEntry e es ↔ f = e ∨ f ∈ es ∧ f.key ≠ e.key := by
  induction es with
  | nil => simp [putEntry]
  | cons g gs ih =>
    obtain ⟨hg, hgs⟩ := List.nodup_cons.1 hes
    unfold putEntry
    split
    · rename_i heq
      -- the one entry with the key is the one that goes
      have hne : f ∈ gs → f.key ≠ e.key := fun hf hkey =>
        hg (heq ▸ hkey ▸ List.mem_map_of_mem hf)
      grind
    · rw [List.mem_cons, List.mem_cons, ih hgs]
      grind

theorem nodup_putEntry (e : Entry) {es : List Entry} (hes : (es.map Entry.key).Nodup) :
    ((putEntry e es).map Entry.key).Nodup := by
  induction es with
  | nil => exact List.nodup_singleton _
  | cons g gs ih =>
    obtain ⟨hg, hgs⟩ := List.nodup_cons.1 hes
    unfold putEntry
    split
    · rename_i heq
      exact List.nodup_cons.2 ⟨heq ▸ hg, hgs⟩
    · rename_i hne
      refine List.nodup_cons.2 ⟨fun hmem => ?_, ih hgs⟩
      exact (mem_keys_putEntry.1 hmem).elim hne hg

theorem bind_eq_ok_iff {t next : Table} {r : BoundRoute} : t.bind r = .ok next ↔
    ∃ pattern, Pattern.ofPath r.path = .ok pattern ∧ next = ⟨putEntry ⟨r, pattern⟩ t.entries⟩ := by
  unfold bind
  split
  · rename_i heq
    simp [heq]
  · rename_i heq
    simp [heq, eq_comm]

theorem WellFormed.mem_entries_of_bind {t next : Table} (ht : t.WellFormed) {r : BoundRoute}
    (h : t.bind r = .ok next) {e : Entry} (he : e ∈ next.entries) :
    e.route = r ∨ e ∈ t.entries ∧ e.key ≠ r.key := by
  obtain ⟨pattern, -, rfl⟩ := bind_eq_ok_iff.1 h
  rcases (mem_putEntry ht.keys).1 he with rfl | hkept
  · exact Or.inl rfl
  · exact Or.inr hkept

theorem WellFormed.bind {t next : Table} (ht : t.WellFormed) {r : BoundRoute}
    (h : t.bind r = .ok next) : next.WellFormed := by
  obtain ⟨pattern, hpattern, rfl⟩ := bind_eq_ok_iff.1 h
  refine ⟨nodup_putEntry _ ht.keys, fun e he => ?_⟩
  rcases (mem_putEntry ht.keys).1 he with rfl | ⟨hkept, -⟩
  · exact hpattern
  · exact ht.pattern e hkept

end Route.Table

namespace Router

variable {router : Router}

theorem bind_of_ok {t next : Route.Table} {r : BoundRoute} (h : router.bind t r = .ok next) :
    t.bind r = .ok next := by
  unfold bind at h
  split at h
  · cases h
  · exact h

theorem wellFormed_of_bindAll {t next : Route.Table} {rs : List BoundRoute}
    {result : Except Route.Rejection Unit} (ht : t.WellFormed)
    (h : router.bindAll t rs = (result, next)) : next.WellFormed := by
  induction rs generalizing t with
  | nil =>
    cases h
    exact ht
  | cons r rs ih =>
    unfold bindAll at h
    split at h
    · cases h
      exact ht
    · rename_i hbind
      exact ih (ht.bind (bind_of_ok hbind)) h

/-- An entry is that of a route of the row, or it was there before and no route of the row has
its method and full path. -/
theorem mem_entries_of_bindAll {t next : Route.Table} {rs : List BoundRoute} (ht : t.WellFormed)
    (h : router.bindAll t rs = (.ok (), next)) {e : Route.Entry} (he : e ∈ next.entries) :
    e.route ∈ rs ∨ e ∈ t.entries ∧ e.key ∉ rs.map BoundRoute.key := by
  induction rs generalizing t with
  | nil =>
    cases h
    exact Or.inr ⟨he, List.not_mem_nil⟩
  | cons r rs ih =>
    unfold bindAll at h
    split at h
    · cases h
    rename_i between hbind
    have hbind := bind_of_ok hbind
    rcases ih (ht.bind hbind) h with hmem | ⟨hbetween, hrest⟩
    · exact Or.inl (List.mem_cons_of_mem _ hmem)
    rcases ht.mem_entries_of_bind hbind hbetween with rfl | ⟨hbefore, hne⟩
    · exact Or.inl List.mem_cons_self
    · refine Or.inr ⟨hbefore, fun hmem => ?_⟩
      exact (List.mem_cons.1 hmem).elim hne hrest

/-- Each route of a row that was bound has an entry under its key, and that entry is from the
row. -/
theorem exists_entry_of_bindAll {t next : Route.Table} {rs : List BoundRoute} (ht : t.WellFormed)
    (h : router.bindAll t rs = (.ok (), next)) {r : BoundRoute} (hr : r ∈ rs) :
    ∃ e ∈ next.entries, e.key = r.key ∧ e.route ∈ rs := by
  obtain ⟨e, he, hkey⟩ := List.mem_map.1 (mem_keys_of_bindAll h hr)
  refine ⟨e, he, hkey, (mem_entries_of_bindAll ht h he).resolve_right fun hold => ?_⟩
  exact hold.2 (hkey ▸ List.mem_map_of_mem hr)

end Router

/-! ## What a request goes to -/

/-- The path of a request fits the pattern of the route's full path. -/
def BoundRoute.Matches (r : BoundRoute) (path : String) : Prop :=
  ∃ pattern params, Route.Pattern.ofPath r.path = .ok pattern ∧ pattern.match? path = some params

namespace Route.Table

/-- A request is resolved to the first entry that matches it. -/
theorem find?_eq_some_iff {t : Table} {method : Method} {path : String} {route : BoundRoute}
    {params : NameMap String} : t.find? method path = some (route, params) ↔
      ∃ front e back, t.entries = front ++ e :: back ∧
        (∀ f ∈ front, Entry.match? f method path = none) ∧ e.route = route ∧
        Entry.match? e method path = some params := by
  rw [find?, List.findSome?_eq_some_iff]
  constructor
  · rintro ⟨front, e, back, hentries, he, hfront⟩
    obtain ⟨_, hmatch, heq⟩ := Option.map_eq_some_iff.1 he
    cases heq
    exact ⟨front, e, back, hentries, fun f hf => Option.map_eq_none_iff.1 (hfront f hf), rfl,
      hmatch⟩
  · rintro ⟨front, e, back, hentries, hfront, rfl, hmatch⟩
    refine ⟨front, e, back, hentries, by rw [hmatch]; rfl, fun f hf => ?_⟩
    rw [hfront f hf]
    rfl

theorem match?_eq_some_iff {e : Entry} {method : Method} {path : String}
    {params : NameMap String} : Entry.match? e method path = some params ↔
      e.route.method = method ∧ e.pattern.match? path = some params := by
  unfold Entry.match?
  split
  · rename_i heq
    rw [and_iff_right heq]
  · rename_i hne
    simp [hne]

/-- The entry whose route is found matches the request. -/
theorem exists_entry_of_find? {t : Table} {method : Method} {path : String} {route : BoundRoute}
    {params : NameMap String} (h : t.find? method path = some (route, params)) :
    ∃ e ∈ t.entries, e.route = route ∧ e.pattern.match? path = some params := by
  obtain ⟨front, e, back, hentries, -, hroute, hmatch⟩ := find?_eq_some_iff.1 h
  exact ⟨e, hentries ▸ List.mem_append_right _ List.mem_cons_self, hroute,
    (match?_eq_some_iff.1 hmatch).2⟩

/-- A request is answered by a route: it is the first that is found, and its middlewares and its
handler are run, whatever the code behind them does. -/
def Answers (t : Table) (method : Method) (path : String) (r : BoundRoute) : Prop :=
  ∃ params, t.find? method path = some (r, params) ∧
    ∀ (ω : Type) (s : Service ω) (request : Request) (w : ω),
      t.dispatch s method path request w =
        (runPipeline s r.handler (withParams request params) r.middlewares w).map some id

theorem answers_of_find? {t : Table} {method : Method} {path : String} {r : BoundRoute}
    {params : NameMap String} (h : t.find? method path = some (r, params)) :
    t.Answers method path r := by
  refine ⟨params, h, fun ω s request w => ?_⟩
  rw [dispatch, h]
  rfl

/-- An entry of a table that a row of routes was bound into keeps a request from one of them: it
was there before, no route of the row took its place, and it comes before the route's own. -/
structure Shadows (before after : Table) (rs : List BoundRoute) (r : BoundRoute) (path : String)
    (e : Entry) : Prop where
  earlier : e ∈ before.entries
  other : e.key ∉ rs.map BoundRoute.key
  method : e.route.method = r.method
  matching : e.route.Matches path
  ahead : ∃ front back, after.entries = front ++ e :: back ∧ r.key ∉ front.map Entry.key

/-- What became of a table into which a row of routes was bound: what stands under a method and
full path of the row is bound from it, and a request that fits one of its routes is answered by
one of them, or by an entry that shadows it. -/
structure Serves (before after : Table) (rs : List BoundRoute) : Prop where
  replaced : ∀ e ∈ after.entries, e.key ∈ rs.map BoundRoute.key → e.route ∈ rs
  answered : ∀ r ∈ rs, ∀ path, r.Matches path → ∃ found, after.Answers r.method path found ∧
    (found ∈ rs ∨ ∃ e, Shadows before after rs r path e ∧ e.route = found)

end Route.Table

namespace Router

open Route Route.Table

/-- A row of routes that was bound is served, as far as no earlier entry shadows it. -/
theorem serves_of_bindAll {router : Router} {t next : Route.Table} {rs : List BoundRoute}
    (ht : t.WellFormed) (h : router.bindAll t rs = (.ok (), next)) : Serves t next rs := by
  have hnext : next.WellFormed := wellFormed_of_bindAll ht h
  have horigin : ∀ e ∈ next.entries, e.route ∈ rs ∨ e ∈ t.entries ∧ e.key ∉ rs.map BoundRoute.key :=
    fun e he => mem_entries_of_bindAll ht h he
  refine ⟨fun e he hkey => (horigin e he).resolve_right fun hold => hold.2 hkey, ?_⟩
  rintro r hr path ⟨pattern, params, hpattern, hmatch⟩
  -- the entry of the route itself fits the request, and so does any other with its key
  have hfits : ∀ f ∈ next.entries, f.key = r.key →
      Entry.match? f r.method path = some params := by
    intro f hf hkey
    obtain ⟨hmethod, hpath⟩ := Prod.mk.inj hkey
    have hsame := hnext.pattern f hf
    rw [hpath, hpattern] at hsame
    cases hsame
    exact match?_eq_some_iff.2 ⟨hmethod, hmatch⟩
  obtain ⟨f, hf, hkey⟩ := List.mem_map.1 (mem_keys_of_bindAll h hr)
  obtain ⟨⟨found, foundParams⟩, hfound⟩ : ∃ answer, next.find? r.method path = some answer := by
    refine Option.isSome_iff_exists.1 (List.findSome?_isSome_iff.2 ⟨f, hf, ?_⟩)
    rw [hfits f hf hkey]
    rfl
  refine ⟨found, answers_of_find? hfound, ?_⟩
  obtain ⟨front, e, back, hentries, hfront, rfl, hmatched⟩ := find?_eq_some_iff.1 hfound
  obtain ⟨hmethod, hmatch⟩ := match?_eq_some_iff.1 hmatched
  have hmem : e ∈ next.entries := hentries ▸ List.mem_append_right _ List.mem_cons_self
  refine (horigin e hmem).imp id fun ⟨hearlier, hother⟩ => ⟨e, ⟨hearlier, hother, hmethod,
    ⟨e.pattern, foundParams, hnext.pattern e hmem, hmatch⟩, front, back, hentries,
    fun hin => ?_⟩, rfl⟩
  obtain ⟨g, hg, hgkey⟩ := List.mem_map.1 hin
  have hnone := hfront g hg
  rw [hfits g (hentries ▸ List.mem_append_left _ hg) hgkey] at hnone
  cases hnone

end Router

end PluginHost

import Mathlib.Data.Finset.Card
import Mathlib.Data.Finset.Dedup
import PluginHost.Proofs.Registry.Run
import PluginHost.Proofs.Route.Path
import PluginHost.Proofs.Route.Table

/-!
# What a table says of the binds behind it

A table is a map that remembers the order in which its keys came: a method and full path keeps the
place where it was first bound, and what stands there is the route that was bound last. Routes
whose path is no pattern leave no trace. Nothing is ever taken out: what the registry does to a
table is to bind routes into it.

* `Pattern.ofPath_eq_ok_iff`: the paths that are patterns.
* `Recounts`, `Recounts.bind`: what a table says of the routes that it accepted, and how one more
  bind changes it.
* `Recounts.afterBinds`: the table after any row of binds.
* `Host.keys_prefix_of_move`: no move of a host takes a key out of a table or to another place.
* `binds_ordered`: all of it in one statement.
-/
namespace PluginHost

namespace Route

/-- The segments of a path that are parameters. -/
def parameters (path : String) : List String :=
  (segments path).filter fun s => s.toList.head? = some ':'

/-- The path is a pattern: all its parameters have names, and no two of them the same one. -/
def Readable (path : String) : Prop :=
  ":" ∉ segments path ∧ (parameters path).Nodup

instance (path : String) : Decidable (Readable path) :=
  inferInstanceAs (Decidable (_ ∧ _))

/-! ## Paths that are patterns -/

namespace Pattern

theorem params_append_param (p : Pattern) (name : String) :
    params (p ++ [.param name]) = params p ++ [name] :=
  List.filterMap_append

theorem params_append_literal (p : Pattern) (text : String) :
    params (p ++ [.literal text]) = params p := by
  rw [params, List.filterMap_append]
  exact List.append_nil _

/-- A pattern can be extended by the segments of a path if every parameter among them has a name
that is not taken, neither by the pattern nor by another one of them. -/
theorem extend_eq_ok_iff {p : Pattern} {ss : List String} :
    (∃ q, p.extend (ss.map Segment.ofText) = .ok q) ↔
      ":" ∉ ss ∧ (ss.filter fun s => s.toList.head? = some ':').Nodup ∧
        ∀ name ∈ p.params, ":" ++ name ∉ ss := by
  induction ss generalizing p with
  | nil => simp [extend]
  | cons s ss ih =>
    by_cases hs : s.toList.head? = some ':'
    · obtain ⟨cs, hcs⟩ : ∃ cs, s.toList = ':' :: cs := List.head?_eq_some_iff.1 hs
      obtain ⟨name, rfl⟩ : ∃ name, s = ":" ++ name :=
        ⟨String.ofList cs, String.toList_injective (by simp [hcs])⟩
      have htext : Segment.ofText (":" ++ name) = .param name := by simp [Segment.ofText]
      rw [List.map_cons, htext, extend, List.filter_cons_of_pos (by simp), List.nodup_cons]
      by_cases hname : name = ""
      · simp [hname]
      have hbare : ":" ≠ ":" ++ name := fun heq =>
        hname (String.toList_injective (by simpa using congrArg String.toList heq.symm))
      rw [if_neg hname]
      by_cases htaken : name ∈ p.params
      · rw [if_pos (List.contains_iff_mem.2 htaken)]
        simp only [reduceCtorEq, exists_false, false_iff, not_and, not_forall]
        exact fun _ _ => ⟨name, htaken, fun h => h List.mem_cons_self⟩
      · rw [if_neg (by simpa using htaken), ih, params_append_param]
        simp only [List.mem_cons, List.mem_append, List.mem_filter, not_or, List.not_mem_nil,
          or_false]
        constructor
        · rintro ⟨hno, hnodup, hfresh⟩
          refine ⟨⟨hbare, hno⟩, ⟨fun h => hfresh name (Or.inr rfl) h.1, hnodup⟩,
            fun other hother => ⟨fun heq => htaken ?_, hfresh other (Or.inl hother)⟩⟩
          rwa [← (String.append_right_inj _).1 heq]
        · rintro ⟨⟨-, hno⟩, ⟨hrepeated, hnodup⟩, hfresh⟩
          refine ⟨hno, hnodup, ?_⟩
          rintro other (hother | rfl)
          · exact (hfresh other hother).2
          · exact fun hmem => hrepeated ⟨hmem, by simp⟩
    · have hne : ∀ name, ":" ++ name ≠ s := fun name heq => hs (by simp [← heq])
      have hbare : ":" ≠ s := hne ""
      rw [List.map_cons, Segment.ofText_literal hs, extend, ih, params_append_literal,
        List.filter_cons_of_neg (by simpa using hs)]
      simp [hbare, hne]

/-- A path is a pattern unless it has a bare colon for a segment or names a parameter twice. -/
theorem ofPath_eq_ok_iff {path : String} : (∃ p, ofPath path = .ok p) ↔ Readable path := by
  rw [ofPath, extend_eq_ok_iff]
  simp [Readable, parameters, params]

end Pattern

namespace Table

/-! ## Binds one after the other -/

/-- What a bind leaves: a rejected route leaves the table as it was. -/
def afterBind (t : Table) (r : BoundRoute) : Table :=
  match t.bind r with
  | .ok next => next
  | .error _ => t

/-- What binds leave that are made one after the other. -/
def afterBinds (t : Table) (rs : List BoundRoute) : Table :=
  rs.foldl afterBind t

theorem bind_eq_error_iff {t : Table} {r : BoundRoute} :
    (∃ e, t.bind r = .error e) ↔ ¬ Readable r.path := by
  rw [← Pattern.ofPath_eq_ok_iff, bind]
  split
  · rename_i heq
    simp [heq]
  · rename_i heq
    simp [heq]

theorem afterBind_of_error {t : Table} {r : BoundRoute} {e : Rejection} (h : t.bind r = .error e) :
    t.afterBind r = t := by
  rw [afterBind, h]

/-- An entry that is put among others takes the place of the one with its key, or the last one. -/
theorem keys_putEntry (e : Entry) (es : List Entry) : (putEntry e es).map Entry.key =
    if e.key ∈ es.map Entry.key then es.map Entry.key else es.map Entry.key ++ [e.key] := by
  induction es with
  | nil => rfl
  | cons f fs ih =>
    unfold putEntry
    by_cases heq : f.key = e.key
    · rw [if_pos heq, List.map_cons, List.map_cons, heq, if_pos List.mem_cons_self]
    · rw [if_neg heq, List.map_cons, List.map_cons, ih]
      by_cases hmem : e.key ∈ fs.map Entry.key
      · rw [if_pos hmem, if_pos (List.mem_cons_of_mem _ hmem)]
      · rw [if_neg hmem, if_neg, List.cons_append]
        exact fun h => (List.mem_cons.1 h).elim (Ne.symm heq) hmem

theorem keys_of_bind {t next : Table} {r : BoundRoute} (h : t.bind r = .ok next) :
    next.keys = if r.key ∈ t.keys then t.keys else t.keys ++ [r.key] := by
  obtain ⟨pattern, -, rfl⟩ := bind_eq_ok_iff.1 h
  exact keys_putEntry ⟨r, pattern⟩ t.entries

/-- What a table says of the routes that it accepted: its keys are theirs in the order in which
each came first, and an entry has the route that came last under its key. -/
structure Recounts (t : Table) (accepted : List BoundRoute) : Prop where
  wellFormed : t.WellFormed
  keys : t.keys = (accepted.map BoundRoute.key).eraseDups
  latest : ∀ e ∈ t.entries, ∃ before after, accepted = before ++ e.route :: after ∧
    e.key ∉ after.map BoundRoute.key

theorem recounts_empty : (∅ : Table).Recounts [] :=
  ⟨wellFormed_empty, rfl, fun _ he => nomatch he⟩

theorem Recounts.bind {t next : Table} {accepted : List BoundRoute} (h : t.Recounts accepted)
    {r : BoundRoute} (hbind : t.bind r = .ok next) : next.Recounts (accepted ++ [r]) := by
  refine ⟨h.wellFormed.bind hbind, ?_, fun e he => ?_⟩
  · rw [keys_of_bind hbind, h.keys, List.map_append, List.map_singleton, List.eraseDups_append]
    by_cases hmem : r.key ∈ accepted.map BoundRoute.key
    · have hold : [r.key].removeAll (accepted.map BoundRoute.key) = [] :=
        List.filter_eq_nil_iff.2 fun key hkey => by simpa [List.mem_singleton.1 hkey] using hmem
      rw [if_pos (List.mem_eraseDups.2 hmem), hold]
      exact (List.append_nil _).symm
    · have hnew : [r.key].removeAll (accepted.map BoundRoute.key) = [r.key] :=
        List.filter_eq_self.2 fun key hkey => by simpa [List.mem_singleton.1 hkey] using hmem
      rw [if_neg (List.mem_eraseDups.not.2 hmem), hnew]
      rfl
  · rcases h.wellFormed.mem_entries_of_bind hbind he with rfl | ⟨hbefore, hne⟩
    · exact ⟨accepted, [], rfl, List.not_mem_nil⟩
    · obtain ⟨before, after, rfl, hlast⟩ := h.latest e hbefore
      refine ⟨before, after ++ [r], by simp, fun hmem => ?_⟩
      rw [List.map_append, List.mem_append, List.map_singleton, List.mem_singleton] at hmem
      exact hmem.elim hlast hne

/-- A bind is accepted or leaves no trace. -/
theorem Recounts.afterBind {t : Table} {accepted : List BoundRoute} (h : t.Recounts accepted)
    (r : BoundRoute) :
    (t.afterBind r).Recounts (accepted ++ [r].filter fun r => Readable r.path) := by
  cases hbind : t.bind r with
  | ok next =>
    have hreadable : Readable r.path := by
      refine Decidable.byContradiction fun hnot => ?_
      obtain ⟨e, he⟩ := bind_eq_error_iff.2 hnot
      rw [hbind] at he
      cases he
    rw [Table.afterBind, hbind, List.filter_cons_of_pos (by simpa using hreadable)]
    exact h.bind hbind
  | error e =>
    have hnot : ¬ Readable r.path := bind_eq_error_iff.1 ⟨e, hbind⟩
    rw [afterBind_of_error hbind, List.filter_cons_of_neg (by simpa using hnot)]
    simpa using h

/-- The table after a row of binds, from the table before. -/
theorem Recounts.afterBinds {t : Table} {accepted : List BoundRoute} (h : t.Recounts accepted)
    (rs : List BoundRoute) :
    (t.afterBinds rs).Recounts (accepted ++ rs.filter fun r => Readable r.path) := by
  induction rs generalizing t accepted with
  | nil => exact (List.append_nil accepted).symm ▸ h
  | cons r rs ih =>
    have hrest := ih (h.afterBind r)
    rwa [List.append_assoc, ← List.filter_append] at hrest

/-- How many entries there are is how many different keys were accepted. -/
theorem Recounts.size {t : Table} {accepted : List BoundRoute} (h : t.Recounts accepted) :
    t.size = (accepted.map BoundRoute.key).toFinset.card := by
  have hsame : (accepted.map BoundRoute.key).toFinset = t.keys.toFinset := by
    ext key
    rw [List.mem_toFinset, List.mem_toFinset, h.keys, List.mem_eraseDups]
  rw [hsame, List.toFinset_card_of_nodup h.wellFormed.keys, Table.keys, List.length_map]
  rfl

theorem keys_prefix_of_bind {t next : Table} {r : BoundRoute} (h : t.bind r = .ok next) :
    t.keys <+: next.keys := by
  rw [keys_of_bind h]
  split
  · exact List.prefix_refl _
  · exact List.prefix_append _ _

end Table

end Route

/-! ## Tables of a host -/

/-- Routes that a router binds leave the keys of the table where they are. -/
theorem Router.keys_prefix_of_bindAll {router : Router} {t next : Route.Table}
    {rs : List BoundRoute} {result : Except Route.Rejection Unit}
    (h : router.bindAll t rs = (result, next)) : t.keys <+: next.keys := by
  induction rs generalizing t with
  | nil =>
    cases h
    exact List.prefix_refl _
  | cons r rs ih =>
    unfold bindAll at h
    split at h
    · cases h
      exact List.prefix_refl _
    · rename_i between hbind
      exact (Route.Table.keys_prefix_of_bind (bind_of_ok hbind)).trans (ih h)

namespace Host

variable {ω : Type} {h k : Host ω}

/-- No move takes a key out of a table or to another place. -/
theorem keys_prefix_of_move (hm : Move h k) (name : String) :
    (h.table name).keys <+: (k.table name).keys := by
  have hinsert : ∀ (router : Router) rs {result t},
      router.bindAll (h.table router.table) rs = (result, t) →
      (h.table name).keys <+: (((h.tables.insert router.table t).get? name).getD ∅).keys := by
    intro router rs result t hbind
    rw [table_insert]
    split
    · rename_i heq
      exact heq ▸ Router.keys_prefix_of_bindAll hbind
    · exact List.prefix_refl _
  cases hm with
  | bind _ _ hbind => exact hinsert _ _ hbind
  | bindFails _ _ hbind => exact hinsert _ _ hbind
  | attachRouter router =>
    refine (hinsert router [] rfl).trans ?_
    exact List.prefix_refl _
  | world | enrol | turnAway | evict | keep | enable | enableFails | disable | disableFails
  | detachRouter => exact List.prefix_refl _

theorem keys_prefix_of_moves (hm : Moves h k) (name : String) :
    (h.table name).keys <+: (k.table name).keys := by
  induction hm with
  | refl => exact List.prefix_refl _
  | tail _ hlast ih => exact ih.trans (keys_prefix_of_move hlast name)

end Host

namespace Route.Table

/-- A table is a map in the order of its first binds. After any row of binds into the empty table
its keys are those of the accepted routes, each once and where it came first, so there are as many
entries as there are different keys among them; and each entry has the pattern of its own path and
the route that was accepted last under its key. A route is rejected, and leaves the table as it is,
exactly if its path has a bare colon for a segment or two parameters of one name. No command of a
registry takes an entry out of a table or to another place. -/
theorem binds_ordered (rs : List BoundRoute) :
    let accepted := rs.filter fun r => Readable r.path
    let t := (∅ : Table).afterBinds rs
    (t.keys.Nodup ∧ t.keys = (accepted.map BoundRoute.key).eraseDups ∧
      t.size = (accepted.map BoundRoute.key).toFinset.card) ∧
    (∀ e ∈ t.entries, Pattern.ofPath e.route.path = .ok e.pattern ∧
      ∃ before after, accepted = before ++ e.route :: after ∧
        e.key ∉ after.map BoundRoute.key) ∧
    (∀ (t : Table) (r : BoundRoute),
      ((∃ e, t.bind r = .error e) ↔ ":" ∈ segments r.path ∨ ¬ (parameters r.path).Nodup) ∧
      ∀ e, t.bind r = .error e → t.afterBind r = t) ∧
    ∀ (ω : Type) (P : Plugins ω) (h : Host ω) (c : Command) (name : String),
      (h.table name).keys <+: ((c.run P h).2.table name).keys := by
  intro accepted t
  have hrecounts : t.Recounts accepted := recounts_empty.afterBinds rs
  refine ⟨⟨hrecounts.wellFormed.keys, hrecounts.keys, hrecounts.size⟩,
    fun e he => ⟨hrecounts.wellFormed.pattern e he, hrecounts.latest e he⟩,
    fun t r => ⟨?_, fun e he => afterBind_of_error he⟩,
    fun ω P h c name => Host.keys_prefix_of_moves (Host.moves_run P c h) name⟩
  rw [bind_eq_error_iff, Readable, not_and_or, not_not]

end Route.Table

end PluginHost

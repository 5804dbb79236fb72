import PluginHost.Proofs.Route.History

/-!
# Which request goes where

A request goes to the first entry of a table whose method is its own and whose pattern its path
fits. What is remembered of it are the segments that the parameters of the pattern stand for, so the
path can be put together again, but for its slashes; and no two parameters of a pattern have one
name, so nothing is overwritten on the way.

Patterns and requests are taken apart separately. Both times a segment is neither empty nor has it a
slash, which is what the values of parameters need as well to be found again.

* `segments_eq_splitOn`: segments are the pieces between slashes that are not empty.
* `segments_joined`: segments that were put together are found again.
* `Pattern.matchSegments_fill`: a pattern matches its own instances, and says of which values.
* `Pattern.exists_fill`: what fits a pattern is one of its instances.
* `requests_resolved`: all of it in one statement.
-/
namespace PluginHost.Route

/-- What stands in the place of a segment of a pattern if the parameters have values. -/
def Segment.fill (value : String → String) : Segment → String
  | .literal text => text
  | .param name => value name

/-- The path of a row of segments. -/
def joined : List String → String
  | [] => ""
  | s :: ss => "/" ++ s ++ joined ss

/-- An entry is for a request: it has the method, and as many segments in its pattern as the path
has, of which the literal ones are the same. -/
def Entry.Fits (e : Entry) (method : Method) (path : String) : Prop :=
  e.route.method = method ∧ List.Forall₂ Segment.Fits e.pattern (segments path)

/-! ## Segments -/

theorem segmentsFrom_eq_splitOn {piece cs : List Char} (hpiece : '/' ∉ piece) :
    segmentsFrom piece cs = (((piece ++ cs).splitOn '/').filter (· ≠ [])).map String.ofList := by
  induction cs generalizing piece with
  | nil =>
    rw [segmentsFrom, List.append_nil, List.splitOn_eq_singleton hpiece, consPiece]
    by_cases hempty : piece = []
    · simp [hempty]
    · simp [hempty]
  | cons c cs ih =>
    rw [segmentsFrom]
    by_cases hslash : c = '/'
    · subst hslash
      rw [if_pos rfl, List.splitOn_append_cons_self, List.splitOn_eq_singleton hpiece,
        ih List.not_mem_nil, consPiece, List.nil_append]
      by_cases hempty : piece = []
      · simp [hempty]
      · simp [hempty]
    · have hlonger : '/' ∉ piece ++ [c] := by simp [hpiece, Ne.symm hslash]
      rw [if_neg hslash, ih hlonger, List.append_assoc, List.singleton_append]

theorem segments_eq_splitOn (path : String) :
    segments path = ((path.toList.splitOn '/').filter (· ≠ [])).map String.ofList :=
  segmentsFrom_eq_splitOn List.not_mem_nil

theorem of_mem_consPiece {piece : List Char} {rest : List String} (hpiece : '/' ∉ piece)
    {s : String} (hs : s ∈ consPiece piece rest) : s ∈ rest ∨ s ≠ "" ∧ '/' ∉ s.toList := by
  unfold consPiece at hs
  split at hs
  · exact Or.inl hs
  · rename_i hne
    rcases List.mem_cons.1 hs with rfl | hrest
    · rw [String.toList_ofList]
      exact Or.inr ⟨fun hempty => hne (by simpa using congrArg String.toList hempty), hpiece⟩
    · exact Or.inl hrest

theorem of_mem_segmentsFrom {piece cs : List Char} (hpiece : '/' ∉ piece) {s : String}
    (hs : s ∈ segmentsFrom piece cs) : s ≠ "" ∧ '/' ∉ s.toList := by
  induction cs generalizing piece with
  | nil => exact (of_mem_consPiece hpiece hs).resolve_left List.not_mem_nil
  | cons c cs ih =>
    rw [segmentsFrom] at hs
    split at hs
    · exact (of_mem_consPiece hpiece hs).elim (ih List.not_mem_nil) id
    · rename_i hslash
      exact ih (by simp [hpiece, Ne.symm hslash]) hs

/-- A segment is not empty, and there is no slash in it. -/
theorem of_mem_segments {path s : String} (hs : s ∈ segments path) : s ≠ "" ∧ '/' ∉ s.toList :=
  of_mem_segmentsFrom List.not_mem_nil hs

theorem segments_append_joined {s : String} (hne : s ≠ "") (hslash : '/' ∉ s.toList)
    (ss : List String) : segments (s ++ joined ss) = s :: segments (joined ss) := by
  cases ss with
  | nil =>
    rw [joined, String.append_empty, segments_plain hne hslash]
    rfl
  | cons t ts =>
    rw [joined, String.append_assoc, ← String.append_assoc, segments_append_slash,
      segments_plain hne hslash, segments_slash_append]
    rfl

/-- Segments that were put together are found again. -/
theorem segments_joined {ss : List String} (hss : ∀ s ∈ ss, s ≠ "" ∧ '/' ∉ s.toList) :
    segments (joined ss) = ss := by
  induction ss with
  | nil => rfl
  | cons s ss ih =>
    obtain ⟨hne, hslash⟩ := hss s List.mem_cons_self
    rw [joined, String.append_assoc, segments_slash_append, segments_append_joined hne hslash,
      ih fun t ht => hss t (List.mem_cons_of_mem _ ht)]

/-! ## Patterns and their instances -/

namespace Pattern

theorem nodup_params_of_extend {p q : Pattern} {ss : List Segment} (hp : p.params.Nodup)
    (h : p.extend ss = .ok q) : q.params.Nodup := by
  induction ss generalizing p with
  | nil =>
    cases h
    exact hp
  | cons s ss ih =>
    cases s with
    | literal text => exact ih (by rwa [params_append_literal]) h
    | param name =>
      unfold extend at h
      split at h
      · cases h
      split at h
      · cases h
      · rename_i hfresh
        have hnew : name ∉ p.params := by simpa using hfresh
        refine ih ?_ h
        rw [params_append_param]
        exact List.nodup_append.2 ⟨hp, List.nodup_singleton _, fun n hn m hm heq =>
          hnew (List.mem_singleton.1 hm ▸ heq ▸ hn)⟩

/-- No two parameters of a pattern have one name. -/
theorem nodup_params_of_ofPath {path : String} {p : Pattern} (h : ofPath path = .ok p) :
    p.params.Nodup :=
  nodup_params_of_extend (p := []) List.nodup_nil h

/-- An instance depends on the values of the parameters only. -/
theorem map_fill_congr {p : Pattern} {value value' : String → String}
    (h : ∀ name ∈ p.params, value name = value' name) :
    p.map (Segment.fill value) = p.map (Segment.fill value') := by
  refine List.map_congr_left fun s hs => ?_
  cases s with
  | literal text => rfl
  | param name => exact h name (List.mem_filterMap.2 ⟨_, hs, rfl⟩)

/-- A pattern matches its instances, and what it finds are the values of its parameters. -/
theorem matchSegments_fill (p : Pattern) (value : String → String) (found : NameMap String) :
    ∃ params, p.matchSegments found (p.map (Segment.fill value)) = some params ∧
      ∀ name, params.get? name =
        if name ∈ p.params then some (value name) else found.get? name := by
  induction p generalizing found with
  | nil => exact ⟨found, rfl, fun name => rfl⟩
  | cons s p ih =>
    cases s with
    | literal text =>
      obtain ⟨params, hmatch, hget⟩ := ih found
      exact ⟨params, (if_pos rfl).trans hmatch, hget⟩
    | param own =>
      obtain ⟨params, hmatch, hget⟩ := ih (found.insert own (value own))
      refine ⟨params, hmatch, fun name => ?_⟩
      have hparams : Pattern.params (.param own :: p) = own :: Pattern.params p := rfl
      rw [hget, NameMap.get?_insert, hparams]
      -- if the name comes again, it is found with the same value
      by_cases hname : name = own
      · simp [hname]
      · simp [hname]

/-- What fits a pattern is an instance of it, since no parameter needs two values. -/
theorem exists_fill {p : Pattern} {ts : List String} (hp : p.params.Nodup)
    (h : List.Forall₂ Segment.Fits p ts) : ∃ value, p.map (Segment.fill value) = ts := by
  induction h with
  | nil => exact ⟨fun _ => "", rfl⟩
  | @cons s t p ts hfit _ ih =>
    cases s with
    | literal text =>
      obtain ⟨value, rfl⟩ := ih hp
      exact ⟨value, congrArg (· :: _) hfit⟩
    | param name =>
      obtain ⟨hname, hp⟩ := List.nodup_cons.1 hp
      obtain ⟨value, rfl⟩ := ih hp
      refine ⟨Function.update value name t, ?_⟩
      -- the name does not come again, so the rest keeps its values
      have hrest : p.map (Segment.fill (Function.update value name t)) =
          p.map (Segment.fill value) := map_fill_congr fun other hother =>
        Function.update_of_ne (ne_of_mem_of_not_mem hother hname) _ _
      rw [List.map_cons, hrest, Segment.fill, Function.update_self]

theorem match?_of_fits {p : Pattern} {path : String} (hp : p.params.Nodup)
    (h : List.Forall₂ Segment.Fits p (segments path)) : ∃ params, p.match? path = some params := by
  obtain ⟨value, hvalue⟩ := exists_fill hp h
  obtain ⟨params, hmatch, -⟩ := p.matchSegments_fill value ∅
  exact ⟨params, by rw [match?, ← hvalue, hmatch]⟩

/-- A match knows the parameters of the pattern and no others, and with what it says of them the
pattern becomes the path again. -/
theorem fill_of_match? {p : Pattern} {path : String} {params : NameMap String}
    (hp : p.params.Nodup) (h : p.match? path = some params) :
    (∀ name, name ∈ params.names ↔ name ∈ p.params) ∧
      p.map (Segment.fill fun name => (params.get? name).getD "") = segments path := by
  obtain ⟨value, hvalue⟩ := exists_fill hp (fits_of_match? h)
  obtain ⟨found, hfound, hget⟩ := p.matchSegments_fill value ∅
  rw [hvalue] at hfound
  obtain rfl : params = found := Option.some.inj (h.symm.trans hfound)
  constructor
  · intro name
    rw [NameMap.mem_names_iff, NameMap.contains, hget]
    by_cases hname : name ∈ p.params
    · simp [hname]
    · simp [hname]
  · rw [← hvalue]
    refine map_fill_congr fun name hname => ?_
    rw [hget, if_pos hname]
    rfl

/-- The segments of an instance are as good as those of a path. -/
theorem of_mem_fill {path : String} {p : Pattern} (hp : ofPath path = .ok p)
    {value : String → String}
    (hvalue : ∀ name ∈ p.params, value name ≠ "" ∧ '/' ∉ (value name).toList) {s : String}
    (hs : s ∈ p.map (Segment.fill value)) : s ≠ "" ∧ '/' ∉ s.toList := by
  obtain ⟨segment, hsegment, rfl⟩ := List.mem_map.1 hs
  cases segment with
  | literal text =>
    -- a literal is a segment of the path that the pattern was read from
    rw [eq_of_ofPath hp] at hsegment
    obtain ⟨t, ht, htext⟩ := List.mem_map.1 hsegment
    unfold Segment.ofText at htext
    split at htext
    · cases htext
    · cases htext
      exact of_mem_segments ht
  | param name => exact hvalue name (List.mem_filterMap.2 ⟨_, hsegment, rfl⟩)

theorem match?_joined {path : String} {p : Pattern} (hp : ofPath path = .ok p)
    {value : String → String}
    (hvalue : ∀ name ∈ p.params, value name ≠ "" ∧ '/' ∉ (value name).toList) :
    ∃ params, p.match? (joined (p.map (Segment.fill value))) = some params ∧
      ∀ name, params.get? name = if name ∈ p.params then some (value name) else none := by
  rw [match?, segments_joined fun s hs => of_mem_fill hp hvalue hs]
  exact p.matchSegments_fill value ∅

end Pattern

/-! ## Tables -/

namespace Table

theorem exists_match?_iff {e : Entry} (he : e.pattern.params.Nodup) {method : Method}
    {path : String} : (∃ params, Entry.match? e method path = some params) ↔ e.Fits method path := by
  simp only [match?_eq_some_iff, exists_and_left]
  exact and_congr_right fun _ => ⟨fun ⟨_, hmatch⟩ => Pattern.fits_of_match? hmatch,
    Pattern.match?_of_fits he⟩

theorem match?_eq_none_iff {e : Entry} (he : e.pattern.params.Nodup) {method : Method}
    {path : String} : Entry.match? e method path = none ↔ ¬ e.Fits method path := by
  rw [← exists_match?_iff he, ← Option.isSome_iff_exists, Option.not_isSome_iff_eq_none]

/-- A request is not resolved exactly if no entry is for it. -/
theorem find?_eq_none_iff {t : Table} (ht : ∀ e ∈ t.entries, e.pattern.params.Nodup)
    {method : Method} {path : String} :
    t.find? method path = none ↔ ∀ e ∈ t.entries, ¬ e.Fits method path := by
  rw [find?, List.findSome?_eq_none_iff]
  refine forall₂_congr fun e he => ?_
  rw [Option.map_eq_none_iff, match?_eq_none_iff (ht e he)]

/-- Only the segments of a path matter. -/
theorem find?_congr (t : Table) (method : Method) {path path' : String}
    (h : segments path = segments path') : t.find? method path = t.find? method path' := by
  simp only [find?, Entry.match?, Pattern.match?, h]

/-- What a table is after any row of binds into the empty one decides where requests go. Segments
are the pieces between slashes that are not empty, be it of a request or of the path of a route,
where those that begin with a colon are parameters. A request is resolved to the first entry that
is for it, and not at all exactly if there is none; what is found besides has the parameters of the
pattern for its names, and put into the pattern it gives the segments of the request. The other way
round, a path that is made from a pattern by values for its parameters, none of them empty or with a
slash, is matched by the pattern, and it is these values that are found. More or fewer slashes at
the beginning, at the end or next to another one make no difference to any request. -/
theorem requests_resolved (rs : List BoundRoute) :
    let t := (∅ : Table).afterBinds rs
    (∀ path, segments path =
      ((path.toList.splitOn '/').filter (· ≠ [])).map String.ofList) ∧
    (∀ e ∈ t.entries, e.pattern = (segments e.route.path).map Segment.ofText) ∧
    (∀ method path, t.find? method path = none ↔ ∀ e ∈ t.entries, ¬ e.Fits method path) ∧
    (∀ method path route params, t.find? method path = some (route, params) →
      ∃ front e back, t.entries = front ++ e :: back ∧ (∀ f ∈ front, ¬ f.Fits method path) ∧
        e.Fits method path ∧ e.route = route ∧
        (∀ name, name ∈ params.names ↔ name ∈ e.pattern.params) ∧
        e.pattern.map (Segment.fill fun name => (params.get? name).getD "") = segments path) ∧
    (∀ path p value, Pattern.ofPath path = .ok p →
      (∀ name ∈ p.params, value name ≠ "" ∧ '/' ∉ (value name).toList) →
      ∃ params, p.match? (joined (p.map (Segment.fill value))) = some params ∧
        ∀ name, params.get? name = if name ∈ p.params then some (value name) else none) ∧
    ∀ method a b slashes, (∀ c ∈ slashes.toList, c = '/') →
      t.find? method (slashes ++ a) = t.find? method a ∧
      t.find? method (a ++ slashes) = t.find? method a ∧
      t.find? method (a ++ "/" ++ slashes ++ b) = t.find? method (a ++ "/" ++ b) := by
  intro t
  have hpatterns : ∀ e ∈ t.entries, Pattern.ofPath e.route.path = .ok e.pattern :=
    (recounts_empty.afterBinds rs).wellFormed.pattern
  have hnames : ∀ e ∈ t.entries, e.pattern.params.Nodup := fun e he =>
    Pattern.nodup_params_of_ofPath (hpatterns e he)
  refine ⟨segments_eq_splitOn, fun e he => Pattern.eq_of_ofPath (hpatterns e he),
    fun method path => find?_eq_none_iff hnames, fun method path route params hfound => ?_,
    fun path p value hp hvalue => Pattern.match?_joined hp hvalue,
    fun method a b slashes hslashes => ⟨?_, ?_, ?_⟩⟩
  · obtain ⟨front, e, back, hentries, hfront, hroute, hmatch⟩ := find?_eq_some_iff.1 hfound
    have he : e ∈ t.entries := hentries ▸ List.mem_append_right _ List.mem_cons_self
    have hothers : ∀ f ∈ front, ¬ f.Fits method path := fun f hf =>
      (match?_eq_none_iff (hnames f (hentries ▸ List.mem_append_left _ hf))).1 (hfront f hf)
    exact ⟨front, e, back, hentries, hothers, (exists_match?_iff (hnames e he)).1 ⟨_, hmatch⟩,
      hroute, Pattern.fill_of_match? (hnames e he) (match?_eq_some_iff.1 hmatch).2⟩
  · exact t.find?_congr method (segments_slashes_append hslashes a)
  · exact t.find?_congr method (segments_append_slashes hslashes a)
  · refine t.find?_congr method ?_
    rw [String.append_assoc, segments_append_slash, segments_append_slash,
      segments_slashes_append hslashes]

/-- An inn with a page for each room, and a page for the attic that was bound later. -/
def innRoutes : List BoundRoute :=
  [⟨"inn", .get, "/plugins/inn/:room", .scripted "room" (.empty 200), [], false, []⟩,
    ⟨"inn", .get, "/plugins/inn/attic", .scripted "attic" (.empty 200), [], false, []⟩]

/-- The page for the attic is never reached: it is taken for a room, however many slashes there
are. And what the page for the rooms calls the cellar is found as such. -/
theorem attic_is_a_room :
    ∃ e params found, ((∅ : Table).afterBinds innRoutes).find? .get "///plugins/inn//attic/" =
        some (e.route, params) ∧ e ∈ ((∅ : Table).afterBinds innRoutes).entries ∧
      e.route.path = "/plugins/inn/:room" ∧ params.get? "room" = some "attic" ∧
      e.pattern.map (Segment.fill fun name => (params.get? name).getD "") =
        ["plugins", "inn", "attic"] ∧
      Pattern.match? [.literal "plugins", .literal "inn", .param "room"] "/plugins/inn/cellar" =
        some found ∧ found.get? "room" = some "cellar" := by
  obtain ⟨-, -, -, hresolved, hinstances, hslashes⟩ := requests_resolved innRoutes
  have hroom : (((∅ : Table).afterBinds innRoutes).find? .get "plugins/inn//attic/").map
      (fun found => (found.1.path, found.2.get? "room")) =
        some ("/plugins/inn/:room", some "attic") := by decide
  obtain ⟨⟨route, params⟩, hfound, heq⟩ := Option.map_eq_some_iff.1 hroom
  obtain ⟨hpath, hname⟩ := Prod.mk.inj heq
  obtain ⟨front, e, back, hentries, -, -, rfl, -, hfill⟩ := hresolved _ _ _ _ hfound
  have he : e ∈ ((∅ : Table).afterBinds innRoutes).entries := by
    rw [hentries]
    exact List.mem_append_right _ List.mem_cons_self
  have hmore := (hslashes .get "plugins/inn//attic/" "" "///" (by simp)).1
  obtain ⟨found, hmatch, hget⟩ := hinstances "/plugins/inn/:room"
    [.literal "plugins", .literal "inn", .param "room"] (fun _ => "cellar") (by decide) (by simp)
  exact ⟨e, params, found, hmore.trans hfound, he, hpath, hname, hfill.trans (by decide), hmatch,
    (hget "room").trans (by decide)⟩

end Table

end PluginHost.Route

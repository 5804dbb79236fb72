import Mathlib.Data.List.Forall2
import Mathlib.Data.List.TakeWhile
import PluginHost.Route.Basic

/-!
# Full paths and what they match

The full path of a route is made by putting texts together, and it is taken apart again at its
slashes, wherever these come from. So a name with a slash in it counts as several segments, and
one that begins with a colon as a parameter: the routes of one plugin may then be found under the
path of another one. `Apart` and `Nested` say of two names whether that can happen.

* `segments_fullPath`: the segments of a full path.
* `Pattern.fits_of_match?`: a pattern matches a path segment by segment.
* `Apart.not_matches`: when the routes of one plugin are not found under the path of another.
* `nested_of_fullPath_eq`: when the routes of two plugins can have one full path.
-/
namespace PluginHost.Route

/-- At some position both names have a segment, and that of the first one is no parameter and
another one than that of the second. -/
def Apart (p q : String) : Prop :=
  ∃ (i : Nat) (s t : String), (segments p)[i]? = some s ∧ (segments q)[i]? = some t ∧
    s.toList.head? ≠ some ':' ∧ s ≠ t

/-- One of the names is the other with a slash and more behind it. -/
def Nested (p q : String) : Prop :=
  ∃ more, p = q ++ "/" ++ more ∨ q = p ++ "/" ++ more

/-- A segment of a path is one that the segment of a pattern stands for. -/
def Segment.Fits : Segment → String → Prop
  | .literal s, t => s = t
  | .param _, _ => True

/-! ## Segments -/

theorem consPiece_append (piece : List Char) (xs ys : List String) :
    consPiece piece (xs ++ ys) = consPiece piece xs ++ ys := by
  unfold consPiece
  split
  · rfl
  · rfl

theorem segmentsFrom_append_slash (piece cs ds : List Char) :
    segmentsFrom piece (cs ++ '/' :: ds) = segmentsFrom piece cs ++ segmentsFrom [] ds := by
  induction cs generalizing piece with
  | nil => exact consPiece_append piece [] (segmentsFrom [] ds)
  | cons c cs ih =>
    rw [List.cons_append, segmentsFrom, segmentsFrom]
    split
    · rw [ih, consPiece_append]
    · exact ih _

/-- Slashes in front make no segments. -/
theorem segmentsFrom_slashes_append {slashes : List Char} (h : ∀ c ∈ slashes, c = '/')
    (cs : List Char) : segmentsFrom [] (slashes ++ cs) = segmentsFrom [] cs := by
  induction slashes with
  | nil => rfl
  | cons c slashes ih =>
    rw [List.cons_append, segmentsFrom, if_pos (h c List.mem_cons_self), consPiece, if_pos rfl]
    exact ih fun d hd => h d (List.mem_cons_of_mem _ hd)

/-- Slashes at the end make no segments. -/
theorem segmentsFrom_append_slashes {slashes : List Char} (h : ∀ c ∈ slashes, c = '/')
    (piece cs : List Char) : segmentsFrom piece (cs ++ slashes) = segmentsFrom piece cs := by
  cases slashes with
  | nil => rw [List.append_nil]
  | cons c slashes =>
    obtain rfl : c = '/' := h c List.mem_cons_self
    have hrest := segmentsFrom_slashes_append (fun d hd => h d (List.mem_cons_of_mem _ hd)) []
    rw [List.append_nil] at hrest
    rw [segmentsFrom_append_slash, hrest]
    exact List.append_nil _

/-- A text without slashes is one piece. -/
theorem segmentsFrom_plain {piece cs : List Char} (h : '/' ∉ cs) :
    segmentsFrom piece cs = consPiece (piece ++ cs) [] := by
  induction cs generalizing piece with
  | nil => rw [segmentsFrom, List.append_nil]
  | cons c cs ih =>
    obtain ⟨hc, hcs⟩ := not_or.1 (List.mem_cons.not.1 h)
    rw [segmentsFrom, if_neg (Ne.symm hc), ih hcs, List.append_assoc, List.singleton_append]

theorem segments_append_slash (a b : String) :
    segments (a ++ "/" ++ b) = segments a ++ segments b := by
  have htext : (a ++ "/" ++ b).toList = a.toList ++ '/' :: b.toList := by simp
  rw [segments, htext, segmentsFrom_append_slash]
  rfl

/-- A slash in front makes no segment. -/
theorem segments_slash_append (a : String) : segments ("/" ++ a) = segments a := by
  have htext : ("/" ++ a).toList = [] ++ '/' :: a.toList := by simp
  rw [segments, htext, segmentsFrom_append_slash]
  rfl

theorem segments_slashes_append {slashes : String} (h : ∀ c ∈ slashes.toList, c = '/')
    (a : String) : segments (slashes ++ a) = segments a := by
  rw [segments, String.toList_append, segmentsFrom_slashes_append h, segments]

theorem segments_append_slashes {slashes : String} (h : ∀ c ∈ slashes.toList, c = '/')
    (a : String) : segments (a ++ slashes) = segments a := by
  rw [segments, String.toList_append, segmentsFrom_append_slashes h, segments]

theorem segments_plain {name : String} (hname : name ≠ "") (h : '/' ∉ name.toList) :
    segments name = [name] := by
  have hne : name.toList ≠ [] := fun hnil => hname (String.toList_eq_nil_iff.1 hnil)
  rw [segments, segmentsFrom_plain h, List.nil_append, consPiece, if_neg hne,
    String.ofList_toList]

theorem segments_trimSlashes (path : String) : segments (trimSlashes path) = segments path := by
  obtain ⟨slashes, hslashes, htext⟩ : ∃ slashes : List Char, (∀ c ∈ slashes, c = '/') ∧
      path.toList = (trimSlashes path).toList ++ slashes := by
    refine ⟨(path.toList.reverse.takeWhile (· = '/')).reverse, fun c hc => ?_, ?_⟩
    · simpa using List.mem_takeWhile_imp (List.mem_reverse.1 hc)
    · rw [trimSlashes, String.toList_ofList, ← List.reverse_append, List.takeWhile_append_dropWhile,
        List.reverse_reverse]
  rw [segments, segments, htext, segmentsFrom_append_slashes hslashes]

/-! ## Full paths -/

theorem eq_slash_append {path : String} (h : path.toList.head? = some '/') :
    ∃ more, path = "/" ++ more := by
  obtain ⟨cs, hcs⟩ : ∃ cs, path.toList = '/' :: cs := List.head?_eq_some_iff.1 h
  refine ⟨String.ofList cs, String.toList_injective ?_⟩
  rw [hcs]
  simp

/-- A full path is the name under the mount point, alone or with a slash and more behind it. -/
theorem fullPath_eq (plugin path : String) : ∃ rest,
    fullPath plugin path = mountPoint ++ "/" ++ (plugin ++ rest) ∧
      (rest = "" ∨ ∃ more, rest = "/" ++ more) ∧ segments rest = segments path := by
  unfold fullPath
  simp only
  rw [← segments_trimSlashes path]
  split
  · rename_i hempty
    exact ⟨"", by rw [String.append_empty], Or.inl rfl, by rw [hempty]⟩
  split
  · rename_i hslash
    exact ⟨_, String.append_assoc .., Or.inr (eq_slash_append hslash), rfl⟩
  · refine ⟨"/" ++ trimSlashes path, ?_, Or.inr ⟨_, rfl⟩, segments_slash_append _⟩
    simp only [String.append_assoc]

/-- The segments of a full path are the mount point, those of the name and those of the path. -/
theorem segments_fullPath (plugin path : String) :
    segments (fullPath plugin path) = "plugins" :: (segments plugin ++ segments path) := by
  obtain ⟨rest, hfull, hrest, hsegments⟩ := fullPath_eq plugin path
  have hmount : segments mountPoint = ["plugins"] := by decide
  rw [hfull, segments_append_slash, hmount, ← hsegments, List.singleton_append]
  rcases hrest with rfl | ⟨more, rfl⟩
  · rw [String.append_empty]
    exact congrArg _ (List.append_nil _).symm
  · rw [← String.append_assoc, segments_append_slash, segments_slash_append]

/-- What a longer name has behind a shorter one begins with a slash if it is also the beginning of
what a full path has behind the name. -/
theorem exists_slash_of_longer {a b rest : String} {between tail : List Char} (hab : a ≠ b)
    (hb : b.toList = a.toList ++ between) (hrest : rest = "" ∨ ∃ more, rest = "/" ++ more)
    (htail : rest.toList = between ++ tail) : ∃ more, b = a ++ "/" ++ more := by
  have hbetween : between ≠ [] := by
    rintro rfl
    exact hab (String.toList_injective (by rw [hb, List.append_nil]))
  obtain ⟨k, ks, rfl⟩ := List.exists_cons_of_ne_nil hbetween
  rcases hrest with rfl | ⟨more, rfl⟩
  · cases htail
  · obtain rfl : k = '/' := by
      have := congrArg List.head? htail
      simpa using this.symm
    refine ⟨String.ofList ks, String.toList_injective ?_⟩
    rw [hb]
    simp

/-- Routes of two plugins have one full path only if one name is nested in the other. -/
theorem nested_of_fullPath_eq {p q x y : String} (hne : p ≠ q)
    (h : fullPath p x = fullPath q y) : Nested p q := by
  obtain ⟨rest, hp, hrest, -⟩ := fullPath_eq p x
  obtain ⟨rest', hq, hrest', -⟩ := fullPath_eq q y
  rw [hp, hq, String.append_right_inj] at h
  have htexts : p.toList ++ rest.toList = q.toList ++ rest'.toList := by
    rw [← String.toList_append, ← String.toList_append, h]
  rcases List.append_eq_append_iff.1 htexts with ⟨between, hb, htail⟩ | ⟨between, hb, htail⟩
  · obtain ⟨more, hmore⟩ := exists_slash_of_longer hne hb hrest htail
    exact ⟨more, Or.inr hmore⟩
  · obtain ⟨more, hmore⟩ := exists_slash_of_longer hne.symm hb hrest' htail
    exact ⟨more, Or.inl hmore⟩

/-! ## Patterns -/

namespace Pattern

theorem eq_of_extend {p q : Pattern} {ss : List Segment} (h : p.extend ss = .ok q) :
    q = p ++ ss := by
  induction ss generalizing p with
  | nil =>
    cases h
    rw [List.append_nil]
  | cons s ss ih =>
    cases s with
    | literal text => simpa using ih h
    | param name =>
      unfold extend at h
      split at h
      · cases h
      split at h
      · cases h
      · simpa using ih h

/-- A pattern has one segment for each segment of its path. -/
theorem eq_of_ofPath {path : String} {p : Pattern} (h : ofPath path = .ok p) :
    p = (segments path).map Segment.ofText :=
  eq_of_extend h

theorem fits_of_matchSegments {p : Pattern} {ts : List String} {found params : NameMap String}
    (h : p.matchSegments found ts = some params) : List.Forall₂ Segment.Fits p ts := by
  induction p generalizing ts found with
  | nil =>
    cases ts with
    | nil => exact .nil
    | cons t ts => cases h
  | cons s p ih =>
    cases ts with
    | nil => cases s <;> cases h
    | cons t ts =>
      cases s with
      | literal text =>
        unfold matchSegments at h
        split at h
        · rename_i heq
          exact .cons heq (ih h)
        · cases h
      | param name => exact .cons trivial (ih h)

/-- A path that a pattern matches has a fitting segment for each of its segments. -/
theorem fits_of_match? {p : Pattern} {path : String} {params : NameMap String}
    (h : p.match? path = some params) : List.Forall₂ Segment.Fits p (segments path) :=
  fits_of_matchSegments h

end Pattern

theorem Segment.ofText_literal {s : String} (h : s.toList.head? ≠ some ':') :
    Segment.ofText s = .literal s := by
  unfold Segment.ofText
  split
  · rename_i heq
    rw [heq] at h
    exact absurd rfl h
  · rfl

/-- The routes of a plugin are not found under the paths of one that its name is apart from. -/
theorem Apart.not_matches {p q : String} (ha : Apart p q) {x y : String} {pattern : Pattern}
    (hpattern : Pattern.ofPath (fullPath p y) = .ok pattern) :
    pattern.match? (fullPath q x) = none := by
  obtain ⟨i, s, t, hs, ht, hliteral, hne⟩ := ha
  cases hmatch : pattern.match? (fullPath q x) with
  | none => rfl
  | some params =>
    have hfits := Pattern.fits_of_match? hmatch
    rw [Pattern.eq_of_ofPath hpattern, segments_fullPath, segments_fullPath] at hfits
    obtain ⟨hi, rfl⟩ := List.getElem?_eq_some_iff.1 hs
    obtain ⟨hi', rfl⟩ := List.getElem?_eq_some_iff.1 ht
    -- one segment, that of the mount point, comes before those of the names
    have hfit := hfits.get (i := i + 1) (by simp; omega) (by simp; omega)
    simp only [List.get_eq_getElem, List.map_cons, List.map_append, List.getElem_cons_succ,
      List.getElem_append, List.length_map, hi, hi', dif_pos, List.getElem_map] at hfit
    rw [Segment.ofText_literal hliteral] at hfit
    exact absurd hfit hne

/-- Two names without slashes are apart if they differ and the first one is no parameter. -/
theorem apart_of_plain {p q : String} (hp : p ≠ "") (hq : q ≠ "") (hp' : '/' ∉ p.toList)
    (hq' : '/' ∉ q.toList) (hliteral : p.toList.head? ≠ some ':') (hne : p ≠ q) : Apart p q :=
  ⟨0, p, q, by rw [segments_plain hp hp']; rfl, by rw [segments_plain hq hq']; rfl, hliteral, hne⟩

/-- Names without slashes are not nested. -/
theorem not_nested_of_plain {p q : String} (hp : '/' ∉ p.toList) (hq : '/' ∉ q.toList) :
    ¬ Nested p q := by
  rintro ⟨more, rfl | rfl⟩
  · exact hp (by simp)
  · exact hq (by simp)

end PluginHost.Route

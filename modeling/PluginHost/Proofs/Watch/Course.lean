import Mathlib.Data.List.Basic
import Mathlib.Data.List.Induction
import PluginHost.Watch.Watcher

/-!
# What happens around a watcher

Files change, the watcher is told of changes, it is started and stopped, hot reload is switched,
and now and then it looks for what is due. A watcher that looks dispatches paths in the order of
their deadlines, and it may be interrupted between two of them. `Happening` has all of this, and a
row of happenings, in whatever order, is a run of the watcher; what it dispatches is the run's own
record and does not depend on the site.

* `Scene.run`, `Scene.dispatches`: what happenings lead to, and what is dispatched by them.
* `Scene.looks_end`: what is dispatched when the watcher is let look for a while.
* `Scene.run_waiting`: as long as nothing is due, nothing is dispatched, and what a path was last
  told of decides its deadline.
-/
namespace PluginHost

variable {ω : Type}

/-- A watcher, the site that it applies changes to, and the files. -/
structure Scene (ω : Type) where
  watcher : Watcher
  site : Site ω
  files : FileTree

namespace Watcher

/-! ## Deadlines -/

/-- The first path has the earlier deadline, or the same one and is the lesser path. -/
def Sooner (deadlines : NameMap Nat) (p q : String) : Prop :=
  ∃ s t, deadlines.get? p = some s ∧ deadlines.get? q = some t ∧ (s < t ∨ s = t ∧ p < q)

theorem Sooner.ne {deadlines : NameMap Nat} {p q : String} (h : Sooner deadlines p q) :
    p ≠ q := by
  rintro rfl
  obtain ⟨s, t, hs, ht, hlt⟩ := h
  rw [hs] at ht
  cases ht
  rcases hlt with hlt | ⟨-, hlt⟩
  · exact Nat.lt_irrefl s hlt
  · exact String.lt_irrefl p hlt

theorem insertByDeadline_perm (e : String × Nat) (es : List (String × Nat)) :
    (insertByDeadline e es).Perm (e :: es) := by
  induction es with
  | nil => exact .refl _
  | cons f fs ih =>
    unfold insertByDeadline
    split
    · exact .refl _
    · exact (ih.cons f).trans (.swap e f fs)

theorem byDeadline_perm (es : List (String × Nat)) : (byDeadline es).Perm es := by
  induction es with
  | nil => exact .refl _
  | cons e es ih => exact (insertByDeadline_perm e _).trans (ih.cons e)

/-- A path that is less than all others goes before those with the same deadline. -/
theorem pairwise_insertByDeadline {e : String × Nat} {es : List (String × Nat)}
    (hes : es.Pairwise fun e f => e.2 < f.2 ∨ e.2 = f.2 ∧ e.1 < f.1)
    (hleast : ∀ f ∈ es, e.1 < f.1) :
    (insertByDeadline e es).Pairwise fun e f => e.2 < f.2 ∨ e.2 = f.2 ∧ e.1 < f.1 := by
  induction es with
  | nil => exact List.pairwise_singleton _ e
  | cons f fs ih =>
    obtain ⟨hf, hfs⟩ := List.pairwise_cons.1 hes
    unfold insertByDeadline
    split
    · rename_i hle
      refine List.pairwise_cons.2 ⟨fun g hg => ?_, hes⟩
      have hlt := hleast g hg
      rcases List.mem_cons.1 hg with rfl | hg
      · rcases Nat.lt_or_eq_of_le hle with h | h
        · exact Or.inl h
        · exact Or.inr ⟨h, hlt⟩
      · have := hf g hg
        rcases Nat.lt_or_eq_of_le hle with h | h
        · exact Or.inl (by omega)
        · rcases this with h' | ⟨h', -⟩
          · exact Or.inl (by omega)
          · exact Or.inr ⟨h.trans h', hlt⟩
    · rename_i hgt
      refine List.pairwise_cons.2
        ⟨fun g hg => ?_, ih hfs fun g hg => hleast g (List.mem_cons_of_mem _ hg)⟩
      rcases List.mem_cons.1 ((insertByDeadline_perm e fs).subset hg) with rfl | hg
      · exact Or.inl (Nat.lt_of_not_le hgt)
      · exact hf g hg

theorem pairwise_byDeadline {es : List (String × Nat)} (hes : es.Pairwise fun e f => e.1 < f.1) :
    (byDeadline es).Pairwise fun e f => e.2 < f.2 ∨ e.2 = f.2 ∧ e.1 < f.1 := by
  induction es with
  | nil => exact .nil
  | cons e es ih =>
    obtain ⟨he, hes⟩ := List.pairwise_cons.1 hes
    exact pairwise_insertByDeadline (ih hes) fun f hf => he f ((byDeadline_perm es).subset hf)

section
variable {w : Watcher} {m : NameMap Nat} {now : Nat}

theorem mem_due (hm : w.pending = some m) (hasc : m.Ascending) {p : String} :
    p ∈ w.due now ↔ ∃ t, m.get? p = some t ∧ t ≤ now := by
  rw [due, hm, List.mem_map]
  simp only [(byDeadline_perm _).mem_iff, List.mem_filter, decide_eq_true_eq]
  constructor
  · rintro ⟨⟨q, t⟩, ⟨he, ht⟩, rfl⟩
    exact ⟨t, hasc.get?_eq_some_iff.2 he, ht⟩
  · rintro ⟨t, hp, ht⟩
    exact ⟨(p, t), ⟨hasc.get?_eq_some_iff.1 hp, ht⟩, rfl⟩

/-- What is due is in the order of the deadlines. -/
theorem pairwise_due (hm : w.pending = some m) (hasc : m.Ascending) :
    (w.due now).Pairwise (Sooner m) := by
  rw [due, hm, List.pairwise_map]
  have hnames : (m.entries.filter (·.2 ≤ now)).Pairwise fun e f => e.1 < f.1 :=
    (List.pairwise_map.1 hasc).sublist List.filter_sublist
  refine (pairwise_byDeadline hnames).imp_of_mem fun {e f} he hf hbefore => ?_
  have hmem : ∀ {e}, e ∈ byDeadline (m.entries.filter (·.2 ≤ now)) → m.get? e.1 = some e.2 :=
    fun he => hasc.get?_eq_some_iff.2 (List.mem_filter.1 ((byDeadline_perm _).subset he)).1
  exact ⟨e.2, f.2, hmem he, hmem hf, hbefore⟩

theorem due_eq_nil (hm : w.pending = some m) (hasc : m.Ascending)
    (hlate : ∀ p t, m.get? p = some t → now < t) : w.due now = [] := by
  refine List.eq_nil_iff_forall_not_mem.2 fun p hp => ?_
  obtain ⟨t, ht, hle⟩ := (mem_due hm hasc).1 hp
  exact Nat.lt_irrefl _ (Nat.lt_of_lt_of_le (hlate p t ht) hle)

end

/-! ## Starting -/

section
variable {w started : Watcher} {files : FileTree} {now : Nat} {p : String}

theorem recognizes_of_mem_scan (h : p ∈ w.scan files) : recognizes p = true :=
  (Bool.and_eq_true_iff.1 (List.mem_filter.1 h).2).2

/-- Paths that are queued together have one deadline. -/
theorem get?_queued {paths : List String} {deadline : Nat} :
    (NameMap.ofList (paths.map fun path => (path, deadline))).get? p =
      if p ∈ paths then some deadline else none := by
  have horigin : ∀ {t}, (NameMap.ofList (paths.map fun path => (path, deadline))).get? p = some t →
      p ∈ paths ∧ t = deadline := by
    intro t ht
    obtain ⟨q, hq, heq⟩ := List.mem_map.1 (NameMap.mem_of_get?_ofList ht)
    cases heq
    exact ⟨hq, rfl⟩
  split
  · rename_i hp
    have hname : p ∈ (NameMap.ofList (paths.map fun path => (path, deadline))).names :=
      NameMap.mem_names_ofList.2 (by simpa using hp)
    obtain ⟨t, ht⟩ := NameMap.contains_iff.1 (NameMap.mem_names_iff.1 hname)
    rw [ht, (horigin ht).2]
  · rename_i hp
    exact Option.eq_none_iff_forall_not_mem.2 fun t ht => hp (horigin ht).1

/-- A watcher that is not running starts with all plugins' files that are there. -/
theorem start_of_stopped (hidle : w.isRunning = false) (hdir : files.isDirectory w.dir = true) :
    w.start files now = .ok { w with pending := some (NameMap.ofList
      ((w.scan files).map fun path => (path, now + w.options.debounce))) } := by
  rw [start, hidle, hdir]
  rfl

/-- A watcher that is running is left as it is. -/
theorem start_cases (h : w.start files now = .ok started) :
    w.isRunning = true ∧ started = w ∨
      w.isRunning = false ∧ files.isDirectory w.dir = true ∧
        started = { w with pending := some (NameMap.ofList
          ((w.scan files).map fun path => (path, now + w.options.debounce))) } := by
  cases hrunning : w.isRunning with
  | true =>
    rw [start, hrunning, if_pos rfl] at h
    cases h
    exact Or.inl ⟨rfl, rfl⟩
  | false =>
    cases hdir : files.isDirectory w.dir with
    | true =>
      rw [start_of_stopped hrunning hdir] at h
      cases h
      exact Or.inr ⟨rfl, rfl, rfl⟩
    | false =>
      rw [start, hrunning, hdir] at h
      cases h

end

/-! ## Looking for what is due -/

/-- Dispatching paths takes them out of the pending ones and, if hot reload is on, applies their
changes in turn. -/
theorem foldl_dispatch {P : Plugins ω} {note : Note ω} {files : FileTree} {w : Watcher}
    {m : NameMap Nat} (hm : w.pending = some m) (order : List String) (s : Site ω) :
    order.foldl (dispatch P note files) (w, s) =
      ({ w with pending := some (order.foldl NameMap.erase m) },
        if w.options.hotReload then
          order.foldl (fun s p => s.applyChange P ⟨w.dir, files, note⟩ p) s
        else s) := by
  induction order generalizing w m s with
  | nil => simp [← hm]
  | cons p order ih =>
    have hstep : dispatch P note files (w, s) p = ({ w with pending := some (m.erase p) },
        if w.options.hotReload then s.applyChange P ⟨w.dir, files, note⟩ p else s) := by
      simp only [dispatch, hm, Option.map_some]
      split <;> rfl
    rw [List.foldl_cons, hstep, ih rfl]
    split <;> rfl

/-- Looks for what is due at one time after the other. -/
def ticks (P : Plugins ω) (note : Note ω) (files : FileTree) (times : List Nat)
    (ws : Watcher × Site ω) : Watcher × Site ω :=
  times.foldl (fun ws now => ws.1.tick P note files now ws.2) ws

end Watcher

/-! ## Happenings -/

/-- Something that happens around a watcher. -/
inductive Happening where
  /-- The files become others, whether the watcher is told of it or not. -/
  | change (files : FileTree)
  /-- The watcher is told of a change of the file at a path. -/
  | notice (now : Nat) (path : String)
  /-- The watcher looks for what is due and dispatches it, all of it or as much as it gets to
  before something else happens. -/
  | look (now : Nat) (most : Option Nat)
  | start (now : Nat)
  /-- The watcher is stopped, whether its end is waited for or not. -/
  | stop
  | toggle (hotReload : Bool)

/-- A dispatch: the path, the files at that moment, and whether the watcher was running and hot
reload was on. -/
structure Dispatch where
  path : String
  files : FileTree
  running : Bool
  hotReload : Bool

namespace Happening

/-- When the watcher is told of a path. -/
def noticed? (path : String) : Happening → Option Nat
  | notice now p => if p = path then some now else none
  | _ => none

/-- Nothing but changes of files, notices and looks. -/
def IsQuiet : Happening → Prop
  | start _ | stop | toggle _ => False
  | _ => True

/-- What the watcher is told of by the first is not due yet when it looks by the second. -/
def Waits (debounce : Nat) : Happening → Happening → Prop
  | notice told _, look now _ => now < told + debounce
  | _, _ => True

end Happening

/-- The watcher is let look for what is due at one time after the other. -/
def looksAt (times : List Nat) : List Happening :=
  times.map fun now => .look now none

/-- The files that happenings leave. -/
def filesLeft (files : FileTree) (hs : List Happening) : FileTree :=
  hs.foldl (fun files h => match h with
    | .change changed => changed
    | _ => files) files

/-- When the watcher was last told of a path. -/
def lastNotice? (hs : List Happening) (path : String) : Option Nat :=
  (hs.filterMap (Happening.noticed? path)).getLast?

theorem lastNotice?_concat (hs : List Happening) (h : Happening) (path : String) :
    lastNotice? (hs ++ [h]) path = (h.noticed? path).or (lastNotice? hs path) := by
  rw [lastNotice?, lastNotice?, List.filterMap_append, List.getLast?_append]
  cases hnoticed : h.noticed? path <;> simp [hnoticed]

theorem noticed?_eq_some {h : Happening} {path : String} {now : Nat} :
    h.noticed? path = some now ↔ h = .notice now path := by
  cases h with
  | notice told p =>
    by_cases hp : p = path <;> simp [Happening.noticed?, hp]
  | _ => simp [Happening.noticed?]

theorem mem_of_lastNotice? {hs : List Happening} {path : String} {now : Nat}
    (h : lastNotice? hs path = some now) : .notice now path ∈ hs := by
  obtain ⟨g, hg, hnoticed⟩ := List.mem_filterMap.1 (List.mem_of_getLast? h)
  exact noticed?_eq_some.1 hnoticed ▸ hg

theorem isSome_lastNotice? {hs : List Happening} {path : String} :
    (lastNotice? hs path).isSome = true ↔ ∃ now, .notice now path ∈ hs := by
  constructor
  · intro h
    obtain ⟨now, hnow⟩ := Option.isSome_iff_exists.1 h
    exact ⟨now, mem_of_lastNotice? hnow⟩
  · rintro ⟨now, hnow⟩
    rw [lastNotice?, List.getLast?_isSome]
    exact List.ne_nil_of_mem (List.mem_filterMap.2 ⟨_, hnow, noticed?_eq_some.2 rfl⟩)

namespace Scene

/-- The paths that are dispatched by something that happens. -/
def turns (c : Scene ω) : Happening → List String
  | .look now none => c.watcher.due now
  | .look now (some most) => (c.watcher.due now).take most
  | _ => []

/-- Dispatches paths one after the other. -/
def dispatchEach (P : Plugins ω) (note : Note ω) (paths : List String) (c : Scene ω) : Scene ω :=
  let (watcher, site) := paths.foldl (Watcher.dispatch P note c.files) (c.watcher, c.site)
  { c with watcher, site }

/-- The scene after something happened. -/
def after (P : Plugins ω) (note : Note ω) (c : Scene ω) : Happening → Scene ω
  | .change files => { c with files }
  | .notice now path => { c with watcher := c.watcher.fileEvent now path }
  | .look now most => c.dispatchEach P note (c.turns (.look now most))
  | .start now =>
    match c.watcher.start c.files now with
    | .ok watcher => { c with watcher }
    | .error _ => c
  | .stop => { c with watcher := c.watcher.stop }
  | .toggle hotReload => { c with watcher := c.watcher.setHotReload hotReload }

/-- The scene after a row of happenings. -/
def run (P : Plugins ω) (note : Note ω) (hs : List Happening) (c : Scene ω) : Scene ω :=
  hs.foldl (after P note) c

/-- A path as it is dispatched. -/
def dispatchOf (c : Scene ω) (path : String) : Dispatch :=
  ⟨path, c.files, c.watcher.isRunning, c.watcher.options.hotReload⟩

/-- What is dispatched by a row of happenings, in turn. -/
def dispatches (P : Plugins ω) (note : Note ω) : List Happening → Scene ω → List Dispatch
  | [], _ => []
  | h :: hs, c => (c.turns h).map c.dispatchOf ++ dispatches P note hs (c.after P note h)

section
variable {P : Plugins ω} {note : Note ω} {c : Scene ω} {m : NameMap Nat}

theorem run_cons (h : Happening) (hs : List Happening) :
    c.run P note (h :: hs) = (c.after P note h).run P note hs :=
  rfl

theorem run_append (hs is : List Happening) :
    c.run P note (hs ++ is) = (c.run P note hs).run P note is :=
  List.foldl_append ..

theorem run_concat (hs : List Happening) (h : Happening) :
    c.run P note (hs ++ [h]) = (c.run P note hs).after P note h :=
  List.foldl_concat ..

theorem dispatches_append (hs is : List Happening) :
    c.dispatches P note (hs ++ is) =
      c.dispatches P note hs ++ (c.run P note hs).dispatches P note is := by
  induction hs generalizing c with
  | nil => rfl
  | cons h hs ih => rw [List.cons_append, dispatches, dispatches, ih, List.append_assoc, run_cons]

theorem dispatches_concat (hs : List Happening) (h : Happening) :
    c.dispatches P note (hs ++ [h]) = c.dispatches P note hs ++
      ((c.run P note hs).turns h).map (c.run P note hs).dispatchOf := by
  rw [dispatches_append, dispatches, dispatches, List.append_nil]

/-- Nothing but a change of the files changes them. -/
theorem files_after (h : Happening) : (c.after P note h).files = filesLeft c.files [h] := by
  cases h with
  | start now =>
    rw [after]
    cases c.watcher.start c.files now <;> rfl
  | _ => rfl

variable (P note) in
theorem files_run (hs : List Happening) : (c.run P note hs).files = filesLeft c.files hs := by
  induction hs generalizing c with
  | nil => rfl
  | cons h hs ih => rw [run_cons, ih, files_after]; rfl

/-! ## Looking for what is due -/

variable (c) in
/-- A look dispatches what is due, from the front on. -/
theorem turns_prefix (now : Nat) (most : Option Nat) :
    ∃ n, c.turns (.look now most) = (c.watcher.due now).take n := by
  cases most with
  | none => exact ⟨(c.watcher.due now).length, List.take_length.symm⟩
  | some n => exact ⟨n, rfl⟩

/-- A watcher that is not running has nothing to dispatch. -/
theorem turns_of_stopped (hm : c.watcher.pending = none) (h : Happening) : c.turns h = [] := by
  cases h with
  | look now most =>
    obtain ⟨n, hn⟩ := turns_prefix c now most
    rw [hn, Watcher.due, hm, List.take_nil]
  | _ => rfl

theorem dispatchEach_append (first second : List String) :
    c.dispatchEach P note (first ++ second) =
      (c.dispatchEach P note first).dispatchEach P note second := by
  rw [dispatchEach, List.foldl_append]
  rfl

/-- Dispatching takes paths out of the pending ones and, if hot reload is on, applies their changes
in turn. -/
theorem dispatchEach_eq (hm : c.watcher.pending = some m) (order : List String) :
    c.dispatchEach P note order =
      ⟨{ c.watcher with pending := some (order.foldl NameMap.erase m) },
        if c.watcher.options.hotReload then
          order.foldl (fun s p => s.applyChange P ⟨c.watcher.dir, c.files, note⟩ p) c.site
        else c.site,
        c.files⟩ := by
  rw [dispatchEach, Watcher.foldl_dispatch hm]

/-- What is not dispatched by a look is not due yet. -/
theorem get?_foldl_erase_due (hm : c.watcher.pending = some m) (hasc : m.Ascending) {now t : Nat}
    {p : String} : ((c.watcher.due now).foldl NameMap.erase m).get? p = some t ↔
      m.get? p = some t ∧ now < t := by
  have hdue : p ∈ c.watcher.due now ↔ ∃ t, m.get? p = some t ∧ t ≤ now :=
    Watcher.mem_due hm hasc
  rw [NameMap.get?_foldl_erase]
  constructor
  · intro hp
    split at hp
    · cases hp
    · rename_i hnot
      exact ⟨hp, Nat.lt_of_not_le fun hle => hnot (hdue.2 ⟨t, hp, hle⟩)⟩
  · rintro ⟨hp, hlt⟩
    rw [if_neg fun hmem => ?_, hp]
    obtain ⟨t', ht', hle⟩ := hdue.1 hmem
    rw [hp] at ht'
    cases ht'
    omega

variable (P note) in
/-- However often the watcher looks, what becomes due is dispatched once, in the order of the
deadlines. -/
theorem looks_end (hm : c.watcher.pending = some m) (hasc : m.Ascending) (times : List Nat) :
    ∃ order : List String, c.dispatches P note (looksAt times) = order.map c.dispatchOf ∧
      c.run P note (looksAt times) = c.dispatchEach P note order ∧
      order.Pairwise (Watcher.Sooner m) ∧
      ∀ p, p ∈ order ↔ ∃ t, m.get? p = some t ∧ ∃ now ∈ times, t ≤ now := by
  induction times generalizing c m with
  | nil => exact ⟨[], rfl, rfl, .nil, by simp⟩
  | cons now times ih =>
    have hmem : ∀ p, p ∈ c.watcher.due now ↔ ∃ t, m.get? p = some t ∧ t ≤ now :=
      fun p => Watcher.mem_due hm hasc
    have hleft : ∀ {p t}, ((c.watcher.due now).foldl NameMap.erase m).get? p = some t ↔
        m.get? p = some t ∧ now < t := get?_foldl_erase_due hm hasc
    have hnext : c.after P note (.look now none) = c.dispatchEach P note (c.watcher.due now) := rfl
    have hpending : (c.after P note (.look now none)).watcher.pending =
        some ((c.watcher.due now).foldl NameMap.erase m) := by rw [hnext, dispatchEach_eq hm]
    obtain ⟨order, hlog, hrun, hpairwise, horder⟩ :=
      ih hpending (hasc.foldl_erase (c.watcher.due now))
    have hsame : (c.after P note (.look now none)).dispatchOf = c.dispatchOf := by
      funext p
      rw [hnext, dispatchEach_eq hm]
      simp only [dispatchOf, Watcher.isRunning, hm, Option.isSome_some]
    refine ⟨c.watcher.due now ++ order, ?_, ?_,
      List.pairwise_append.2 ⟨Watcher.pairwise_due hm hasc, ?_, ?_⟩, fun p => ?_⟩
    · rw [List.map_append, ← hsame, ← hlog, hsame]
      rfl
    · rw [dispatchEach_append, ← hnext, ← hrun]
      rfl
    · refine hpairwise.imp fun {p q} ⟨s, t, hs, ht, hlt⟩ => ?_
      exact ⟨s, t, (hleft.1 hs).1, (hleft.1 ht).1, hlt⟩
    · intro p hp q hq
      obtain ⟨s, hs, hle⟩ := (hmem p).1 hp
      obtain ⟨t, ht, -⟩ := (horder q).1 hq
      obtain ⟨ht, hlt⟩ := hleft.1 ht
      exact ⟨s, t, hs, ht, Or.inl (Nat.lt_of_le_of_lt hle hlt)⟩
    · rw [List.mem_append, hmem, horder]
      constructor
      · rintro (⟨t, ht, hle⟩ | ⟨t, ht, later, hlater, hle⟩)
        · exact ⟨t, ht, now, List.mem_cons_self, hle⟩
        · exact ⟨t, (hleft.1 ht).1, later, List.mem_cons_of_mem _ hlater, hle⟩
      · rintro ⟨t, ht, later, hlater, hle⟩
        by_cases hdue : t ≤ now
        · exact Or.inl ⟨t, ht, hdue⟩
        · refine Or.inr ⟨t, hleft.2 ⟨ht, by omega⟩, later, ?_, hle⟩
          rcases List.mem_cons.1 hlater with rfl | hlater
          · exact absurd hle hdue
          · exact hlater

/-- Letting the watcher look is all that its ticks are. -/
theorem run_looks (times : List Nat) : c.run P note (looksAt times) =
    ⟨(Watcher.ticks P note c.files times (c.watcher, c.site)).1,
      (Watcher.ticks P note c.files times (c.watcher, c.site)).2, c.files⟩ := by
  induction times generalizing c with
  | nil => rfl
  | cons now times ih => exact ih

/-! ## While nothing is due -/

theorem turns_of_not_due {now : Nat} (hnone : c.watcher.due now = []) (most : Option Nat) :
    c.turns (.look now most) = [] := by
  obtain ⟨n, hn⟩ := turns_prefix c now most
  rw [hn, hnone, List.take_nil]

variable (P note) in
/-- As long as nothing is due when the watcher looks, nothing is dispatched, and the deadlines are
those of the last notices. -/
theorem run_waiting (hm : c.watcher.pending = some m) (hasc : m.Ascending) {hs : List Happening}
    (hquiet : ∀ h ∈ hs, h.IsQuiet)
    (hearly : ∀ now most, .look now most ∈ hs → ∀ p t, m.get? p = some t → now < t)
    (hwaits : hs.Pairwise (Happening.Waits c.watcher.options.debounce)) :
    ∃ k : NameMap Nat, k.Ascending ∧
      (∀ p, k.get? p = if Watcher.recognizes p then
        ((lastNotice? hs p).map (· + c.watcher.options.debounce)).or (m.get? p) else m.get? p) ∧
      c.run P note hs =
        ⟨{ c.watcher with pending := some k }, c.site, filesLeft c.files hs⟩ ∧
      c.dispatches P note hs = [] := by
  rw [← files_run P note]
  induction hs using List.reverseRecOn with
  | nil => exact ⟨m, hasc, fun p => by simp [lastNotice?], by rw [← hm]; rfl, rfl⟩
  | append_singleton hs h ih =>
    obtain ⟨hwaits, -, hlast⟩ := List.pairwise_append.1 hwaits
    obtain ⟨k, hk, hget, hrun, hlog⟩ := ih (fun g hg => hquiet g (List.mem_append_left _ hg))
      (fun now most hlook => hearly now most (List.mem_append_left _ hlook)) hwaits
    have hmem : h ∈ hs ++ [h] := List.mem_append_right _ List.mem_cons_self
    rw [run_concat, dispatches_concat, hlog, List.nil_append]
    cases h with
    | change files =>
      refine ⟨k, hk, fun p => ?_, ?_, rfl⟩
      · rw [hget, lastNotice?_concat]
        rfl
      · rw [hrun]
        rfl
    | notice now path =>
      cases hrecognized : Watcher.recognizes path with
      | false =>
        refine ⟨k, hk, fun p => ?_, ?_, rfl⟩
        · rw [hget, lastNotice?_concat]
          by_cases hp : path = p
          · subst hp
            simp [hrecognized]
          · simp [Happening.noticed?, hp]
        · rw [hrun]
          simp [after, Watcher.fileEvent, hrecognized]
      | true =>
        refine ⟨k.insert path (now + c.watcher.options.debounce), hk.insert _ _, fun p => ?_, ?_,
          rfl⟩
        · rw [NameMap.get?_insert, hget, lastNotice?_concat]
          by_cases hp : p = path
          · subst hp
            simp [hrecognized, Happening.noticed?]
          · simp [Happening.noticed?, hp, Ne.symm hp]
        · rw [hrun]
          simp [after, Watcher.fileEvent, hrecognized]
    | look now most =>
      -- every deadline is that of a notice before, or one that was there from the outset
      have hnone : (c.run P note hs).watcher.due now = [] := by
        rw [hrun]
        refine Watcher.due_eq_nil rfl hk fun p t ht => ?_
        rw [hget] at ht
        split at ht
        · rcases Option.or_eq_some_iff.1 ht with hnoticed | ⟨-, hold⟩
          · obtain ⟨told, htold, rfl⟩ := Option.map_eq_some_iff.1 hnoticed
            exact hlast _ (mem_of_lastNotice? htold) _ List.mem_cons_self
          · exact hearly now most hmem p t hold
        · exact hearly now most hmem p t ht
      refine ⟨k, hk, fun p => ?_, ?_, by rw [turns_of_not_due hnone]; rfl⟩
      · rw [hget, lastNotice?_concat]
        rfl
      · rw [after, turns_of_not_due hnone, hrun]
        rfl
    | start now => exact absurd (hquiet _ hmem) id
    | stop => exact absurd (hquiet _ hmem) id
    | toggle hotReload => exact absurd (hquiet _ hmem) id

end

end Scene

/-- However often the watcher looks, the paths that become due are applied in the order of their
deadlines. -/
theorem Watcher.ticks_ends (P : Plugins ω) (note : Note ω) (files : FileTree) {w : Watcher}
    {m : NameMap Nat} (hm : w.pending = some m) (hasc : m.Ascending)
    (hhot : w.options.hotReload = true) (times : List Nat) (s : Site ω) :
    ∃ order : List String, (ticks P note files times (w, s)).2 =
        order.foldl (fun s p => s.applyChange P ⟨w.dir, files, note⟩ p) s ∧
      order.Pairwise (Sooner m) ∧
      ∀ p, p ∈ order ↔ ∃ t, m.get? p = some t ∧ ∃ now ∈ times, t ≤ now := by
  obtain ⟨order, -, hrun, hpairwise, horder⟩ :=
    Scene.looks_end P note (c := ⟨w, s, files⟩) hm hasc times
  rw [Scene.run_looks, Scene.dispatchEach_eq hm, if_pos hhot] at hrun
  exact ⟨order, congrArg Scene.site hrun, hpairwise, horder⟩

end PluginHost

import PluginHost.Proofs.Directory.Listing
import PluginHost.Proofs.Watch.Debounce
import PluginHost.Session.Run

/-!
# What a watcher may still do

A watcher is started and stopped, hot reload is switched, and files change, in whatever order. The
site changes only by what is dispatched, which happens only while the watcher runs, and only if hot
reload is on at that moment. A dispatch that hot reload was off for is not made up for, and what
was pending at a stop is forgotten: whatever is dispatched was queued by a change or a start after
the last stop and after the last dispatch of the same path.

* `Scene.Queues`: what makes a path pending.
* `Scene.Owed`: since a path was queued, the watcher was not stopped and the path not dispatched.
* `Scene.pending_after`: what is pending after something happened.
* `Scene.owed_of_pending`: every path that is pending is owed.
* `Scene.run_calm`: after a start without further changes the paths are dispatched in their order.
* `Scene.gated`: what is dispatched in the course of things, and after a stop and a start.
* `Session.leads_watchStep`: what a session does with its watcher is something that happens.
-/
namespace PluginHost

variable {ω : Type}

namespace Happening

/-- Nothing that queues paths or forgets them once the watcher is running. -/
def IsCalm : Happening → Prop
  | look _ _ | start _ | toggle _ => True
  | _ => False

def IsStart : Happening → Prop
  | start _ => True
  | _ => False

end Happening

namespace Scene

/-- What happens makes the path pending. -/
def Queues (c : Scene ω) (path : String) : Happening → Prop
  | .notice _ p => p = path ∧ c.watcher.isRunning = true ∧ Watcher.recognizes path = true
  | .start _ => c.watcher.isRunning = false ∧ c.files.isDirectory c.watcher.dir = true ∧
      path ∈ c.watcher.scan c.files
  | _ => False

/-- Something queued the path; since then, the watcher was not stopped and the path was not
dispatched. -/
def Owed (P : Plugins ω) (note : Note ω) (c : Scene ω) (hs : List Happening) (path : String) :
    Prop :=
  ∃ early cause between, hs = early ++ cause :: between ∧
    (c.run P note early).Queues path cause ∧ .stop ∉ between ∧
    ∀ d ∈ (c.run P note (early ++ [cause])).dispatches P note between, d.path ≠ path

/-- What is pending is kept in the order of the paths. -/
def Tidy (c : Scene ω) : Prop :=
  ∀ m, c.watcher.pending = some m → m.Ascending

section
variable {P : Plugins ω} {note : Note ω} {c : Scene ω} {m k : NameMap Nat} {h : Happening}
  {hs : List Happening} {p : String} {t : Nat}

/-! ## What stays -/

/-- A look takes what it dispatches out of what is pending, and that is all it does to the
watcher. -/
theorem watcher_look (now : Nat) (most : Option Nat) :
    (c.after P note (.look now most)).watcher = { c.watcher with
      pending := c.watcher.pending.map fun m =>
        (c.turns (.look now most)).foldl NameMap.erase m } := by
  cases hm : c.watcher.pending with
  | none =>
    rw [after, turns_of_stopped hm, Option.map_none, ← hm]
    rfl
  | some m =>
    rw [after, dispatchEach_eq hm]
    rfl

variable (P note c) in
theorem watcher_start (now : Nat) : (c.after P note (.start now)).watcher = c.watcher ∨
    c.watcher.isRunning = false ∧ c.files.isDirectory c.watcher.dir = true ∧
      (c.after P note (.start now)).watcher = { c.watcher with pending := some (NameMap.ofList
        ((c.watcher.scan c.files).map fun path => (path, now + c.watcher.options.debounce))) } := by
  rw [after]
  cases hstart : c.watcher.start c.files now with
  | error e => exact Or.inl rfl
  | ok started =>
    obtain ⟨-, rfl⟩ | hqueued := Watcher.start_cases hstart
    · exact Or.inl rfl
    · exact Or.inr hqueued

variable (P note) in
/-- Neither the directory nor the debounce time is changed by what happens. -/
theorem dir_after (h : Happening) : (c.after P note h).watcher.dir = c.watcher.dir ∧
    (c.after P note h).watcher.options.debounce = c.watcher.options.debounce := by
  cases h with
  | look now most => rw [watcher_look]; exact ⟨rfl, rfl⟩
  | start now =>
    obtain hsame | ⟨-, -, hqueued⟩ := watcher_start P note c now
    · rw [hsame]; exact ⟨rfl, rfl⟩
    · rw [hqueued]; exact ⟨rfl, rfl⟩
  | notice now path =>
    rw [after, Watcher.fileEvent]
    split <;> exact ⟨rfl, rfl⟩
  | _ => exact ⟨rfl, rfl⟩

variable (P note) in
theorem dir_run (hs : List Happening) : (c.run P note hs).watcher.dir = c.watcher.dir ∧
    (c.run P note hs).watcher.options.debounce = c.watcher.options.debounce := by
  induction hs generalizing c with
  | nil => exact ⟨rfl, rfl⟩
  | cons h hs ih =>
    obtain ⟨hdir, hdebounce⟩ := dir_after P note (c := c) h
    rw [run_cons, (ih (c := _)).1, (ih (c := _)).2, hdir, hdebounce]
    exact ⟨rfl, rfl⟩

/-! ## The site -/

/-- The site with the changes of dispatches applied, those that hot reload was off for aside. -/
def applied (P : Plugins ω) (note : Note ω) (dir : String) (ds : List Dispatch) (s : Site ω) :
    Site ω :=
  (ds.filter (·.hotReload)).foldl (fun s d => s.applyChange P ⟨dir, d.files, note⟩ d.path) s

theorem applied_append (dir : String) (ds es : List Dispatch) (s : Site ω) :
    applied P note dir (ds ++ es) s = applied P note dir es (applied P note dir ds s) := by
  rw [applied, List.filter_append, List.foldl_append]
  rfl

/-- Dispatches all together, with hot reload on or off. -/
theorem applied_map (paths : List String) (s : Site ω) :
    applied P note c.watcher.dir (paths.map c.dispatchOf) s =
      if c.watcher.options.hotReload then
        paths.foldl (fun s p => s.applyChange P ⟨c.watcher.dir, c.files, note⟩ p) s
      else s := by
  rw [applied]
  cases hhot : c.watcher.options.hotReload with
  | true =>
    have hall : (paths.map c.dispatchOf).filter (·.hotReload) = paths.map c.dispatchOf :=
      List.filter_eq_self.2 fun d hd => by
        obtain ⟨p, -, rfl⟩ := List.mem_map.1 hd
        exact hhot
    rw [hall, List.foldl_map]
    rfl
  | false =>
    have hnone : (paths.map c.dispatchOf).filter (·.hotReload) = [] :=
      List.filter_eq_nil_iff.2 fun d hd => by
        obtain ⟨p, -, rfl⟩ := List.mem_map.1 hd
        simp [dispatchOf, hhot]
    rw [hnone]
    rfl

/-- What happens changes the site only by what is dispatched. -/
theorem site_after (h : Happening) : (c.after P note h).site =
    applied P note c.watcher.dir ((c.turns h).map c.dispatchOf) c.site := by
  rw [applied_map]
  cases h with
  | look now most =>
    rw [after]
    cases hm : c.watcher.pending with
    | none =>
      rw [turns_of_stopped hm]
      exact (ite_self _).symm
    | some m => rw [dispatchEach_eq hm]
  | start now =>
    rw [after]
    cases c.watcher.start c.files now <;> exact (ite_self _).symm
  | _ => exact (ite_self _).symm

variable (P note) in
theorem site_run (hs : List Happening) : (c.run P note hs).site =
    applied P note c.watcher.dir (c.dispatches P note hs) c.site := by
  induction hs generalizing c with
  | nil => rfl
  | cons h hs ih =>
    rw [run_cons, ih, (dir_after P note h).1, site_after, dispatches, applied_append]

/-- Nothing is dispatched but by a watcher that is running. -/
theorem running_of_mem_dispatches {d : Dispatch} (hd : d ∈ c.dispatches P note hs) :
    d.running = true := by
  induction hs generalizing c with
  | nil => cases hd
  | cons h hs ih =>
    rcases List.mem_append.1 hd with hd | hd
    · obtain ⟨p, hp, rfl⟩ := List.mem_map.1 hd
      cases hm : c.watcher.pending with
      | none =>
        rw [turns_of_stopped hm] at hp
        cases hp
      | some m => rw [dispatchOf, Watcher.isRunning, hm]; rfl
    · exact ih hd

/-! ## What is pending -/

theorem tidy_after (htidy : c.Tidy) (h : Happening) : (c.after P note h).Tidy := by
  intro k hk
  cases h with
  | change files => exact htidy k hk
  | toggle hotReload => exact htidy k hk
  | stop => cases hk
  | notice now path =>
    rw [after, Watcher.fileEvent] at hk
    split at hk
    · obtain ⟨m, hm, rfl⟩ := Option.map_eq_some_iff.1 hk
      exact (htidy m hm).insert _ _
    · exact htidy k hk
  | look now most =>
    rw [watcher_look] at hk
    obtain ⟨m, hm, rfl⟩ := Option.map_eq_some_iff.1 hk
    exact (htidy m hm).foldl_erase _
  | start now =>
    obtain hsame | ⟨-, -, hqueued⟩ := watcher_start P note c now
    · rw [hsame] at hk
      exact htidy k hk
    · rw [hqueued] at hk
      cases hk
      exact NameMap.ascending_ofList _

/-- What is pending after something happened was queued by it, or was pending before and neither
dispatched nor forgotten. -/
theorem pending_after (hk : (c.after P note h).watcher.pending = some k) (ht : k.get? p = some t) :
    c.Queues p h ∨ h ≠ .stop ∧ p ∉ c.turns h ∧
      ∃ m, c.watcher.pending = some m ∧ m.get? p = some t := by
  cases h with
  | change files => exact Or.inr ⟨Happening.noConfusion, List.not_mem_nil, k, hk, ht⟩
  | toggle hotReload => exact Or.inr ⟨Happening.noConfusion, List.not_mem_nil, k, hk, ht⟩
  | stop => cases hk
  | notice now path =>
    rw [after, Watcher.fileEvent] at hk
    split at hk
    · rename_i hrecognized
      obtain ⟨m, hm, rfl⟩ := Option.map_eq_some_iff.1 hk
      rw [NameMap.get?_insert] at ht
      split at ht
      · rename_i hp
        subst hp
        exact Or.inl ⟨rfl, by rw [Watcher.isRunning, hm]; rfl, hrecognized⟩
      · exact Or.inr ⟨Happening.noConfusion, List.not_mem_nil, m, hm, ht⟩
    · exact Or.inr ⟨Happening.noConfusion, List.not_mem_nil, k, hk, ht⟩
  | look now most =>
    rw [watcher_look] at hk
    obtain ⟨m, hm, rfl⟩ := Option.map_eq_some_iff.1 hk
    rw [NameMap.get?_foldl_erase] at ht
    split at ht
    · cases ht
    · rename_i hnot
      exact Or.inr ⟨Happening.noConfusion, hnot, m, hm, ht⟩
  | start now =>
    obtain hsame | ⟨hidle, hdir, hqueued⟩ := watcher_start P note c now
    · rw [hsame] at hk
      exact Or.inr ⟨Happening.noConfusion, List.not_mem_nil, k, hk, ht⟩
    · rw [hqueued] at hk
      cases hk
      rw [Watcher.get?_queued] at ht
      split at ht
      · rename_i hp
        exact Or.inl ⟨hidle, hdir, hp⟩
      · cases ht

theorem Owed.of_queues (hqueues : (c.run P note hs).Queues p h) :
    c.Owed P note (hs ++ [h]) p :=
  ⟨hs, h, [], rfl, hqueues, List.not_mem_nil, fun _ hd => by cases hd⟩

theorem Owed.concat (howed : c.Owed P note hs p) (hstop : h ≠ .stop)
    (hturns : p ∉ (c.run P note hs).turns h) : c.Owed P note (hs ++ [h]) p := by
  obtain ⟨early, cause, between, rfl, hqueues, hnostop, hnone⟩ := howed
  refine ⟨early, cause, between ++ [h], by simp, hqueues, ?_, fun d hd => ?_⟩
  · rw [List.mem_append, List.mem_singleton]
    exact fun hmem => hmem.elim hnostop fun heq => hstop heq.symm
  · rw [dispatches_concat, ← run_append, List.append_assoc, List.singleton_append] at hd
    rcases List.mem_append.1 hd with hd | hd
    · exact hnone d hd
    · obtain ⟨q, hq, rfl⟩ := List.mem_map.1 hd
      exact fun heq => hturns (heq ▸ hq)

variable (P note hs) in
/-- Whatever is pending in the course of things is owed. -/
theorem owed_of_pending (hidle : c.watcher.pending = none) :
    (c.run P note hs).Tidy ∧ ∀ m, (c.run P note hs).watcher.pending = some m →
      ∀ p t, m.get? p = some t → c.Owed P note hs p := by
  induction hs using List.reverseRecOn with
  | nil =>
    have hnone : ∀ m, (c.run P note []).watcher.pending ≠ some m := fun m hm =>
      Option.some_ne_none m (hm.symm.trans hidle)
    exact ⟨fun m hm => absurd hm (hnone m), fun m hm => absurd hm (hnone m)⟩
  | append_singleton hs h ih =>
    rw [run_concat]
    refine ⟨tidy_after ih.1 h, fun k hk p t ht => ?_⟩
    obtain hqueues | ⟨hstop, hturns, m, hm, hget⟩ := pending_after hk ht
    · exact .of_queues hqueues
    · exact (ih.2 m hm p t hget).concat hstop hturns

/-- What is dispatched at once was pending, each path once. -/
theorem turns_look (htidy : c.Tidy) (now : Nat) (most : Option Nat) :
    (c.turns (.look now most)).Nodup ∧ ∀ p ∈ c.turns (.look now most),
      ∃ m t, c.watcher.pending = some m ∧ m.get? p = some t := by
  cases hm : c.watcher.pending with
  | none =>
    rw [turns_of_stopped hm]
    exact ⟨.nil, fun p hp => by cases hp⟩
  | some m =>
    obtain ⟨n, hn⟩ := turns_prefix c now most
    have hnodup : (c.watcher.due now).Nodup :=
      (Watcher.pairwise_due hm (htidy m hm)).imp fun h => h.ne
    rw [hn]
    refine ⟨hnodup.sublist (List.take_sublist _ _), fun p hp => ?_⟩
    obtain ⟨t, ht, -⟩ := (Watcher.mem_due hm (htidy m hm)).1 (List.mem_of_mem_take hp)
    exact ⟨m, t, rfl, ht⟩

/-! ## After a start -/

/-- What is left of paths of which the first are dispatched. -/
theorem names_foldl_erase_take (hasc : m.Ascending) (n : Nat) :
    ((m.names.take n).foldl NameMap.erase m).names = m.names.drop n := by
  have hrest : ∀ p ∈ m.names.drop n, p ∉ m.names.take n := fun p hp hmem =>
    List.disjoint_take_drop hasc.nodup (Nat.le_refl n) hmem hp
  have hsplit : (m.names.take n ++ m.names.drop n).filter (fun p => p ∉ m.names.take n) =
      m.names.drop n := by
    rw [List.filter_append, List.filter_eq_nil_iff.2 fun p hp => by simpa using hp,
      List.filter_eq_self.2 fun p hp => by simpa using hrest p hp, List.nil_append]
  rw [List.take_append_drop] at hsplit
  rw [NameMap.names_foldl_erase, hsplit]

theorem byDeadline_of_one {es : List (String × Nat)} {deadline : Nat}
    (hone : ∀ e ∈ es, e.2 = deadline) : Watcher.byDeadline es = es := by
  induction es with
  | nil => rfl
  | cons e es ih =>
    obtain ⟨he, hes⟩ := List.forall_mem_cons.1 hone
    rw [Watcher.byDeadline, List.foldr_cons, ← Watcher.byDeadline, ih hes]
    cases es with
    | nil => rfl
    | cons f es =>
      rw [Watcher.insertByDeadline, he, hes f List.mem_cons_self, if_pos (Nat.le_refl _)]

/-- Paths with one deadline are due together, in their own order. -/
theorem due_of_one {w : Watcher} (hm : w.pending = some m) {deadline : Nat}
    (hone : ∀ e ∈ m.entries, e.2 = deadline) (now : Nat) :
    w.due now = if deadline ≤ now then m.names else [] := by
  rw [Watcher.due, hm]
  simp only
  split
  · rename_i hdue
    rw [List.filter_eq_self.2 fun e he => by simpa [hone e he] using hdue, byDeadline_of_one hone]
    rfl
  · rename_i hearly
    rw [List.filter_eq_nil_iff.2 fun e he => by simpa [hone e he] using hearly]
    rfl

variable (P note) in
/-- As long as nothing changes after a start, what is dispatched and what is still pending are the
paths that were queued, in their order. -/
theorem after_calm (hm : c.watcher.pending = some m) (hasc : m.Ascending) {deadline : Nat}
    (hone : ∀ e ∈ m.entries, e.2 = deadline) (hcalm : h.IsCalm) :
    ∃ k : NameMap Nat, (c.after P note h).watcher.pending = some k ∧ k.Ascending ∧
      (∀ e ∈ k.entries, e.2 = deadline) ∧ c.turns h ++ k.names = m.names := by
  cases h with
  | toggle hotReload => exact ⟨m, hm, hasc, hone, rfl⟩
  | start now =>
    obtain hsame | ⟨hidle, -⟩ := watcher_start P note c now
    · exact ⟨m, by rw [hsame, hm], hasc, hone, rfl⟩
    · rw [Watcher.isRunning, hm] at hidle
      cases hidle
  | look now most =>
    obtain ⟨n, hn⟩ : ∃ n, c.turns (.look now most) = m.names.take n := by
      obtain ⟨n, hn⟩ := turns_prefix c now most
      rw [hn, due_of_one hm hone]
      split
      · exact ⟨n, rfl⟩
      · exact ⟨0, List.take_nil⟩
    refine ⟨(c.turns (.look now most)).foldl NameMap.erase m, by rw [watcher_look, hm]; rfl,
      hasc.foldl_erase _, fun e he => ?_, ?_⟩
    · rw [NameMap.entries_foldl_erase] at he
      exact hone e (List.mem_filter.1 he).1
    · rw [hn, names_foldl_erase_take hasc, List.take_append_drop]
  | _ => exact absurd hcalm id

variable (P note) in
/-- The same for all that happens after a start, as long as nothing changes. -/
theorem run_calm (hm : c.watcher.pending = some m) (hasc : m.Ascending) {deadline : Nat}
    (hone : ∀ e ∈ m.entries, e.2 = deadline) (hcalm : ∀ h ∈ hs, h.IsCalm) :
    ∃ k : NameMap Nat, (c.run P note hs).watcher.pending = some k ∧
      (∀ e ∈ k.entries, e.2 = deadline) ∧
      (c.dispatches P note hs).map (·.path) ++ k.names = m.names := by
  induction hs generalizing c m with
  | nil => exact ⟨m, hm, hone, rfl⟩
  | cons h hs ih =>
    obtain ⟨k, hk, hkasc, hkone, hsplit⟩ :=
      after_calm P note hm hasc hone (hcalm h List.mem_cons_self)
    obtain ⟨l, hl, hlone, hrest⟩ := ih hk hkasc hkone fun g hg =>
      hcalm g (List.mem_cons_of_mem _ hg)
    refine ⟨l, hl, hlone, ?_⟩
    rw [dispatches, List.map_append, List.append_assoc, hrest, List.map_map, ← hsplit]
    congr 1
    exact List.map_id _

/-- Only a start makes a stopped watcher run. -/
theorem pending_of_stopped (hm : c.watcher.pending = none) (hnostart : ¬ h.IsStart) :
    (c.after P note h).watcher.pending = none := by
  cases h with
  | change files => exact hm
  | toggle hotReload => exact hm
  | stop => rfl
  | notice now path =>
    rw [after, Watcher.fileEvent]
    split
    · rw [hm]; rfl
    · exact hm
  | look now most => rw [watcher_look, hm]; rfl
  | start now => exact absurd trivial hnostart

variable (P note) in
theorem pending_run_of_stopped (hm : c.watcher.pending = none)
    (hnostart : ∀ h ∈ hs, ¬ h.IsStart) : (c.run P note hs).watcher.pending = none := by
  induction hs generalizing c with
  | nil => exact hm
  | cons h hs ih =>
    exact ih (pending_of_stopped hm (hnostart h List.mem_cons_self)) fun g hg =>
      hnostart g (List.mem_cons_of_mem _ hg)

/-- A watcher whose directory is missing stays stopped. -/
theorem dispatches_of_missing (hm : c.watcher.pending = none)
    (hdir : c.files.isDirectory c.watcher.dir = false) (hcalm : ∀ h ∈ hs, h.IsCalm) :
    c.dispatches P note hs = [] := by
  induction hs generalizing c with
  | nil => rfl
  | cons h hs ih =>
    have hpending : (c.after P note h).watcher.pending = none := by
      by_cases hstart : h.IsStart
      · cases h with
        | start now =>
          obtain hsame | ⟨-, hthere, -⟩ := watcher_start P note c now
          · rw [hsame, hm]
          · rw [hdir] at hthere
            cases hthere
        | _ => exact absurd hstart id
      · exact pending_of_stopped hm hstart
    have hfiles : (c.after P note h).files = c.files := by
      rw [files_after]
      cases h with
      | look | start | toggle => rfl
      | change | notice | stop => exact absurd (hcalm _ List.mem_cons_self) id
    rw [dispatches, turns_of_stopped hm, ih hpending ?_ fun g hg =>
      hcalm g (List.mem_cons_of_mem _ hg)]
    · rfl
    · rw [hfiles, (dir_after P note h).1, hdir]

/-- The files that a start finds are the plugins' files of the directory. -/
theorem mem_scan_iff {w : Watcher} {files : FileTree} :
    p ∈ w.scan files ↔ files.HasFile w.dir p ∧ Watcher.recognizes p = true := by
  rw [Watcher.scan, List.mem_filter, Bool.and_eq_true, List.mem_map, ← and_assoc]
  refine and_congr_left fun _ => and_congr_left fun _ => ?_
  cases hnames : files.children w.dir with
  | none => simp
  | some names => simp

variable (P note) in
/-- After a start of a watcher that is stopped, all plugins' files of the directory are dispatched
once, in the order of their paths, unless something changes meanwhile. -/
theorem dispatches_restart (hm : c.watcher.pending = none) (started last : Nat)
    (hcalm : ∀ h ∈ hs, h.IsCalm) (hlast : started + c.watcher.options.debounce ≤ last) :
    ((c.dispatches P note (.start started :: hs ++ [.look last none])).map (·.path)).Pairwise
        (· < ·) ∧
      ∀ p, p ∈ (c.dispatches P note (.start started :: hs ++ [.look last none])).map (·.path) ↔
        c.files.HasFile c.watcher.dir p ∧ Watcher.recognizes p = true := by
  have hidle : c.watcher.isRunning = false := by rw [Watcher.isRunning, hm]; rfl
  cases hdir : c.files.isDirectory c.watcher.dir with
  | false =>
    have hallcalm : ∀ h ∈ (.start started :: hs ++ [.look last none] : List Happening),
        h.IsCalm := by
      intro h hh
      simp only [List.cons_append, List.mem_cons, List.mem_append, List.not_mem_nil,
        or_false] at hh
      rcases hh with rfl | hh | rfl
      · trivial
      · exact hcalm h hh
      · trivial
    rw [dispatches_of_missing hm hdir hallcalm]
    refine ⟨.nil, fun p => ⟨fun hp => absurd hp List.not_mem_nil, ?_⟩⟩
    rintro ⟨⟨⟨names, hnames, -⟩, -⟩, -⟩
    rw [isDirectory_of_children hnames] at hdir
    cases hdir
  | true =>
    let queued := NameMap.ofList ((c.watcher.scan c.files).map fun path =>
      (path, started + c.watcher.options.debounce))
    have hopened : c.after P note (.start started) =
        { c with watcher := { c.watcher with pending := some queued } } := by
      rw [after, Watcher.start_of_stopped hidle hdir]
    have hone : ∀ e ∈ queued.entries, e.2 = started + c.watcher.options.debounce := by
      intro e he
      have hget := (NameMap.ascending_ofList _).get?_eq_some_iff.2 he
      rw [Watcher.get?_queued] at hget
      split at hget
      · exact (Option.some.inj hget).symm
      · cases hget
    obtain ⟨k, hk, hkone, hsplit⟩ := run_calm P note
      (c := { c with watcher := { c.watcher with pending := some queued } }) rfl
      (NameMap.ascending_ofList _) hone hcalm
    have hpaths : (c.dispatches P note (.start started :: hs ++ [.look last none])).map (·.path) =
        queued.names := by
      rw [List.cons_append, dispatches, hopened, dispatches_concat, ← hsplit]
      simp only [turns, due_of_one hk hkone, if_pos hlast, List.map_nil, List.nil_append,
        List.map_append, List.map_map]
      congr 1
      exact List.map_id _
    rw [hpaths]
    refine ⟨NameMap.ascending_ofList _, fun p => ?_⟩
    rw [NameMap.mem_names_ofList, ← mem_scan_iff]
    simp

end

/-- However files change, the watcher is told of it, starts, stops and looks, and hot reload is
switched: the site is changed only by what is dispatched, by a running watcher and with hot reload
on. What is dispatched was queued by a change or a start, and since then, the watcher was not
stopped and the path not dispatched. And after a stop and a start, every plugin's file of the
directory is dispatched once, in the order of the paths, if nothing changes meanwhile. -/
theorem gated (P : Plugins ω) (note : Note ω) (dir : String) (options : WatchOptions)
    (s : Site ω) (files : FileTree) (hs : List Happening) :
    let c : Scene ω := ⟨Watcher.ofDir dir options, s, files⟩
    (∀ d ∈ c.dispatches P note hs, d.running = true) ∧
    (c.run P note hs).site = ((c.dispatches P note hs).filter (·.hotReload)).foldl
      (fun s d => s.applyChange P ⟨dir, d.files, note⟩ d.path) s ∧
    (∀ now most, ((c.run P note hs).turns (.look now most)).Nodup ∧
      ∀ p ∈ (c.run P note hs).turns (.look now most), c.Owed P note hs p) ∧
    ∀ idle calm : List Happening, ∀ started last : Nat, (∀ h ∈ idle, ¬ h.IsStart) →
      (∀ h ∈ calm, h.IsCalm) → started + options.debounce ≤ last →
      let paths := ((c.run P note (hs ++ .stop :: idle)).dispatches P note
        (.start started :: calm ++ [.look last none])).map (·.path)
      paths.Pairwise (· < ·) ∧ ∀ p, p ∈ paths ↔
        (filesLeft files (hs ++ .stop :: idle)).HasFile dir p ∧ Watcher.recognizes p = true := by
  intro c
  have hpending : c.watcher.pending = none := rfl
  refine ⟨fun d hd => running_of_mem_dispatches hd, site_run P note hs, fun now most => ?_, ?_⟩
  · obtain ⟨htidy, howed⟩ := owed_of_pending P note hs hpending
    obtain ⟨hnodup, hqueued⟩ := turns_look htidy now most
    refine ⟨hnodup, fun p hp => ?_⟩
    obtain ⟨m, t, hm, ht⟩ := hqueued p hp
    exact howed m hm p t ht
  · intro idle calm started last hnostart hcalm hlast paths
    obtain ⟨hdir, hdebounce⟩ := dir_run P note (c := c) (hs ++ .stop :: idle)
    have hstopped : (c.run P note (hs ++ .stop :: idle)).watcher.pending = none := by
      rw [run_append, run_cons]
      exact pending_run_of_stopped P note rfl hnostart
    have hrestart := dispatches_restart P note hstopped started last hcalm
      (by rw [hdebounce]; exact hlast)
    rw [files_run, hdir] at hrestart
    exact hrestart

/-- What is found at a start is dispatched while hot reload is off. Then the lamp's manifest
changes, and the watcher is stopped before that is due. -/
def interrupted : List Happening :=
  [.toggle false, .start 0, .look 1000 none, .toggle true, .notice 1500 "p/lamp.toml", .stop,
    .look 3000 none]

/-- Nothing was applied. After another stop, while the lamp's module is removed, and a start, the
two files that are left are dispatched, of which the second is applied. -/
theorem interrupted_gated :
    (burstScene.run burstPlugins Note.none interrupted).site = burstScene.site ∧
    ((burstScene.run burstPlugins Note.none
        (interrupted ++ .stop :: [.change (burstFiles []), .toggle false])).dispatches
      burstPlugins Note.none (.start 4000 :: [.look 5000 (some 1), .toggle true, .start 5001] ++
        [.look 6000 none])).map (fun d => (d.path, d.hotReload)) =
      [("p/cable.rs", false), ("p/lamp.toml", true)] ∧
    ∀ p, p ∈ ["p/cable.rs", "p/lamp.toml"] ↔
      (burstFiles []).HasFile "p" p ∧ Watcher.recognizes p = true := by
  have hscene : burstScene = ⟨Watcher.ofDir "p" {}, burstScene.site, burstScene.files⟩ := rfl
  obtain ⟨-, hsite, -, hrestart⟩ := gated burstPlugins Note.none "p" {} burstScene.site
    burstScene.files interrupted
  obtain ⟨-, hpaths⟩ := hrestart [.change (burstFiles []), .toggle false]
    [.look 5000 (some 1), .toggle true, .start 5001] 4000 6000 (by simp [Happening.IsStart])
    (by simp [Happening.IsCalm]) (by decide)
  have hcold : (burstScene.dispatches burstPlugins Note.none interrupted).filter (·.hotReload) =
      [] := List.isEmpty_iff.1 (by decide +kernel)
  have hlog : ((burstScene.run burstPlugins Note.none
        (interrupted ++ .stop :: [.change (burstFiles []), .toggle false])).dispatches
      burstPlugins Note.none (.start 4000 :: [.look 5000 (some 1), .toggle true, .start 5001] ++
        [.look 6000 none])).map (fun d => (d.path, d.hotReload)) =
      [("p/cable.rs", false), ("p/lamp.toml", true)] := by decide +kernel
  have hnames := congrArg (List.map Prod.fst) hlog
  rw [List.map_map] at hnames
  refine ⟨?_, hlog, fun p => ?_⟩
  · rw [← hscene, hcold] at hsite
    exact hsite
  · rw [show ["p/cable.rs", "p/lamp.toml"] = _ from hnames.symm]
    exact hpaths p

end Scene

/-! ## Sessions -/

namespace Session

variable {s s' s'' : Session}

/-- The watcher of a session and what is around it. -/
def scene? (s : Session) : Option (Scene Scripted.World) :=
  s.watcher.map fun w => ⟨w, s.site, s.files⟩

/-- Something happened around the watcher of a session. -/
def Leads (s s' : Session) : Prop :=
  ∀ c, s.scene? = some c → ∃ hs, s'.scene? = some (c.run Scripted.plugins Scripted.note hs)

theorem Leads.refl (s : Session) : s.Leads s :=
  fun _ hc => ⟨[], hc⟩

theorem Leads.trans (h : s.Leads s') (h' : s'.Leads s'') : s.Leads s'' := by
  intro c hc
  obtain ⟨hs, hrun⟩ := h c hc
  obtain ⟨is, hrest⟩ := h' _ hrun
  exact ⟨hs ++ is, by rw [hrest, Scene.run_append]⟩

/-- What is done to the watcher alone. -/
theorem Leads.of_watcher (s : Session) (h : Happening) (change : Watcher → Watcher)
    (hafter : ∀ c : Scene Scripted.World, c.after Scripted.plugins Scripted.note h =
      { c with watcher := change c.watcher }) :
    s.Leads { s with watcher := s.watcher.map change } := by
  intro c hc
  obtain ⟨w, hw, rfl⟩ := Option.map_eq_some_iff.1 hc
  refine ⟨[h], ?_⟩
  rw [scene?, hw]
  exact congrArg some (hafter ⟨w, s.site, s.files⟩).symm

theorem Leads.watched (h : s.Leads s') (watched : Option Place) : s.Leads { s' with watched } :=
  h

theorem leads_noticeChange (s : Session) (p : Place) : s.Leads (s.noticeChange p) := by
  intro c hc
  obtain ⟨w, hw, rfl⟩ := Option.map_eq_some_iff.1 hc
  cases hpath : s.watched.bind fun dir => watchedPath? w dir p with
  | none => exact ⟨[], by rw [scene?, noticeChange, hw, Option.map_some, hpath]; rfl⟩
  | some path =>
    refine ⟨[.notice (s.now + 1) path], ?_⟩
    rw [scene?, noticeChange, hw, Option.map_some, hpath]
    rfl

theorem leads_noticeChanges (s : Session) (ps : List Place) : s.Leads (s.noticeChanges ps) := by
  induction ps generalizing s with
  | nil => exact .refl s
  | cons p ps ih => exact (leads_noticeChange s p).trans (ih _)

/-- The files of a session become others, and its watcher is told of places. -/
theorem leads_files (s : Session) (files : FileTree) (ps : List Place) :
    s.Leads (noticeChanges { s with files } ps) := by
  refine Leads.trans (fun c hc => ?_) (leads_noticeChanges _ ps)
  obtain ⟨w, hw, rfl⟩ := Option.map_eq_some_iff.1 hc
  exact ⟨[.change files], by rw [scene?, hw]; rfl⟩

theorem leads_changeFiles (s : Session) (change : FileChange) : s.Leads (s.changeFiles change) := by
  cases change with
  | write path node => exact leads_files s _ _
  | remove path =>
    rw [changeFiles, removeNode]
    exact (leads_files s _ _).watched _
  | rename path target =>
    rw [changeFiles, moveNode]
    exact (leads_files s _ _).watched _

theorem leads_foldl_changeFiles (s : Session) (changes : List FileChange) :
    s.Leads (changes.foldl changeFiles s) := by
  induction changes generalizing s with
  | nil => exact .refl s
  | cons change changes ih => exact (leads_changeFiles s change).trans (ih _)

theorem leads_settleIf (settle : Bool) (s : Session) : s.Leads (s.settleIf settle) := by
  rw [settleIf]
  split
  · intro c hc
    obtain ⟨w, hw, rfl⟩ := Option.map_eq_some_iff.1 hc
    exact ⟨[.look w.latest none], by rw [scene?, settleWatcher, hw]; rfl⟩
  · exact .refl s

theorem leads_startWatcher (s : Session) : s.Leads s.startWatcher.2 := by
  intro c hc
  obtain ⟨w, hw, rfl⟩ := Option.map_eq_some_iff.1 hc
  refine ⟨[.start s.now], ?_⟩
  rw [scene?, startWatcher, hw]
  simp only [Scene.run, List.foldl_cons, List.foldl_nil, Scene.after]
  cases hstart : w.start s.files s.now with
  | error e => simp [hw]
  | ok started => rfl

/-- A step of a session that neither brings another watcher nor loads a plugin by its name is
something that happens around the watcher. -/
theorem leads_watchStep (s : Session) {step : WatchStep}
    (hnew : ∀ dir options, step ≠ .new dir options) (hload : ∀ name, step ≠ .tryLoad name) :
    s.Leads (s.watchStep step).2 := by
  cases step with
  | files changes settle =>
    exact (leads_foldl_changeFiles s changes).trans (leads_settleIf settle _)
  | new dir options => exact absurd rfl (hnew dir options)
  | start settle => exact (leads_startWatcher s).trans (leads_settleIf settle _)
  | stop settle =>
    exact (Leads.of_watcher s .stop _ fun _ => rfl).trans (leads_settleIf settle _)
  | shutdown => exact .of_watcher s .stop _ fun _ => rfl
  | isRunning => exact .refl s
  | hotReload enabled => exact .of_watcher s (.toggle enabled) _ fun _ => rfl
  | tryLoad name => exact absurd rfl (hload name)

end Session

end PluginHost

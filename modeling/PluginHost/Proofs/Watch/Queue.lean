import PluginHost.Proofs.Watch.Course

/-!
# In which order changes are applied

A watcher holds a path back until it has been quiet for a while. Changes that come so close
together that none is due before the last of them is noticed are applied only after all of them,
each path once, in the order of the last changes of the paths; and the files are then as the last
change left them. It does not matter at which times the watcher looks for what is due.

* `Window`: changes that come close together.
* `Scene.disturbAll_eq_run`: a row of changes as it happens around the watcher.
* `Scene.disturbAll_window`: in a window nothing is applied, and the deadlines are those of the
  last changes.
* `Scene.play_window`: what is applied after a window, and in which order.
-/
namespace PluginHost

variable {ω : Type}

/-- A change of the files: when it is noticed, the path that it is noticed at, and the files that
it leaves. -/
structure Disturbance where
  time : Nat
  path : String
  files : FileTree

/-- No change comes later than the debounce time after one that came before it, and when the
watcher looks at the given times, each of them has become due. -/
structure Window (debounce : Nat) (events : List Disturbance) (ticks : List Nat) : Prop where
  close : events.Pairwise fun d e => d.time ≤ e.time ∧ e.time < d.time + debounce
  past : ∀ e ∈ events, ∃ now ∈ ticks, e.time + debounce ≤ now

/-- When a path changed last. -/
def lastTime? (events : List Disturbance) (path : String) : Option Nat :=
  ((events.filter (·.path = path)).getLast?).map (·.time)

/-- The first path changed last before the second one did, or at the same time and is the lesser
one. -/
def LastBefore (events : List Disturbance) (p q : String) : Prop :=
  ∃ s t, lastTime? events p = some s ∧ lastTime? events q = some t ∧ (s < t ∨ s = t ∧ p < q)

/-- The files that changes leave. -/
def filesAfter (files : FileTree) (events : List Disturbance) : FileTree :=
  events.foldl (fun _ e => e.files) files

/-- A path changed last when one of its changes was noticed. -/
theorem exists_of_lastTime? {events : List Disturbance} {p : String} {t : Nat}
    (h : lastTime? events p = some t) : ∃ e ∈ events, e.path = p ∧ e.time = t := by
  obtain ⟨e, he, rfl⟩ := Option.map_eq_some_iff.1 h
  obtain ⟨hmem, hpath⟩ := List.mem_filter.1 (List.mem_of_getLast? he)
  exact ⟨e, hmem, by simpa using hpath, rfl⟩

theorem isSome_lastTime? {events : List Disturbance} {p : String} :
    (lastTime? events p).isSome = true ↔ p ∈ events.map (·.path) := by
  rw [lastTime?, Option.isSome_map, List.getLast?_isSome, ne_eq, List.filter_eq_nil_iff]
  simp

theorem LastBefore.asymm {events : List Disturbance} {p q : String} (h : LastBefore events p q) :
    ¬ LastBefore events q p := by
  rintro ⟨t', s', ht', hs', hlt'⟩
  obtain ⟨s, t, hs, ht, hlt⟩ := h
  rw [hs] at hs'
  rw [ht] at ht'
  cases hs'
  cases ht'
  rcases hlt with hlt | ⟨rfl, hlt⟩
  · rcases hlt' with hlt' | ⟨rfl, -⟩ <;> omega
  · rcases hlt' with hlt' | ⟨-, hlt'⟩
    · exact Nat.lt_irrefl _ hlt'
    · exact String.lt_asymm hlt hlt'

/-- What is due by the time of a change is dispatched before the change is noticed and the files
change. -/
def Disturbance.happenings (e : Disturbance) : List Happening :=
  [.look e.time none, .notice e.time e.path, .change e.files]

theorem lastNotice?_flatMap (events : List Disturbance) (path : String) :
    lastNotice? (events.flatMap Disturbance.happenings) path = lastTime? events path := by
  have hone : ∀ e : Disturbance, e.happenings.filterMap (Happening.noticed? path) =
      if e.path = path then [e.time] else [] := by
    intro e
    by_cases hp : e.path = path <;>
      simp [Disturbance.happenings, List.filterMap_cons, Happening.noticed?, hp]
  rw [lastNotice?, List.filterMap_flatMap, lastTime?, ← List.getLast?_map]
  congr 1
  induction events with
  | nil => rfl
  | cons e events ih =>
    rw [List.flatMap_cons, ih, hone]
    by_cases hp : e.path = path <;> simp [hp]

theorem filesLeft_flatMap (files : FileTree) (events : List Disturbance) :
    filesLeft files (events.flatMap Disturbance.happenings) = filesAfter files events := by
  induction events generalizing files with
  | nil => rfl
  | cons e events ih => exact ih e.files

namespace Scene

/-- What is due by the time of a change is applied to the files as they were; then the change
is noticed. -/
def disturb (P : Plugins ω) (note : Note ω) (c : Scene ω) (e : Disturbance) : Scene ω :=
  let (watcher, site) := c.watcher.tick P note c.files e.time c.site
  ⟨watcher.fileEvent e.time e.path, site, e.files⟩

/-- Changes come one after the other. -/
def disturbAll (P : Plugins ω) (note : Note ω) (events : List Disturbance) (c : Scene ω) :
    Scene ω :=
  events.foldl (disturb P note) c

/-- Changes come one after the other, and then the watcher looks for what is due at the given
times: the site that it leaves. -/
def play (P : Plugins ω) (note : Note ω) (events : List Disturbance) (times : List Nat)
    (c : Scene ω) : Site ω :=
  let c := c.disturbAll P note events
  (Watcher.ticks P note c.files times (c.watcher, c.site)).2

section
variable {P : Plugins ω} {note : Note ω} {c : Scene ω} {events : List Disturbance}

/-- A row of changes as it happens around the watcher. -/
theorem disturbAll_eq_run : c.disturbAll P note events =
    c.run P note (events.flatMap Disturbance.happenings) := by
  induction events generalizing c with
  | nil => rfl
  | cons e events ih => exact ih

variable (P note) in
/-- In a window nothing is applied, and the deadlines are those of the last changes. -/
theorem disturbAll_window (hidle : c.watcher.pending = some ∅)
    (hclose : events.Pairwise fun d e =>
      d.time ≤ e.time ∧ e.time < d.time + c.watcher.options.debounce) :
    ∃ m : NameMap Nat, m.Ascending ∧
      (∀ p, m.get? p = if Watcher.recognizes p then
        (lastTime? events p).map (· + c.watcher.options.debounce) else none) ∧
      c.disturbAll P note events =
        ⟨{ c.watcher with pending := some m }, c.site, filesAfter c.files events⟩ := by
  have hquiet : ∀ h ∈ events.flatMap Disturbance.happenings, h.IsQuiet := by
    intro h hh
    obtain ⟨e, -, he⟩ := List.mem_flatMap.1 hh
    simp only [Disturbance.happenings, List.mem_cons, List.not_mem_nil, or_false] at he
    rcases he with rfl | rfl | rfl <;> trivial
  have hwaits : (events.flatMap Disturbance.happenings).Pairwise
      (Happening.Waits c.watcher.options.debounce) := by
    refine List.pairwise_flatMap.2 ⟨fun e _ => by simp [Disturbance.happenings, Happening.Waits],
      hclose.imp fun {d e} hde => ?_⟩
    simp [Disturbance.happenings, Happening.Waits, hde.2]
  obtain ⟨m, hasc, hget, hrun, -⟩ := run_waiting P note hidle NameMap.ascending_empty hquiet
    (fun _ _ _ p t ht => by simp at ht) hwaits
  rw [← disturbAll_eq_run, filesLeft_flatMap] at hrun
  refine ⟨m, hasc, fun p => ?_, hrun⟩
  rw [hget, lastNotice?_flatMap, NameMap.get?_empty, Option.or_none]

variable (P note) in
/-- After a window, each path that changed and is a plugin's has its change applied once, to the
files as they are then, in the order of the last changes. -/
theorem play_window {ticks : List Nat} (hidle : c.watcher.pending = some ∅)
    (hhot : c.watcher.options.hotReload = true)
    (hwindow : Window c.watcher.options.debounce events ticks) :
    ∃ order : List String, c.play P note events ticks = order.foldl
        (fun s p => s.applyChange P ⟨c.watcher.dir, filesAfter c.files events, note⟩ p) c.site ∧
      order.Pairwise (LastBefore events) ∧ order.Nodup ∧
      ∀ p, p ∈ order ↔ Watcher.recognizes p = true ∧ p ∈ events.map (·.path) := by
  obtain ⟨m, hasc, hdeadlines, hscene⟩ := disturbAll_window P note hidle
    hwindow.close
  have hget : ∀ {p t}, m.get? p = some t → Watcher.recognizes p = true ∧
      ∃ s, lastTime? events p = some s ∧ s + c.watcher.options.debounce = t := by
    intro p t ht
    rw [hdeadlines] at ht
    split at ht
    · rename_i hrecognized
      exact ⟨hrecognized, Option.map_eq_some_iff.1 ht⟩
    · cases ht
  obtain ⟨order, hsite, hpairwise, hmem⟩ := Watcher.ticks_ends P note
    (filesAfter c.files events) (w := { c.watcher with pending := some m }) rfl hasc hhot ticks
    c.site
  refine ⟨order, ?_, ?_, ?_, fun p => ?_⟩
  · rw [play, hscene]
    exact hsite
  · refine hpairwise.imp fun {p q} ⟨s, t, hs, ht, hlt⟩ => ?_
    obtain ⟨-, s', hs', rfl⟩ := hget hs
    obtain ⟨-, t', ht', rfl⟩ := hget ht
    exact ⟨s', t', hs', ht', hlt.imp (by omega) (And.imp_left (by omega))⟩
  · exact hpairwise.imp fun h => h.ne
  · rw [hmem]
    constructor
    · rintro ⟨t, ht, -⟩
      obtain ⟨hrecognized, s, hs, -⟩ := hget ht
      refine ⟨hrecognized, isSome_lastTime?.1 ?_⟩
      rw [hs]
      rfl
    · rintro ⟨hrecognized, hp⟩
      obtain ⟨s, hs⟩ := Option.isSome_iff_exists.1 (isSome_lastTime?.2 hp)
      obtain ⟨e, he, -, rfl⟩ := exists_of_lastTime? hs
      obtain ⟨now, hnow, hle⟩ := hwindow.past e he
      refine ⟨e.time + c.watcher.options.debounce, ?_, now, hnow, hle⟩
      rw [hdeadlines, if_pos hrecognized, hs]
      rfl

end

end Scene

end PluginHost

import PluginHost.Proofs.Registry.Run
import PluginHost.Proofs.Watch.Course

/-!
# What debouncing loses and what it repeats

When a watcher starts, the files of plugins that are there are queued with one deadline, and it is
told of changes from then on, again and again of the same path and of paths that are no plugin's.
As long as this comes within the debounce time, nothing is dispatched; every plugin's path among
them is dispatched once afterwards, in the order of the deadlines, and the files are then as the
last change left them.

* `Scene.deadline?`: the deadline that a path ends up with.
* `Scene.debounced`: what is dispatched after a start and the changes that follow.
-/
namespace PluginHost

variable {ω : Type}

/-- Files change, the watcher is told of changes, and it looks for what is due, all from one time on
and before another. -/
def Happening.Within (first limit : Nat) : Happening → Prop
  | change _ => True
  | notice now _ => first ≤ now ∧ now < limit
  | look now _ => now < limit
  | _ => False

theorem Happening.Within.isQuiet {first limit : Nat} {h : Happening}
    (hwithin : h.Within first limit) : h.IsQuiet := by
  cases h with
  | start | stop | toggle => exact hwithin.elim
  | _ => trivial

/-- A path as it is dispatched by a watcher that is running. -/
def Dispatch.at (files : FileTree) (hotReload : Bool) (path : String) : Dispatch :=
  ⟨path, files, true, hotReload⟩

namespace Scene

/-- The deadline of a path, for a watcher that starts at a time and is told of changes since: the
debounce time after it was last told of the path, or else after the start if it found the file. -/
def deadline? (c : Scene ω) (started : Nat) (hs : List Happening) (path : String) : Option Nat :=
  if Watcher.recognizes path then
    ((lastNotice? hs path).or (if path ∈ c.watcher.scan c.files then some started else none)).map
      (· + c.watcher.options.debounce)
  else none

/-- The first path has the earlier deadline, or the same one and is the lesser path. -/
def DueBefore (c : Scene ω) (started : Nat) (hs : List Happening) (p q : String) : Prop :=
  ∃ s t, c.deadline? started hs p = some s ∧ c.deadline? started hs q = some t ∧
    (s < t ∨ s = t ∧ p < q)

section
variable {P : Plugins ω} {note : Note ω} {c : Scene ω} {started : Nat} {hs : List Happening}

/-- Every plugin's path that is found at the start or changes later has a deadline, and no other
path has one. -/
theorem isSome_deadline? {p : String} : (c.deadline? started hs p).isSome = true ↔
    Watcher.recognizes p = true ∧
      (p ∈ c.watcher.scan c.files ∨ ∃ now, .notice now p ∈ hs) := by
  rw [deadline?, ← isSome_lastNotice?]
  by_cases hrecognized : Watcher.recognizes p = true
  · by_cases hscan : p ∈ c.watcher.scan c.files <;> simp [hrecognized, hscan]
  · simp [hrecognized]

/-- A path that changes within the debounce time after the start is due before that time has passed
twice. -/
theorem deadline?_le {p : String} {t : Nat}
    (hwindow : ∀ h ∈ hs, h.Within started (started + c.watcher.options.debounce))
    (h : c.deadline? started hs p = some t) : t ≤ started + 2 * c.watcher.options.debounce := by
  unfold deadline? at h
  split at h
  · obtain ⟨last, hlast, rfl⟩ := Option.map_eq_some_iff.1 h
    rcases Option.or_eq_some_iff.1 hlast with hnoticed | ⟨-, hfound⟩
    · have hwithin := (hwindow _ (mem_of_lastNotice? hnoticed)).2
      omega
    · split at hfound
      · cases hfound
        omega
      · cases hfound
  · cases h

variable (P note) in
/-- A start and changes that follow within the debounce time: nothing is dispatched yet, and the
deadlines are those of the last changes. -/
theorem run_opening (hidle : c.watcher.isRunning = false)
    (hdir : c.files.isDirectory c.watcher.dir = true)
    (hwindow : ∀ h ∈ hs, h.Within started (started + c.watcher.options.debounce)) :
    ∃ m : NameMap Nat, m.Ascending ∧ (∀ p, m.get? p = c.deadline? started hs p) ∧
      c.run P note (.start started :: hs) =
        ⟨{ c.watcher with pending := some m }, c.site, filesLeft c.files hs⟩ ∧
      c.dispatches P note (.start started :: hs) = [] := by
  let opened : Scene ω := { c with watcher := { c.watcher with
    pending := some (NameMap.ofList ((c.watcher.scan c.files).map fun path =>
      (path, started + c.watcher.options.debounce))) } }
  have hopened : c.after P note (.start started) = opened := by
    rw [after, Watcher.start_of_stopped hidle hdir]
  have hwaits : hs.Pairwise (Happening.Waits opened.watcher.options.debounce) := by
    refine List.pairwise_of_forall_mem_list fun g hg h hh => ?_
    have hfirst := hwindow g hg
    have hsecond := hwindow h hh
    cases g with
    | notice told p =>
      cases h with
      | look now most => exact Nat.lt_of_lt_of_le hsecond (Nat.add_le_add_right hfirst.1 _)
      | _ => trivial
    | _ => trivial
  obtain ⟨m, hasc, hget, hrun, hlog⟩ := run_waiting P note (c := opened) rfl
    (NameMap.ascending_ofList _) (fun h hh => (hwindow h hh).isQuiet)
    (fun now most hlook p t ht => by
      rw [Watcher.get?_queued] at ht
      split at ht
      · cases ht
        exact hwindow _ hlook
      · cases ht)
    hwaits
  refine ⟨m, hasc, fun p => ?_, ?_, ?_⟩
  · rw [hget, Watcher.get?_queued, deadline?]
    by_cases hrecognized : Watcher.recognizes p = true
    · by_cases hscan : p ∈ c.watcher.scan c.files <;>
        cases lastNotice? hs p <;> simp [opened, hrecognized, hscan]
    · have hscan : p ∉ c.watcher.scan c.files := fun h =>
        hrecognized (Watcher.recognizes_of_mem_scan h)
      rw [if_neg hrecognized, if_neg hrecognized, if_neg hscan]
  · rw [run_cons, hopened, hrun]
  · rw [dispatches, hopened, hlog]
    rfl

/-- Debouncing loses nothing and repeats nothing. A watcher starts, and within the debounce time
files change and it is told of changes, of any paths and however often. Once all deadlines have
passed, every plugin's path that was found at the start or changed later has been dispatched once
and no other one, in the order of the deadlines; each dispatch takes the file for changed or removed
as the last change left it; and nothing is pending. -/
theorem debounced (P : Plugins ω) (note : Note ω) (c : Scene ω) (started : Nat)
    (hs : List Happening) (times : List Nat) (hidle : c.watcher.isRunning = false)
    (hdir : c.files.isDirectory c.watcher.dir = true)
    (hwindow : ∀ h ∈ hs, h.Within started (started + c.watcher.options.debounce))
    (hpast : ∀ p t, c.deadline? started hs p = some t → ∃ now ∈ times, t ≤ now) :
    ∃ order : List String,
      c.dispatches P note (.start started :: hs ++ looksAt times) =
        order.map (Dispatch.at (filesLeft c.files hs) c.watcher.options.hotReload) ∧
      order.Nodup ∧
      (∀ p, p ∈ order ↔ Watcher.recognizes p = true ∧
        (p ∈ c.watcher.scan c.files ∨ ∃ now, .notice now p ∈ hs)) ∧
      order.Pairwise (c.DueBefore started hs) ∧
      (∀ p ∈ order, ∃ name kind, PluginFile.classify (Text.utf8 p) = some (name, kind) ∧
        ∀ s : Site ω, s.applyChange P ⟨c.watcher.dir, filesLeft c.files hs, note⟩ p =
          if (filesLeft c.files hs).pathExists p then
            s.handleChange P ⟨c.watcher.dir, filesLeft c.files hs, note⟩ name
          else s.handleRemoval P ⟨c.watcher.dir, filesLeft c.files hs, note⟩ name) ∧
      c.run P note (.start started :: hs ++ looksAt times) =
        ⟨{ c.watcher with pending := some ∅ },
          if c.watcher.options.hotReload then
            order.foldl (fun s p =>
              s.applyChange P ⟨c.watcher.dir, filesLeft c.files hs, note⟩ p) c.site
          else c.site,
          filesLeft c.files hs⟩ := by
  obtain ⟨m, hasc, hget, hrun, hlog⟩ := run_opening P note hidle hdir hwindow
  obtain ⟨order, hlooks, hend, hpairwise, hmem⟩ := looks_end P note
    (c := ⟨{ c.watcher with pending := some m }, c.site, filesLeft c.files hs⟩) rfl hasc times
  -- with a deadline is the same as dispatched, for every deadline has passed
  have hdue : ∀ p, p ∈ order ↔ (c.deadline? started hs p).isSome = true := by
    intro p
    rw [hmem, hget, Option.isSome_iff_exists]
    exact ⟨fun ⟨t, ht, _⟩ => ⟨t, ht⟩, fun ⟨t, ht⟩ => ⟨t, ht, hpast p t ht⟩⟩
  have hempty : order.foldl NameMap.erase m = ∅ := by
    refine (hasc.foldl_erase order).ext NameMap.ascending_empty fun p => ?_
    rw [NameMap.get?_foldl_erase, NameMap.get?_empty]
    split
    · rfl
    · rename_i hnot
      rw [hget]
      exact Option.not_isSome_iff_eq_none.1 fun h => hnot ((hdue p).2 h)
  refine ⟨order, ?_, hpairwise.imp fun h => h.ne, fun p => ?_, ?_, fun p hp => ?_, ?_⟩
  · rw [dispatches_append, hlog, hrun, hlooks]
    rfl
  · rw [hdue, isSome_deadline?]
  · refine hpairwise.imp fun {p q} ⟨s, t, hs, ht, hlt⟩ => ?_
    rw [hget] at hs ht
    exact ⟨s, t, hs, ht, hlt⟩
  · obtain ⟨hrecognized, -⟩ := isSome_deadline?.1 ((hdue p).1 hp)
    obtain ⟨⟨name, kind⟩, hfile⟩ := Option.isSome_iff_exists.1 hrecognized
    exact ⟨name, kind, hfile, fun s => by rw [Site.applyChange, hfile]⟩
  · rw [run_append, hrun, hend, dispatchEach_eq rfl, hempty]

end

/-! ## A burst of changes -/

/-- A directory with a lamp's module and manifest, a cable's source and a file of notes. -/
def burstFiles (more : List (Place × Node)) : FileTree :=
  ⟨[([], .directory), (["p"], .directory), (["p", "cable.rs"], .file []),
    (["p", "lamp.toml"], .file []), (["p", "notes.txt"], .file [])] ++ more⟩

/-- A watcher of the directory that is not running. -/
def burstScene : Scene Unit :=
  ⟨Watcher.ofDir "p" {}, .start (), burstFiles [(["p", "liblamp.so"], .file [])]⟩

/-- Plugins that do nothing. -/
def burstPlugins : Plugins Unit :=
  .constant (fun _ => default) fun _ _ => .ok

/-- The lamp's module is written again and again and then removed, next to files that are no
plugin's. -/
def burst : List Happening :=
  [.notice 3 "p/liblamp.so", .notice 3 "p/.liblamp.so.swp", .look 400 none,
    .notice 700 "p/notes.txt", .notice 700 "p/liblamp.so",
    .change (burstFiles []), .notice 701 "p/liblamp.so", .look 900 none]

/-- The cable's source and the lamp's manifest were only found at the start, so they come first,
and the module of the lamp comes last and counts as removed. -/
theorem burst_debounced : ∃ order : List String,
    burstScene.dispatches burstPlugins Note.none
        (.start 0 :: burst ++ looksAt [850, 1200, 2000]) =
      order.map (Dispatch.at (burstFiles []) true) ∧
    order = ["p/cable.rs", "p/lamp.toml", "p/liblamp.so"] ∧
    (burstFiles []).pathExists "p/liblamp.so" = false := by
  have hwindow : ∀ h ∈ burst, h.Within 0 (0 + burstScene.watcher.options.debounce) := by
    simp [burst, Happening.Within, burstScene, Watcher.ofDir]
  obtain ⟨order, hlog, -⟩ := debounced burstPlugins Note.none
    burstScene 0 burst [850, 1200, 2000] rfl (by decide +kernel) hwindow
    fun p t ht => ⟨2000, by simp, deadline?_le hwindow ht⟩
  refine ⟨order, hlog, ?_, by decide +kernel⟩
  have hpaths : (burstScene.dispatches burstPlugins Note.none
      (.start 0 :: burst ++ looksAt [850, 1200, 2000])).map (·.path) =
      ["p/cable.rs", "p/lamp.toml", "p/liblamp.so"] := by decide +kernel
  rw [hlog, List.map_map] at hpaths
  exact (List.map_id order).symm.trans hpaths

end Scene

end PluginHost

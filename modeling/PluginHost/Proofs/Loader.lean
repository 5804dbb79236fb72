import PluginHost.Loader

/-!
# What loading a module leaves behind

A load concerns the handle of one name only. It gives up the one there is, so afterwards the
name has the handle of the module that was just opened, or none: never an old one. It succeeds
exactly when the module makes an instance that reports the name.

* `Loader.Makes`, `Loader.Provides`: the module at a path makes an instance, and one of the named
  plugin.
* `Loader.LoadEnd`, `Loader.load_ends`: the two ways in which a load ends.
* `Loader.load_of_provides`: a module that provides the plugin is loaded.
-/
namespace PluginHost

variable {ω : Type}

namespace Loader

/-- The module at a path makes the instance. -/
def Makes (P : Plugins ω) (files : FileTree) (path : String) (w : ω) (plugin : Instance)
    (made : ω) : Prop :=
  ∃ blueprint, files.node? path = some (.module (.complete apiVersion (some blueprint))) ∧
    P.construct blueprint w = (plugin, made)

/-- It reports the name when it is asked. -/
def Provides (P : Plugins ω) (files : FileTree) (path name : String) (w : ω) (plugin : Instance)
    (asked : ω) : Prop :=
  ∃ made d, Makes P files path w plugin made ∧ P.descriptor plugin made = (d, asked) ∧
    d.name = name ∧ Text.isBlank name = false

/-- How a load ends, with the loader and the world that it leaves. -/
inductive LoadEnd (P : Plugins ω) (files : FileTree) (path name : String) (l : Loader) (w : ω) :
    Except LoadError Instance → Loader → ω → Prop where
  | loaded {plugin : Instance} {asked : ω} {loader : Loader} (library : Nat)
      (hprovides : Provides P files path name w plugin asked)
      (hhandles : ∀ n, loader.handles.get? n =
        if n = name then some ⟨path, library⟩ else l.handles.get? n) :
      LoadEnd P files path name l w (.ok plugin) loader asked
  | failed {e : LoadError} {loader : Loader} {world : ω}
      (hnone : ∀ plugin asked, ¬ Provides P files path name w plugin asked)
      (hhandles : ∀ n, loader.handles.get? n = if n = name then none else l.handles.get? n) :
      LoadEnd P files path name l w (.error e) loader world

section
variable {P : Plugins ω} {files : FileTree} {path name : String} {l : Loader} {w asked : ω}
  {plugin : Instance}

theorem isLoaded_iff : l.isLoaded name = true ↔ ∃ handle, l.handles.get? name = some handle :=
  NameMap.contains_iff

theorem get?_unload (l : Loader) (name other : String) :
    (l.unload name).handles.get? other = if other = name then none else l.handles.get? other := by
  unfold unload
  split
  · rename_i hnone
    split
    · rename_i heq
      rw [heq, hnone]
    · rfl
  · exact NameMap.get?_erase _ _ _

theorem check_eq_ok_iff {reported : String} :
    check path name reported = .ok () ↔ reported = name ∧ Text.isBlank name = false := by
  unfold check
  split
  · rename_i hblank
    simp only [reduceCtorEq, false_iff, not_and, Bool.not_eq_false]
    exact fun heq => heq ▸ hblank
  · rename_i hblank
    split
    · rename_i hne
      simp [hne]
    · rename_i heq
      have heq : reported = name := by simpa using heq
      simpa [heq] using hblank

theorem instantiate_eq_ok_iff {image : ModuleImage} :
    instantiate P path name image w = (.ok plugin, asked) ↔
      ∃ blueprint made d, image = .complete apiVersion (some blueprint) ∧
        P.construct blueprint w = (plugin, made) ∧ P.descriptor plugin made = (d, asked) ∧
        d.name = name ∧ Text.isBlank name = false := by
  constructor
  · intro hok
    unfold instantiate at hok
    split at hok
    · cases hok
    · cases hok
    split at hok
    · cases hok
    rename_i version _ hversion
    obtain rfl : version = apiVersion := by simpa using hversion
    split at hok
    · cases hok
    rename_i blueprint
    rcases hmade : P.construct blueprint w with ⟨made, world⟩
    rcases hasked : P.descriptor made world with ⟨d, left⟩
    simp only [hmade, hasked] at hok
    split at hok
    · cases hok
    · rename_i hcheck
      cases hok
      exact ⟨blueprint, world, d, rfl, hmade, hasked, check_eq_ok_iff.1 hcheck⟩
  · rintro ⟨blueprint, made, d, rfl, hmade, hasked, hnamed⟩
    simp only [instantiate, ne_eq, not_true_eq_false, if_false, hmade, hasked,
      check_eq_ok_iff.2 hnamed]

/-- A load ends in one of the two ways. -/
theorem load_ends (P : Plugins ω) (files : FileTree) (path name : String) (l : Loader) (w : ω) :
    LoadEnd P files path name l w (l.load P files path name w).1 (l.load P files path name w).2.1
      (l.load P files path name w).2.2 := by
  have hprovides : ∀ {plugin asked}, Provides P files path name w plugin asked →
      ∃ image, files.node? path = some (.module image) ∧
        instantiate P path name image w = (.ok plugin, asked) :=
    fun ⟨made, d, ⟨blueprint, hnode, hmade⟩, hrest⟩ =>
      ⟨_, hnode, instantiate_eq_ok_iff.2 ⟨blueprint, made, d, rfl, hmade, hrest⟩⟩
  unfold load
  split
  · rename_i hnode
    refine .failed (fun plugin asked hp => ?_) (get?_unload l name)
    obtain ⟨image, himage, -⟩ := hprovides hp
    rw [hnode] at himage
    cases himage
  · rename_i image hnode
    simp only
    split
    · rename_i e world hmade
      refine .failed (fun plugin asked hp => ?_) (get?_unload l name)
      obtain ⟨image', himage, hok⟩ := hprovides hp
      rw [hnode] at himage
      cases himage
      rw [hmade] at hok
      cases hok
    · rename_i plugin asked hmade
      obtain ⟨blueprint, world, d, rfl, hworld, hrest⟩ := instantiate_eq_ok_iff.1 hmade
      refine .loaded (l.unload name).opened ⟨world, d, ⟨blueprint, hnode, hworld⟩, hrest⟩
        fun n => ?_
      rw [NameMap.get?_insert]
      split
      · rfl
      · rename_i hn
        exact (get?_unload l name n).trans (if_neg hn)
  · rename_i node hmodule hnode
    refine .failed (fun plugin asked hp => ?_) (get?_unload l name)
    obtain ⟨image, himage, -⟩ := hprovides hp
    rw [hnode] at himage
    exact hmodule image (Option.some.inj himage)

/-- What a module provides in a world is determined. -/
theorem Provides.unique {other : Instance} {left : ω}
    (hp : Provides P files path name w plugin asked)
    (ho : Provides P files path name w other left) : other = plugin ∧ left = asked := by
  obtain ⟨made, d, ⟨blueprint, hnode, hmade⟩, hcall, -⟩ := hp
  obtain ⟨made', d', ⟨blueprint', hnode', hmade'⟩, hcall', -⟩ := ho
  rw [hnode] at hnode'
  cases hnode'
  rw [hmade] at hmade'
  cases hmade'
  rw [hcall] at hcall'
  cases hcall'
  exact ⟨rfl, rfl⟩

/-- A module that provides the plugin is loaded. -/
theorem load_of_provides (hp : Provides P files path name w plugin asked) (l : Loader) :
    ∃ loader library, l.load P files path name w = (.ok plugin, loader, asked) ∧
      ∀ n, loader.handles.get? n =
        if n = name then some ⟨path, library⟩ else l.handles.get? n := by
  have hend := load_ends P files path name l w
  rcases hload : l.load P files path name w with ⟨result, loader, world⟩
  rw [hload] at hend
  cases hend with
  | failed hnone => exact absurd hp (hnone plugin asked)
  | loaded library ho hhandles =>
    obtain ⟨rfl, rfl⟩ := hp.unique ho
    exact ⟨loader, library, rfl, hhandles⟩

end

end Loader

end PluginHost
